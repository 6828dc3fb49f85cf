import SqliteHeap.AbortCleanup
import SqliteHeap.Lib.Simulation
import SqliteHeap.ZigBackend

/-! `sqlite.zig` of the Zig port with the contents of its files, beside `sqlite.rs`. `RelConn`
has the same methods in both. The ports differ in the bookkeeping around it: the Zig port
registers its callbacks once in the life of the backend, opens a connection before the
relation enters `tx_rels`, clears `tx_rels` after the loop of `onPrecommit` and keeps its drops in
a list of its own. -/

set_option autoImplicit false

namespace SqliteHeap.ZigPort

/-- The variables of `sqlite.zig` that live as long as the backend, and the files. -/
structure Backend where
  /-- `conns` together with the files under `$PGDATA/sqlite_heap_zig`. -/
  rels : RelId → RelState
  txRels : Finset RelId
  pendingDrops : List RelId
  callbacksRegistered : Bool

abbrev Outcome := Zig.Outcome Backend

namespace Backend

def setRel (rel : RelId) (state : RelState) (backend : Backend) : Backend :=
  { backend with rels := Function.update backend.rels rel state }

def ensureInXact (fails : Faults) (rel : RelId) (backend : Backend) : Outcome :=
  let registered := { backend with callbacksRegistered := true }
  match backend.rels rel with
  | .closed file =>
      if fails rel .openConn then .raised registered
      else
        .returned { registered.setRel rel (.opened (RelConn.openConn file)) with
          txRels := insert rel backend.txRels }
  | .opened _ => .returned { registered with txRels := insert rel backend.txRels }

/-- `connFor` and what the table operation does with the connection. -/
def connFor (fails : Faults) (rel : RelId) (use : RelConn → RelConn × Bool) (backend : Backend) :
    Outcome :=
  match ensureInXact fails rel backend with
  | .raised after => .raised after
  | .returned after =>
      match after.rels rel with
      -- `conns.get(rel_id).?` after `ensureInXact`
      | .closed _ => .raised after
      | .opened conn =>
          match use conn with
          | (changed, true) => .returned (after.setRel rel (.opened changed))
          | (changed, false) => .raised (after.setRel rel (.opened changed))

/-- A write: `beginIfNeeded`, then its statements up to the first that fails. -/
def writeConn (fails : Sql → Bool) (tick : Nat) (stmts : List Table.Stmt) (conn : RelConn) :
    RelConn × Bool :=
  match conn.beginIfNeeded fails with
  | none => (conn, false)
  | some begun =>
      let (ran, completed) := RelConn.stmtsRun fails 0 stmts
      let written := begun.execute (RelConn.entries tick ran)
      (if completed then written else written.afterError fails, completed)

def readConn (fails : Sql → Bool) (conn : RelConn) : RelConn × Bool :=
  if fails (.stmt 0) then (conn.afterError fails, false) else (conn, true)

/-- A loop over the relations of `tx_rels` that have a connection. The one it raises on is
then as `left` says. -/
def forConns (body : RelId → RelConn → Option RelConn) (left : RelId → RelConn → RelConn) :
    List RelId → Backend → Outcome
  | [], backend => .returned backend
  | rel :: rest, backend =>
      match backend.rels rel with
      | .closed _ => forConns body left rest backend
      | .opened conn =>
          match body rel conn with
          | none => .raised (backend.setRel rel (.opened (left rel conn)))
          | some changed => forConns body left rest (backend.setRel rel (.opened changed))

def runOnTxnConns (exec : RelId → RelConn → RelConn) (backend : Backend) : Backend :=
  { backend with
    rels := fun rel =>
      if rel ∈ backend.txRels then
        (backend.rels rel).mapConn fun conn => if conn.inTxn then exec rel conn else conn
      else backend.rels rel }

/-- The body of `onSubStart`: a failing BEGIN raises, a failing SAVEPOINT warns. -/
def subStartConn (fails : Faults) (sub : SubId) (rel : RelId) (conn : RelConn) : Option RelConn :=
  (conn.beginIfNeeded (fails rel)).map fun begun =>
    begun.warnExec (fails rel) .savepoint fun db => some (db.savepoint sub)

def onSubStart (fails : Faults) (sub : SubId) (order : List RelId) : Backend → Outcome :=
  forConns (subStartConn fails sub) (fun _ conn => conn) order

def onSubCommit (fails : Faults) (sub : SubId) : Backend → Backend :=
  runOnTxnConns fun rel conn => conn.warnExec (fails rel) .release (SavepointStack.Db.release sub)

def onSubAbort (fails : Faults) (sub : SubId) : Backend → Backend :=
  runOnTxnConns fun rel conn =>
    conn.warnExec (fails rel) .rollbackTo (SavepointStack.Db.rollbackTo sub)

/-- The loop of `onPrecommit`. -/
def commitConns (fails : Faults) : List RelId → Backend → Outcome :=
  forConns (fun rel conn => conn.commit (fails rel)) fun rel conn => conn.afterError (fails rel)

def onPrecommit (fails : Faults) (order : List RelId) (backend : Backend) : Outcome :=
  match commitConns fails order backend with
  | .raised after => .raised after
  | .returned after => .returned { after with txRels := ∅ }

def unlinkStorage (backend : Backend) (rel : RelId) : Backend :=
  { backend.setRel rel (.closed none) with txRels := backend.txRels.erase rel }

def onCommit (backend : Backend) : Backend :=
  { backend.pendingDrops.foldl unlinkStorage backend with pendingDrops := [] }

def onAbort (fails : Faults) (backend : Backend) : Backend :=
  { backend with
    rels := fun rel =>
      if rel ∈ backend.txRels then (backend.rels rel).mapConn fun conn => conn.rollback (fails rel)
      else backend.rels rel
    txRels := ∅
    pendingDrops := [] }

def dropRelation (rel : RelId) (backend : Backend) : Backend :=
  { backend with pendingDrops := backend.pendingDrops ++ [rel] }

end Backend

/-- A backend that Postgres drives with the events of the Rust port. -/
structure Session where
  backend : Backend
  phase : Phase
  failed : Bool
  subs : List SubId
  nextSub : SubId
  tick : Nat

namespace Session

/-- A backend that has just started, over files of any contents. -/
def start (files : RelId → Option Table) : Session where
  backend := ⟨fun rel => .closed ((files rel).map fun table => ⟨table, []⟩), ∅, [], false⟩
  phase := .idle
  failed := false
  subs := []
  nextSub := 2
  tick := 0

def leave (session : Session) : Outcome → Session
  | .returned backend => { session with backend := backend, failed := false }
  | .raised backend => { session with backend := backend, failed := true }

/-- A callback runs where it is registered. -/
def callback (session : Session) (run : Backend → Outcome) : Outcome :=
  if session.backend.callbacksRegistered then run session.backend else .returned session.backend

def notify (session : Session) (run : Backend → Backend) : Backend :=
  if session.backend.callbacksRegistered then run session.backend else session.backend

def active (session : Session) : Bool := session.phase ≠ .idle ∧ session.failed = false

/-- An iteration order of `tx_rels`. -/
def enumerates (session : Session) (order : List RelId) : Bool :=
  order.Nodup ∧ order.toFinset = session.backend.txRels

def step (session : Session) : Event → Option Session
  | .begin =>
      if session.phase = .idle then some { session with phase := .running, nextSub := 2 } else none
  | .call rel write fails =>
      if session.active then
        let outcome := session.backend.connFor fails rel
          (Backend.writeConn (fails rel) session.tick write.stmts)
        some { session.leave outcome with tick := session.tick + write.stmts.length }
      else none
  | .read rel fails =>
      if session.active then
        some (session.leave (session.backend.connFor fails rel (Backend.readConn (fails rel))))
      else none
  | .drop rel =>
      if session.phase = .running ∧ session.failed = false then
        some { session with backend := session.backend.dropRelation rel }
      else none
  | .startSub order fails =>
      if session.phase = .running ∧ session.failed = false ∧ session.enumerates order then
        let started := session.leave
          (session.callback (Backend.onSubStart fails session.nextSub order))
        some { started with subs := session.nextSub :: session.subs, nextSub := session.nextSub + 1 }
      else none
  | .commitSub fails =>
      match session.subs with
      | [] => none
      | sub :: rest =>
          if session.phase = .running ∧ session.failed = false then
            some { session with backend := session.notify (Backend.onSubCommit fails sub), subs := rest }
          else none
  | .abortSub fails =>
      match session.subs with
      | [] => none
      | sub :: rest =>
          if session.phase = .running then
            some { session with
              backend := session.notify (Backend.onSubAbort fails sub)
              failed := false
              subs := rest }
          else none
  | .preCommit order fails =>
      if session.phase = .running ∧ session.failed = false ∧ session.subs = [] ∧
          session.enumerates order then
        match session.callback (Backend.onPrecommit fails order) with
        | .returned backend =>
            some { session with backend := backend, phase := .preCommitted, failed := false }
        | .raised backend => some { session with backend := backend, failed := true }
      else none
  | .commit =>
      if session.phase = .preCommitted ∧ session.failed = false then
        some { session with backend := session.notify Backend.onCommit, phase := .idle, failed := false }
      else none
  | .abort fails =>
      if session.phase ≠ .idle ∧ session.subs = [] then
        some { session with
          backend := session.notify (Backend.onAbort fails), phase := .idle, failed := false }
      else none

def run : Session → List Event → Option Session := Transition.run step

/-- Every COMMIT succeeds: it does not fail, and SQLite has not ended the transaction. -/
def Commits (session : Session) (fails : Faults) : Prop :=
  ∀ rel ∈ session.backend.txRels, (session.backend.rels rel).conn.inTxn = true →
    fails rel .commit = false ∧ ¬ (session.backend.rels rel).conn.Stale

/-- The steps that both ports take alike: no open and no COMMIT fails, tables are touched before
`PreCommit` only, and a transaction with drops ends where the callbacks are registered. -/
def TakenAlike (session : Session) : Event → Prop
  | .begin | .drop _ | .startSub _ _ | .commitSub _ | .abortSub _ => True
  | .call rel _ fails | .read rel fails =>
      session.phase = .running ∧
        ((session.backend.rels rel).cached = false → fails rel .openConn = false)
  | .preCommit _ fails => session.Commits fails
  | .commit | .abort _ =>
      session.backend.callbacksRegistered = true ∨ session.backend.pendingDrops = []

instance (session : Session) : ∀ event, Decidable (session.TakenAlike event)
  | .begin | .drop _ | .startSub _ _ | .commitSub _ | .abortSub _ => isTrue trivial
  | .call _ _ _ | .read _ _ => inferInstanceAs (Decidable (_ ∧ (_ → _)))
  | .preCommit _ _ => inferInstanceAs (Decidable (∀ rel ∈ session.backend.txRels, _ → _))
  | .commit | .abort _ => inferInstanceAs (Decidable (_ ∨ _))

end Session

/-! ## The same functions -/

def completed : Outcome → Bool
  | .returned _ => true
  | .raised _ => false

namespace Backend

/-- Both ports have the same connections, files, touched relations and drops. In the Rust port
the callbacks are registered as soon as something is touched. -/
structure Alike (zig : Backend) (rust : SqliteHeap.Backend) : Prop where
  rels : zig.rels = rust.rels
  txRels : zig.txRels = rust.txRels
  drops : zig.pendingDrops = rust.drops
  registered : rust.registered = true → zig.callbacksRegistered = true
  hooked : rust.txRels ≠ ∅ → rust.registered = true
  cached : ∀ rel ∈ rust.txRels, (rust.rels rel).cached = true

/-- The loop does not look at `tx_rels`. -/
theorem forConns_withTxRels (body : RelId → RelConn → Option RelConn)
    (left : RelId → RelConn → RelConn) (order : List RelId) (backend : Backend)
    (txRels : Finset RelId) :
    forConns body left order { backend with txRels := txRels } =
      match forConns body left order backend with
      | .returned after => .returned { after with txRels := txRels }
      | .raised after => .raised { after with txRels := txRels } := by
  induction order generalizing backend with
  | nil => rfl
  | cons rel rest ih =>
      rw [forConns, forConns]
      cases found : backend.rels rel with
      | closed file => exact ih backend
      | opened conn =>
          cases applied : body rel conn with
          | none =>
              simp only [applied]
              rfl
          | some changed =>
              simp only [applied]
              exact ih (backend.setRel rel (.opened changed))

theorem onPrecommit_of_completed {fails : Faults} {order : List RelId} {backend : Backend}
    (through : completed (commitConns fails order { backend with txRels := ∅ }) = true) :
    onPrecommit fails order backend = commitConns fails order { backend with txRels := ∅ } := by
  rw [commitConns, forConns_withTxRels, ← commitConns] at through ⊢
  rw [onPrecommit]
  cases looped : commitConns fails order backend with
  | returned after => rfl
  | raised after =>
      rw [looped] at through
      cases through

/-- Both functions returned, or both panicked, with backends that are alike. -/
structure AlikeOutcome (zig : Outcome) (rust : SqliteHeap.Outcome) : Prop where
  backend : zig.result.Alike rust.backend
  completed : ZigPort.completed zig = rust.completed

variable {zig : Backend} {rust : SqliteHeap.Backend} {fails : Faults} {rel : RelId}

namespace Alike

theorem setRel (alike : zig.Alike rust) (rel : RelId) (conn : RelConn) :
    (zig.setRel rel (.opened conn)).Alike (rust.setRel rel (.opened conn)) where
  rels := by rw [Backend.setRel, SqliteHeap.Backend.setRel, alike.rels]
  txRels := alike.txRels
  drops := alike.drops
  registered := alike.registered
  hooked := alike.hooked
  cached other member := by
    by_cases same : other = rel
    · subst same
      rw [SqliteHeap.Backend.setRel_same]
      rfl
    · rw [SqliteHeap.Backend.setRel_other same]
      exact alike.cached other member

/-- A relation that is touched, once it has a connection. -/
theorem touch (alike : zig.Alike rust) (rel : RelId) (conn : RelConn) :
    ({ zig.setRel rel (.opened conn) with
        txRels := insert rel zig.txRels, callbacksRegistered := true } : Backend).Alike
      ((rust.entered rel).setRel rel (.opened conn)) where
  rels := by rw [Backend.setRel, SqliteHeap.Backend.setRel, alike.rels]; rfl
  txRels := congrArg (insert rel) alike.txRels
  drops := alike.drops
  registered _ := rfl
  hooked _ := by
    simp only [SqliteHeap.Backend.setRel_registered, SqliteHeap.Backend.entered, Bool.or_eq_true,
      decide_eq_true_eq]
    by_cases first : rust.txRels = ∅
    · exact .inr first
    · exact .inl (alike.hooked first)
  cached other member := by
    by_cases same : other = rel
    · subst same
      rw [SqliteHeap.Backend.setRel_same]
      rfl
    · rw [SqliteHeap.Backend.setRel_other same]
      exact alike.cached other ((Finset.mem_insert.mp member).resolve_left same)

theorem connFor (alike : zig.Alike rust) (use : RelConn → RelConn × Option Panic)
    (opens : (zig.rels rel).cached = false → fails rel .openConn = false) :
    AlikeOutcome (zig.connFor fails rel fun conn => ((use conn).1, (use conn).2.isNone))
      (rust.withConn fails rel use) := by
  have unstuck : ¬ SqliteHeap.Backend.Stuck rel rust := by
    rintro ⟨touched, uncached⟩
    rw [alike.cached rel touched] at uncached
    cases uncached
  have conn : zig.connFor fails rel (fun conn => ((use conn).1, (use conn).2.isNone)) =
      (if (use (rust.rels rel).conn).2.isNone then Zig.Outcome.returned else .raised)
        { zig.setRel rel (.opened (use (rust.rels rel).conn).1) with
          txRels := insert rel zig.txRels, callbacksRegistered := true } := by
    rw [← alike.rels]
    cases found : zig.rels rel with
    | closed file =>
        have opened := opens (by rw [found]; rfl)
        rcases changed : use (RelConn.openConn file) with ⟨conn, _ | reason⟩ <;>
          simp [Backend.connFor, ensureInXact, found, opened, changed, Backend.setRel, RelState.conn]
    | opened conn =>
        rcases changed : use conn with ⟨after, _ | reason⟩ <;>
          simp [Backend.connFor, ensureInXact, found, changed, Backend.setRel, RelState.conn]
  rcases SqliteHeap.Backend.withConn_cases fails rel use rust with
    ⟨_, _, _, unreached, _⟩ | ⟨_, _, effect, completed⟩
  · exfalso
    rw [alike.rels] at opens
    cases found : rust.rels rel with
    | closed file =>
        have opened := opens (by rw [found]; rfl)
        have untouched : rel ∉ rust.txRels := fun touched => unstuck ⟨touched, by rw [found]; rfl⟩
        by_cases first : rust.txRels = ∅ <;>
          simp [SqliteHeap.Backend.reached, SqliteHeap.Backend.ensureInXact, found, untouched, opened,
            first] at unreached
    | opened conn =>
        by_cases first : rust.txRels = ∅ <;>
          simp [SqliteHeap.Backend.reached, SqliteHeap.Backend.ensureInXact, found, first] at unreached
  · rw [conn]
    constructor
    · rw [effect]
      have touched := alike.touch rel (use (rust.rels rel).conn).1
      cases (use (rust.rels rel).conn).2.isNone <;> exact touched
    · rw [completed]
      cases (use (rust.rels rel).conn).2.isNone <;> rfl

theorem forConns (alike : zig.Alike rust) (body : RelId → RelConn → Option RelConn)
    (left : RelId → RelConn → RelConn) (reason : Panic) (order : List RelId) :
    AlikeOutcome (Backend.forConns body left order zig)
      (SqliteHeap.Backend.forConns body left reason order rust).2 := by
  induction order generalizing zig rust with
  | nil => exact ⟨alike, rfl⟩
  | cons rel rest ih =>
      rw [Backend.forConns, SqliteHeap.Backend.forConns, alike.rels]
      cases found : rust.rels rel with
      | closed file => exact ih alike
      | opened conn =>
          cases applied : body rel conn with
          | none => simpa only [applied] using ⟨alike.setRel rel (left rel conn), rfl⟩
          | some changed =>
              simp only [applied]
              exact ih (alike.setRel rel changed)

/-- A statement on the connections in a transaction leaves the ports alike. -/
theorem mapConns (alike : zig.Alike rust) (exec : RelId → RelConn → RelConn) :
    (Backend.runOnTxnConns exec zig).Alike (SqliteHeap.Backend.runOnTxnConns exec rust) where
  rels := by
    simp only [Backend.runOnTxnConns, SqliteHeap.Backend.runOnTxnConns, alike.rels, alike.txRels]
  txRels := alike.txRels
  drops := alike.drops
  registered := alike.registered
  hooked := alike.hooked
  cached rel touched := by
    have member : rel ∈ rust.txRels := touched
    have cached := alike.cached rel member
    simp only [SqliteHeap.Backend.runOnTxnConns]
    rw [if_pos member]
    cases found : rust.rels rel with
    | closed file =>
        rw [found] at cached
        cases cached
    | opened conn => rfl

/-- `TX_RELS` is taken. -/
theorem cleared (alike : zig.Alike rust) :
    ({ zig with txRels := ∅ } : Backend).Alike { rust with txRels := ∅ } where
  rels := alike.rels
  txRels := rfl
  drops := alike.drops
  registered := alike.registered
  hooked touched := absurd rfl touched
  cached rel touched := absurd touched (Finset.notMem_empty rel)

/-- Nothing is touched where the Rust port has not registered its callbacks. -/
theorem untouched (alike : zig.Alike rust) (unhooked : rust.registered = false) : rust.txRels = ∅ := by
  by_contra touched
  rw [alike.hooked touched] at unhooked
  cases unhooked

/-- `unlink_storage` of the drops, one after another. -/
theorem unlinks (rels : zig.rels = rust.rels) (txRels : zig.txRels = rust.txRels)
    (drops : List RelId) :
    (drops.foldl Backend.unlinkStorage zig).rels = (drops.foldl SqliteHeap.Backend.unlinkStorage rust).rels ∧
      (drops.foldl Backend.unlinkStorage zig).txRels =
        (drops.foldl SqliteHeap.Backend.unlinkStorage rust).txRels := by
  induction drops generalizing zig rust with
  | nil => exact ⟨rels, txRels⟩
  | cons first rest ih =>
      refine ih ?_ ?_
      · rw [Backend.unlinkStorage, SqliteHeap.Backend.unlinkStorage, Backend.setRel,
          SqliteHeap.Backend.setRel, rels]
      · rw [Backend.unlinkStorage, SqliteHeap.Backend.unlinkStorage, txRels]

/-- The backend of the Rust port without its registered callbacks, at the end of a transaction. -/
theorem ended (alike : zig.Alike rust) (none : rust.txRels = ∅) (drops : zig.pendingDrops = []) :
    zig.Alike { rust with registered := false, drops := [] } where
  rels := alike.rels
  txRels := alike.txRels
  drops := drops
  registered := nofun
  hooked touched := absurd none touched
  cached rel touched := absurd (none ▸ touched) (Finset.notMem_empty rel)

end Alike

end Backend

/-! ## The same runs -/

namespace Session

/-- Both ports are at the same point of the same transaction. -/
structure Alike (zig : Session) (rust : SqliteHeap.Session) : Prop where
  backend : zig.backend.Alike rust.backend
  phase : zig.phase = rust.phase
  failed : zig.failed = rust.failed
  subs : zig.subs = rust.subs.map SubFrame.id
  nextSub : zig.nextSub = rust.nextSub
  tick : zig.tick = rust.tick
  /-- Nothing is touched after `PreCommit`. -/
  settled : rust.phase = .preCommitted → rust.backend.txRels = ∅

variable {zig : Session} {rust : SqliteHeap.Session} {fails : Faults} {rel : RelId}

namespace Alike

theorem start (files : RelId → Option Table) :
    (Session.start files).Alike (SqliteHeap.Session.start files) where
  backend := ⟨rfl, rfl, rfl, nofun, fun touched => absurd rfl touched, nofun⟩
  phase := rfl
  failed := rfl
  subs := rfl
  nextSub := rfl
  tick := rfl
  settled := nofun

theorem not_preCommitted (running : rust.phase = .running) : rust.phase ≠ .preCommitted := by
  rw [running]
  exact nofun

theorem idle_ne : Phase.idle ≠ .preCommitted := by decide

theorem active (alike : zig.Alike rust) : zig.active = rust.active := by
  rw [Session.active, SqliteHeap.Session.active, alike.phase, alike.failed]

theorem enumerates (alike : zig.Alike rust) (order : List RelId) :
    zig.enumerates order = rust.enumerates order := by
  rw [Session.enumerates, SqliteHeap.Session.enumerates, alike.backend.txRels]

/-- How a function that may panic leaves both ports. -/
theorem leave (alike : zig.Alike rust) (running : rust.phase = .running) {outcome : Outcome}
    {other : SqliteHeap.Outcome} (same : Backend.AlikeOutcome outcome other) :
    (zig.leave outcome).Alike { rust with backend := other.backend, failed := !other.completed } := by
  obtain ⟨backend, completed⟩ := same
  have settled : rust.phase = .preCommitted → other.backend.txRels = ∅ :=
    fun ready => absurd ready (not_preCommitted running)
  cases outcome with
  | returned after =>
      rw [← completed]
      exact ⟨backend, alike.phase, rfl, alike.subs, alike.nextSub, alike.tick, settled⟩
  | raised after =>
      rw [← completed]
      exact ⟨backend, alike.phase, rfl, alike.subs, alike.nextSub, alike.tick, settled⟩

theorem call (alike : zig.Alike rust) (write : Write) (running : rust.phase = .running)
    (opens : (zig.backend.rels rel).cached = false → fails rel .openConn = false) :
    ({ zig.leave (zig.backend.connFor fails rel (Backend.writeConn (fails rel) zig.tick write.stmts))
        with tick := zig.tick + write.stmts.length } : Session).Alike
      (rust.runCall rel write fails) := by
  have same : Backend.writeConn (fails rel) zig.tick write.stmts = fun conn =>
      ((SqliteHeap.Backend.writeConn (fails rel) rust.tick write.stmts conn).1,
        (SqliteHeap.Backend.writeConn (fails rel) rust.tick write.stmts conn).2.isNone) := by
    funext conn
    rw [Backend.writeConn, SqliteHeap.Backend.writeConn, alike.tick]
    cases conn.beginIfNeeded (fails rel) with
    | none => rfl
    | some begun =>
        rcases RelConn.stmtsRun (fails rel) 0 write.stmts with ⟨ran, _ | _⟩ <;> simp
  rw [same, alike.tick]
  have left := alike.leave running (alike.backend.connFor
    (SqliteHeap.Backend.writeConn (fails rel) rust.tick write.stmts) opens)
  exact ⟨left.backend, left.phase, left.failed, left.subs, left.nextSub, rfl, left.settled⟩

theorem read (alike : zig.Alike rust) (running : rust.phase = .running)
    (opens : (zig.backend.rels rel).cached = false → fails rel .openConn = false) :
    (zig.leave (zig.backend.connFor fails rel (Backend.readConn (fails rel)))).Alike
      (rust.runRead rel fails) := by
  have same : Backend.readConn (fails rel) = fun conn =>
      ((SqliteHeap.Backend.readConn (fails rel) conn).1,
        (SqliteHeap.Backend.readConn (fails rel) conn).2.isNone) := by
    funext conn
    rw [Backend.readConn, SqliteHeap.Backend.readConn]
    cases fails rel (.stmt 0) <;> simp
  rw [same]
  exact alike.leave running
    (alike.backend.connFor (SqliteHeap.Backend.readConn (fails rel)) opens)

/-- A loop of a callback, which the Rust port runs where it is registered. Where it is not, there
is nothing to run it on. -/
theorem callback (alike : zig.Alike rust) (body : RelId → RelConn → Option RelConn)
    (left : RelId → RelConn → RelConn) (reason : Panic) {order : List RelId}
    (complete : order.toFinset = rust.backend.txRels) :
    Backend.AlikeOutcome (zig.callback (Backend.forConns body left order))
      (if rust.backend.registered then
          (SqliteHeap.Backend.forConns body left reason order rust.backend).2
        else .returned rust.backend) := by
  rw [Session.callback]
  cases hooked : rust.backend.registered with
  | true =>
      rw [if_pos (alike.backend.registered hooked), if_pos rfl]
      exact alike.backend.forConns body left reason order
  | false =>
      rw [alike.backend.untouched hooked, List.toFinset_eq_empty_iff] at complete
      subst complete
      split <;> exact ⟨alike.backend, rfl⟩

theorem startSub (alike : zig.Alike rust) (running : rust.phase = .running) {order : List RelId}
    (complete : order.toFinset = rust.backend.txRels) :
    ({ zig.leave (zig.callback (Backend.onSubStart fails zig.nextSub order)) with
        subs := zig.nextSub :: zig.subs, nextSub := zig.nextSub + 1 } : Session).Alike
      (rust.runStartSub order fails) := by
  have left := alike.leave running
    (alike.callback (Backend.subStartConn fails zig.nextSub) (fun _ conn => conn) (.failed .begin)
      complete)
  rw [alike.nextSub] at left ⊢
  refine ⟨left.backend, left.phase, left.failed, ?_, rfl, left.tick, left.settled⟩
  rw [alike.subs]
  rfl

/-- RELEASE or ROLLBACK TO on the connections in a transaction. -/
theorem notify (alike : zig.Alike rust) (exec : RelId → RelConn → RelConn) :
    (zig.notify (Backend.runOnTxnConns exec)).Alike
      (if rust.backend.registered then SqliteHeap.Backend.runOnTxnConns exec rust.backend
        else rust.backend) := by
  rw [Session.notify]
  cases hooked : rust.backend.registered with
  | true =>
      rw [if_pos (alike.backend.registered hooked), if_pos rfl]
      exact alike.backend.mapConns exec
  | false =>
      have none := alike.backend.untouched hooked
      have kept : (Backend.runOnTxnConns exec zig.backend).Alike rust.backend := by
        have mapped := alike.backend.mapConns exec
        have same : SqliteHeap.Backend.runOnTxnConns exec rust.backend = rust.backend := by
          simp only [SqliteHeap.Backend.runOnTxnConns, none, Finset.notMem_empty, if_false]
          rw [← none]
        rwa [same] at mapped
      split
      · exact kept
      · exact alike.backend

theorem commitSub (alike : zig.Alike rust) (running : rust.phase = .running) {sub : SubFrame}
    {rest : List SubFrame} :
    ({ zig with
        backend := zig.notify (Backend.onSubCommit fails sub.id)
        subs := rest.map SubFrame.id } : Session).Alike (rust.runCommitSub sub rest fails) :=
  ⟨alike.notify _, alike.phase, alike.failed, rfl, alike.nextSub, alike.tick,
    fun ready => absurd ready (not_preCommitted running)⟩

theorem abortSub (alike : zig.Alike rust) (running : rust.phase = .running) {sub : SubFrame}
    {rest : List SubFrame} :
    ({ zig with
        backend := zig.notify (Backend.onSubAbort fails sub.id)
        failed := false
        subs := rest.map SubFrame.id } : Session).Alike (rust.runAbortSub sub rest fails) :=
  ⟨alike.notify _, alike.phase, rfl, rfl, alike.nextSub, alike.tick,
    fun ready => absurd ready (not_preCommitted running)⟩

/-- No COMMIT panics in the Rust port. -/
theorem commits (alike : zig.Alike rust) {order : List RelId}
    (distinct : order.Nodup) (complete : order.toFinset = rust.backend.txRels)
    (succeeds : zig.Commits fails) :
    (SqliteHeap.Backend.onPrecommit fails order rust.backend).2.completed = true := by
  by_contra panicked
  obtain ⟨rel, member, conn, opened, failed⟩ :=
    SqliteHeap.Backend.onPrecommit_panicked distinct (by simpa using panicked)
  have touched : rel ∈ zig.backend.txRels := by
    rw [alike.backend.txRels, ← complete]
    exact List.mem_toFinset.mpr member
  have same : (zig.backend.rels rel).conn = conn := by rw [alike.backend.rels, opened]; rfl
  have succeeds := succeeds rel touched
  rw [same] at succeeds
  have whole : ¬ conn.Stale := fun stale => (succeeds stale.1).2 stale
  obtain ⟨held, fault⟩ := RelConn.commit_failed whole failed
  rw [(succeeds held).1] at fault
  cases fault

theorem onPrecommit (alike : zig.Alike rust) {order : List RelId}
    (distinct : order.Nodup) (complete : order.toFinset = rust.backend.txRels)
    (succeeds : zig.Commits fails) :
    ∃ backend after, zig.callback (Backend.onPrecommit fails order) = .returned backend ∧
      (if rust.backend.registered then SqliteHeap.Backend.onPrecommit fails order rust.backend
        else ([], .returned rust.backend)).2 = .returned after ∧
      backend.Alike after ∧ after.txRels = ∅ := by
  have completes := alike.commits distinct complete succeeds
  have same := alike.backend.cleared.forConns (fun rel conn => conn.commit (fails rel))
    (fun rel conn => conn.afterError (fails rel)) (.failed .commit) order
  have through : completed (Backend.commitConns fails order { zig.backend with txRels := ∅ }) =
      true := same.completed.trans completes
  have looped := Backend.onPrecommit_of_completed through
  rw [← Backend.commitConns, ← looped] at same
  rw [← looped] at through
  have taken := (SqliteHeap.Backend.onPrecommit_kept fails distinct rust.backend).1
  cases first : Backend.onPrecommit fails order zig.backend with
  | raised backend =>
      rw [first] at through
      cases through
  | returned backend =>
      cases second : (SqliteHeap.Backend.onPrecommit fails order rust.backend).2 with
      | panicked reason after =>
          rw [second] at completes
          cases completes
      | returned after =>
          rw [second] at taken
          have kept : backend.Alike after := by
            have both := same.backend
            rw [first] at both
            change backend.Alike (SqliteHeap.Backend.onPrecommit fails order rust.backend).2.backend at both
            rwa [second] at both
          cases hooked : rust.backend.registered with
          | true =>
              refine ⟨backend, after, ?_, second, kept, taken⟩
              rw [Session.callback, if_pos (alike.backend.registered hooked), first]
          | false =>
              have none := alike.backend.untouched hooked
              rw [none, List.toFinset_eq_empty_iff] at complete
              subst complete
              have empty : { rust.backend with txRels := ∅ } = rust.backend := by rw [← none]
              have cleared := alike.backend.cleared
              rw [empty] at cleared
              cases registered : zig.backend.callbacksRegistered with
              | true =>
                  refine ⟨{ zig.backend with txRels := ∅ }, rust.backend, ?_, rfl, cleared, none⟩
                  rw [Session.callback, if_pos registered]
                  rfl
              | false =>
                  refine ⟨zig.backend, rust.backend, ?_, rfl, alike.backend, none⟩
                  rw [Session.callback, registered]
                  rfl

theorem commit (alike : zig.Alike rust) (ready : rust.phase = .preCommitted)
    (covered : zig.backend.callbacksRegistered = true ∨ zig.backend.pendingDrops = []) :
    ({ zig with backend := zig.notify Backend.onCommit, phase := .idle, failed := false } :
      Session).Alike rust.runCommit := by
  obtain ⟨rels, txRels⟩ :=
    Backend.Alike.unlinks alike.backend.rels alike.backend.txRels rust.backend.drops
  have taken : rust.runCommit.backend.txRels = ∅ := by
    have fewer := SqliteHeap.Session.runCommit_txRels rust
    rw [alike.settled ready] at fewer
    exact Finset.subset_empty.mp fewer
  have unlinked : (zig.notify Backend.onCommit).rels = rust.runCommit.backend.rels ∧
      (zig.notify Backend.onCommit).txRels = rust.runCommit.backend.txRels ∧
      (zig.notify Backend.onCommit).pendingDrops = [] := by
    rw [Session.notify]
    split
    · rw [Backend.onCommit, alike.backend.drops]
      exact ⟨rels, txRels, rfl⟩
    · next unregistered =>
        have none := covered.resolve_left unregistered
        rw [← alike.backend.drops, none] at rels txRels
        refine ⟨?_, ?_, none⟩
        · rw [SqliteHeap.Session.runCommit, ← alike.backend.drops, none]
          exact alike.backend.rels
        · rw [SqliteHeap.Session.runCommit, ← alike.backend.drops, none]
          exact alike.backend.txRels
  obtain ⟨rels, txRels, drops⟩ := unlinked
  exact ⟨⟨rels, txRels, drops, fun registered => absurd registered Bool.false_ne_true,
      fun touched => absurd taken touched,
      fun rel touched => absurd (taken ▸ touched) (Finset.notMem_empty rel)⟩,
    rfl, rfl, alike.subs, alike.nextSub, alike.tick, fun ready => absurd ready idle_ne⟩

theorem abort (alike : zig.Alike rust)
    (covered : zig.backend.callbacksRegistered = true ∨ zig.backend.pendingDrops = []) :
    ({ zig with backend := zig.notify (Backend.onAbort fails), phase := .idle, failed := false } :
      Session).Alike (rust.runAbort fails) := by
  have taken : (rust.runAbort fails).backend.txRels = ∅ :=
    SqliteHeap.Session.runAbort_untouched alike.backend.hooked fails
  have aborted : (zig.notify (Backend.onAbort fails)).rels = (rust.runAbort fails).backend.rels ∧
      (zig.notify (Backend.onAbort fails)).txRels = ∅ ∧
      (zig.notify (Backend.onAbort fails)).pendingDrops = [] := by
    rw [Session.notify, SqliteHeap.Session.runAbort]
    cases hooked : rust.backend.registered with
    | true =>
        rw [if_pos (alike.backend.registered hooked)]
        refine ⟨?_, rfl, rfl⟩
        simp only [Backend.onAbort, alike.backend.rels, alike.backend.txRels]
        rfl
    | false =>
        have none := alike.backend.untouched hooked
        rw [← alike.backend.txRels] at none
        split
        · refine ⟨?_, rfl, rfl⟩
          simp only [Backend.onAbort, none, Finset.notMem_empty, if_false]
          exact alike.backend.rels
        · next unregistered => exact ⟨alike.backend.rels, none, covered.resolve_left unregistered⟩
  obtain ⟨rels, txRels, drops⟩ := aborted
  exact ⟨⟨rels, txRels.trans taken.symm, drops,
      fun registered => absurd registered Bool.false_ne_true, fun touched => absurd taken touched,
      fun rel touched => absurd (taken ▸ touched) (Finset.notMem_empty rel)⟩,
    rfl, rfl, alike.subs, alike.nextSub, alike.tick, fun ready => absurd ready idle_ne⟩

theorem step (alike : zig.Alike rust) {event : Event}
    (taken : zig.TakenAlike event) :
    Option.Rel Session.Alike (zig.step event) (SqliteHeap.Session.step rust event) := by
  cases event with
  | begin =>
      refine Transition.rel_guarded (by rw [alike.phase]) fun idle => ?_
      exact ⟨alike.backend, rfl, alike.failed, alike.subs, rfl, alike.tick,
        fun ready => absurd ready (not_preCommitted rfl)⟩
  | call rel write fails =>
      obtain ⟨running, opens⟩ := taken
      refine Transition.rel_guarded (by rw [alike.active]) fun _ => ?_
      exact alike.call write (alike.phase ▸ running) opens
  | read rel fails =>
      obtain ⟨running, opens⟩ := taken
      refine Transition.rel_guarded (by rw [alike.active]) fun _ => ?_
      exact alike.read (alike.phase ▸ running) opens
  | drop rel =>
      refine Transition.rel_guarded (by rw [alike.phase, alike.failed]) fun guard => ?_
      refine ⟨⟨alike.backend.rels, alike.backend.txRels, ?_, alike.backend.registered,
        alike.backend.hooked, alike.backend.cached⟩, alike.phase, alike.failed, alike.subs,
        alike.nextSub, alike.tick, alike.settled⟩
      exact congrArg (· ++ [rel]) alike.backend.drops
  | startSub order fails =>
      refine Transition.rel_guarded (by rw [alike.phase, alike.failed, alike.enumerates]) fun guard => ?_
      obtain ⟨running, _, enumerates⟩ := guard
      simp only [SqliteHeap.Session.enumerates, decide_eq_true_eq] at enumerates
      exact alike.startSub running enumerates.2
  | commitSub fails =>
      rw [Session.step, SqliteHeap.Session.step, alike.subs]
      cases rust.subs with
      | nil => exact .none
      | cons sub rest =>
          refine Transition.rel_guarded (by rw [alike.phase, alike.failed]) fun guard => ?_
          exact alike.commitSub guard.1
  | abortSub fails =>
      rw [Session.step, SqliteHeap.Session.step, alike.subs]
      cases rust.subs with
      | nil => exact .none
      | cons sub rest =>
          refine Transition.rel_guarded (by rw [alike.phase]) fun running => ?_
          exact alike.abortSub running
  | preCommit order fails =>
      have same : (zig.phase = .running ∧ zig.failed = false ∧ zig.subs = [] ∧ zig.enumerates order) ↔
          (rust.phase = .running ∧ rust.failed = false ∧ rust.subs = [] ∧ rust.enumerates order) := by
        rw [alike.phase, alike.failed, alike.enumerates, alike.subs, List.map_eq_nil_iff]
      by_cases guard : rust.phase = .running ∧ rust.failed = false ∧ rust.subs = [] ∧
          rust.enumerates order
      · obtain ⟨running, sane, none, enumerates⟩ := guard
        simp only [SqliteHeap.Session.enumerates, decide_eq_true_eq] at enumerates
        obtain ⟨backend, after, first, second, kept, untouched⟩ :=
          alike.onPrecommit enumerates.1 enumerates.2 taken
        have effect : (rust.runPreCommit order fails).backend = after ∧
            (rust.runPreCommit order fails).phase = .preCommitted ∧
            (rust.runPreCommit order fails).failed = false := by
          rw [SqliteHeap.Session.runPreCommit]
          dsimp only
          rw [second]
          exact ⟨rfl, rfl, rfl⟩
        have guard : rust.phase = .running ∧ rust.failed = false ∧ rust.subs = [] ∧
            rust.enumerates order := ⟨running, sane, none, by simpa [SqliteHeap.Session.enumerates]⟩
        rw [Session.step, SqliteHeap.Session.step, if_pos (same.mpr guard), if_pos guard, first]
        refine .some ⟨?_, effect.2.1.symm, effect.2.2.symm, alike.subs, alike.nextSub, alike.tick,
          fun _ => ?_⟩
        · rw [effect.1]
          exact kept
        · rw [effect.1]
          exact untouched
      · rw [Session.step, SqliteHeap.Session.step, if_neg fun first => guard (same.mp first),
          if_neg guard]
        exact .none
  | commit =>
      refine Transition.rel_guarded (by rw [alike.phase, alike.failed]) fun guard => ?_
      exact alike.commit guard.1 taken
  | abort fails =>
      refine Transition.rel_guarded (by rw [alike.phase, alike.subs, List.map_eq_nil_iff]) fun _ => ?_
      exact alike.abort taken

end Alike

/-- From states that are alike both ports take the same events, and stay alike. -/
theorem lockStep :
    Transition.LockStep Session.step TakenAlike SqliteHeap.Session.step Session.Alike :=
  fun _ _ _ alike taken => alike.step taken

/-- What both ports show: whether a transaction runs or has failed, the connections and files of
all relations, the touched ones and the drops that are deferred. -/
structure Shown where
  phase : Phase
  failed : Bool
  rels : RelId → RelState
  txRels : Finset RelId
  drops : List RelId

def shown (session : Session) : Shown where
  phase := session.phase
  failed := session.failed
  rels := session.backend.rels
  txRels := session.backend.txRels
  drops := session.backend.pendingDrops

def shownByRust (session : SqliteHeap.Session) : Shown where
  phase := session.phase
  failed := session.failed
  rels := session.backend.rels
  txRels := session.backend.txRels
  drops := session.backend.drops

theorem Alike.shown {zig : Session} {rust : SqliteHeap.Session} (alike : zig.Alike rust) :
    zig.shown = shownByRust rust := by
  rw [Session.shown, shownByRust, alike.phase, alike.failed, alike.backend.rels, alike.backend.txRels,
    alike.backend.drops]

end Session

end SqliteHeap.ZigPort
