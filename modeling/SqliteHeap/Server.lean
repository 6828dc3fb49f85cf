import SqliteHeap.ReadView
import SqliteHeap.StoreRefinement

/-! All backends of a database, each running `sqlite.rs` on connections of its own to the same
files. SQLite lets one connection at a time write a file and shows the others what is committed;
one that reads older contents cannot write. `on_precommit` runs its COMMITs one by one, and other
backends may go on in between. A crash ends all backends and keeps what is committed in the
files. DROP is left out. -/

set_option autoImplicit false

namespace SqliteHeap

open SavepointStack

/-- A connection that has written nothing, over the file as it is now. -/
def RelConn.refresh (file : Contents) (conn : RelConn) : RelConn :=
  { conn with db := ⟨file, conn.db.txn.map fun txn =>
      ⟨file, txn.saves.map fun save => { save with contents := file }, txn.begun⟩⟩ }

/-- A missing file counts as an empty one: the open creates it. -/
def RelState.refresh (file : Contents) : RelState → RelState
  | .closed _ => .closed (some file)
  | .opened conn => .opened (conn.refresh file)

namespace Session

/-- The session as its next call finds it. It has written the relations of `holds` only. -/
def refresh (files : RelId → Contents) (holds : RelId → Bool) (session : Session) : Session :=
  { session with
    backend := { session.backend with
      rels := fun rel =>
        if holds rel then session.backend.rels rel
        else (session.backend.rels rel).refresh (files rel) }
    subs := session.subs.map fun frame => { frame with
      contents := fun rel => if holds rel then frame.contents rel else files rel } }

def ran (session : Session) : Event → List Executed
  | .call rel write fails => session.executed rel write fails
  | .begin | .read _ _ | .drop _ | .startSub _ _ | .commitSub _ | .abortSub _ | .preCommit _ _
  | .commit | .abort _ => []

/-- The steps that a run of one transaction after the other can follow. No error is one that
SQLite answers with a rollback. -/
def Serializes (session : Session) : Event → Prop
  | .begin | .drop _ | .commit => True
  | .call rel _ fails | .read rel fails =>
      session.phase = .running ∧ ¬ Backend.FirstOpenFails fails rel session.backend ∧
        fails rel .rollsBack = false
  | .startSub _ fails => session.SetsSavepoints fails
  | .commitSub fails => session.Lossless (.commitSub fails)
  | .abortSub fails => session.UndoesWrites fails ∧ session.Lossless (.abortSub fails)
  | .preCommit _ fails => session.Succeeds .commit fails
  | .abort fails => session.Succeeds .rollback fails

instance (session : Session) : ∀ event, Decidable (session.Serializes event)
  | .begin | .drop _ | .commit => isTrue trivial
  | .call _ _ _ | .read _ _ => inferInstanceAs (Decidable (_ ∧ ¬ _ ∧ _))
  | .startSub _ fails => inferInstanceAs (Decidable (session.SetsSavepoints fails))
  | .commitSub fails => inferInstanceAs (Decidable (session.Lossless (.commitSub fails)))
  | .abortSub fails =>
      inferInstanceAs (Decidable (session.UndoesWrites fails ∧ session.Lossless (.abortSub fails)))
  | .preCommit _ fails => inferInstanceAs (Decidable (session.Succeeds .commit fails))
  | .abort fails => inferInstanceAs (Decidable (session.Succeeds .rollback fails))

end Session

inductive Stage where
  /-- Between `PreCommit` and the commit record. -/
  | pending
  | committed
  | aborted
deriving DecidableEq

/-- A transaction that got through `PreCommit`. -/
structure Passed where
  backend : BackendId
  ran : List Executed
  stage : Stage

namespace Passed

/-- The statements in files whose COMMIT has run. -/
def survives (committing : BackendId → List RelId) (passed : Passed) : List Executed :=
  if passed.stage = .pending then passed.ran.filter fun executed => executed.1 ∉ committing passed.backend
  else passed.ran

/-- Postgres has ended the transaction. -/
def finish (backend : BackendId) (stage : Stage) (passed : Passed) : Passed :=
  if passed.backend = backend ∧ passed.stage = .pending then { passed with stage := stage } else passed

/-- Recovery finds no commit record. -/
def crash (committing : BackendId → List RelId) (passed : Passed) : Passed :=
  { passed with
    ran := passed.survives committing
    stage := if passed.stage = .pending then .aborted else passed.stage }

end Passed

structure Server where
  files : RelId → Contents
  /-- The backend that holds the write lock of a file. -/
  writer : RelId → Option BackendId
  sessions : BackendId → Session
  /-- Relations whose COMMIT `on_precommit` has still to run. -/
  committing : BackendId → List RelId
  /-- The transactions in the order of their `PreCommit`. -/
  serial : List Passed

inductive ServerEvent where
  | session (backend : BackendId) (event : Event)
  /-- `on_precommit` goes on to its next relation. -/
  | commitNext (backend : BackendId)
  | crash

namespace Server

def start (files : RelId → Option Table) : Server where
  files rel := ⟨(files rel).getD Table.empty, []⟩
  writer _ := none
  sessions _ := Session.start files
  committing _ := []
  serial := []

def holds (server : Server) (backend : BackendId) (rel : RelId) : Bool :=
  server.writer rel = some backend

def seen (server : Server) (backend : BackendId) : Session :=
  (server.sessions backend).refresh server.files (server.holds backend)

/-- While another connection has written a file and not ended its transaction, statements that
write it fail with `SQLITE_BUSY`. -/
def free (server : Server) (backend : BackendId) (ran : List Executed) : Bool :=
  ran.all fun executed =>
    server.writer executed.1 = none || server.holds backend executed.1

/-- The COMMITs that `on_precommit` runs on files that the backend has written. -/
def toCommit (server : Server) (backend : BackendId) (next : Session) : Event → List RelId
  | .preCommit _ _ => next.commitRan.filter (server.holds backend)
  | .begin | .call _ _ _ | .read _ _ | .drop _ | .startSub _ _ | .commitSub _ | .abortSub _
  | .commit | .abort _ => []

/-- The transactions after an event of the backend. -/
def record (server : Server) (backend : BackendId) (next : Session) : Event → List Passed
  | .preCommit _ _ =>
      if next.failed then server.serial
      else server.serial ++ [⟨backend, (server.seen backend).ledger.current, .pending⟩]
  | .commit => server.serial.map (Passed.finish backend .committed)
  | .abort _ => server.serial.map (Passed.finish backend .aborted)
  | .begin | .call _ _ _ | .read _ _ | .drop _ | .startSub _ _ | .commitSub _ | .abortSub _ =>
      server.serial

/-- A lock is taken by the first statement that writes the file and kept to the end of the
connection's transaction. -/
def locks (server : Server) (backend : BackendId) (event : Event) (next : Session) (rel : RelId) :
    Option BackendId :=
  if rel ∈ ((server.seen backend).ran event).map Prod.fst then some backend
  else if server.holds backend rel ∧ (next.conn rel).db.txn = none ∧
      rel ∉ server.toCommit backend next event then none
  else server.writer rel

/-- The server after an event that left the session of the backend as `next`. -/
def settle (server : Server) (backend : BackendId) (event : Event) (next : Session) : Server where
  files := server.files
  writer := server.locks backend event next
  sessions := Function.update server.sessions backend next
  committing := Function.update server.committing backend (server.toCommit backend next event)
  serial := server.record backend next event

/-- The COMMIT of one relation. -/
def publish (server : Server) (backend : BackendId) (rel : RelId) (rest : List RelId) : Server :=
  { server with
    files := Function.update server.files rel ((server.sessions backend).fileContents rel)
    writer := Function.update server.writer rel none
    committing := Function.update server.committing backend rest }

/-- New backends find the files, and SQLite rolls back what was not committed. -/
def recover (server : Server) : Server where
  files := server.files
  writer _ := none
  sessions _ := Session.start fun _ => none
  committing _ := []
  serial := server.serial.map (Passed.crash server.committing)

def step (server : Server) : ServerEvent → Option Server
  | .session _ (.drop _) => none
  | .session backend event =>
      if server.committing backend = [] ∧
          server.free backend ((server.seen backend).ran event) = true then
        ((server.seen backend).step event).map (server.settle backend event)
      else none
  | .commitNext backend =>
      match server.committing backend with
      | [] => none
      | rel :: rest => some (server.publish backend rel rest)
  | .crash => some server.recover

def run : Server → List ServerEvent → Option Server := Transition.run step

def Allowed (server : Server) : ServerEvent → Prop
  | .session backend event => (server.seen backend).Serializes event
  | .commitNext _ | .crash => True

instance (server : Server) : DecidablePred server.Allowed
  | .session backend event => inferInstanceAs (Decidable ((server.seen backend).Serializes event))
  | .commitNext _ | .crash => isTrue trivial

end Server

/-! ## A session over files that others have changed -/

namespace Session

section Refresh

variable {files : RelId → Contents} {holds : RelId → Bool} {base : RelId → Contents}
  {session : Session}

theorem refresh_conn (files : RelId → Contents) (holds : RelId → Bool) (session : Session) (rel : RelId) :
    (session.refresh files holds).conn rel =
      if holds rel then session.conn rel else (session.conn rel).refresh (files rel) := by
  unfold conn refresh
  dsimp only
  cases holds rel with
  | true => rfl
  | false => cases session.backend.rels rel <;> rfl

theorem refresh_inTxn (files : RelId → Contents) (holds : RelId → Bool) (session : Session) (rel : RelId) :
    ((session.refresh files holds).conn rel).inTxn = (session.conn rel).inTxn := by
  rw [refresh_conn]
  cases holds rel <;> rfl

theorem refresh_txn_none (files : RelId → Contents) (holds : RelId → Bool) (session : Session)
    (rel : RelId) : ((session.refresh files holds).conn rel).db.txn = none ↔
      (session.conn rel).db.txn = none := by
  rw [refresh_conn]
  cases holds rel with
  | true => exact Iff.rfl
  | false => exact Option.map_eq_none_iff

theorem refresh_cached (files : RelId → Contents) (holds : RelId → Bool) (session : Session) (rel : RelId) :
    ((session.refresh files holds).backend.rels rel).cached = (session.backend.rels rel).cached := by
  unfold refresh
  dsimp only
  cases holds rel with
  | true => rfl
  | false => cases session.backend.rels rel <;> rfl

theorem refresh_ids (files : RelId → Contents) (holds : RelId → Bool) (session : Session) :
    (session.refresh files holds).subs.map SubFrame.id = session.subs.map SubFrame.id := by
  rw [refresh, List.map_map]
  rfl

theorem refresh_late (files : RelId → Contents) (holds : RelId → Bool) (session : Session) (rel : RelId) :
    (session.refresh files holds).Late rel = session.Late rel := by
  funext sub
  exact propext (by simp [Late, refresh])

theorem sound_refresh {conn : RelConn} (sound : conn.Sound) (file : Contents) :
    (conn.refresh file).Sound where
  held held := by
    obtain ⟨txn, opened⟩ := sound.held held
    exact ⟨_, by rw [RelConn.refresh, opened, Option.map_some]⟩
  begun txn opened := by
    obtain ⟨old, found, rfl⟩ := Option.map_eq_some_iff.mp opened
    exact sound.begun old found

theorem Sound.refresh (sound : session.Sound) (files : RelId → Contents) (holds : RelId → Bool) :
    (session.refresh files holds).Sound := by
  intro rel
  rw [refresh_conn]
  cases holds rel with
  | true => exact sound rel
  | false => exact sound_refresh (sound rel) (files rel)

theorem WellFormed.refresh (formed : session.WellFormed) (files : RelId → Contents)
    (holds : RelId → Bool) : (session.refresh files holds).WellFormed where
  flat outside := by rw [Session.refresh, formed.flat outside, List.map_nil]
  rest idle := formed.rest idle
  numbered := by
    rw [refresh_ids]
    refine ⟨formed.numbered.1, fun sub member => ?_⟩
    obtain ⟨frame, inSubs, rfl⟩ := List.mem_map.mp member
    exact formed.numbered.2 frame inSubs
  touched sub member := by
    obtain ⟨frame, inSubs, rfl⟩ := List.mem_map.mp member
    exact formed.touched frame inSubs
  depth := by rw [Session.refresh, List.length_map]; exact formed.depth
  dropDepth := by rw [Session.refresh, List.length_map]; exact formed.dropDepth
  growing := formed.growing
  dropGrowing := formed.dropGrowing
  recorded := formed.recorded
  ticks := formed.ticks

theorem Entered.refresh (entered : session.Entered) (files : RelId → Contents) (holds : RelId → Bool) :
    (session.refresh files holds).Entered where
  formed := entered.formed.refresh files holds
  idle := entered.idle
  registered := entered.registered
  touched rel held := entered.touched rel (by rwa [refresh_inTxn] at held)
  closed rel bare := by
    rw [refresh_inTxn] at bare
    exact (refresh_txn_none files holds session rel).mpr (entered.closed rel bare)
  usual rel := by
    rcases entered.usual rel with sound | ⟨held, closed⟩
    · rw [refresh_conn]
      cases holds rel with
      | true => exact .inl sound
      | false => exact .inl (sound_refresh sound (files rel))
    · exact .inr ⟨(refresh_inTxn files holds session rel).trans held,
        (refresh_txn_none files holds session rel).mpr closed⟩

/-- What the innermost subtransaction has not written, none around it has. -/
theorem unwritten_saved (formed : session.WellFormed) {rel : RelId}
    (unwritten : statementsOn rel session.ledger.current = []) :
    ∀ value ∈ session.ledger.saved, statementsOn rel value = [] :=
  fun _ member => statementsOn_of_le (formed.growing.le_current member) unwritten

theorem kept_of_unwritten {rel : RelId} {ledger : List Executed} (unwritten : statementsOn rel ledger = []) :
    Kept files rel ledger (files rel) := by
  rw [Kept, unwritten, Contents.append_nil]

theorem Follows.refresh {rel : RelId} (follows : session.Follows base rel) (formed : session.WellFormed)
    (held : holds rel = true → base rel = files rel)
    (unwritten : holds rel = false → statementsOn rel session.ledger.current = []) :
    (session.refresh files holds).Follows files rel := by
  have ids := refresh_ids files holds session
  have late := refresh_late files holds session rel
  have frames : (∀ frame ∈ session.subs, rel ∉ frame.touched) →
      ∀ frame ∈ (session.refresh files holds).subs, rel ∉ frame.touched := by
    intro untouched frame member
    obtain ⟨old, inSubs, rfl⟩ := List.mem_map.mp member
    exact untouched old inSubs
  have closed : (session.conn rel).inTxn = false → statementsOn rel session.ledger.current = [] ∧
      (Backend.Stuck rel (session.refresh files holds).backend ∨
        ∀ frame ∈ (session.refresh files holds).subs, rel ∉ frame.touched) := by
    intro bare
    obtain ⟨_, empty, stuck | untouched⟩ := follows.closed bare
    · exact ⟨empty, .inl ⟨stuck.1, by rw [refresh_cached]; exact stuck.2⟩⟩
    · exact ⟨empty, .inr (frames untouched)⟩
  cases holding : holds rel with
  | true =>
      have conn : (session.refresh files holds).conn rel = session.conn rel := by
        rw [refresh_conn, if_pos holding]
      have keeps : Kept files rel = Kept base rel := by
        funext ledger contents
        rw [Kept, Kept, held holding]
      constructor
      case file => rw [conn, follows.file, held holding]
      case view =>
        rw [conn, keeps]
        exact follows.view
      case touched =>
        rw [conn]
        exact follows.touched
      case closed =>
        rw [conn]
        exact fun bare => ⟨(follows.closed bare).1, closed bare⟩
      case guarded =>
        rw [conn, keeps, late, ids]
        exact follows.guarded
  | false =>
      have empty := unwritten holding
      have conn : (session.refresh files holds).conn rel = (session.conn rel).refresh (files rel) := by
        rw [refresh_conn, if_neg (by rw [holding]; exact Bool.false_ne_true)]
      constructor
      case file => rw [conn]; rfl
      case view =>
        have view : ((session.conn rel).refresh (files rel)).view = files rel := by
          unfold RelConn.view Db.view RelConn.refresh
          cases (session.conn rel).db.txn <;> rfl
        rw [conn, view]
        exact kept_of_unwritten empty
      case touched =>
        rw [conn]
        exact follows.touched
      case closed =>
        intro bare
        rw [conn] at bare ⊢
        refine ⟨?_, closed bare⟩
        rw [RelConn.refresh, (follows.closed bare).1, Option.map_none]
      case guarded =>
        intro txn opened
        rw [conn] at opened
        obtain ⟨old, found, rfl⟩ := Option.map_eq_some_iff.mp opened
        rw [late, ids]
        exact (follows.guarded old found).map (fun _ => files rel) fun value member _ _ =>
          kept_of_unwritten (unwritten_saved formed empty value member)

theorem Synced.refresh (synced : session.Synced base) (held : ∀ rel, holds rel = true → base rel = files rel)
    (unwritten : ∀ rel, holds rel = false → statementsOn rel session.ledger.current = []) :
    (session.refresh files holds).Synced files where
  formed := synced.formed.refresh files holds
  sound := synced.sound.refresh files holds
  running := synced.running
  registered := synced.registered
  frames := by
    refine List.forall₂_map_left_iff.mpr ?_
    obtain ⟨lengths, kept⟩ := List.forall₂_iff_zip.mp synced.frames
    refine List.forall₂_iff_zip.mpr ⟨lengths, fun {frame value} paired rel => ?_⟩
    cases holding : holds rel with
    | true =>
        have same := kept paired rel
        rw [Kept, held rel holding] at same
        dsimp only
        rw [if_pos holding]
        exact same
    | false =>
        have empty := unwritten_saved synced.formed (unwritten rel holding) value (List.of_mem_zip paired).2
        dsimp only
        rw [if_neg (Bool.eq_false_iff.mp holding)]
        exact kept_of_unwritten empty
  follows rel := (synced.follows rel).refresh synced.formed (held rel) (unwritten rel)

end Refresh

end Session

end SqliteHeap
