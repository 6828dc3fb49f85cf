import SqliteHeap.Lib.Transition
import SqliteHeap.Session

/-! Several backends reading and writing one relation. In WAL mode a connection reads from a
view of the file that it acquires when it steps a statement while holding none, and keeps until
no statement is in progress and no transaction is open. A cached statement is in progress while
it is un-reset mid-iteration, and after it failed with `SQLITE_BUSY`, until it is prepared again.
SQLite refuses SAVEPOINT, RELEASE and COMMIT while a statement that writes is in progress. Any
statement may also fail for reasons of its own. -/

set_option autoImplicit false

namespace SqliteHeap

open SavepointStack

abbrev BackendId := Nat

/-- The texts of the statements that `prepare_cached` keeps. -/
inductive SqlText where
  | selectAll | selectOne | selectXmax (rowids : Nat) | metaGet | countRows
  | insertRow | stampRow | deleteRow | deleteDead | upsertMeta
deriving DecidableEq

namespace SqlText

def writes : SqlText → Bool
  | .selectAll | .selectOne | .selectXmax _ | .metaGet | .countRows => false
  | .insertRow | .stampRow | .deleteRow | .deleteDead | .upsertMeta => true

/-- The cached statement of a data statement. That of `reset` goes through `sqlite3_exec`. -/
def ofStmt : Table.Stmt → Option SqlText
  | .insertRow _ _ _ => some .insertRow
  | .stampRow _ _ _ => some .stampRow
  | .deleteRow _ => some .deleteRow
  | .deleteAll => none
  | .deleteDead _ => some .deleteDead
  | .upsertMeta _ _ => some .upsertMeta

end SqlText

/-- The calls of `sqlite.rs` that read. -/
inductive ReadCall where
  | selectAll
  | selectOne (rowid : Int)
  | fetchOneRef (rowid : Int)
  | selectXmaxBatch (rowids : List Int)
  | metaGet (key : String)
  | estimateSize
deriving DecidableEq

inductive ReadResult where
  | rows (rows : List StoredRow)
  | row (row : Option StoredRow)
  | xmaxes (found : List (Int × TransactionId))
  | value (value : Option Bytes)
  | tuples (count : Nat)
deriving DecidableEq

namespace ReadCall

/-- `select_one` and `fetch_one_ref` share one cached statement. -/
def sql : ReadCall → SqlText
  | .selectAll => .selectAll
  | .selectOne _ | .fetchOneRef _ => .selectOne
  | .selectXmaxBatch rowids => .selectXmax rowids.length
  | .metaGet _ => .metaGet
  | .estimateSize => .countRows

def result (table : Table) : ReadCall → ReadResult
  | .selectAll => .rows table.selectAll
  | .selectOne rowid | .fetchOneRef rowid => .row (table.selectOne rowid)
  | .selectXmaxBatch rowids => .xmaxes (table.selectXmaxBatch rowids)
  | .metaGet key => .value (table.metaGet key)
  | .estimateSize => .tuples table.countRows

/-- The call returns after a step that gave a row, without stepping to the end. -/
def unfinished (table : Table) : ReadCall → Bool
  | .selectAll | .selectXmaxBatch _ => false
  | .selectOne rowid | .fetchOneRef rowid => (table.selectOne rowid).isSome
  | .metaGet key => (table.metaGet key).isSome
  | .estimateSize => true

end ReadCall

/-- The file as some commit left it. -/
structure ReadView where
  version : Nat
  table : Table
deriving DecidableEq

/-- An open SQLite transaction. -/
structure ViewTxn where
  /-- Innermost first, with the uncommitted table when they were set. -/
  saves : List (Savepoint SubId (Option Table))
  /-- Opened by BEGIN, as opposed to by an outermost SAVEPOINT. -/
  begun : Bool
deriving DecidableEq

structure ViewConn where
  /-- Cached statements in progress. -/
  active : List SqlText
  inTxn : Bool
  txn : Option ViewTxn
  view : Option ReadView
  /-- The table with the changes that are not committed, if there are any. -/
  work : Option Table
  /-- The relation is in the backend's `TX_RELS`. -/
  touched : Bool
  /-- The current Postgres transaction has written the relation. -/
  wrote : Bool
deriving DecidableEq

namespace ViewConn

def opened : ViewConn := ⟨[], false, none, none, none, false, false⟩

/-- `ensure_in_xact`. -/
def touch (conn : ViewConn) : ViewConn := { conn with touched := true }

/-- A statement that writes is in progress. -/
def writing (conn : ViewConn) : Bool := conn.active.any SqlText.writes

/-- SQLite gives the read view up. -/
def release (conn : ViewConn) : ViewConn :=
  if conn.active = [] then { conn with view := none } else conn

def table (conn : ViewConn) (file : Table) : Table :=
  conn.work.getD (conn.view.elim file ReadView.table)

/-- The view that the first step of a statement acquires. -/
def acquire (current : ReadView) (conn : ViewConn) : ViewConn :=
  { conn with view := some (conn.view.getD current) }

/-- The statement stays in progress. -/
def pend (sql : SqlText) (conn : ViewConn) : ViewConn := { conn with active := sql :: conn.active }

def drop (sql : SqlText) (conn : ViewConn) : ViewConn :=
  { conn with active := conn.active.filter fun other => other ≠ sql }

def execute (stmt : Table.Stmt) (file : Table) (conn : ViewConn) : ViewConn :=
  { conn with work := some ((conn.table file).exec stmt), wrote := true }

/-- BEGIN takes no read view. -/
def begin (conn : ViewConn) : ViewConn := { conn with inTxn := true, txn := some ⟨[], true⟩ }

/-- `SAVEPOINT` opens a transaction when none is open. -/
def savepoint (sub : SubId) (conn : ViewConn) : ViewConn :=
  let save := ⟨sub, conn.work⟩
  { conn with txn := some (conn.txn.elim ⟨[save], false⟩ fun txn => { txn with saves := save :: txn.saves }) }

end ViewConn

/-- An error other than `SQLITE_BUSY`. -/
structure SqlError where
  /-- A data statement had its read view, and its lock if it writes. -/
  started : Bool
  /-- SQLite answers by rolling the transaction back. -/
  rollsBack : Bool

abbrev Errors := Sql → Option SqlError

/-- The relation's file and the connections of all backends. -/
structure SharedFile where
  file : Table
  /-- How many commits have changed the file. -/
  version : Nat
  /-- The backend that holds SQLite's write lock. -/
  writer : Option BackendId
  conns : BackendId → ViewConn

/-- Events of a relation, each by one backend. Which callbacks run is left open: Postgres runs
those that `ensure_in_xact` has registered. -/
inductive FileEvent where
  | read (call : ReadCall) (errors : Errors)
  | write (write : Write) (errors : Errors)
  | onSubStart (sub : SubId) (errors : Errors)
  | onSubCommit (sub : SubId) (errors : Errors)
  | onSubAbort (sub : SubId) (errors : Errors)
  | onPrecommit (errors : Errors)
  | onAbort (errors : Errors)
  /-- Postgres has committed or aborted the transaction. -/
  | xactEnd

namespace SharedFile

def start (file : Table) : SharedFile := ⟨file, 0, none, fun _ => .opened⟩

def current (shared : SharedFile) : ReadView := ⟨shared.version, shared.file⟩

def setConn (backend : BackendId) (conn : ViewConn) (shared : SharedFile) : SharedFile :=
  { shared with conns := Function.update shared.conns backend conn }

def change (backend : BackendId) (update : ViewConn → ViewConn) (shared : SharedFile) : SharedFile :=
  shared.setConn backend (update (shared.conns backend))

/-- SQLite ends the transaction of a connection, and its write lock. -/
def finish (commits : Bool) (backend : BackendId) (shared : SharedFile) : SharedFile :=
  let conn := shared.conns backend
  let ended := { conn with txn := none, work := none }
  let writer := if shared.writer = some backend then none else shared.writer
  match if commits then conn.work else none with
  | none => { shared.setConn backend ended.release with writer := writer }
  | some file =>
      let version := shared.version + 1
      let latest := { ended with view := ended.view.map fun _ => ⟨version, file⟩ }
      ⟨file, version, writer, Function.update shared.conns backend latest.release⟩

/-- The end of a statement. Outside a transaction its work is committed, or rolled back if it
failed, once no statement that writes is in progress. -/
def halt (completed : Bool) (backend : BackendId) (shared : SharedFile) : SharedFile :=
  let conn := shared.conns backend
  if conn.txn = none ∧ conn.writing = false then shared.finish completed backend else shared

def fail (rollsBack : Bool) (backend : BackendId) (shared : SharedFile) : SharedFile :=
  if rollsBack then shared.finish false backend else shared.halt false backend

/-- `sqlite3_reset` in `prepare_cached`. What failed with `SQLITE_BUSY` ends as failed. -/
def reset (sql : SqlText) (backend : BackendId) (shared : SharedFile) : SharedFile :=
  if sql ∈ (shared.conns backend).active then
    (shared.change backend (ViewConn.drop sql)).halt (!sql.writes) backend
  else shared

/-- A read: `prepare_cached`, then steps. `select_xmax_batch` of no rowids does not reach SQLite. -/
def read (backend : BackendId) (call : ReadCall) (errors : Errors) (shared : SharedFile) :
    SharedFile × Option ReadResult :=
  if call = .selectXmaxBatch [] then (shared, some (.xmaxes []))
  else
    let ready := (shared.change backend ViewConn.touch).reset call.sql backend
    let viewed := ready.change backend (ViewConn.acquire ready.current)
    match errors (.stmt 0) with
    | some error =>
        ((if error.started then viewed else ready).fail error.rollsBack backend, none)
    | none =>
        let table := (viewed.conns backend).table viewed.file
        let after :=
          if call.unfinished table then viewed.change backend (ViewConn.pend call.sql)
          else viewed.halt true backend
        (after, some (call.result table))

/-- `begin_if_needed`, and whether it returns. -/
def beginIfNeeded (backend : BackendId) (errors : Errors) (shared : SharedFile) : SharedFile × Bool :=
  let conn := shared.conns backend
  if conn.inTxn then (shared, true)
  else
    match errors .begin with
    | some error => (shared.fail error.rollsBack backend, false)
    | none =>
        if conn.txn = none then (shared.change backend ViewConn.begin, true) else (shared, false)

/-- No other backend holds the write lock, and the connection's view, if it has one, is the last
version of the file. -/
def free (backend : BackendId) (shared : SharedFile) : Bool :=
  (shared.writer = none ∨ shared.writer = some backend) ∧
    ((shared.conns backend).view.getD shared.current).version = shared.version

/-- One data statement, and whether it succeeds. One that cannot have the write lock fails with
`SQLITE_BUSY`, and is in progress then unless `sqlite3_exec` ran it. -/
def stmt (backend : BackendId) (error : Option SqlError) (stmt : Table.Stmt) (shared : SharedFile) :
    SharedFile × Bool :=
  let sql := SqlText.ofStmt stmt
  let ready := sql.elim shared fun sql => shared.reset sql backend
  match error with
  | some ⟨false, rollsBack⟩ => (ready.fail rollsBack backend, false)
  | late =>
      if ready.free backend then
        let locked := { ready.change backend (ViewConn.acquire ready.current) with writer := some backend }
        match late with
        | some error => (locked.fail error.rollsBack backend, false)
        | none => ((locked.change backend (ViewConn.execute stmt ready.file)).halt true backend, true)
      else (sql.elim (ready.halt false backend) fun sql => ready.change backend (ViewConn.pend sql), false)

/-- The statements of a write up to the first that fails. -/
def stmts (backend : BackendId) (errors : Errors) : Nat → List Table.Stmt → SharedFile → SharedFile
  | _, [], shared => shared
  | index, stmt :: rest, shared =>
      let (after, completed) := shared.stmt backend (errors (.stmt index)) stmt
      if completed then stmts backend errors (index + 1) rest after else after

def write (backend : BackendId) (write : Write) (errors : Errors) (shared : SharedFile) : SharedFile :=
  let (ready, begun) := (shared.change backend ViewConn.touch).beginIfNeeded backend errors
  if begun then ready.stmts backend errors 0 write.stmts else ready

/-- The body of `on_sub_start`: a failing BEGIN panics, a failing SAVEPOINT warns. -/
def onSubStart (backend : BackendId) (sub : SubId) (errors : Errors) (shared : SharedFile) : SharedFile :=
  if (shared.conns backend).touched then
    let (ready, begun) := shared.beginIfNeeded backend errors
    if begun then
      match errors .savepoint with
      | some error => ready.fail error.rollsBack backend
      | none =>
          if (ready.conns backend).writing then ready else ready.change backend (ViewConn.savepoint sub)
    else ready
  else shared

/-- `RELEASE SAVEPOINT`. Releasing the savepoint that opened the transaction commits. -/
def releaseSave (backend : BackendId) (sub : SubId) (shared : SharedFile) : SharedFile :=
  let conn := shared.conns backend
  match conn.txn with
  | none => shared
  | some txn =>
      match Db.upTo sub txn.saves with
      | [] => shared
      | _ :: below =>
          if conn.writing then shared
          else if below = [] ∧ txn.begun = false then shared.finish true backend
          else shared.setConn backend { conn with txn := some { txn with saves := below } }

/-- `ROLLBACK TO SAVEPOINT`. -/
def rollbackTo (backend : BackendId) (sub : SubId) (shared : SharedFile) : SharedFile :=
  let conn := shared.conns backend
  match conn.txn with
  | none => shared
  | some txn =>
      match Db.upTo sub txn.saves with
      | [] => shared
      | save :: below =>
          shared.setConn backend
            { conn with work := save.contents, txn := some { txn with saves := save :: below } }

/-- `on_sub_commit` and `on_sub_abort`: a statement that fails warns. -/
def onSubEnd (backend : BackendId) (error : Option SqlError) (exec : SharedFile → SharedFile)
    (shared : SharedFile) : SharedFile :=
  if (shared.conns backend).touched ∧ (shared.conns backend).inTxn then
    match error with
    | some error => shared.fail error.rollsBack backend
    | none => exec shared
  else shared

/-- `on_precommit`: `TX_RELS` is taken first, and a failing COMMIT leaves `in_txn` set. -/
def onPrecommit (backend : BackendId) (errors : Errors) (shared : SharedFile) : SharedFile :=
  let conn := shared.conns backend
  let taken := shared.change backend fun conn => { conn with touched := false }
  if conn.touched ∧ conn.inTxn then
    match errors .commit with
    | some error => taken.fail error.rollsBack backend
    | none =>
        if conn.txn = none ∨ conn.writing then taken
        else (taken.finish true backend).change backend fun conn => { conn with inTxn := false }
  else taken

/-- `on_abort`: a ROLLBACK that fails warns. -/
def onAbort (backend : BackendId) (errors : Errors) (shared : SharedFile) : SharedFile :=
  let conn := shared.conns backend
  let taken := shared.change backend fun conn => { conn with touched := false }
  if conn.touched ∧ conn.inTxn then
    let after :=
      match errors .rollback with
      | some error => taken.fail error.rollsBack backend
      | none => if conn.txn = none then taken else taken.finish false backend
    after.change backend fun conn => { conn with inTxn := false }
  else taken

def step (shared : SharedFile) : BackendId × FileEvent → Option SharedFile
  | (backend, .read call errors) => some (shared.read backend call errors).1
  | (backend, .write write errors) => some (shared.write backend write errors)
  | (backend, .onSubStart sub errors) => some (shared.onSubStart backend sub errors)
  | (backend, .onSubCommit sub errors) =>
      some (shared.onSubEnd backend (errors .release) (releaseSave backend sub))
  | (backend, .onSubAbort sub errors) =>
      some (shared.onSubEnd backend (errors .rollbackTo) (rollbackTo backend sub))
  | (backend, .onPrecommit errors) => some (shared.onPrecommit backend errors)
  | (backend, .onAbort errors) => some (shared.onAbort backend errors)
  | (backend, .xactEnd) => some (shared.change backend fun conn => { conn with wrote := false })

def run : SharedFile → List (BackendId × FileEvent) → Option SharedFile := Transition.run step

section Conns

variable (backend : BackendId) (conn : ViewConn) (update : ViewConn → ViewConn) (shared : SharedFile)

@[simp] theorem setConn_self : (shared.setConn backend conn).conns backend = conn := Function.update_self _ _ _

theorem setConn_other {other : BackendId} (different : other ≠ backend) :
    (shared.setConn backend conn).conns other = shared.conns other := Function.update_of_ne different _ _

@[simp] theorem change_self : (shared.change backend update).conns backend = update (shared.conns backend) :=
  Function.update_self _ _ _

end Conns

/-! ## Freshness -/

/-- The view of a connection is of the file as some commit left it. -/
def Viewed (shared : SharedFile) (conn : ViewConn) : Prop :=
  ∀ view, conn.view = some view →
    view.version ≤ shared.version ∧ (view.version = shared.version → view.table = shared.file)

end SharedFile

/-- Outside a transaction a connection keeps neither a view nor changes without a statement in
progress. -/
def ViewConn.Settled (conn : ViewConn) : Prop :=
  conn.txn = none → (conn.active = [] → conn.view = none) ∧ (conn.writing = false → conn.work = none)

namespace SharedFile

/-- What holds between the actions of the backends. -/
def Coherent (shared : SharedFile) : Prop :=
  ∀ backend, shared.Viewed (shared.conns backend) ∧ (shared.conns backend).Settled

/-- What holds while a statement of the backend runs. -/
structure CoherentBut (backend : BackendId) (shared : SharedFile) : Prop where
  viewed : ∀ other, shared.Viewed (shared.conns other)
  settled : ∀ other, other ≠ backend → (shared.conns other).Settled

section Invariant

variable {shared : SharedFile} {backend : BackendId} {conn : ViewConn}

theorem Viewed.acquire (viewed : shared.Viewed conn) : shared.Viewed (conn.acquire shared.current) := by
  intro view acquired
  cases held : conn.view with
  | none =>
      simp only [ViewConn.acquire, held, Option.getD_none, Option.some.injEq] at acquired
      subst acquired
      exact ⟨Nat.le_refl _, fun _ => rfl⟩
  | some old =>
      simp only [ViewConn.acquire, held, Option.getD_some, Option.some.injEq] at acquired
      subst acquired
      exact viewed old held

theorem Viewed.release (viewed : shared.Viewed conn) : shared.Viewed conn.release := by
  unfold ViewConn.release
  split
  · nofun
  · exact viewed

theorem settled_release (clean : conn.work = none) : conn.release.Settled := by
  unfold ViewConn.release
  split
  · exact fun _ => ⟨fun _ => rfl, fun _ => clean⟩
  · next busy => exact fun _ => ⟨fun idle => absurd idle busy, fun _ => clean⟩

theorem Coherent.but (coherent : shared.Coherent) (backend : BackendId) : shared.CoherentBut backend :=
  ⟨fun other => (coherent other).1, fun other _ => (coherent other).2⟩

namespace CoherentBut

theorem coherent (but : shared.CoherentBut backend) (settled : (shared.conns backend).Settled) :
    shared.Coherent := by
  intro other
  refine ⟨but.viewed other, ?_⟩
  by_cases own : other = backend
  · exact own ▸ settled
  · exact but.settled other own

theorem setConn (but : shared.CoherentBut backend) (viewed : shared.Viewed conn) :
    (shared.setConn backend conn).CoherentBut backend := by
  refine ⟨fun other => ?_, fun other different => ?_⟩
  · by_cases own : other = backend
    · rw [own, setConn_self]
      exact viewed
    · rw [setConn_other _ _ _ own]
      exact but.viewed other
  · rw [setConn_other _ _ _ different]
    exact but.settled other different

theorem change (but : shared.CoherentBut backend) {update : ViewConn → ViewConn}
    (view : (update (shared.conns backend)).view = (shared.conns backend).view) :
    (shared.change backend update).CoherentBut backend :=
  but.setConn fun found held => but.viewed backend found (view ▸ held)

theorem acquire (but : shared.CoherentBut backend) :
    (shared.change backend (ViewConn.acquire shared.current)).CoherentBut backend :=
  but.setConn (but.viewed backend).acquire

theorem finish (but : shared.CoherentBut backend) (commits : Bool) :
    (shared.finish commits backend).Coherent := by
  unfold SharedFile.finish
  dsimp only
  split
  · have ended : shared.Viewed { shared.conns backend with txn := none, work := none } := but.viewed backend
    refine (but.setConn ended.release).coherent ?_
    rw [setConn_self]
    exact settled_release rfl
  · next file _ =>
      intro other
      by_cases own : other = backend
      · subst own
        simp only [Function.update_self]
        refine ⟨Viewed.release fun view held => ?_, settled_release rfl⟩
        obtain ⟨_, _, rfl⟩ := Option.map_eq_some_iff.mp held
        exact ⟨Nat.le_refl _, fun _ => rfl⟩
      · simp only [Function.update_of_ne own]
        refine ⟨fun view held => ?_, but.settled other own⟩
        -- The other views are of versions before the new one.
        have before := Nat.lt_succ_of_le (but.viewed other view held).1
        exact ⟨Nat.le_of_lt before, fun same => absurd same (Nat.ne_of_lt before)⟩

theorem halt (but : shared.CoherentBut backend) (completed : Bool) :
    (shared.halt completed backend).Coherent := by
  unfold SharedFile.halt
  dsimp only
  split
  · exact but.finish completed
  · next still =>
      refine but.coherent fun none => ⟨fun idle => ?_, fun bare => absurd ⟨none, bare⟩ still⟩
      exact absurd ⟨none, by rw [ViewConn.writing, idle, List.any_nil]⟩ still

theorem fail (but : shared.CoherentBut backend) (rollsBack : Bool) :
    (shared.fail rollsBack backend).Coherent := by
  unfold SharedFile.fail
  split
  · exact but.finish false
  · exact but.halt false

end CoherentBut

namespace Coherent

theorem setConn (coherent : shared.Coherent) (view : conn.view = (shared.conns backend).view)
    (settled : conn.Settled) : (shared.setConn backend conn).Coherent := by
  have viewed : shared.Viewed conn := fun found held => (coherent backend).1 found (view ▸ held)
  refine ((coherent.but backend).setConn viewed).coherent ?_
  rw [setConn_self]
  exact settled

theorem change (coherent : shared.Coherent) {update : ViewConn → ViewConn}
    (view : (update (shared.conns backend)).view = (shared.conns backend).view)
    (settled : (update (shared.conns backend)).Settled) : (shared.change backend update).Coherent :=
  coherent.setConn view settled

theorem touch (coherent : shared.Coherent) (backend : BackendId) :
    (shared.change backend ViewConn.touch).Coherent :=
  coherent.change rfl (coherent backend).2

theorem reset (coherent : shared.Coherent) (sql : SqlText) (backend : BackendId) :
    (shared.reset sql backend).Coherent := by
  unfold SharedFile.reset
  split
  · have dropped : (shared.change backend (ViewConn.drop sql)).CoherentBut backend :=
      (coherent.but backend).change rfl
    exact dropped.halt _
  · exact coherent

theorem read (coherent : shared.Coherent) (backend : BackendId) (call : ReadCall) (errors : Errors) :
    (shared.read backend call errors).1.Coherent := by
  unfold SharedFile.read
  split
  · exact coherent
  · have ready := (coherent.touch backend).reset call.sql backend
    have viewed := (ready.but backend).acquire
    dsimp only
    split
    · next error _ =>
        cases error.started with
        | false => exact (ready.but backend).fail _
        | true => exact viewed.fail _
    · split
      · refine (viewed.change rfl).coherent ?_
        rw [change_self, change_self]
        intro none
        refine ⟨nofun, fun bare => ((ready backend).2 none).2 ?_⟩
        exact (Bool.or_eq_false_iff.mp bare).2
      · exact viewed.halt true

theorem beginIfNeeded (coherent : shared.Coherent) (backend : BackendId) (errors : Errors) :
    (shared.beginIfNeeded backend errors).1.Coherent := by
  unfold SharedFile.beginIfNeeded
  dsimp only
  split
  · exact coherent
  · split
    · exact (coherent.but backend).fail _
    · split
      · exact coherent.change rfl nofun
      · exact coherent

theorem stmt (coherent : shared.Coherent) (backend : BackendId) (error : Option SqlError)
    (stmt : Table.Stmt) : (shared.stmt backend error stmt).1.Coherent := by
  have ready : ((SqlText.ofStmt stmt).elim shared fun sql => shared.reset sql backend).Coherent := by
    cases SqlText.ofStmt stmt with
    | none => exact coherent
    | some sql => exact coherent.reset sql backend
  unfold SharedFile.stmt
  dsimp only
  generalize ((SqlText.ofStmt stmt).elim shared fun sql => shared.reset sql backend) = before at ready
  split
  · exact (ready.but backend).fail _
  · split
    · have locked : CoherentBut backend
          { before.change backend (ViewConn.acquire before.current) with writer := some backend } := by
        have acquired := (ready.but backend).acquire
        exact ⟨acquired.viewed, acquired.settled⟩
      split
      · exact locked.fail _
      · exact CoherentBut.halt (locked.change rfl) true
    · cases found : SqlText.ofStmt stmt with
      | none => exact (ready.but backend).halt false
      | some sql =>
          refine ready.change rfl fun none => ⟨nofun, fun bare => ?_⟩
          -- A data statement in progress writes.
          have writes : sql.writes = true := by
            cases stmt <;> cases found <;> rfl
          rw [ViewConn.writing, ViewConn.pend, List.any_cons, writes] at bare
          cases bare

theorem stmts (coherent : shared.Coherent) (backend : BackendId) (errors : Errors) (index : Nat)
    (rest : List Table.Stmt) : (shared.stmts backend errors index rest).Coherent := by
  induction rest generalizing shared index with
  | nil => exact coherent
  | cons stmt rest ih =>
      have after := coherent.stmt backend (errors (.stmt index)) stmt
      unfold SharedFile.stmts
      dsimp only
      split
      · exact ih after (index + 1)
      · exact after

theorem write (coherent : shared.Coherent) (backend : BackendId) (write : Write) (errors : Errors) :
    (shared.write backend write errors).Coherent := by
  have begun := (coherent.touch backend).beginIfNeeded backend errors
  unfold SharedFile.write
  dsimp only
  split
  · exact begun.stmts backend errors 0 write.stmts
  · exact begun

theorem onSubStart (coherent : shared.Coherent) (backend : BackendId) (sub : SubId) (errors : Errors) :
    (shared.onSubStart backend sub errors).Coherent := by
  have begun := coherent.beginIfNeeded backend errors
  unfold SharedFile.onSubStart
  dsimp only
  split
  · split
    · split
      · exact (begun.but backend).fail _
      · split
        · exact begun
        · exact begun.change rfl nofun
    · exact begun
  · exact coherent

theorem releaseSave (coherent : shared.Coherent) (backend : BackendId) (sub : SubId) :
    (shared.releaseSave backend sub).Coherent := by
  unfold SharedFile.releaseSave
  dsimp only
  split
  · exact coherent
  · split
    · exact coherent
    · split
      · exact coherent
      · split
        · exact (coherent.but backend).finish true
        · exact coherent.setConn rfl nofun

theorem rollbackTo (coherent : shared.Coherent) (backend : BackendId) (sub : SubId) :
    (shared.rollbackTo backend sub).Coherent := by
  unfold SharedFile.rollbackTo
  dsimp only
  split
  · exact coherent
  · split
    · exact coherent
    · exact coherent.setConn rfl nofun

theorem onSubEnd (coherent : shared.Coherent) {error : Option SqlError} {exec : SharedFile → SharedFile}
    (runs : (exec shared).Coherent) : (shared.onSubEnd backend error exec).Coherent := by
  unfold SharedFile.onSubEnd
  split
  · split
    · exact (coherent.but backend).fail _
    · exact runs
  · exact coherent

theorem onPrecommit (coherent : shared.Coherent) (backend : BackendId) (errors : Errors) :
    (shared.onPrecommit backend errors).Coherent := by
  have taken : (shared.change backend fun conn => { conn with touched := false }).Coherent :=
    coherent.change rfl (coherent backend).2
  unfold SharedFile.onPrecommit
  dsimp only
  split
  · split
    · exact (taken.but backend).fail _
    · split
      · exact taken
      · have ended := (taken.but backend).finish true
        exact ended.change rfl (ended backend).2
  · exact taken

theorem onAbort (coherent : shared.Coherent) (backend : BackendId) (errors : Errors) :
    (shared.onAbort backend errors).Coherent := by
  have taken : (shared.change backend fun conn => { conn with touched := false }).Coherent :=
    coherent.change rfl (coherent backend).2
  have left (after : SharedFile) (ended : after.Coherent) :
      (after.change backend fun conn => { conn with inTxn := false }).Coherent :=
    ended.change rfl (ended backend).2
  unfold SharedFile.onAbort
  dsimp only
  split
  · refine left _ ?_
    split
    · exact (taken.but backend).fail _
    · split
      · exact taken
      · exact (taken.but backend).finish false
  · exact taken

theorem step (coherent : shared.Coherent) {event : BackendId × FileEvent} {next : SharedFile}
    (stepped : shared.step event = some next) : next.Coherent := by
  obtain ⟨backend, event⟩ := event
  cases event with
  | read call errors =>
      cases stepped
      exact coherent.read backend call errors
  | write write errors =>
      cases stepped
      exact coherent.write backend write errors
  | onSubStart sub errors =>
      cases stepped
      exact coherent.onSubStart backend sub errors
  | onSubCommit sub errors =>
      cases stepped
      exact coherent.onSubEnd (coherent.releaseSave backend sub)
  | onSubAbort sub errors =>
      cases stepped
      exact coherent.onSubEnd (coherent.rollbackTo backend sub)
  | onPrecommit errors =>
      cases stepped
      exact coherent.onPrecommit backend errors
  | onAbort errors =>
      cases stepped
      exact coherent.onAbort backend errors
  | xactEnd =>
      cases stepped
      exact coherent.change rfl (coherent backend).2

theorem start (file : Table) : (SharedFile.start file).Coherent :=
  fun _ => ⟨nofun, fun _ => ⟨fun _ => rfl, fun _ => rfl⟩⟩

theorem run {file : Table} {events : List (BackendId × FileEvent)}
    (reached : SharedFile.run (SharedFile.start file) events = some shared) : shared.Coherent :=
  Transition.run_invariant (fun _ _ _ coherent _ stepped => coherent.step stepped)
    (start file) (Transition.meets_trivial _ _) reached

end Coherent

end Invariant

/-- The connection has no transaction open and no other statement in progress, or it has no
uncommitted changes, and no commit changed the file since its view was acquired. -/
def Unpinned (shared : SharedFile) (backend : BackendId) (sql : SqlText) : Prop :=
  let conn := shared.conns backend
  (conn.txn = none ∧ ∀ other ∈ conn.active, other = sql) ∨
    conn.work = none ∧ ∀ view ∈ conn.view, view.version = shared.version

instance (shared : SharedFile) (backend : BackendId) (sql : SqlText) :
    Decidable (shared.Unpinned backend sql) :=
  inferInstanceAs (Decidable ((_ ∧ _) ∨ _ ∧ ∀ view ∈ (shared.conns backend).view, _))

/-- The end of a transaction that has changed nothing. -/
theorem finish_unchanged {shared : SharedFile} {backend : BackendId} (commits : Bool)
    (unwritten : (shared.conns backend).work = none) :
    let next := shared.finish commits backend
    next.file = shared.file ∧ next.version = shared.version ∧
      next.conns backend = ViewConn.release { shared.conns backend with txn := none, work := none } := by
  have none : (if commits then (shared.conns backend).work else none) = none := by
    rw [unwritten, ite_self]
  unfold finish
  simp only [none]
  exact ⟨rfl, rfl, setConn_self _ _ _⟩

/-- What `prepare_cached` leaves for an unpinned read. -/
theorem reset_unpinned {shared : SharedFile} (coherent : shared.Coherent) {backend : BackendId}
    {sql : SqlText} (reads : sql.writes = false) (unpinned : shared.Unpinned backend sql) :
    let ready := shared.reset sql backend
    ready.file = shared.file ∧ ready.version = shared.version ∧ (ready.conns backend).work = none ∧
      ∀ view ∈ (ready.conns backend).view, view.version = shared.version := by
  obtain ⟨idle, settled⟩ : ((shared.conns backend).txn = none → (shared.conns backend).active = [] →
      (shared.conns backend).view = none) ∧ ((shared.conns backend).txn = none →
      (shared.conns backend).writing = false → (shared.conns backend).work = none) :=
    ⟨fun none => ((coherent backend).2 none).1, fun none => ((coherent backend).2 none).2⟩
  have clean : (shared.conns backend).work = none := by
    rcases unpinned with ⟨none, own⟩ | ⟨clean, _⟩
    · refine settled none (List.any_eq_false.mpr fun other member => ?_)
      rw [own other member, reads]
      exact Bool.false_ne_true
    · exact clean
  have alone (none : (shared.conns backend).txn = none) (own : ∀ other ∈ (shared.conns backend).active, other = sql) :
      ((shared.conns backend).drop sql).active = [] := by
    simpa [ViewConn.drop, List.filter_eq_nil_iff] using own
  unfold reset
  split
  · next pending =>
      unfold halt
      dsimp only
      rw [change_self]
      split
      · have unwritten : ((shared.change backend (ViewConn.drop sql)).conns backend).work = none := by
          rw [change_self]
          exact clean
        obtain ⟨file, version, conn⟩ := finish_unchanged (!sql.writes) unwritten
        refine ⟨file, version, ?_⟩
        rw [conn, change_self]
        unfold ViewConn.release
        split
        · exact ⟨rfl, nofun⟩
        · next busy =>
            refine ⟨rfl, (unpinned.resolve_left fun pinned => busy ?_).2⟩
            exact alone pinned.1 pinned.2
      · next still =>
          rw [change_self]
          refine ⟨rfl, rfl, clean, (unpinned.resolve_left fun pinned => still ⟨pinned.1, ?_⟩).2⟩
          rw [ViewConn.writing, alone pinned.1 pinned.2, List.any_nil]
  · next absent =>
      refine ⟨rfl, rfl, clean, ?_⟩
      rcases unpinned with ⟨none, own⟩ | ⟨_, latest⟩
      · have empty : (shared.conns backend).active = [] := by
          refine List.eq_nil_iff_forall_not_mem.mpr fun other member => absent ?_
          exact own other member ▸ member
        rw [idle none empty]
        nofun
      · exact latest

/-- In every run, a read of a relation returns what the last committed file gives, unless an old
view is pinned or changes of the backend are left uncommitted. -/
theorem read_fresh {file : Table} {events : List (BackendId × FileEvent)} {shared : SharedFile}
    (reached : SharedFile.run (SharedFile.start file) events = some shared)
    (backend : BackendId) (call : ReadCall) {errors : Errors} (sane : errors (.stmt 0) = none)
    (unpinned : shared.Unpinned backend call.sql) :
    (shared.read backend call errors).2 = some (call.result shared.file) := by
  have coherent := (Coherent.run reached).touch backend
  have reads : call.sql.writes = false := by
    cases call <;> rfl
  have touched : (shared.change backend ViewConn.touch).Unpinned backend call.sql := by
    unfold Unpinned
    rw [change_self]
    exact unpinned
  obtain ⟨same, version, clean, latest⟩ := reset_unpinned coherent reads touched
  have viewed := ((coherent.reset call.sql backend) backend).1
  unfold SharedFile.read
  split
  · next empty => simp [empty, ReadCall.result, Table.selectXmaxBatch]
  · rw [sane]
    dsimp only
    rw [change_self]
    generalize (shared.change backend ViewConn.touch).reset call.sql backend = ready at *
    have table : ((ready.conns backend).acquire ready.current).table ready.file = shared.file := by
      rw [ViewConn.table, ViewConn.acquire, clean, Option.getD_none]
      cases held : (ready.conns backend).view with
      | none => exact same
      | some view =>
          have current := latest view held
          exact ((viewed view held).2 (current.trans version.symm)).trans same
    exact congrArg (fun table => some (call.result table)) table

def noErrors : Errors := fun _ => none

def oneRow : Table := Table.empty.insertRow 100#32 0#32 [1]

def committing (backend : BackendId) (event : FileEvent) : List (BackendId × FileEvent) :=
  [(backend, event), (backend, .onPrecommit noErrors), (backend, .xactEnd)]

/-- Backend 1 reads, backend 2 commits a row, and backend 1 reads again. -/
def readsAround (first : ReadCall) : List (BackendId × FileEvent) :=
  committing 1 (.read first noErrors) ++ committing 2 (.write (.insert 101#32 0#32 [2]) noErrors)

theorem selectAll_fresh :
    ∃ shared, SharedFile.run (SharedFile.start oneRow) (readsAround .selectAll) = some shared ∧
      (shared.read 1 .selectAll noErrors).2 = some (ReadCall.selectAll.result shared.file) ∧
      shared.file.countRows = 2 := by
  have ends : ∃ shared,
      SharedFile.run (SharedFile.start oneRow) (readsAround .selectAll) = some shared ∧
      shared.Unpinned 1 ReadCall.selectAll.sql ∧ shared.file.countRows = 2 := ⟨_, rfl, by decide, by decide⟩
  obtain ⟨shared, reached, unpinned, count⟩ := ends
  exact ⟨shared, reached, read_fresh reached 1 .selectAll rfl unpinned, count⟩

/-- `fetch_one_ref` that found its row leaves the statement un-reset, and the next
scan of that backend misses the committed row. -/
theorem fetchOneRef_pins :
    ∃ shared, SharedFile.run (SharedFile.start oneRow) (readsAround (.fetchOneRef 1)) = some shared ∧
      (shared.conns 1).wrote = false ∧ shared.file.countRows = 2 ∧
      (shared.read 1 .selectAll noErrors).2 = some (.rows oneRow.rows) ∧
      (shared.read 1 .selectAll noErrors).2 ≠ some (ReadCall.selectAll.result shared.file) :=
  ⟨_, rfl, by decide, by decide, by decide, by decide⟩

/-- Backend 1 reads in a subtransaction while backend 2 commits a row. Its own insert then fails
with `SQLITE_BUSY`, and SQLite refuses the COMMIT after `TX_RELS` was taken. -/
def commitRefused : List (BackendId × FileEvent) :=
  [(1, .read .selectAll noErrors), (1, .onSubStart 2 noErrors), (1, .read .selectAll noErrors)] ++
    committing 2 (.write (.insert 101#32 0#32 [2]) noErrors) ++
    [(1, .write (.insert 102#32 0#32 [3]) noErrors), (1, .onSubAbort 2 noErrors),
      (1, .onPrecommit noErrors), (1, .xactEnd)]

example : ∃ shared, SharedFile.run (SharedFile.start oneRow) commitRefused = some shared ∧
    (shared.conns 1).touched = false ∧ (shared.conns 1).txn ≠ none ∧
    (shared.read 1 .selectAll noErrors).2 = some (.rows oneRow.rows) :=
  ⟨_, rfl, by decide, by decide, by decide⟩

end SharedFile

end SqliteHeap
