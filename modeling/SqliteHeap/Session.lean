import Mathlib.Data.Finset.Basic
import SqliteHeap.Lib.SavepointStack
import SqliteHeap.Storage

/-! `sqlite.rs` of one backend: the connection cache `CONNS`, the set `TX_RELS`,
the lazily opened SQLite transactions and the callbacks that tie them to the
Postgres transaction. Any SQL statement and any open may fail. A failing statement
changes nothing, but SQLite answers some errors (`SQLITE_FULL`, `SQLITE_IOERR`,
`SQLITE_NOMEM`) by rolling its whole transaction back. Nothing tells `in_txn`, which
stays set: later statements commit by themselves, a SAVEPOINT opens a transaction, and
COMMIT fails without one. -/

set_option autoImplicit false

namespace SqliteHeap

open SavepointStack

/-- Relation OIDs, the `u32` keys of `CONNS` and `TX_RELS`. -/
abbrev RelId := Nat
/-- Postgres numbers the subtransactions of each transaction afresh. -/
abbrev SubId := Nat

/-- One execution of a data statement. `tick` tells executions apart. -/
structure Entry where
  tick : Nat
  stmt : Table.Stmt
deriving DecidableEq

/-- File contents: the table found on disk at first and what ran on it since. -/
structure Contents where
  base : Table
  log : List Entry
deriving DecidableEq

namespace Contents

def fresh : Contents := ⟨Table.empty, []⟩

def append (entries : List Entry) (contents : Contents) : Contents :=
  { contents with log := contents.log ++ entries }

/-- The tables that reading the contents gives. -/
def table (contents : Contents) : Table :=
  contents.log.foldl (fun table entry => table.exec entry.stmt) contents.base

@[simp] theorem append_log (entries : List Entry) (contents : Contents) :
    (contents.append entries).log = contents.log ++ entries := rfl

@[simp] theorem append_nil (contents : Contents) : contents.append [] = contents := by
  simp [append]

theorem append_append (first second : List Entry) (contents : Contents) :
    (contents.append first).append second = contents.append (first ++ second) := by
  simp [append]

theorem append_table (entries : List Entry) (contents : Contents) :
    (contents.append entries).table =
      entries.foldl (fun table entry => table.exec entry.stmt) contents.table := by
  simp [append, table, List.foldl_append]

end Contents

abbrev SqliteDb := Db SubId Contents

/-- The places where SQLite may report an error; `stmt index` is the data
statement of that position in one call. -/
inductive Sql where
  | openConn | begin | commit | rollback | savepoint | release | rollbackTo
  | stmt (index : Nat)
  /-- Not a place: the error is one that SQLite answers with a rollback. -/
  | rollsBack
deriving DecidableEq

/-- Which statements fail during one event. -/
abbrev Faults := RelId → Sql → Bool

inductive Panic where
  | failed (statement : Sql)
  /-- `expect("connection should be cached")`. -/
  | notCached
deriving DecidableEq

structure RelConn where
  db : SqliteDb
  inTxn : Bool
deriving DecidableEq

namespace RelConn

/-- `open_conn`: SQLite creates the file when it is missing. -/
def openConn (file : Option Contents) : RelConn := ⟨⟨file.getD Contents.fresh, none⟩, false⟩

/-- `begin_if_needed`; `none` is a panic. -/
def beginIfNeeded (fails : Sql → Bool) (conn : RelConn) : Option RelConn :=
  if conn.inTxn then some conn
  else if fails .begin then none
  else conn.db.begin.map fun db => ⟨db, true⟩

/-- What an error leaves: SQLite may have rolled the transaction back. -/
def afterError (fails : Sql → Bool) (conn : RelConn) : RelConn :=
  if fails .rollsBack then { conn with db := conn.db.abandon } else conn

/-- `commit`; `none` is a panic, which leaves `in_txn` set. -/
def commit (fails : Sql → Bool) (conn : RelConn) : Option RelConn :=
  if !conn.inTxn then some conn
  else if fails .commit then none
  else conn.db.commit.map fun db => ⟨db, false⟩

/-- A statement whose failure is downgraded to a warning. -/
def tryExec (fails : Bool) (exec : SqliteDb → Option SqliteDb) (conn : RelConn) : RelConn :=
  if fails then conn else { conn with db := (exec conn.db).getD conn.db }

/-- The same inside a transaction that SQLite may roll back because of it. -/
def warnExec (fails : Sql → Bool) (statement : Sql) (exec : SqliteDb → Option SqliteDb)
    (conn : RelConn) : RelConn :=
  if fails statement then conn.afterError fails else conn.tryExec false exec

/-- `rollback`: a failure only warns, and `in_txn` is cleared all the same. -/
def rollback (fails : Sql → Bool) (conn : RelConn) : RelConn :=
  if !conn.inTxn then conn
  else { conn.tryExec (fails .rollback) Db.rollback with inTxn := false }

/-- What statements of this connection read. -/
def view (conn : RelConn) : Contents := conn.db.view

/-- The statements of one call up to the first that fails, and whether none does. -/
def stmtsRun (fails : Sql → Bool) : Nat → List Table.Stmt → List Table.Stmt × Bool
  | _, [] => ([], true)
  | index, stmt :: rest =>
      if fails (.stmt index) then ([], false)
      else
        let (ran, completed) := stmtsRun fails (index + 1) rest
        (stmt :: ran, completed)

/-- Number the executions of one call. -/
def entries (tick : Nat) (ran : List Table.Stmt) : List Entry :=
  ran.zipIdx.map fun numbered => ⟨tick + numbered.2, numbered.1⟩

/-- Execute entries in the connection's transaction, or one by one outside it. -/
def execute (ran : List Entry) (conn : RelConn) : RelConn :=
  { conn with db := conn.db.write (Contents.append ran) }

end RelConn

/-- A relation seen from one backend: its file, with a cached connection or not. -/
inductive RelState where
  | closed (file : Option Contents)
  | opened (conn : RelConn)
deriving DecidableEq

namespace RelState

/-- The committed file. -/
def file : RelState → Option Contents
  | .closed file => file
  | .opened conn => some conn.db.file

/-- What the backend reads; a missing file is created empty by the open. -/
def view : RelState → Contents
  | .closed file => file.getD Contents.fresh
  | .opened conn => conn.view

/-- The connection that `with_conn` hands out, opened when it is not cached. -/
def conn : RelState → RelConn
  | .closed file => RelConn.openConn file
  | .opened conn => conn

/-- The relation has an entry in `CONNS`. -/
def cached : RelState → Bool
  | .closed _ => false
  | .opened _ => true

def mapConn (change : RelConn → RelConn) : RelState → RelState
  | .closed file => .closed file
  | .opened conn => .opened (change conn)

end RelState

structure Backend where
  /-- `CONNS` together with the files under `$PGDATA/sqlite_heap`. -/
  rels : RelId → RelState
  /-- `TX_RELS`. -/
  txRels : Finset RelId
  /-- The five callbacks of `ensure_in_xact` are registered in the current
  transaction. A second registration would find `TX_RELS` empty. -/
  registered : Bool
  /-- The `Commit` callbacks registered by `drop_relation`, in order. -/
  drops : List RelId

/-- How a Rust function ended. A panic keeps what was changed before it. -/
inductive Outcome where
  | returned (backend : Backend)
  | panicked (reason : Panic) (backend : Backend)

namespace Outcome

def backend : Outcome → Backend
  | .returned backend => backend
  | .panicked _ backend => backend

def completed : Outcome → Bool
  | .returned _ => true
  | .panicked _ _ => false

end Outcome

namespace Backend

def setRel (rel : RelId) (state : RelState) (backend : Backend) : Backend :=
  { backend with rels := Function.update backend.rels rel state }

/-- `ensure_in_xact`. The relation enters `TX_RELS` before its connection is
opened, and the callbacks are registered after. -/
def ensureInXact (fails : Faults) (rel : RelId) (backend : Backend) : Outcome :=
  let firstRelationInXact : Bool := backend.txRels = ∅
  let newRelation : Bool := rel ∉ backend.txRels
  let touched := { backend with txRels := insert rel backend.txRels }
  let register : Backend → Backend := fun state =>
    if firstRelationInXact then { state with registered := true } else state
  match backend.rels rel with
  | .closed file =>
      if newRelation then
        if fails rel .openConn then .panicked (.failed .openConn) touched
        else .returned (register (touched.setRel rel (.opened (RelConn.openConn file))))
      else .returned (register touched)
  | .opened _ => .returned (register touched)

/-- The connection that `ensure_in_xact` leaves for the closure of `with_conn`. -/
def reached (fails : Faults) (rel : RelId) (backend : Backend) : Option RelConn :=
  match ensureInXact fails rel backend with
  | .panicked _ _ => none
  | .returned after =>
      match after.rels rel with
      | .closed _ => none
      | .opened conn => some conn

/-- `with_conn`, for a closure that may panic after changing the connection. -/
def withConn (fails : Faults) (rel : RelId) (use : RelConn → RelConn × Option Panic)
    (backend : Backend) : Outcome :=
  match ensureInXact fails rel backend with
  | .panicked reason after => .panicked reason after
  | .returned after =>
      match after.rels rel with
      | .closed _ => .panicked .notCached after
      | .opened conn =>
          match use conn with
          | (changed, none) => .returned (after.setRel rel (.opened changed))
          | (changed, some reason) => .panicked reason (after.setRel rel (.opened changed))

/-- The closure of every write: `begin_if_needed`, then the statements. -/
def writeConn (fails : Sql → Bool) (tick : Nat) (stmts : List Table.Stmt) (conn : RelConn) :
    RelConn × Option Panic :=
  match conn.beginIfNeeded fails with
  | none => (conn, some (.failed .begin))
  | some begun =>
      let (ran, completed) := RelConn.stmtsRun fails 0 stmts
      let written := begun.execute (RelConn.entries tick ran)
      if completed then (written, none)
      else (written.afterError fails, some (.failed (.stmt ran.length)))

/-- The closure of every read: no SQLite transaction is opened for it. -/
def readConn (fails : Sql → Bool) (conn : RelConn) : RelConn × Option Panic :=
  if fails (.stmt 0) then (conn.afterError fails, some (.failed (.stmt 0))) else (conn, none)

/-- `run_on_txn_conns`: the connections are distinct, so the order of the set does
not matter. -/
def runOnTxnConns (exec : RelId → RelConn → RelConn) (backend : Backend) : Backend :=
  { backend with
    rels := fun rel =>
      if rel ∈ backend.txRels then
        (backend.rels rel).mapConn fun conn => if conn.inTxn then exec rel conn else conn
      else backend.rels rel }

/-- A loop over relations in iteration order that changes each cached connection
and panics, skipping the rest, where `body` is `none`. The connection it panics on
is then as `left` says. Also returns the relations that it got through. -/
def forConns (body : RelId → RelConn → Option RelConn) (left : RelId → RelConn → RelConn)
    (reason : Panic) : List RelId → Backend → List RelId × Outcome
  | [], backend => ([], .returned backend)
  | rel :: rest, backend =>
      match backend.rels rel with
      | .closed _ => forConns body left reason rest backend
      | .opened conn =>
          match body rel conn with
          | none => ([], .panicked reason (backend.setRel rel (.opened (left rel conn))))
          | some changed =>
              let (through, outcome) :=
                forConns body left reason rest (backend.setRel rel (.opened changed))
              (rel :: through, outcome)

/-- The body of `on_sub_start`: a failing BEGIN panics, a failing SAVEPOINT warns. -/
def subStartConn (fails : Faults) (sub : SubId) (rel : RelId) (conn : RelConn) : Option RelConn :=
  (conn.beginIfNeeded (fails rel)).map fun begun =>
    begun.warnExec (fails rel) .savepoint fun db => some (db.savepoint sub)

def onSubStart (fails : Faults) (sub : SubId) (order : List RelId) (backend : Backend) : Outcome :=
  (forConns (subStartConn fails sub) (fun _ conn => conn) (.failed .begin) order backend).2

def onSubCommit (fails : Faults) (sub : SubId) : Backend → Backend :=
  runOnTxnConns fun rel conn => conn.warnExec (fails rel) .release (Db.release sub)

def onSubAbort (fails : Faults) (sub : SubId) : Backend → Backend :=
  runOnTxnConns fun rel conn => conn.warnExec (fails rel) .rollbackTo (Db.rollbackTo sub)

/-- `on_precommit`: `TX_RELS` is taken before the loop, and a failing COMMIT panics. -/
def onPrecommit (fails : Faults) (order : List RelId) (backend : Backend) : List RelId × Outcome :=
  forConns (fun rel conn => conn.commit (fails rel)) (fun rel conn => conn.afterError (fails rel))
    (.failed .commit) order { backend with txRels := ∅ }

def onAbort (fails : Faults) (backend : Backend) : Backend :=
  { backend with
    rels := fun rel =>
      if rel ∈ backend.txRels then (backend.rels rel).mapConn fun conn => conn.rollback (fails rel)
      else backend.rels rel
    txRels := ∅ }

def dropRelation (rel : RelId) (backend : Backend) : Backend :=
  { backend with drops := backend.drops ++ [rel] }

def unlinkStorage (backend : Backend) (rel : RelId) : Backend :=
  { backend.setRel rel (.closed none) with txRels := backend.txRels.erase rel }

end Backend

/-- The calls of `sqlite.rs` that write. -/
inductive Write where
  | insert (xmin : TransactionId) (cmin : CommandId) (tuple : Bytes)
  | insertBatch (xmin : TransactionId) (cmin : CommandId) (tuples : List Bytes)
  | setXmax (rowid : Int) (xmax : TransactionId) (cmax : CommandId)
  | updateRow (oldRowid : Int) (xid : TransactionId) (cid : CommandId) (tuple : Bytes)
  | physicalDelete (rowid : Int)
  | reset
  | metaSet (key : String) (value : Bytes)
  /-- The `with_conn` block of `vacuum_dead`. -/
  | deleteDead (oldestXmin : TransactionId)
deriving DecidableEq

namespace Write

/-- The statements each call steps, in order. -/
def stmts : Write → List Table.Stmt
  | .insert xmin cmin tuple => [.insertRow xmin cmin tuple]
  | .insertBatch xmin cmin tuples => tuples.map (.insertRow xmin cmin)
  | .setXmax rowid xmax cmax => [.stampRow rowid xmax cmax]
  | .updateRow oldRowid xid cid tuple => [.stampRow oldRowid xid cid, .insertRow xid cid tuple]
  | .physicalDelete rowid => [.deleteRow rowid]
  | .reset => [.deleteAll]
  | .metaSet key value => [.upsertMeta key value]
  | .deleteDead oldestXmin => [.deleteDead oldestXmin]

/-- The table that the whole call leaves, as the CRUD functions compute it. -/
def apply : Write → Table → Table
  | .insert xmin cmin tuple => fun table => (table.insert xmin cmin tuple).1
  | .insertBatch xmin cmin tuples => fun table => (table.insertBatch xmin cmin tuples).1
  | .setXmax rowid xmax cmax => fun table => (table.setXmax rowid xmax cmax).1
  | .updateRow oldRowid xid cid tuple => fun table => (table.updateRow oldRowid xid cid tuple).1
  | .physicalDelete rowid => fun table => (table.physicalDelete rowid).1
  | .reset => Table.reset
  | .metaSet key value => Table.upsertMeta key value
  | .deleteDead oldestXmin => Table.keepRows fun row => !Table.isDead oldestXmin row

theorem foldl_stmts (write : Write) (table : Table) :
    write.stmts.foldl (fun table stmt => table.exec stmt) table = write.apply table := by
  cases write with
  | insertBatch xmin cmin tuples =>
      simp only [stmts, apply, List.foldl_map]
      induction tuples generalizing table with
      | nil => rfl
      | cons tuple rest ih => exact ih _
  | insert | setXmax | updateRow | physicalDelete | reset | metaSet | deleteDead => rfl

end Write

end SqliteHeap
