import SqliteHeap.Lib.Nested
import SqliteHeap.Lib.Transition
import SqliteHeap.Session

/-! Postgres driving one backend. A session takes the events that Postgres can
issue: table operations, subtransaction boundaries and the ends of transactions.
An operation that panics leaves the transaction failed, so that Postgres must
abort the innermost subtransaction, which catches the error, or everything.

Callbacks fire only in the transaction that registered them and are discarded at
its end. The ledger fields record what Postgres has promised and change nothing. -/

set_option autoImplicit false

namespace SqliteHeap

open SavepointStack

inductive Phase where
  | idle
  | running
  /-- Between the `PreCommit` callbacks and the commit record. -/
  | preCommitted
deriving DecidableEq

/-- An open subtransaction, with what it found when it started. -/
structure SubFrame where
  id : SubId
  /-- `TX_RELS`. -/
  touched : Finset RelId
  /-- What the backend read. -/
  contents : RelId → Contents

abbrev Executed := RelId × Entry

structure Session where
  backend : Backend
  phase : Phase
  /-- An error was raised and not yet caught. -/
  failed : Bool
  /-- Open subtransactions, innermost first. -/
  subs : List SubFrame
  nextSub : SubId
  tick : Nat
  /-- Statements of the transaction that no aborted subtransaction undid. -/
  ledger : Nested (List Executed)
  /-- The ledger as `PreCommit` found it. -/
  precommitted : List Executed
  /-- Every statement the transaction executed. -/
  attempted : List Executed
  /-- Relations that `on_precommit` got through, their COMMIT done. -/
  commitRan : List RelId
  /-- Statements of aborted transactions, but those that a COMMIT made durable. -/
  lost : List Executed
  /-- `drop_relation` calls that no aborted subtransaction undid. -/
  dropLedger : Nested (List RelId)
  /-- `drop_relation` calls that an aborted subtransaction undid. -/
  undoneDrops : List RelId

/-- What a run is made of. `order` is the iteration order of `TX_RELS`. -/
inductive Event where
  | begin
  | call (rel : RelId) (write : Write) (fails : Faults)
  | read (rel : RelId) (fails : Faults)
  | drop (rel : RelId)
  | startSub (order : List RelId) (fails : Faults)
  | commitSub (fails : Faults)
  | abortSub (fails : Faults)
  | preCommit (order : List RelId) (fails : Faults)
  | commit
  | abort (fails : Faults)

namespace Session

/-- A backend that has just started, over files of any contents. -/
def start (files : RelId → Option Table) : Session where
  backend := ⟨fun rel => .closed ((files rel).map fun table => ⟨table, []⟩), ∅, false, []⟩
  phase := .idle
  failed := false
  subs := []
  nextSub := 2
  tick := 0
  ledger := Nested.fresh []
  precommitted := []
  attempted := []
  commitRan := []
  lost := []
  dropLedger := Nested.fresh []
  undoneDrops := []

/-- The connection through which the backend uses a relation. -/
def conn (session : Session) (rel : RelId) : RelConn := (session.backend.rels rel).conn

/-- Contents of a relation as the backend reads them. -/
def view (session : Session) (rel : RelId) : Contents := (session.backend.rels rel).view

def fileContents (session : Session) (rel : RelId) : Contents :=
  (session.backend.rels rel).file.getD Contents.fresh

/-- Everything a transaction keeps in `session` besides the backend is dropped at
its end, the registered callbacks included. -/
def endXact (session : Session) (backend : Backend) : Session :=
  { session with
    backend := { backend with registered := false, drops := [] }
    phase := .idle
    failed := false
    ledger := Nested.fresh []
    precommitted := []
    attempted := []
    commitRan := []
    dropLedger := Nested.fresh []
    undoneDrops := [] }

/-- The statements that a call executes before the first failure. -/
def executed (session : Session) (rel : RelId) (write : Write) (fails : Faults) : List Executed :=
  match (session.backend.reached fails rel).bind fun conn => conn.beginIfNeeded (fails rel) with
  | none => []
  | some _ =>
      (RelConn.entries session.tick (RelConn.stmtsRun (fails rel) 0 write.stmts).1).map
        fun entry => (rel, entry)

/-- A table operation can be issued in a transaction that has not failed. -/
def active (session : Session) : Bool := session.phase ≠ .idle ∧ session.failed = false

/-- An iteration order of `TX_RELS`. -/
def enumerates (session : Session) (order : List RelId) : Bool :=
  order.Nodup ∧ order.toFinset = session.backend.txRels

def runCall (session : Session) (rel : RelId) (write : Write) (fails : Faults) : Session :=
  let outcome := session.backend.withConn fails rel
    (Backend.writeConn (fails rel) session.tick write.stmts)
  let ran := session.executed rel write fails
  { session with
    backend := outcome.backend
    failed := !outcome.completed
    tick := session.tick + write.stmts.length
    ledger := session.ledger.update (· ++ ran)
    attempted := session.attempted ++ ran }

def runRead (session : Session) (rel : RelId) (fails : Faults) : Session :=
  let outcome := session.backend.withConn fails rel (Backend.readConn (fails rel))
  { session with backend := outcome.backend, failed := !outcome.completed }

/-- Postgres opens the subtransaction before it calls `on_sub_start`. -/
def runStartSub (session : Session) (order : List RelId) (fails : Faults) : Session :=
  let outcome :=
    if session.backend.registered then
      Backend.onSubStart fails session.nextSub order session.backend
    else .returned session.backend
  { session with
    backend := outcome.backend
    failed := !outcome.completed
    subs := ⟨session.nextSub, session.backend.txRels, session.view⟩ :: session.subs
    nextSub := session.nextSub + 1
    ledger := session.ledger.start
    dropLedger := session.dropLedger.start }

def runCommitSub (session : Session) (sub : SubFrame) (rest : List SubFrame) (fails : Faults) :
    Session :=
  { session with
    backend :=
      if session.backend.registered then session.backend.onSubCommit fails sub.id
      else session.backend
    subs := rest
    ledger := session.ledger.commit
    dropLedger := session.dropLedger.commit }

/-- Aborting the innermost subtransaction catches the error. -/
def runAbortSub (session : Session) (sub : SubFrame) (rest : List SubFrame) (fails : Faults) :
    Session :=
  { session with
    backend :=
      if session.backend.registered then session.backend.onSubAbort fails sub.id
      else session.backend
    failed := false
    subs := rest
    ledger := session.ledger.abort
    dropLedger := session.dropLedger.abort
    undoneDrops :=
      session.undoneDrops ++
        session.dropLedger.current.drop session.dropLedger.abort.current.length }

def runPreCommit (session : Session) (order : List RelId) (fails : Faults) : Session :=
  let result :=
    if session.backend.registered then session.backend.onPrecommit fails order
    else ([], .returned session.backend)
  { session with
    backend := result.2.backend
    phase := if result.2.completed then .preCommitted else session.phase
    failed := !result.2.completed
    precommitted := session.ledger.current
    ledger := Nested.fresh []
    commitRan := result.1 }

/-- Postgres has written its commit record and runs the `Commit` callbacks. -/
def runCommit (session : Session) : Session :=
  session.endXact (session.backend.drops.foldl Backend.unlinkStorage session.backend)

def runAbort (session : Session) (fails : Faults) : Session :=
  let backend :=
    if session.backend.registered then session.backend.onAbort fails else session.backend
  { session.endXact backend with
    lost := session.lost ++ session.attempted.filter fun executed =>
      executed.1 ∉ session.commitRan ∨ executed.2 ∉ (session.fileContents executed.1).log }

/-- One event; `none` where Postgres cannot issue it. -/
def step (session : Session) : Event → Option Session
  | .begin =>
      if session.phase = .idle then some { session with phase := .running, nextSub := 2 }
      else none
  | .call rel write fails =>
      if session.active then some (session.runCall rel write fails) else none
  | .read rel fails => if session.active then some (session.runRead rel fails) else none
  | .drop rel =>
      if session.phase = .running ∧ session.failed = false then
        some { session with
          backend := session.backend.dropRelation rel
          dropLedger := session.dropLedger.update (· ++ [rel]) }
      else none
  | .startSub order fails =>
      if session.phase = .running ∧ session.failed = false ∧ session.enumerates order then
        some (session.runStartSub order fails)
      else none
  | .commitSub fails =>
      match session.subs with
      | [] => none
      | sub :: rest =>
          if session.phase = .running ∧ session.failed = false then
            some (session.runCommitSub sub rest fails)
          else none
  | .abortSub fails =>
      match session.subs with
      | [] => none
      | sub :: rest =>
          if session.phase = .running then some (session.runAbortSub sub rest fails) else none
  | .preCommit order fails =>
      if session.phase = .running ∧ session.failed = false ∧ session.subs = [] ∧
          session.enumerates order then
        some (session.runPreCommit order fails)
      else none
  | .commit =>
      if session.phase = .preCommitted ∧ session.failed = false then some session.runCommit
      else none
  | .abort fails =>
      if session.phase ≠ .idle ∧ session.subs = [] then some (session.runAbort fails) else none

def run : Session → List Event → Option Session := Transition.run step

/-! ## Inputs of concrete runs -/

def noFaults : Faults := fun _ _ => false

/-- Only this statement fails, on every relation. -/
def failing (statement : Sql) : Faults := fun _ sql => sql = statement

/-- The same, and SQLite answers with a rollback. -/
def losing (statement : Sql) : Faults := fun _ sql => sql = statement ∨ sql = .rollsBack

def noFiles : RelId → Option Table := fun _ => none

def insertOne : Write := .insert 100#32 0#32 [1]

end Session

end SqliteHeap
