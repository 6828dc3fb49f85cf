import SqliteHeap.History
import SqliteHeap.Lib.Versions
import SqliteHeap.TableScan
import SqliteHeap.Vacuum

/-! Any number of backends on one relation, with top-level transactions only and SQL
statements that succeed. Writers hold SQLite's write lock from their first statement
until `PreCommit` or abort, and a read sees the committed file or the reader's own
writes. Each command is also logged on a logical row, which names
what the table means apart from how it stores it. -/

set_option autoImplicit false

namespace SqliteHeap

open Versions

/-- A transaction that writes, with its xid. -/
structure Writer where
  txn : TxnId
  xid : Nat
deriving DecidableEq

abbrev Command := Op Writer Nat Bytes

/-- Command ids as headers and snapshots store them. -/
def storedCid (cid : Nat) : CommandId := BitVec.ofNat 32 cid

/-- A table with what its rows stand for: the logical row at each TID, and the
commands that made it. -/
structure Relation where
  table : Table
  named : Int → Nat
  log : List Command

/-- `TM_Result`, as far as the callbacks return it. -/
inductive TmResult where
  | ok | deleted
deriving DecidableEq

namespace Relation

def empty : Relation := ⟨Table.empty, fun _ => 0, []⟩

/-- The logical row and the tuple at a row's TID. -/
def entry (rel : Relation) (row : StoredRow) : Nat × Bytes := (rel.named row.rowid, row.tuple)

def doTupleInsert (writer : Writer) (cid : Nat) (tuple : Bytes) (rel : Relation) : Relation :=
  let (table, rowid) := rel.table.insert (storedXid writer.xid) (storedCid cid) tuple
  { table := table
    named := Function.update rel.named rowid rel.log.length
    log := rel.log ++ [⟨writer, cid, rel.log.length, some tuple⟩] }

/-- `multi_insert`: the rows of `insert_batch`, one after another. -/
def multiInsert (writer : Writer) (cid : Nat) (tuples : List Bytes) (rel : Relation) : Relation :=
  tuples.foldl (fun rel tuple => rel.doTupleInsert writer cid tuple) rel

/-- The TID holds a row without `xmax`. -/
def hits (rowid : Int) (rel : Relation) : Bool := rel.table.rows.any (Table.isLive rowid)

def tupleDelete (writer : Writer) (cid : Nat) (rowid : Int) (rel : Relation) : Relation × TmResult :=
  let (table, affected) := rel.table.setXmax rowid (storedXid writer.xid) (storedCid cid)
  if affected = 0 then ({ rel with table := table }, .deleted)
  else
    ({ rel with
        table := table
        log := rel.log ++ [⟨writer, cid, rel.named rowid, none⟩] }, .ok)

/-- `tuple_update`, which is `TM_Ok` whether or not it finds the old version. -/
def tupleUpdate (writer : Writer) (cid : Nat) (rowid : Int) (tuple : Bytes) (rel : Relation) :
    Relation × TmResult :=
  let (table, newRowid) := rel.table.updateRow rowid (storedXid writer.xid) (storedCid cid) tuple
  let key := if rel.hits rowid then rel.named rowid else rel.log.length
  ({ table := table
     named := Function.update rel.named newRowid key
     log := rel.log ++ [⟨writer, cid, key, some tuple⟩] }, .ok)

/-- `relation_vacuum`. -/
def vacuum (oldest : TransactionId) (rel : Relation) : Relation :=
  { rel with table := relationVacuum oldest rel.table }

/-- `reset` of TRUNCATE: nothing is left of the relation. -/
def reset (rel : Relation) : Relation := { rel with table := rel.table.reset, log := [] }

theorem multiInsert_table (writer : Writer) (cid : Nat) (tuples : List Bytes) (rel : Relation) :
    (rel.multiInsert writer cid tuples).table =
      (rel.table.insertBatch (storedXid writer.xid) (storedCid cid) tuples).1 := by
  induction tuples generalizing rel with
  | nil => rfl
  | cons tuple rest ih => exact ih (rel.doTupleInsert writer cid tuple)

theorem tupleDelete_table (writer : Writer) (cid : Nat) (rowid : Int) (rel : Relation) :
    (rel.tupleDelete writer cid rowid).1.table =
      rel.table.stampRow rowid (storedXid writer.xid) (storedCid cid) := by
  unfold tupleDelete Table.setXmax
  dsimp only
  by_cases missed : rel.table.rows.countP (Table.isLive rowid) = 0
  · rw [if_pos missed]
  · rw [if_neg missed]

/-! What each call logs when it returns: its own command, and nothing else. -/

theorem doTupleInsert_logs (writer : Writer) (cid : Nat) (tuple : Bytes) (rel : Relation) :
    (rel.doTupleInsert writer cid tuple).log = rel.log ++ [⟨writer, cid, rel.log.length, some tuple⟩] :=
  rfl

theorem multiInsert_logs (writer : Writer) (cid : Nat) (tuples : List Bytes) (rel : Relation) :
    (rel.multiInsert writer cid tuples).log =
      rel.log ++ tuples.mapIdx fun index tuple => ⟨writer, cid, rel.log.length + index, some tuple⟩ := by
  induction tuples generalizing rel with
  | nil => exact (List.append_nil _).symm
  | cons tuple rest ih =>
      have later := ih (rel.doTupleInsert writer cid tuple)
      rw [doTupleInsert_logs, List.length_append, List.length_singleton, List.append_assoc] at later
      refine later.trans ?_
      rw [List.mapIdx_cons, List.singleton_append]
      simp only [Nat.add_zero, Nat.add_assoc, Nat.add_comm 1]

theorem hits_eq_false_iff {rel : Relation} {rowid : Int} :
    rel.hits rowid = false ↔ rel.table.rows.countP (Table.isLive rowid) = 0 := by
  rw [hits, List.countP_eq_zero, List.any_eq_false]

/-- A delete that finds no live row logs nothing, and says so. -/
theorem tupleDelete_logs (writer : Writer) (cid : Nat) (rowid : Int) (rel : Relation) :
    ((rel.tupleDelete writer cid rowid).1.log, (rel.tupleDelete writer cid rowid).2) =
      if rel.hits rowid then (rel.log ++ [⟨writer, cid, rel.named rowid, none⟩], .ok)
      else (rel.log, .deleted) := by
  unfold tupleDelete Table.setXmax
  dsimp only
  cases hit : rel.hits rowid with
  | false => rw [if_pos (hits_eq_false_iff.mp hit), if_neg Bool.false_ne_true]
  | true =>
      have found : ¬ rel.table.rows.countP (Table.isLive rowid) = 0 :=
        hits_eq_false_iff.not.mp (by simp [hit])
      rw [if_neg found, if_pos rfl]

/-- An update that finds no live row logs a new logical row. -/
theorem tupleUpdate_logs (writer : Writer) (cid : Nat) (rowid : Int) (tuple : Bytes) (rel : Relation) :
    ((rel.tupleUpdate writer cid rowid tuple).1.log, (rel.tupleUpdate writer cid rowid tuple).2) =
      (rel.log ++
        [⟨writer, cid, if rel.hits rowid then rel.named rowid else rel.log.length, some tuple⟩], .ok) :=
  rfl

theorem multiInsert_log (writer : Writer) (cid : Nat) (tuples : List Bytes) (rel : Relation) :
    ∃ new, (rel.multiInsert writer cid tuples).log = rel.log ++ new ∧
      ∀ op ∈ new, op.txn.txn = writer.txn ∧ op.cid = cid := by
  refine ⟨_, multiInsert_logs writer cid tuples rel, fun op member => ?_⟩
  obtain ⟨_, _, rfl⟩ := List.mem_mapIdx.mp member
  exact ⟨rfl, rfl⟩

end Relation

/-- An MVCC snapshot in use, with what Postgres was like when it was taken. -/
structure Snap where
  id : Nat
  owner : TxnId
  taken : History
  curcid : Nat
  /-- The first snapshot of a repeatable-read transaction, kept until its end. -/
  pinned : Bool

namespace Snap

def snapshot (snap : Snap) : Snapshot := snap.taken.snapshot snap.owner (storedCid snap.curcid)

/-- The commands that belong to the snapshot: those of transactions that had committed
when it was taken, and the reader's own earlier ones. -/
def sees (snap : Snap) (op : Command) : Bool :=
  snap.taken.status op.txn.txn = .committed || op.txn.txn = snap.owner && op.cid < snap.curcid

/-- The abstract snapshot-isolation store at the snapshot. -/
def store (snap : Snap) (log : List Command) : List (Nat × Bytes) :=
  Versions.store (log.filter snap.sees)

end Snap

/-- A sequential scan under a snapshot. -/
structure Scan where
  id : Nat
  snap : Snap
  cursor : SqliteCursor
  /-- The relation as it was when its rows were loaded. -/
  source : Relation
  returned : List StoredRow
  finished : Bool

structure XactState where
  preCommitted : Bool
  /-- `currentCommandId`. -/
  cid : Nat
  repeatableRead : Bool

structure Backends where
  history : History
  xact : TxnId → XactState
  snaps : List Snap
  scans : List Scan
  /-- The committed SQLite file. -/
  file : Relation
  /-- Who holds the write lock, and the file as they see it. -/
  writer : Option (TxnId × Relation)

inductive BackendsEvent where
  | begin (txn : TxnId) (repeatableRead : Bool)
  | assign (txn : TxnId)
  | commandCounterIncrement (txn : TxnId)
  | takeSnapshot (txn : TxnId) (id : Nat)
  | releaseSnapshot (id : Nat)
  | doTupleInsert (txn : TxnId) (tuple : Bytes)
  | multiInsert (txn : TxnId) (tuples : List Bytes)
  | tupleDelete (txn : TxnId) (snap : Nat) (rowid : Int)
  | tupleUpdate (txn : TxnId) (snap : Nat) (rowid : Int) (tuple : Bytes)
  | relationVacuum (txn : TxnId) (oldest : Nat)
  | reset (txn : TxnId)
  | preCommit (txn : TxnId)
  | commit (txn : TxnId)
  | abort (txn : TxnId)
  | scanBegin (id : Nat) (snap : Nat)
  | scanGetnext (id : Nat)
  | scanRescan (id : Nat)

namespace Backends

def start : Backends where
  history := History.start
  xact _ := ⟨false, 0, false⟩
  snaps := []
  scans := []
  file := Relation.empty
  writer := none

variable (backends : Backends)

/-- What a transaction's statements read. -/
def view (txn : TxnId) : Relation :=
  match backends.writer with
  | none => backends.file
  | some (holder, work) => if holder = txn then work else backends.file

/-- Every command that has been executed and not rolled back. -/
def log : List Command :=
  match backends.writer with
  | none => backends.file.log
  | some (_, work) => work.log

/-- `row_visible` in the snapshot's backend. -/
def rowVisible (snap : Snap) (row : StoredHeader) : Bool :=
  (Visibility.rowVisible (backends.history.xacts snap.owner) row snap.snapshot).1

/-- The transaction is running and has not reached `PreCommit`. -/
def active (txn : TxnId) : Bool :=
  backends.history.status txn = .running && !(backends.xact txn).preCommitted

/-- SQLite's write lock is free or held by the transaction. -/
def mayWrite (txn : TxnId) : Bool :=
  match backends.writer with
  | none => true
  | some (holder, _) => holder = txn

def setXact (txn : TxnId) (state : XactState) : Backends :=
  { backends with xact := Function.update backends.xact txn state }

/-- The transaction's snapshots and their scans end with it. -/
def endXact (txn : TxnId) (history : History) : Backends :=
  { backends with
    history := history
    snaps := backends.snaps.filter fun snap => snap.owner ≠ txn
    scans := backends.scans.filter fun scan => scan.snap.owner ≠ txn }

def write (txn : TxnId) (change : Relation → Relation) : Option Backends :=
  if backends.active txn && backends.mayWrite txn then
    some { backends with writer := some (txn, change (backends.view txn)) }
  else none

/-- A write that stamps `GetCurrentTransactionId`, which is assigned by then, and the
current command id. -/
def writeAs (txn : TxnId) (change : Writer → Nat → Relation → Relation) : Option Backends :=
  match backends.history.topXid txn with
  | none => none
  | some xid => backends.write txn (change ⟨txn, xid⟩ (backends.xact txn).cid)

/-- `GetTransactionSnapshot`: a repeatable-read transaction keeps its first one and
only learns the command id. -/
def snap (txn : TxnId) (id : Nat) : Snap :=
  let first := backends.snaps.find? fun snap => snap.owner = txn && snap.pinned
  { id := id
    owner := txn
    taken := (first.map Snap.taken).getD backends.history
    curcid := (backends.xact txn).cid
    pinned := (backends.xact txn).repeatableRead && first.isNone }

/-- One call of `do_scan_getnext`. -/
def getnext (scan : Scan) : Scan :=
  let (found, cursor) := scan.cursor.doScanGetnext (backends.rowVisible scan.snap)
    (backends.view scan.snap.owner).table
  { scan with
    cursor := cursor
    source := if scan.cursor.rowsLoaded then scan.source else backends.view scan.snap.owner
    returned := scan.returned ++ found.toList
    finished := found.isNone }

def mapScan (id : Nat) (change : Scan → Scan) : Backends :=
  { backends with scans := backends.scans.map fun scan => if scan.id = id then change scan else scan }

def step : BackendsEvent → Option Backends
  | .begin txn repeatableRead =>
      (backends.history.step (.begin txn)).map fun history =>
        { backends.setXact txn ⟨false, 0, repeatableRead⟩ with history := history }
  | .assign txn =>
      (backends.history.step (.assign txn)).map fun history => { backends with history := history }
  | .commandCounterIncrement txn =>
      let state := backends.xact txn
      if backends.active txn && state.cid + 1 < 2 ^ 32 - 1 then
        some (backends.setXact txn { state with cid := state.cid + 1 })
      else none
  | .takeSnapshot txn id =>
      if backends.active txn then some { backends with snaps := backends.snaps ++ [backends.snap txn id] }
      else none
  | .releaseSnapshot id =>
      if backends.snaps.all fun snap => snap.id ≠ id || !snap.pinned then
        some { backends with
          snaps := backends.snaps.filter fun snap => snap.id ≠ id
          scans := backends.scans.filter fun scan => scan.snap.id ≠ id }
      else none
  | .doTupleInsert txn tuple =>
      backends.writeAs txn fun writer cid => Relation.doTupleInsert writer cid tuple
  | .multiInsert txn tuples =>
      if tuples = [] then if backends.active txn then some backends else none
      else backends.writeAs txn fun writer cid => Relation.multiInsert writer cid tuples
  | .tupleDelete txn _ rowid =>
      backends.writeAs txn fun writer cid rel => (rel.tupleDelete writer cid rowid).1
  | .tupleUpdate txn _ rowid tuple =>
      backends.writeAs txn fun writer cid rel => (rel.tupleUpdate writer cid rowid tuple).1
  | .relationVacuum txn oldest =>
      -- a VACUUM that is skipped begins no SQLite transaction
      if storedXid oldest ≤ (backends.view txn).table.lastVacuumXmin then
        if backends.active txn then some backends else none
      else backends.write txn (Relation.vacuum (storedXid oldest))
  | .reset txn => backends.write txn Relation.reset
  | .preCommit txn =>
      if backends.active txn then
        some { backends.setXact txn { backends.xact txn with preCommitted := true } with
          file := backends.view txn
          writer := if backends.mayWrite txn then none else backends.writer }
      else none
  | .commit txn =>
      if (backends.xact txn).preCommitted then
        (backends.history.step (.commit txn)).map (backends.endXact txn)
      else none
  | .abort txn =>
      (backends.history.step (.abort txn)).map fun history =>
        { backends.endXact txn history with
          writer := if backends.mayWrite txn then none else backends.writer }
  | .scanBegin id snapId =>
      (backends.snaps.find? fun snap => snap.id = snapId).map fun snap =>
        { backends with
          scans := backends.scans ++
            [⟨id, snap, SqliteCursor.alloc, backends.view snap.owner, [], false⟩] }
  | .scanGetnext id => some (backends.mapScan id backends.getnext)
  | .scanRescan id =>
      some (backends.mapScan id fun scan =>
        { scan with cursor := scan.cursor.scanRescan, returned := [], finished := false })

def run : Backends → List BackendsEvent → Option Backends := Transition.run step

/-- A full scan run at once. -/
def fullScan (snap : Snap) : List StoredRow :=
  SqliteHeap.fullScan (backends.rowVisible snap) (backends.view snap.owner).table

/-- How Postgres uses the access method between TRUNCATEs: a delete or update targets a row version
without `xmax` that an active snapshot of its transaction sees, VACUUM holds a
snapshot and its horizon is not after any active one, a transaction that has reached
`PreCommit` commits, and xids stay below half the circle. -/
def Allowed (backends : Backends) : BackendsEvent → Prop
  | .assign _ => backends.history.nextXid < 2 ^ 31
  | .tupleDelete txn snapId rowid | .tupleUpdate txn snapId rowid _ =>
      ∃ snap ∈ backends.snaps, snap.id = snapId ∧ snap.owner = txn ∧
        ∃ row ∈ (backends.view txn).table.rows, row.rowid = rowid ∧ row.xmax = 0#32 ∧
          backends.rowVisible snap row.toStoredHeader = true
  | .relationVacuum txn oldest =>
      oldest < 2 ^ 31 ∧ (∃ snap ∈ backends.snaps, snap.owner = txn) ∧
        ∀ snap ∈ backends.snaps, oldest ≤ snap.taken.xmin
  | .reset _ => False
  | .abort txn => (backends.xact txn).preCommitted = false
  | _ => True

/-! ## What a step does -/

/-- A transaction that may write, with its xid. -/
structure Author (backends : Backends) (writer : Writer) : Prop where
  top : backends.history.topXid writer.txn = some writer.xid
  active : backends.active writer.txn = true
  mayWrite : backends.mayWrite writer.txn = true

theorem Author.eq_of {backends : Backends} {writer : Writer} (author : backends.Author writer)
    {txn : TxnId} (same : some writer.txn = some txn) {xid : Nat}
    (top : backends.history.topXid txn = some xid) : writer.txn = txn ∧ writer.xid = xid := by
  obtain rfl := Option.some.inj same
  exact ⟨rfl, Option.some.inj (author.top.symm.trans top)⟩

/-- What an event that Postgres issues finds, and what it makes of the backends. -/
inductive Does (backends : Backends) : BackendsEvent → Backends → Prop where
  | begin {txn : TxnId} (repeatableRead : Bool)
      (unstarted : backends.history.status txn = .unstarted) :
      Does backends (.begin txn repeatableRead)
        { backends.setXact txn ⟨false, 0, repeatableRead⟩ with
          history := backends.history.setStatus txn .running }
  | assign {txn : TxnId} (running : backends.history.status txn = .running) :
      Does backends (.assign txn) { backends with history := backends.history.assignXid txn false }
  | commandCounterIncrement {txn : TxnId} (fits : (backends.xact txn).cid + 1 < 2 ^ 32 - 1) :
      Does backends (.commandCounterIncrement txn)
        (backends.setXact txn { backends.xact txn with cid := (backends.xact txn).cid + 1 })
  | takeSnapshot {txn : TxnId} (id : Nat) (active : backends.active txn = true) :
      Does backends (.takeSnapshot txn id)
        { backends with snaps := backends.snaps ++ [backends.snap txn id] }
  | releaseSnapshot {id : Nat} (free : ∀ snap ∈ backends.snaps, snap.pinned = true → snap.id ≠ id) :
      Does backends (.releaseSnapshot id)
        { backends with
          snaps := backends.snaps.filter fun snap => snap.id ≠ id
          scans := backends.scans.filter fun scan => scan.snap.id ≠ id }
  | doTupleInsert {writer : Writer} (author : backends.Author writer) (tuple : Bytes) :
      Does backends (.doTupleInsert writer.txn tuple)
        { backends with writer := some (writer.txn,
            (backends.view writer.txn).doTupleInsert writer (backends.xact writer.txn).cid tuple) }
  | insertsNothing {txn : TxnId} : Does backends (.multiInsert txn []) backends
  | multiInsert {writer : Writer} {tuples : List Bytes} (author : backends.Author writer)
      (some : tuples ≠ []) :
      Does backends (.multiInsert writer.txn tuples)
        { backends with writer := .some (writer.txn,
            (backends.view writer.txn).multiInsert writer (backends.xact writer.txn).cid tuples) }
  | tupleDelete {writer : Writer} (author : backends.Author writer) (snap : Nat) (rowid : Int) :
      Does backends (.tupleDelete writer.txn snap rowid)
        { backends with writer := some (writer.txn,
            ((backends.view writer.txn).tupleDelete writer (backends.xact writer.txn).cid rowid).1) }
  | tupleUpdate {writer : Writer} (author : backends.Author writer) (snap : Nat) (rowid : Int)
      (tuple : Bytes) :
      Does backends (.tupleUpdate writer.txn snap rowid tuple)
        { backends with writer := some (writer.txn,
            ((backends.view writer.txn).tupleUpdate writer (backends.xact writer.txn).cid rowid tuple).1) }
  | skips {txn : TxnId} {oldest : Nat}
      (skipped : storedXid oldest ≤ (backends.view txn).table.lastVacuumXmin) :
      Does backends (.relationVacuum txn oldest) backends
  | relationVacuum {txn : TxnId} {oldest : Nat} (active : backends.active txn = true)
      (mayWrite : backends.mayWrite txn = true)
      (runs : ¬ storedXid oldest ≤ (backends.view txn).table.lastVacuumXmin) :
      Does backends (.relationVacuum txn oldest)
        { backends with writer := some (txn, (backends.view txn).vacuum (storedXid oldest)) }
  | reset {txn : TxnId} (active : backends.active txn = true)
      (mayWrite : backends.mayWrite txn = true) :
      Does backends (.reset txn) { backends with writer := some (txn, (backends.view txn).reset) }
  | preCommit {txn : TxnId} (active : backends.active txn = true) :
      Does backends (.preCommit txn)
        { backends.setXact txn { backends.xact txn with preCommitted := true } with
          file := backends.view txn
          writer := if backends.mayWrite txn then none else backends.writer }
  | commit {txn : TxnId} (preCommitted : (backends.xact txn).preCommitted = true)
      (running : backends.history.status txn = .running) :
      Does backends (.commit txn) (backends.endXact txn (backends.history.finish txn .committed))
  | abort {txn : TxnId} (running : backends.history.status txn = .running) :
      Does backends (.abort txn)
        { backends.endXact txn (backends.history.finish txn .aborted) with
          writer := if backends.mayWrite txn then none else backends.writer }
  | scanBegin (id : Nat) {snapId : Nat} {snap : Snap} (held : snap ∈ backends.snaps) :
      Does backends (.scanBegin id snapId)
        { backends with
          scans := backends.scans ++
            [⟨id, snap, SqliteCursor.alloc, backends.view snap.owner, [], false⟩] }
  | scanGetnext (id : Nat) : Does backends (.scanGetnext id) (backends.mapScan id backends.getnext)
  | scanRescan (id : Nat) :
      Does backends (.scanRescan id) (backends.mapScan id fun scan =>
        { scan with cursor := scan.cursor.scanRescan, returned := [], finished := false })

variable {backends next : Backends} {txn : TxnId}

theorem active_of_write {change : Relation → Relation} (stepped : backends.write txn change = some next) :
    backends.active txn = true ∧ backends.mayWrite txn = true ∧
      next = { backends with writer := some (txn, change (backends.view txn)) } := by
  obtain ⟨allowed, same⟩ := Option.ite_none_right_eq_some.mp stepped
  obtain ⟨active, mayWrite⟩ := Bool.and_eq_true_iff.mp allowed
  exact ⟨active, mayWrite, (Option.some.inj same).symm⟩

theorem author_of_writeAs {change : Writer → Nat → Relation → Relation}
    (stepped : backends.writeAs txn change = some next) :
    ∃ writer, writer.txn = txn ∧ backends.Author writer ∧
      next = { backends with writer := some (writer.txn,
        change writer (backends.xact writer.txn).cid (backends.view writer.txn)) } := by
  unfold writeAs at stepped
  cases top : backends.history.topXid txn with
  | none =>
      rw [top] at stepped
      cases stepped
  | some xid =>
      rw [top] at stepped
      obtain ⟨active, mayWrite, same⟩ := active_of_write stepped
      exact ⟨⟨txn, xid⟩, rfl, ⟨top, active, mayWrite⟩, same⟩

theorem does_of_step {event : BackendsEvent} (stepped : backends.step event = some next) :
    backends.Does event next := by
  cases event with
  | begin txn repeatableRead =>
      obtain ⟨history, changed, rfl⟩ := Option.map_eq_some_iff.mp stepped
      obtain ⟨unstarted, same⟩ := Option.ite_none_right_eq_some.mp changed
      exact Option.some.inj same ▸ .begin repeatableRead unstarted
  | assign txn =>
      obtain ⟨history, changed, rfl⟩ := Option.map_eq_some_iff.mp stepped
      obtain ⟨⟨running, _⟩, same⟩ := Option.ite_none_right_eq_some.mp changed
      exact Option.some.inj same ▸ .assign running
  | commandCounterIncrement txn =>
      obtain ⟨may, same⟩ := Option.ite_none_right_eq_some.mp stepped
      have fits := of_decide_eq_true (Bool.and_eq_true_iff.mp may).2
      exact Option.some.inj same ▸ .commandCounterIncrement fits
  | takeSnapshot txn id =>
      obtain ⟨active, same⟩ := Option.ite_none_right_eq_some.mp stepped
      exact Option.some.inj same ▸ .takeSnapshot id active
  | releaseSnapshot id =>
      obtain ⟨free, same⟩ := Option.ite_none_right_eq_some.mp stepped
      refine Option.some.inj same ▸ .releaseSnapshot fun snap member pinned => ?_
      simpa [pinned] using List.all_eq_true.mp free snap member
  | doTupleInsert txn tuple =>
      dsimp only [step] at stepped
      obtain ⟨writer, rfl, author, rfl⟩ := author_of_writeAs stepped
      exact .doTupleInsert author tuple
  | multiInsert txn tuples =>
      dsimp only [step] at stepped
      split at stepped
      · next empty =>
          subst empty
          exact Option.some.inj (Option.ite_none_right_eq_some.mp stepped).2 ▸ .insertsNothing
      · next some =>
          obtain ⟨writer, rfl, author, rfl⟩ := author_of_writeAs stepped
          exact .multiInsert author some
  | tupleDelete txn snap rowid =>
      dsimp only [step] at stepped
      obtain ⟨writer, rfl, author, rfl⟩ := author_of_writeAs stepped
      exact .tupleDelete author snap rowid
  | tupleUpdate txn snap rowid tuple =>
      dsimp only [step] at stepped
      obtain ⟨writer, rfl, author, rfl⟩ := author_of_writeAs stepped
      exact .tupleUpdate author snap rowid tuple
  | relationVacuum txn oldest =>
      dsimp only [step] at stepped
      split at stepped
      · next skipped =>
          exact Option.some.inj (Option.ite_none_right_eq_some.mp stepped).2 ▸ .skips skipped
      · next runs =>
          obtain ⟨active, mayWrite, rfl⟩ := active_of_write stepped
          exact .relationVacuum active mayWrite runs
  | reset txn =>
      dsimp only [step] at stepped
      obtain ⟨active, mayWrite, rfl⟩ := active_of_write stepped
      exact .reset active mayWrite
  | preCommit txn =>
      obtain ⟨active, same⟩ := Option.ite_none_right_eq_some.mp stepped
      exact Option.some.inj same ▸ .preCommit active
  | commit txn =>
      obtain ⟨preCommitted, ended⟩ := Option.ite_none_right_eq_some.mp stepped
      obtain ⟨history, changed, rfl⟩ := Option.map_eq_some_iff.mp ended
      obtain ⟨running, same⟩ := Option.ite_none_right_eq_some.mp changed
      exact Option.some.inj same ▸ .commit preCommitted running
  | abort txn =>
      obtain ⟨history, changed, rfl⟩ := Option.map_eq_some_iff.mp stepped
      obtain ⟨running, same⟩ := Option.ite_none_right_eq_some.mp changed
      exact Option.some.inj same ▸ .abort running
  | scanBegin id snapId =>
      obtain ⟨snap, found, rfl⟩ := Option.map_eq_some_iff.mp stepped
      exact .scanBegin id (List.mem_of_find?_eq_some found)
  | scanGetnext id => exact Option.some.inj stepped ▸ .scanGetnext id
  | scanRescan id => exact Option.some.inj stepped ▸ .scanRescan id

/-- Who calls a callback that writes rows. -/
def caller : BackendsEvent → Option TxnId
  | .doTupleInsert txn _ | .multiInsert txn _ | .tupleDelete txn _ _ | .tupleUpdate txn _ _ _ => some txn
  | _ => none

/-- The commands of a call on the relation that its transaction reads. -/
def commands (writer : Writer) (cid : Nat) (rel : Relation) : BackendsEvent → List Command
  | .doTupleInsert _ tuple => [⟨writer, cid, rel.log.length, some tuple⟩]
  | .multiInsert _ tuples =>
      tuples.mapIdx fun index tuple => ⟨writer, cid, rel.log.length + index, some tuple⟩
  | .tupleDelete _ _ rowid => if rel.hits rowid then [⟨writer, cid, rel.named rowid, none⟩] else []
  | .tupleUpdate _ _ rowid tuple =>
      [⟨writer, cid, if rel.hits rowid then rel.named rowid else rel.log.length, some tuple⟩]
  | _ => []

theorem view_of_writer {rel : Relation} :
    { backends with writer := some (txn, rel) }.view txn = rel := if_pos rfl

/-- A call that returns logs its own commands, and the store of a snapshot is what these make. -/
theorem log_of_call {event : BackendsEvent} (stepped : backends.step event = some next)
    (calls : caller event = some txn) {xid : Nat} (top : backends.history.topXid txn = some xid) :
    (next.view txn).log = (backends.view txn).log ++
      commands ⟨txn, xid⟩ (backends.xact txn).cid (backends.view txn) event := by
  cases does_of_step stepped with
  | @doTupleInsert writer author tuple =>
      obtain ⟨rfl, rfl⟩ : writer.txn = txn ∧ writer.xid = xid := author.eq_of calls top
      exact congrArg Relation.log view_of_writer
  | insertsNothing => exact (List.append_nil _).symm
  | @multiInsert writer tuples author _ =>
      obtain ⟨rfl, rfl⟩ : writer.txn = txn ∧ writer.xid = xid := author.eq_of calls top
      rw [view_of_writer]
      exact Relation.multiInsert_logs writer _ tuples _
  | @tupleDelete writer author _ rowid =>
      obtain ⟨rfl, rfl⟩ : writer.txn = txn ∧ writer.xid = xid := author.eq_of calls top
      have logs := congrArg Prod.fst (Relation.tupleDelete_logs writer (backends.xact writer.txn).cid rowid
        (backends.view writer.txn))
      rw [view_of_writer, commands]
      refine logs.trans ?_
      split
      · rfl
      · exact (List.append_nil _).symm
  | @tupleUpdate writer author _ rowid tuple =>
      obtain ⟨rfl, rfl⟩ : writer.txn = txn ∧ writer.xid = xid := author.eq_of calls top
      rw [view_of_writer]
      exact congrArg Prod.fst (Relation.tupleUpdate_logs writer _ rowid tuple _)
  | begin | assign | commandCounterIncrement | takeSnapshot | releaseSnapshot | skips | relationVacuum
  | reset | preCommit | commit | abort | scanBegin | scanGetnext | scanRescan => cases calls

end Backends

end SqliteHeap
