import SqliteHeap.BackendsRun

/-! Which version of a row came from which. Beside the file and the writer's copy of it
stand the commands that made and ended each of their versions, with the calls of
`tuple_update` and `tuple_delete` that returned `TM_Ok`. A rollback undoes them with the
copy. -/

set_option autoImplicit false

namespace SqliteHeap

open Versions

/-- A version of a row, numbered in the order of insertion. -/
abbrev VersionId := Nat

/-- A call of `tuple_update` or `tuple_delete` that returned `TM_Ok`. -/
structure Link where
  old : VersionId
  /-- The version that `tuple_update` inserted. -/
  new : Option VersionId
  txn : TxnId
  /-- Its UPDATE has stamped the old version. -/
  stamped : Bool
deriving DecidableEq

structure Trace where
  count : Nat
  /-- The version at each TID. -/
  ids : Int → VersionId
  /-- The command that inserted it, on the inserted row that it descends from. -/
  creator : VersionId → Command
  deleter : VersionId → Option Command
  links : List Link

namespace Trace

def empty : Trace := ⟨0, fun _ => 0, fun _ => ⟨⟨0, 0⟩, 0, 0, none⟩, fun _ => none, []⟩

/-- The inserted row that the version at a TID descends from. -/
def origin (rowid : Int) (trace : Trace) : Nat := (trace.creator (trace.ids rowid)).key

def insert (op : Command) (rowid : Int) (trace : Trace) : Trace :=
  { trace with
    count := trace.count + 1
    ids := Function.update trace.ids rowid trace.count
    creator := Function.update trace.creator trace.count op
    deleter := Function.update trace.deleter trace.count none }

def stamp (op : Command) (rowid : Int) (trace : Trace) : Trace :=
  { trace with deleter := Function.update trace.deleter (trace.ids rowid) (some op) }

def doTupleInsert (writer : Writer) (cid : Nat) (tuple : Bytes) (rowid : Int) (trace : Trace) : Trace :=
  trace.insert ⟨writer, cid, trace.count, some tuple⟩ rowid

/-- The rows of `insert_batch` have successive rowids. -/
def multiInsert (writer : Writer) (cid : Nat) : List Bytes → Int → Trace → Trace
  | [], _, trace => trace
  | tuple :: rest, rowid, trace =>
      multiInsert writer cid rest (rowid + 1) (trace.doTupleInsert writer cid tuple rowid)

def tupleDelete (writer : Writer) (cid : Nat) (rowid : Int) (hit : Bool) (trace : Trace) : Trace :=
  if hit then
    let ended := trace.stamp ⟨writer, cid, trace.origin rowid, none⟩ rowid
    { ended with links := trace.links ++ [⟨trace.ids rowid, none, writer.txn, true⟩] }
  else trace

def tupleUpdate (writer : Writer) (cid : Nat) (rowid : Int) (tuple : Bytes) (newRowid : Int) (hit : Bool)
    (trace : Trace) : Trace :=
  let op : Command := ⟨writer, cid, trace.origin rowid, some tuple⟩
  let ended := if hit then trace.stamp op rowid else trace
  { ended.insert op newRowid with
    links := trace.links ++ [⟨trace.ids rowid, some trace.count, writer.txn, hit⟩] }

section Lookups

variable (op : Command) (rowid : Int) (trace : Trace) {other : Int} {id : VersionId}

theorem ids_insert_self : (trace.insert op rowid).ids rowid = trace.count := Function.update_self _ _ _

theorem ids_insert_of_ne (different : other ≠ rowid) :
    (trace.insert op rowid).ids other = trace.ids other := Function.update_of_ne different _ _

theorem creator_insert_self : (trace.insert op rowid).creator trace.count = op :=
  Function.update_self _ _ _

theorem creator_insert_of_lt (below : id < trace.count) :
    (trace.insert op rowid).creator id = trace.creator id := Function.update_of_ne below.ne _ _

theorem deleter_insert_self : (trace.insert op rowid).deleter trace.count = none :=
  Function.update_self _ _ _

theorem deleter_insert_of_lt (below : id < trace.count) :
    (trace.insert op rowid).deleter id = trace.deleter id := Function.update_of_ne below.ne _ _

theorem deleter_stamp_self : (trace.stamp op rowid).deleter (trace.ids rowid) = some op :=
  Function.update_self _ _ _

theorem deleter_stamp_of_ne (different : id ≠ trace.ids rowid) :
    (trace.stamp op rowid).deleter id = trace.deleter id := Function.update_of_ne different _ _

end Lookups

end Trace

def BackendsEvent.tuples : BackendsEvent → List Bytes
  | .doTupleInsert _ tuple | .tupleUpdate _ _ _ tuple => [tuple]
  | .multiInsert _ tuples => tuples
  | .begin _ _ | .assign _ | .commandCounterIncrement _ | .takeSnapshot _ _ | .releaseSnapshot _
  | .tupleDelete _ _ _ | .relationVacuum _ _ | .reset _ | .preCommit _ | .commit _ | .abort _
  | .scanBegin _ _ | .scanGetnext _ | .scanRescan _ => []

def BackendsEvent.inserter : BackendsEvent → Option TxnId
  | .doTupleInsert txn _ | .multiInsert txn _ | .tupleUpdate txn _ _ _ => some txn
  | .begin _ _ | .assign _ | .commandCounterIncrement _ | .takeSnapshot _ _ | .releaseSnapshot _
  | .tupleDelete _ _ _ | .relationVacuum _ _ | .reset _ | .preCommit _ | .commit _ | .abort _
  | .scanBegin _ _ | .scanGetnext _ | .scanRescan _ => none

/-- The transaction whose writing statements have ended before the event: VACUUM, TRUNCATE
and `PreCommit` run between statements. -/
def BackendsEvent.between : BackendsEvent → Option TxnId
  | .preCommit txn | .relationVacuum txn _ | .reset txn => some txn
  | .begin _ _ | .assign _ | .commandCounterIncrement _ | .takeSnapshot _ _ | .releaseSnapshot _
  | .doTupleInsert _ _ | .multiInsert _ _ | .tupleDelete _ _ _ | .tupleUpdate _ _ _ _ | .commit _
  | .abort _ | .scanBegin _ _ | .scanGetnext _ | .scanRescan _ => none

/-- The abort of the writer drops its copy. -/
def Backends.frees (backends : Backends) : BackendsEvent → Bool
  | .abort txn => backends.mayWrite txn
  | .begin _ _ | .assign _ | .commandCounterIncrement _ | .takeSnapshot _ _ | .releaseSnapshot _
  | .doTupleInsert _ _ | .multiInsert _ _ | .tupleDelete _ _ _ | .tupleUpdate _ _ _ _
  | .relationVacuum _ _ | .reset _ | .preCommit _ | .commit _ | .scanBegin _ _ | .scanGetnext _
  | .scanRescan _ => false

/-- The backends with the trace of the file and that of the writer's copy. -/
structure Lineage where
  backends : Backends
  file : Trace
  work : Trace

namespace Lineage

def start : Lineage := ⟨Backends.start, Trace.empty, Trace.empty⟩

variable (lineage : Lineage)

/-- The trace of what a transaction's statements read. -/
def view (txn : TxnId) : Trace :=
  match lineage.backends.writer with
  | none => lineage.file
  | some (holder, _) => if holder = txn then lineage.work else lineage.file

/-- The transaction with the xid that it stamps. -/
def writer (txn : TxnId) : Writer := ⟨txn, (lineage.backends.history.topXid txn).getD 0⟩

/-- The trace of the copy that a write leaves. -/
def written : BackendsEvent → Option Trace
  | .doTupleInsert txn tuple =>
      some ((lineage.view txn).doTupleInsert (lineage.writer txn) (lineage.backends.xact txn).cid tuple
        (lineage.backends.view txn).table.nextRowid)
  | .multiInsert txn tuples =>
      if tuples = [] then none
      else some ((lineage.view txn).multiInsert (lineage.writer txn) (lineage.backends.xact txn).cid tuples
        (lineage.backends.view txn).table.nextRowid)
  | .tupleDelete txn _ rowid =>
      some ((lineage.view txn).tupleDelete (lineage.writer txn) (lineage.backends.xact txn).cid rowid
        ((lineage.backends.view txn).hits rowid))
  | .tupleUpdate txn _ rowid tuple =>
      some ((lineage.view txn).tupleUpdate (lineage.writer txn) (lineage.backends.xact txn).cid rowid tuple
        (lineage.backends.view txn).table.nextRowid ((lineage.backends.view txn).hits rowid))
  | .relationVacuum txn oldest =>
      if storedXid oldest ≤ (lineage.backends.view txn).table.lastVacuumXmin then none
      else some (lineage.view txn)
  | .reset txn => some (lineage.view txn)
  | .begin _ _ | .assign _ | .commandCounterIncrement _ | .takeSnapshot _ _ | .releaseSnapshot _
  | .preCommit _ | .commit _ | .abort _ | .scanBegin _ _ | .scanGetnext _ | .scanRescan _ => none

def step (event : BackendsEvent) : Option Lineage :=
  (lineage.backends.step event).map fun backends =>
    { backends := backends
      file := match event with
        | .preCommit txn => lineage.view txn
        | _ => lineage.file
      work := (lineage.written event).getD lineage.work }

def run : Lineage → List BackendsEvent → Option Lineage := Transition.run step

end Lineage

/-! ## A trace tells what its table stores -/

/-- The headers of the rows are those of the commands that made and ended their versions,
and these commands are current. -/
structure Trace.Tells (trace : Trace) (current : Command → Prop) (history : History) (table : Table) :
    Prop where
  below : ∀ row ∈ table.rows, trace.ids row.rowid < trace.count
  distinct : ∀ first ∈ table.rows, ∀ second ∈ table.rows,
    trace.ids first.rowid = trace.ids second.rowid → first.rowid = second.rowid
  inserted : ∀ row ∈ table.rows, row.xmin = storedXid (trace.creator (trace.ids row.rowid)).txn.xid ∧
    row.cmin = storedCid (trace.creator (trace.ids row.rowid)).cid ∧
    current (trace.creator (trace.ids row.rowid))
  undeleted : ∀ row ∈ table.rows, trace.deleter (trace.ids row.rowid) = none → row.xmax = 0#32
  deleted : ∀ row ∈ table.rows, ∀ op, trace.deleter (trace.ids row.rowid) = some op →
    row.xmax = storedXid op.txn.xid ∧ row.cmax = storedCid op.cid ∧ current op
  created : ∀ id < trace.count, Known history (trace.creator id)
  ended : ∀ id < trace.count, ∀ op, trace.deleter id = some op → Known history op

/-- The commands that made and ended the versions in the table. -/
def Trace.All (trace : Trace) (table : Table) (holds : Command → Prop) : Prop :=
  ∀ row ∈ table.rows, holds (trace.creator (trace.ids row.rowid)) ∧
    ∀ op ∈ trace.deleter (trace.ids row.rowid), holds op

instance (trace : Trace) (table : Table) (holds : Command → Prop) [DecidablePred holds] :
    Decidable (trace.All table holds) := inferInstanceAs (Decidable (∀ row ∈ table.rows, _ ∧ _))

namespace Trace

variable {trace : Trace} {current : Command → Prop} {history : History} {table : Table} {op : Command}
  {rowid : Int}

namespace Tells

theorem since {later : History} (tells : trace.Tells current history table)
    (since : history.Since later) : trace.Tells current later table :=
  { tells with
    created := fun id below => (tells.created id below).since since
    ended := fun id below op found => (tells.ended id below op found).since since }

theorem renew {renewed : Command → Prop} (tells : trace.Tells current history table)
    (all : trace.All table renewed) : trace.Tells renewed history table :=
  { tells with
    inserted := fun row member =>
      ⟨(tells.inserted row member).1, (tells.inserted row member).2.1, (all row member).1⟩
    deleted := fun row member op found =>
      ⟨(tells.deleted row member op found).1, (tells.deleted row member op found).2.1,
        (all row member).2 op found⟩ }

theorem subset (tells : trace.Tells current history table) {smaller : Table}
    (rows : ∀ row ∈ smaller.rows, row ∈ table.rows) : trace.Tells current history smaller where
  below row member := tells.below row (rows row member)
  distinct first inFirst second inSecond := tells.distinct first (rows first inFirst) second (rows second inSecond)
  inserted row member := tells.inserted row (rows row member)
  undeleted row member := tells.undeleted row (rows row member)
  deleted row member := tells.deleted row (rows row member)
  created := tells.created
  ended := tells.ended

theorem deleter_eq_none_iff (tells : trace.Tells current history table) (formed : history.WellFormed)
    {row : StoredRow} (member : row ∈ table.rows) :
    trace.deleter (trace.ids row.rowid) = none ↔ row.xmax = 0#32 := by
  refine ⟨tells.undeleted row member, fun live => ?_⟩
  cases ended : trace.deleter (trace.ids row.rowid) with
  | none => rfl
  | some op =>
      have known := tells.ended _ (tells.below row member) op ended
      rw [(tells.deleted row member op ended).1] at live
      exact absurd live (known.storedXid_ne_zero formed)

/-- The new row is at the new TID, the other ones keep their versions. -/
theorem insert (tells : trace.Tells current history table) (known : Known history op)
    (now : current op) (tuple : Bytes) :
    (trace.insert op table.nextRowid).Tells current history
      (table.insertRow (storedXid op.txn.xid) (storedCid op.cid) tuple) := by
  have ids : ∀ row ∈ table.rows, (trace.insert op table.nextRowid).ids row.rowid =
      trace.ids row.rowid :=
    fun row member => ids_insert_of_ne op _ trace (Table.rowid_lt_nextRowid member).ne
  have cases {motive : StoredRow → Prop} (old : ∀ row ∈ table.rows, motive row)
      (new : motive ⟨⟨table.nextRowid, storedXid op.txn.xid, storedCid op.cid, 0#32, 0#32⟩, tuple⟩) :
      ∀ row ∈ (table.insertRow (storedXid op.txn.xid) (storedCid op.cid) tuple).rows, motive row :=
    List.forall_mem_append.mpr ⟨old, List.forall_mem_singleton.mpr new⟩
  refine ⟨cases (fun row member => ?_) ?_, cases (fun first inFirst => cases (fun second inSecond => ?_) ?_)
    (cases (fun second inSecond => ?_) fun _ => rfl), cases (fun row member => ?_) ?_,
    cases (fun row member => ?_) fun _ => rfl, cases (fun row member => ?_) ?_, fun id below => ?_,
    fun id below op found => ?_⟩
  · rw [ids row member]
    exact Nat.lt_succ_of_lt (tells.below row member)
  · rw [ids_insert_self]
    exact Nat.lt_succ_self _
  · rw [ids first inFirst, ids second inSecond]
    exact tells.distinct first inFirst second inSecond
  · rw [ids first inFirst, ids_insert_self]
    exact fun same => absurd same (tells.below first inFirst).ne
  · rw [ids second inSecond, ids_insert_self]
    exact fun same => absurd same.symm (tells.below second inSecond).ne
  · rw [ids row member, creator_insert_of_lt _ _ _ (tells.below row member)]
    exact tells.inserted row member
  · rw [ids_insert_self, creator_insert_self]
    exact ⟨rfl, rfl, now⟩
  · rw [ids row member, deleter_insert_of_lt _ _ _ (tells.below row member)]
    exact tells.undeleted row member
  · rw [ids row member, deleter_insert_of_lt _ _ _ (tells.below row member)]
    exact tells.deleted row member
  · intro op ended
    rw [ids_insert_self, deleter_insert_self] at ended
    cases ended
  · rcases Nat.lt_succ_iff_lt_or_eq.mp below with old | rfl
    · rw [creator_insert_of_lt _ _ _ old]
      exact tells.created id old
    · rw [creator_insert_self]
      exact known
  · rcases Nat.lt_succ_iff_lt_or_eq.mp below with old | rfl
    · rw [deleter_insert_of_lt _ _ _ old] at found
      exact tells.ended id old op found
    · rw [deleter_insert_self] at found
      cases found

/-- A stamp that finds its row ends the version at the TID. -/
theorem stamp (tells : trace.Tells current history table) (known : Known history op)
    (now : current op) (hit : table.rows.any (Table.isLive rowid) = true) :
    (trace.stamp op rowid).Tells current history
      (table.stampRow rowid (storedXid op.txn.xid) (storedCid op.cid)) := by
  obtain ⟨target, inTable, live⟩ := List.any_eq_true.mp hit
  obtain ⟨rfl, _⟩ := Relation.isLive_iff.mp live
  have cases {motive : StoredRow → Prop} (stamped : motive { target with
        xmax := storedXid op.txn.xid, cmax := storedCid op.cid })
      (kept : ∀ row ∈ table.rows, trace.ids row.rowid ≠ trace.ids target.rowid → motive row) :
      ∀ row ∈ (table.stampRow target.rowid (storedXid op.txn.xid) (storedCid op.cid)).rows, motive row := by
    intro row member
    obtain ⟨old, inOld, rfl⟩ := List.mem_map.mp member
    by_cases same : trace.ids old.rowid = trace.ids target.rowid
    · have atTarget : old = target :=
        Table.eq_of_rowid_eq table.sorted inOld inTable (tells.distinct old inOld target inTable same)
      rw [atTarget, Table.stamp, if_pos live]
      exact stamped
    · have missed : ¬ Table.isLive target.rowid old = true := by
        intro hit
        rw [(Relation.isLive_iff.mp hit).1] at same
        exact same rfl
      rw [Table.stamp, if_neg missed]
      exact kept old inOld same
  refine ⟨cases (tells.below target inTable) fun row member _ => tells.below row member, ?_,
    cases (tells.inserted target inTable) fun row member _ => tells.inserted row member,
    cases (fun unended => ?_) fun row member different => ?_, cases (fun other found => ?_)
      fun row member different => ?_, tells.created, fun id below other found => ?_⟩
  · intro first inFirst second inSecond
    obtain ⟨old, inOld, rfl⟩ := List.mem_map.mp inFirst
    obtain ⟨old', inOld', rfl⟩ := List.mem_map.mp inSecond
    rw [Table.stamp_rowid, Table.stamp_rowid]
    exact tells.distinct old inOld old' inOld'
  · change (trace.stamp op target.rowid).deleter (trace.ids target.rowid) = none at unended
    rw [deleter_stamp_self] at unended
    cases unended
  · change (trace.stamp op target.rowid).deleter (trace.ids row.rowid) = none → _
    rw [deleter_stamp_of_ne _ _ _ different]
    exact tells.undeleted row member
  · change (trace.stamp op target.rowid).deleter (trace.ids target.rowid) = some other at found
    rw [deleter_stamp_self] at found
    cases found
    exact ⟨rfl, rfl, now⟩
  · change ∀ op', (trace.stamp op target.rowid).deleter (trace.ids row.rowid) = some op' → _
    rw [deleter_stamp_of_ne _ _ _ different]
    exact tells.deleted row member
  · by_cases same : id = trace.ids target.rowid
    · rw [same, deleter_stamp_self] at found
      cases found
      exact known
    · rw [deleter_stamp_of_ne _ _ _ same] at found
      exact tells.ended id below other found

theorem multiInsert (tells : trace.Tells current history table) {writer : Writer} {cid : Nat}
    (known : ∀ key value, Known history ⟨writer, cid, key, value⟩)
    (now : ∀ key value, current ⟨writer, cid, key, value⟩) (tuples : List Bytes) :
    (trace.multiInsert writer cid tuples table.nextRowid).Tells current history
      (table.insertBatch (storedXid writer.xid) (storedCid cid) tuples).1 := by
  induction tuples generalizing trace table with
  | nil => exact tells
  | cons tuple rest ih =>
      have first : (trace.doTupleInsert writer cid tuple table.nextRowid).Tells current history
          (table.insertRow (storedXid writer.xid) (storedCid cid) tuple) :=
        tells.insert (known _ _) (now _ _) tuple
      have later := ih first
      rw [Table.nextRowid_insertRow] at later
      exact later

theorem tupleDelete (tells : trace.Tells current history table) {writer : Writer} {cid : Nat}
    (known : ∀ key value, Known history ⟨writer, cid, key, value⟩)
    (now : ∀ key value, current ⟨writer, cid, key, value⟩)
    (hit : table.rows.any (Table.isLive rowid) = true) :
    (trace.tupleDelete writer cid rowid true).Tells current history
      (table.stampRow rowid (storedXid writer.xid) (storedCid cid)) := by
  have ended := tells.stamp (known (trace.origin rowid) none) (now _ _) hit
  exact { ended with }

theorem tupleUpdate (tells : trace.Tells current history table) {writer : Writer} {cid : Nat}
    (known : ∀ key value, Known history ⟨writer, cid, key, value⟩)
    (now : ∀ key value, current ⟨writer, cid, key, value⟩) (rowid : Int) (tuple : Bytes) :
    (trace.tupleUpdate writer cid rowid tuple table.nextRowid
        (table.rows.any (Table.isLive rowid))).Tells current history
      ((table.stampRow rowid (storedXid writer.xid) (storedCid cid)).insertRow (storedXid writer.xid)
        (storedCid cid) tuple) := by
  have sameNext := Table.nextRowid_stampRow rowid (storedXid writer.xid) (storedCid cid) table
  cases hit : table.rows.any (Table.isLive rowid) with
  | true =>
      have ended := tells.stamp (known (trace.origin rowid) (some tuple)) (now _ _) hit
      have inserted := ended.insert (known (trace.origin rowid) (some tuple)) (now _ _) tuple
      rw [sameNext] at inserted
      exact { inserted with }
  | false =>
      have missed := tells.subset fun row member =>
        (Table.stampRow_of_miss hit (storedXid writer.xid) (storedCid cid)) ▸ member
      have inserted := missed.insert (known (trace.origin rowid) (some tuple)) (now _ _) tuple
      rw [sameNext] at inserted
      exact { inserted with }

end Tells

end Trace

/-! ## What an event does -/

namespace Lineage

variable {lineage next : Lineage} {txn : TxnId}

/-- What a write makes of the trace and the table that its transaction reads. -/
inductive Alters (lineage : Lineage) (txn : TxnId) : BackendsEvent → Trace → Table → Prop where
  | inserts {event : BackendsEvent} (inserter : event.inserter = some txn)
      (writes : lineage.backends.Writes (lineage.writer txn)) :
      Alters lineage txn event
        ((lineage.view txn).multiInsert (lineage.writer txn) (lineage.backends.xact txn).cid event.tuples
          (lineage.backends.view txn).table.nextRowid)
        ((lineage.backends.view txn).table.insertBatch (storedXid (lineage.writer txn).xid)
          (storedCid (lineage.backends.xact txn).cid) event.tuples).1
  | deletes (writes : lineage.backends.Writes (lineage.writer txn)) (snap : Nat) (rowid : Int)
      (hit : (lineage.backends.view txn).hits rowid = true) :
      Alters lineage txn (.tupleDelete txn snap rowid)
        ((lineage.view txn).tupleDelete (lineage.writer txn) (lineage.backends.xact txn).cid rowid true)
        ((lineage.backends.view txn).table.stampRow rowid (storedXid (lineage.writer txn).xid)
          (storedCid (lineage.backends.xact txn).cid))
  | misses (snap : Nat) (rowid : Int) {table : Table}
      (rows : table.rows = (lineage.backends.view txn).table.rows) :
      Alters lineage txn (.tupleDelete txn snap rowid) (lineage.view txn) table
  | updates (writes : lineage.backends.Writes (lineage.writer txn)) (snap : Nat) (rowid : Int)
      (tuple : Bytes) :
      Alters lineage txn (.tupleUpdate txn snap rowid tuple)
        ((lineage.view txn).tupleUpdate (lineage.writer txn) (lineage.backends.xact txn).cid rowid tuple
          (lineage.backends.view txn).table.nextRowid ((lineage.backends.view txn).hits rowid))
        (((lineage.backends.view txn).table.stampRow rowid (storedXid (lineage.writer txn).xid)
          (storedCid (lineage.backends.xact txn).cid)).insertRow (storedXid (lineage.writer txn).xid)
            (storedCid (lineage.backends.xact txn).cid) tuple)
  | removes {event : BackendsEvent} {smaller : Table} (between : event.between = some txn)
      (tuples : event.tuples = [])
      (rows : ∀ row ∈ smaller.rows, row ∈ (lineage.backends.view txn).table.rows) :
      Alters lineage txn event (lineage.view txn) smaller

inductive Acts (lineage : Lineage) : BackendsEvent → Lineage → Prop where
  | assign {txn : TxnId} (running : lineage.backends.history.status txn = .running) :
      Acts lineage (.assign txn) { lineage with backends := { lineage.backends with
        history := lineage.backends.history.assignXid txn false } }
  | moves {event : BackendsEvent} {backends : Backends} (tuples : event.tuples = [])
      (moves : lineage.backends.Moves backends)
      (nextXid : backends.history.nextXid = lineage.backends.history.nextXid)
      (file : backends.file = lineage.backends.file)
      (writer : backends.writer =
        if lineage.backends.frees event then none else lineage.backends.writer)
      (active : ∀ holder rel, backends.writer = some (holder, rel) →
        lineage.backends.active holder = true → backends.active holder = true) :
      Acts lineage event { lineage with backends := backends }
  | takeSnapshot {txn : TxnId} (id : Nat) (active : lineage.backends.active txn = true) :
      Acts lineage (.takeSnapshot txn id) { lineage with backends := { lineage.backends with
        snaps := lineage.backends.snaps ++ [lineage.backends.snap txn id] } }
  | write {event : BackendsEvent} {txn : TxnId} {rel : Relation} {trace : Trace}
      (active : lineage.backends.active txn = true) (mayWrite : lineage.backends.mayWrite txn = true)
      (alters : lineage.Alters txn event trace rel.table) :
      Acts lineage event
        ⟨{ lineage.backends with writer := some (txn, rel) }, lineage.file, trace⟩
  | preCommit {txn : TxnId} (active : lineage.backends.active txn = true) :
      Acts lineage (.preCommit txn)
        ⟨{ lineage.backends.setXact txn { lineage.backends.xact txn with preCommitted := true } with
            file := lineage.backends.view txn
            writer := if lineage.backends.mayWrite txn then none else lineage.backends.writer },
          lineage.view txn, lineage.work⟩

theorem writer_of_author {writer : Writer} (author : lineage.backends.Author writer) :
    lineage.writer writer.txn = writer := by
  rw [Lineage.writer, author.top]
  rfl

theorem writes_of_author (driven : lineage.backends.Driven) {writer : Writer}
    (author : lineage.backends.Author writer) : lineage.backends.Writes (lineage.writer writer.txn) := by
  rw [writer_of_author author]
  exact ⟨History.mem_assigned_of_topXid author.top, (Backends.active_iff.mp author.active).1,
    driven.cids writer.txn⟩

theorem acts_of_author {writer : Writer} (author : lineage.backends.Author writer) {event : BackendsEvent}
    {trace : Trace} (change : Writer → Relation)
    (alters : lineage.Alters writer.txn event trace (change (lineage.writer writer.txn)).table) :
    lineage.Acts event
      ⟨{ lineage.backends with writer := some (writer.txn, change writer) }, lineage.file, trace⟩ := by
  rw [writer_of_author author] at alters
  exact .write author.active author.mayWrite alters

theorem mem_of_relationVacuum {oldest : TransactionId} {table : Table} :
    ∀ row ∈ (relationVacuum oldest table).rows, row ∈ table.rows := by
  unfold relationVacuum Table.vacuumDead
  split
  · exact fun _ member => member
  · exact fun _ member => (List.mem_filter.mp member).1

theorem active_of_ne {backends : Backends} {txn holder : TxnId} {status : XactStatus}
    (different : holder ≠ txn) (active : backends.active holder = true) :
    (backends.endXact txn (backends.history.finish txn status)).active holder = true := by
  rw [Backends.active_iff] at active ⊢
  exact ⟨(History.setStatus_of_ne different _ _).trans active.1, active.2⟩

theorem acts_of_step (driven : lineage.backends.Driven) {event : BackendsEvent}
    (stepped : lineage.step event = some next) : lineage.Acts event next := by
  obtain ⟨backends, ran, rfl⟩ := Option.map_eq_some_iff.mp stepped
  have running {txn : TxnId} (active : lineage.backends.active txn = true) :=
    (Backends.active_iff.mp active).1
  cases Backends.does_of_step ran with
  | @begin txn repeatableRead unstarted =>
      refine .moves rfl (.begin driven unstarted repeatableRead) rfl rfl rfl fun holder _ _ active => ?_
      have different : holder ≠ txn := (Backends.ne_of_status unstarted (by simp [running active])).symm
      rw [Backends.active_iff] at active ⊢
      refine ⟨(History.setStatus_of_ne different _ _).trans active.1, ?_⟩
      simpa [Backends.setXact, different] using active.2
  | assign running => exact .assign running
  | @commandCounterIncrement txn fits =>
      refine .moves rfl (.commandCounterIncrement driven (by omega)) rfl rfl rfl fun holder _ _ active => ?_
      by_cases own : holder = txn
      · rw [own, Backends.active_iff] at active ⊢
        simpa [Backends.setXact] using active
      · rw [Backends.active_iff] at active ⊢
        simpa [Backends.setXact, own] using active
  | takeSnapshot id active => exact .takeSnapshot id active
  | releaseSnapshot free =>
      exact .moves rfl (.releaseSnapshot driven free) rfl rfl rfl fun _ _ _ active => active
  | @doTupleInsert writer author tuple =>
      exact acts_of_author author
        (fun writer => (lineage.backends.view writer.txn).doTupleInsert writer _ tuple)
        (.inserts rfl (writes_of_author driven author))
  | insertsNothing => exact .moves rfl (.of_same driven rfl rfl rfl) rfl rfl rfl fun _ _ _ active => active
  | @multiInsert writer tuples author some =>
      simp only [written, some, ↓reduceIte, Option.getD_some]
      refine acts_of_author author
        (fun writer => (lineage.backends.view writer.txn).multiInsert writer _ tuples) ?_
      rw [Relation.multiInsert_table]
      exact .inserts rfl (writes_of_author driven author)
  | @tupleDelete writer author snap rowid =>
      refine acts_of_author author
        (fun writer => ((lineage.backends.view writer.txn).tupleDelete writer _ rowid).1) ?_
      rw [Relation.tupleDelete_table]
      cases hit : (lineage.backends.view writer.txn).hits rowid with
      | true =>
          simp only [written, hit, Option.getD_some]
          exact .deletes (writes_of_author driven author) snap rowid hit
      | false =>
          simp only [written, hit, Option.getD_some]
          exact .misses snap rowid (Table.stampRow_of_miss hit _ _)
  | @tupleUpdate writer author snap rowid tuple =>
      exact acts_of_author author
        (fun writer => ((lineage.backends.view writer.txn).tupleUpdate writer _ rowid tuple).1)
        (.updates (writes_of_author driven author) snap rowid tuple)
  | skips skipped =>
      simp only [written, skipped, ↓reduceIte, Option.getD_none]
      exact .moves rfl (.of_same driven rfl rfl rfl) rfl rfl rfl fun _ _ _ active => active
  | relationVacuum active mayWrite runs =>
      simp only [written, runs, ↓reduceIte, Option.getD_some]
      exact .write active mayWrite (.removes rfl rfl mem_of_relationVacuum)
  | reset active mayWrite =>
      exact .write active mayWrite (.removes rfl rfl fun row member => (List.mem_filter.mp member).1)
  | preCommit active => exact .preCommit active
  | @commit txn preCommitted running =>
      refine .moves rfl (.finish driven running (.inl rfl) lineage.backends.writer) rfl rfl rfl
        fun holder _ _ active => ?_
      have different : holder ≠ txn := by
        rintro rfl
        rw [(Backends.active_iff.mp active).2] at preCommitted
        cases preCommitted
      exact active_of_ne different active
  | @abort txn running =>
      refine .moves rfl (.finish driven running (.inr rfl) _) rfl rfl rfl fun holder rel held active => ?_
      change (if lineage.backends.mayWrite txn then none else lineage.backends.writer) = _ at held
      split at held
      · cases held
      · next blocked => exact active_of_ne (Backends.ne_of_not_mayWrite blocked held) active
  | scanBegin | scanGetnext | scanRescan =>
      exact .moves rfl (.of_same driven rfl rfl rfl) rfl rfl rfl fun _ _ _ active => active

/-! ## The file and the writer's copy -/

/-- What holds of the file with its trace and of the writer's copy with its trace. -/
structure Whole (holds : Trace → Table → Prop) (lineage : Lineage) : Prop where
  file : holds lineage.file lineage.backends.file.table
  work : ∀ entry ∈ lineage.backends.writer, holds lineage.work entry.2.table

instance (holds : Trace → Table → Prop) [∀ trace table, Decidable (holds trace table)]
    (lineage : Lineage) : Decidable (lineage.Whole holds) :=
  decidable_of_iff (holds lineage.file lineage.backends.file.table ∧
    ∀ entry ∈ lineage.backends.writer, holds lineage.work entry.2.table)
    ⟨fun both => ⟨both.1, both.2⟩, fun whole => ⟨whole.file, whole.work⟩⟩

namespace Whole

variable {holds after : Trace → Table → Prop}

theorem imp (whole : lineage.Whole holds)
    (passes : ∀ trace table, holds trace table → after trace table) : lineage.Whole after :=
  ⟨passes _ _ whole.file, fun entry held => passes _ _ (whole.work entry held)⟩

theorem view (whole : lineage.Whole holds) (txn : TxnId) :
    holds (lineage.view txn) (lineage.backends.view txn).table := by
  unfold Lineage.view Backends.view
  cases held : lineage.backends.writer with
  | none => exact whole.file
  | some entry =>
      by_cases mine : entry.1 = txn
      · simp only [mine, ↓reduceIte]
        exact whole.work entry held
      · simp only [mine, ↓reduceIte]
        exact whole.file

/-- An event passes on what holds of the file and of the writer's copy, and a write has to
make it hold of what it changes. -/
theorem acts (whole : lineage.Whole holds) {event : BackendsEvent} (acts : lineage.Acts event next)
    (passes : lineage.Whole fun trace table => holds trace table → after trace table)
    (changes : ∀ {txn rel trace}, lineage.Alters txn event trace rel.table →
      next.backends = { lineage.backends with writer := some (txn, rel) } → after trace rel.table) :
    next.Whole after := by
  have passed : lineage.Whole after :=
    ⟨passes.file whole.file, fun entry held => passes.work entry held (whole.work entry held)⟩
  cases acts with
  | assign | takeSnapshot => exact ⟨passed.file, passed.work⟩
  | moves _ _ _ file writer _ =>
      refine ⟨file ▸ passed.file, fun entry held => ?_⟩
      rw [Option.mem_def, writer] at held
      split at held
      · cases held
      · exact passed.work entry held
  | write active mayWrite alters =>
      refine ⟨passed.file, fun entry held => ?_⟩
      cases held
      exact changes alters rfl
  | @preCommit txn active =>
      refine ⟨passed.view txn, fun entry held => ?_⟩
      change entry ∈ (if lineage.backends.mayWrite txn then none else lineage.backends.writer) at held
      split at held
      · cases held
      · exact passed.work entry held

end Whole

/-! ## What the traces tell in every run -/

/-- Postgres has handed out at most so many xids since that of the command. -/
def Recent (window : Nat) (history : History) (op : Command) : Prop :=
  history.nextXid ≤ op.txn.xid + window

/-- Postgres hands out no xid that is half the circle after a running transaction or after
a snapshot in use. -/
def Windowed (lineage : Lineage) : BackendsEvent → Prop
  | .assign _ =>
      advanceXid lineage.backends.history.nextXid ≤ lineage.backends.history.xmin + 2 ^ 31 ∧
        ∀ snap ∈ lineage.backends.snaps,
          advanceXid lineage.backends.history.nextXid ≤ snap.taken.xmin + 2 ^ 31
  | _ => True

/-- No xid that a row stores is further behind than `window` when Postgres hands out the
next one. -/
def Unworn (window : Nat) (lineage : Lineage) : BackendsEvent → Prop
  | .assign _ =>
      lineage.Whole fun trace table => trace.All table fun op =>
        advanceXid lineage.backends.history.nextXid ≤ op.txn.xid + window
  | _ => True

instance (lineage : Lineage) : DecidablePred lineage.Windowed
  | .assign _ => inferInstanceAs (Decidable (_ ∧ _))
  | .begin _ _ | .commandCounterIncrement _ | .takeSnapshot _ _ | .releaseSnapshot _
  | .doTupleInsert _ _ | .multiInsert _ _ | .tupleDelete _ _ _ | .tupleUpdate _ _ _ _
  | .relationVacuum _ _ | .reset _ | .preCommit _ | .commit _ | .abort _ | .scanBegin _ _
  | .scanGetnext _ | .scanRescan _ => isTrue trivial

instance (window : Nat) (lineage : Lineage) : DecidablePred (lineage.Unworn window)
  | .assign _ => inferInstanceAs (Decidable (lineage.Whole fun _ _ => _))
  | .begin _ _ | .commandCounterIncrement _ | .takeSnapshot _ _ | .releaseSnapshot _
  | .doTupleInsert _ _ | .multiInsert _ _ | .tupleDelete _ _ _ | .tupleUpdate _ _ _ _
  | .relationVacuum _ _ | .reset _ | .preCommit _ | .commit _ | .abort _ | .scanBegin _ _
  | .scanGetnext _ | .scanRescan _ => isTrue trivial

theorem Acts.moves_or_takes (driven : lineage.backends.Driven) {event : BackendsEvent}
    (acts : lineage.Acts event next) : lineage.backends.Moves next.backends ∨
      ∃ txn id, lineage.backends.history.status txn = .running ∧ next.backends =
        { lineage.backends with snaps := lineage.backends.snaps ++ [lineage.backends.snap txn id] } := by
  cases acts with
  | assign running => exact .inl (.assign driven running)
  | moves _ moves _ _ _ _ => exact .inl moves
  | takeSnapshot id active => exact .inr ⟨_, id, (Backends.active_iff.mp active).1, rfl⟩
  | write _ _ _ => exact .inl (.of_same driven rfl rfl rfl)
  | @preCommit txn _ => exact .inl (.preCommit driven txn _ _)

theorem Acts.nextXid_cases {event : BackendsEvent} (acts : lineage.Acts event next) :
    (∃ txn, event = .assign txn) ∧
        next.backends.history.nextXid = advanceXid lineage.backends.history.nextXid ∧
        next.backends.snaps = lineage.backends.snaps ∨
      next.backends.history.nextXid = lineage.backends.history.nextXid := by
  cases acts with
  | assign _ => exact .inl ⟨⟨_, rfl⟩, rfl, rfl⟩
  | moves _ _ nextXid _ _ _ => exact .inr nextXid
  | takeSnapshot _ _ | write _ _ _ | preCommit _ => exact .inr rfl

theorem Acts.writing {event : BackendsEvent} (acts : lineage.Acts event next)
    (writing : ∀ holder rel, lineage.backends.writer = some (holder, rel) →
      lineage.backends.active holder = true) (holder : TxnId) (rel : Relation)
    (held : next.backends.writer = some (holder, rel)) : next.backends.active holder = true := by
  cases acts with
  | assign _ | takeSnapshot _ _ => exact writing holder rel held
  | moves _ _ _ _ writer active =>
      have before := held
      change _ = some (holder, rel) at before
      rw [writer] at before
      split at before
      · cases before
      · exact active holder rel held (writing holder rel before)
  | write active _ _ =>
      cases held
      exact active
  | @preCommit txn _ =>
      change (if lineage.backends.mayWrite txn then none else lineage.backends.writer) = _ at held
      split at held
      · cases held
      · next blocked =>
          have different := Backends.ne_of_not_mayWrite blocked held
          have active := writing holder rel held
          rw [Backends.active_iff] at active ⊢
          refine ⟨active.1, ?_⟩
          simpa [Backends.setXact, different] using active.2

theorem Acts.since (driven : lineage.backends.Driven) {event : BackendsEvent}
    (acts : lineage.Acts event next) : lineage.backends.history.Since next.backends.history := by
  rcases acts.moves_or_takes driven with moves | ⟨txn, id, _, same⟩
  · exact moves.since
  · rw [same]
    exact .refl _

theorem Acts.driven (driven : lineage.backends.Driven) {event : BackendsEvent}
    (windowed : lineage.Windowed event) (acts : lineage.Acts event next) : next.backends.Driven := by
  rcases acts.moves_or_takes driven with moves | ⟨txn, id, running, same⟩
  · have grown := driven.formed.xmin_mono moves.formed moves.since
    rcases acts.nextXid_cases with ⟨⟨txn, rfl⟩, handed, snaps⟩ | nextXid
    · obtain ⟨near, used⟩ := windowed
      rw [← handed] at near used
      exact driven.moves moves (by omega) (snaps ▸ used)
    · have near := driven.near
      refine driven.moves moves (by omega) fun snap member => ?_
      rw [nextXid]
      exact (driven.snapshots.use snap (moves.snaps snap member).1).window
  · rw [same]
    exact driven.takeSnapshot running id

/-- The traces tell what the file and the writer's copy of it store. -/
structure Told (window : Nat) (lineage : Lineage) : Prop where
  driven : lineage.backends.Driven
  writing : ∀ holder rel, lineage.backends.writer = some (holder, rel) →
    lineage.backends.active holder = true
  tells : lineage.Whole fun trace table =>
    trace.Tells (Recent window lineage.backends.history) lineage.backends.history table

theorem Told.start (window : Nat) : Lineage.start.Told window where
  driven := {
    formed := .start
    top := fun _ member => nomatch member
    near := by decide
    cids := fun _ => (by decide : 0 < 2 ^ 32)
    snapshots := ⟨nofun, nofun, nofun, nofun, nofun⟩ }
  writing := nofun
  tells := ⟨⟨nofun, nofun, nofun, nofun, nofun, nofun, nofun⟩, nofun⟩

theorem recent_of_writes (driven : lineage.backends.Driven) {window : Nat} (wide : 2 ^ 31 ≤ window)
    {writer : Writer} (writes : lineage.backends.Writes writer) (cid key : Nat) (value : Option Bytes) :
    Recent window lineage.backends.history ⟨writer, cid, key, value⟩ := by
  have first : lineage.backends.history.xmin ≤ writer.xid :=
    History.xmin_le (History.mem_running_iff.mpr ⟨writes.assigned, writes.running⟩)
  have near := driven.near
  simp only [Recent]
  omega

theorem Alters.tells {window : Nat} (told : lineage.Told window) (wide : 2 ^ 31 ≤ window)
    {event : BackendsEvent} {trace : Trace} {table : Table}
    (alters : lineage.Alters txn event trace table) :
    trace.Tells (Recent window lineage.backends.history) lineage.backends.history table := by
  have known (writes : lineage.backends.Writes (lineage.writer txn)) (key : Nat) (value : Option Bytes) :
      Known lineage.backends.history
        ⟨lineage.writer txn, (lineage.backends.xact txn).cid, key, value⟩ :=
    ⟨writes.assigned, writes.cid⟩
  have now (writes : lineage.backends.Writes (lineage.writer txn)) :=
    recent_of_writes told.driven wide writes (lineage.backends.xact txn).cid
  have view := told.tells.view txn
  cases alters with
  | inserts _ writes => exact view.multiInsert (known writes) (now writes) event.tuples
  | deletes writes snap rowid hit => exact view.tupleDelete (known writes) (now writes) hit
  | updates writes snap rowid tuple => exact view.tupleUpdate (known writes) (now writes) rowid tuple
  | misses snap rowid rows => exact view.subset fun row member => rows ▸ member
  | removes _ _ rows => exact view.subset rows

theorem Told.acts {window : Nat} (told : lineage.Told window) (wide : 2 ^ 31 ≤ window)
    {event : BackendsEvent} (windowed : lineage.Windowed event) (unworn : lineage.Unworn window event)
    (acts : lineage.Acts event next) : next.Told window := by
  have since := acts.since told.driven
  refine ⟨acts.driven told.driven windowed, acts.writing told.writing,
    told.tells.acts acts ?_ fun alters same => ?_⟩
  · rcases acts.nextXid_cases with ⟨⟨txn, rfl⟩, handed, _⟩ | nextXid
    · refine unworn.imp fun trace table all tells => (tells.renew fun row member => ?_).since since
      simp only [Recent, handed]
      exact all row member
    · refine told.tells.imp fun trace table _ tells => ?_
      have current : Recent window next.backends.history = Recent window lineage.backends.history := by
        funext op
        rw [Recent, Recent, nextXid]
      rw [current]
      exact tells.since since
  · rw [same]
    exact alters.tells told wide

end Lineage

end SqliteHeap
