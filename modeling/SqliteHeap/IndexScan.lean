import Mathlib.Data.List.Perm.Basic
import SqliteHeap.IndexDeletion
import SqliteHeap.StableRows
import SqliteHeap.WrittenRows

/-! Index scans beside the backends. A statement adds an entry for each row that it has
written, any backend may ask `index_delete_tuples` which entries point at reclaimable rows and
drop them, and an index scan fetches the TIDs of the entries with its key. -/

set_option autoImplicit false

namespace SqliteHeap

/-- The rows that an event writes. -/
def Backends.news (backends : Backends) (event : BackendsEvent) : List (Bytes × Int) :=
  match event.inserter with
  | none => []
  | some txn => newRows event.tuples (backends.view txn).table.nextRowid

def IndexEntry.rowid {Key : Type} (entry : IndexEntry Key) : Int := tidToRowid entry.tid

/-- The backends with an index on their relation. -/
structure IndexScan (Key : Type) where
  backends : Backends
  entries : List (IndexEntry Key)
  /-- Tuples and rowids that the writer's statement has written and not yet indexed. -/
  pending : List (Bytes × Int)

inductive IndexScanEvent (Key : Type) where
  | backends (event : BackendsEvent)
  /-- `index_insert` for the first pending row. -/
  | indexInsert (txn : TxnId)
  /-- btree asks about the entries of a page and drops `removed`, all of them marked. -/
  | indexDelete (txn : TxnId) (oldest : Nat) (op : TmIndexDeleteOp) (removed : List (IndexEntry Key))

namespace IndexScan

variable {Key : Type}

def start : IndexScan Key := ⟨Backends.start, [], []⟩

/-- The transaction whose statement has added its entries before the event. -/
def settles : BackendsEvent → Option TxnId
  | .commandCounterIncrement txn | .preCommit txn | .relationVacuum txn _ | .reset txn => some txn
  | .begin _ _ | .assign _ | .takeSnapshot _ _ | .releaseSnapshot _ | .doTupleInsert _ _
  | .multiInsert _ _ | .tupleDelete _ _ _ | .tupleUpdate _ _ _ _ | .commit _ | .abort _
  | .scanBegin _ _ | .scanGetnext _ | .scanRescan _ => none

def ready (index : IndexScan Key) (event : BackendsEvent) : Bool :=
  (settles event).all fun txn => index.pending.isEmpty || !index.backends.mayWrite txn

section Step

variable [DecidableEq Key] (key : Bytes → Key)

def step (index : IndexScan Key) : IndexScanEvent Key → Option (IndexScan Key)
  | .backends event =>
      if index.ready event then
        (index.backends.step event).map fun backends =>
          if index.backends.frees event then { index with backends := backends, pending := [] }
          else { index with backends := backends, pending := index.pending ++ index.backends.news event }
      else none
  | .indexInsert txn =>
      match index.pending with
      | [] => none
      | new :: rest =>
          if index.backends.mayWrite txn && index.backends.active txn then
            some { index with
              entries := index.entries ++ [⟨key new.1, rowidToTid new.2⟩], pending := rest }
          else none
  | .indexDelete txn oldest op removed =>
      if index.backends.active txn ∧ ∀ entry ∈ removed,
          Indexed.marked (index.backends.history.xacts txn) (storedXid oldest)
            (op.deltids.map TmIndexDelete.tid) (index.backends.view txn).table entry.tid = true then
        some { index with entries := index.entries.filter fun entry => !removed.contains entry }
      else none

def run : IndexScan Key → List (IndexScanEvent Key) → Option (IndexScan Key) := Transition.run (step key)

/-- The rows of an index scan: the entries with the key, each fetched by `index_fetch_tuple`. -/
def scan (index : IndexScan Key) (snap : Snap) (wanted : Key) : List StoredRow :=
  (index.entries.filter fun entry => entry.key = wanted).filterMap fun entry =>
    index.backends.fetch snap entry.rowid

end Step

/-- The writer's rows that the page names are known to the caller: it finds a row at the TID,
with the same `xmax` or with none. -/
def Found (index : IndexScan Key) (txn : TxnId) (op : TmIndexDeleteOp) : Prop :=
  ∀ held ∈ index.backends.writer, ∀ row ∈ held.2.table.rows,
    (∃ deltid ∈ op.deltids, tidToRowid deltid.tid = row.rowid) →
      ∃ old ∈ (index.backends.view txn).table.rows, old.rowid = row.rowid ∧
        (old.xmax = row.xmax ∨ old.xmax = 0#32)

/-- No row gets a TID that an entry has, and the horizon of index deletion is one of VACUUM, of a
caller that holds a snapshot and is not asked about rows that the writer alone has. -/
def Allowed (index : IndexScan Key) : IndexScanEvent Key → Prop
  | .backends event =>
      index.backends.Allowed event ∧ ∀ new ∈ index.backends.news event,
        new.2 ≤ maxTidRowid ∧ ∀ entry ∈ index.entries, entry.rowid ≠ new.2
  | .indexInsert _ => True
  | .indexDelete txn oldest op _ =>
      oldest < 2 ^ 31 ∧ (∃ snap ∈ index.backends.snaps, snap.owner = txn) ∧
        (∀ snap ∈ index.backends.snaps, oldest ≤ snap.taken.xmin) ∧ index.Found txn op

instance (index : IndexScan Key) (txn : TxnId) (op : TmIndexDeleteOp) :
    Decidable (index.Found txn op) :=
  inferInstanceAs (Decidable (∀ held ∈ index.backends.writer, ∀ row ∈ held.2.table.rows, _ → _))

instance (index : IndexScan Key) : DecidablePred index.Allowed
  | .backends _ => inferInstanceAs (Decidable (_ ∧ ∀ new ∈ _, _ ∧ ∀ entry ∈ _, _ ≠ _))
  | .indexInsert _ => isTrue trivial
  | .indexDelete _ _ _ _ => inferInstanceAs (Decidable (_ ∧ (∃ snap ∈ _, _) ∧ (∀ snap ∈ _, _) ∧ _))

end IndexScan

/-! ## What a write does to the rows -/

namespace Table

/-- A table that a transaction's commands have grown: rows keep their TIDs, tuples and creators,
some without `xmax` got one, and there are new rows. -/
structure Grows (xid : TransactionId) (cid : CommandId) (news : List (Bytes × Int))
    (table after : Table) : Prop where
  rows : ∀ row ∈ after.rows,
    (∃ old ∈ table.rows, old.rowid = row.rowid ∧ old.tuple = row.tuple ∧ old.xmin = row.xmin ∧
        old.cmin = row.cmin ∧ (old.xmax = row.xmax ∨ old.xmax = 0#32)) ∨
      (row.tuple, row.rowid) ∈ news ∧ row.xmin = xid ∧ row.cmin = cid
  kept : ∀ old ∈ table.rows, ∃ row ∈ after.rows, row.rowid = old.rowid ∧
    (row.xmax = old.xmax ∨ row.xmax = xid)
  rowids : ∀ new ∈ news, table.nextRowid ≤ new.2 ∧ new.2 < after.nextRowid
  distinct : (news.map Prod.snd).Nodup
  next : table.nextRowid ≤ after.nextRowid

namespace Grows

variable {xid : TransactionId} {cid : CommandId} {news more : List (Bytes × Int)}
  {table middle after : Table}

theorem refl (table : Table) : Grows xid cid [] table table where
  rows row member := .inl ⟨row, member, rfl, rfl, rfl, rfl, .inl rfl⟩
  kept old member := ⟨old, member, rfl, .inl rfl⟩
  rowids := List.forall_mem_nil _
  distinct := List.nodup_nil
  next := Int.le_refl _

theorem trans (first : Grows xid cid news table middle) (second : Grows xid cid more middle after) :
    Grows xid cid (news ++ more) table after where
  rows row member := by
    rcases second.rows row member with ⟨old, inMiddle, rowid, tuple, xmin, cmin, xmax⟩ | ⟨new, made⟩
    · rw [← rowid, ← tuple, ← xmin, ← cmin]
      rcases first.rows old inMiddle with ⟨older, inTable, rowid', tuple', xmin', cmin', xmax'⟩ |
        ⟨new, made⟩
      · refine .inl ⟨older, inTable, rowid', tuple', xmin', cmin', ?_⟩
        rcases xmax' with same | live
        · exact same ▸ xmax
        · exact .inr live
      · exact .inr ⟨List.mem_append_left _ new, made⟩
    · exact .inr ⟨List.mem_append_right _ new, made⟩
  kept old member := by
    obtain ⟨row, inMiddle, rowid, xmax⟩ := first.kept old member
    obtain ⟨last, inAfter, rowid', xmax'⟩ := second.kept row inMiddle
    refine ⟨last, inAfter, rowid'.trans rowid, ?_⟩
    rcases xmax' with same | own
    · exact same ▸ xmax
    · exact .inr own
  rowids :=
    List.forall_mem_append.mpr
      ⟨fun new member => ⟨(first.rowids new member).1, (first.rowids new member).2.trans_le second.next⟩,
        fun new member => ⟨first.next.trans (second.rowids new member).1, (second.rowids new member).2⟩⟩
  distinct := by
    rw [List.map_append]
    refine List.Nodup.append first.distinct second.distinct ?_
    intro rowid inFirst inSecond
    obtain ⟨old, inNews, rfl⟩ := List.mem_map.mp inFirst
    obtain ⟨new, inMore, same⟩ := List.mem_map.mp inSecond
    have order := (first.rowids old inNews).2.trans_le (second.rowids new inMore).1
    exact order.ne' same
  next := first.next.trans second.next

theorem insertRow (tuple : Bytes) (table : Table) :
    Grows xid cid [(tuple, table.nextRowid)] table (table.insertRow xid cid tuple) where
  rows := by
    refine List.forall_mem_append.mpr ⟨fun row member => ?_, List.forall_mem_singleton.mpr ?_⟩
    · exact .inl ⟨row, member, rfl, rfl, rfl, rfl, .inl rfl⟩
    · exact .inr ⟨List.mem_singleton_self _, rfl, rfl⟩
  kept old member := ⟨old, List.mem_append_left _ member, rfl, .inl rfl⟩
  rowids := List.forall_mem_singleton.mpr ⟨Int.le_refl _, by simp⟩
  distinct := List.nodup_singleton _
  next := by simp

theorem stampRow (rowid : Int) (table : Table) : Grows xid cid [] table (table.stampRow rowid xid cid) where
  rows row member := by
    obtain ⟨old, inTable, rfl⟩ := List.mem_map.mp member
    by_cases live : isLive rowid old = true
    · rw [stamp, if_pos live]
      exact .inl ⟨old, inTable, rfl, rfl, rfl, rfl, .inr (Relation.isLive_iff.mp live).2⟩
    · rw [stamp, if_neg live]
      exact .inl ⟨old, inTable, rfl, rfl, rfl, rfl, .inl rfl⟩
  kept old member := by
    refine ⟨stamp rowid xid cid old, List.mem_map_of_mem member, stamp_rowid _ _ _ _, ?_⟩
    unfold stamp
    split
    · exact .inr rfl
    · exact .inl rfl
  rowids := List.forall_mem_nil _
  distinct := List.nodup_nil
  next := by simp

theorem updateRow (rowid : Int) (tuple : Bytes) (table : Table) :
    Grows xid cid [(tuple, table.nextRowid)] table (table.updateRow rowid xid cid tuple).1 := by
  have stamped : Grows xid cid [] table (table.stampRow rowid xid cid) := stampRow rowid table
  have inserted := stamped.trans (insertRow tuple (table.stampRow rowid xid cid))
  rw [nextRowid_stampRow] at inserted
  exact inserted

theorem insertBatch (tuples : List Bytes) (table : Table) :
    Grows xid cid (newRows tuples table.nextRowid) table (table.insertBatch xid cid tuples).1 := by
  induction tuples generalizing table with
  | nil => exact refl table
  | cons tuple rest ih =>
      have later := ih (table.insertRow xid cid tuple)
      rw [nextRowid_insertRow] at later
      exact (insertRow tuple table).trans later

end Grows

end Table

end SqliteHeap
