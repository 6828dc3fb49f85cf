import SqliteHeap.IndexEntries
import SqliteHeap.WrittenRows

/-! A unique index beside the backends. Each statement first writes its rows; btree then
fetches the row of every entry with an equal key under a dirty snapshot before it adds the
new entry. The write lock on the file keeps other writers' rows out of sight until they have
reached `PreCommit`, and the dirty snapshot waits for these to end. -/

set_option autoImplicit false

namespace SqliteHeap

namespace Visibility

theorem visibleDirty_eq_false_iff {xacts : Xacts} {row : StoredHeader} {snapshot : Snapshot} :
    (visibleDirty xacts row snapshot).1 = false ↔
      (xacts.isCurrent row.xmin = false ∧ xacts.isInProgress row.xmin = false ∧
          didCommit xacts row.xmin = false) ∨
        row.xmax ≠ 0#32 ∧ (xacts.isCurrent row.xmax = true ∨
          xacts.isInProgress row.xmax = false ∧ didCommit xacts row.xmax = true) := by
  have undeleted : ∀ reported : Snapshot, (undeletedDirty xacts row reported).1 = false ↔
      row.xmax ≠ 0#32 ∧ (xacts.isCurrent row.xmax = true ∨
        xacts.isInProgress row.xmax = false ∧ didCommit xacts row.xmax = true) := by
    intro reported
    unfold undeletedDirty
    repeat' split
    all_goals simp_all
  unfold visibleDirty
  dsimp only
  repeat' split
  all_goals simp_all

end Visibility

/-- `InitDirtySnapshot`. -/
def dirtySnapshot : Snapshot := ⟨.dirty, 0#32, 0#32, [], [], 0#32, 0#32⟩

/-- What `_bt_check_unique` makes of an entry with an equal key. -/
inductive UniqueCheck where
  | passes
  /-- An xid in progress is reported: wait for it and check again. -/
  | waits
  | conflicts
deriving DecidableEq

/-- `index_fetch_tuple` with the dirty snapshot, which reports xids in progress. -/
def checkUnique (xacts : Xacts) (table : Table) (tid : Tid) : UniqueCheck :=
  match table.selectOne (tidToRowid tid) with
  | none => .passes
  | some row =>
      let (visible, snapshot) := Visibility.rowVisible xacts row.toStoredHeader dirtySnapshot
      if !visible then .passes
      else if snapshot.xmin ≠ 0#32 || snapshot.xmax ≠ 0#32 then .waits
      else .conflicts

/-- The backends with a unique index on their relation. -/
structure UniqueIndex (Key : Type) where
  lineage : Lineage
  entries : List (IndexEntry Key)
  /-- Tuples and rowids that the writer's statement has written and not yet indexed. -/
  pending : List (Bytes × Int)
  /-- How many of the entries with the key of the first pending row have been checked. -/
  checked : Nat
  /-- A conflict has raised an error: the row stays pending until its transaction aborts. -/
  failed : Bool

inductive UniqueEvent where
  | backends (event : BackendsEvent)
  /-- One step of `_bt_doinsert` for the first pending row. -/
  | indexInsert (txn : TxnId)

namespace UniqueIndex

variable {Key : Type}

def start : UniqueIndex Key := ⟨Lineage.start, [], [], 0, false⟩

/-- A statement adds its entries before it ends. -/
def ready (index : UniqueIndex Key) (event : BackendsEvent) : Bool :=
  event.between.all fun txn => index.pending.isEmpty || !index.lineage.backends.mayWrite txn

section Step

variable [DecidableEq Key] (key : Bytes → Key)

/-- The entries with the key of a tuple. -/
def equal (index : UniqueIndex Key) (tuple : Bytes) : List (IndexEntry Key) :=
  index.entries.filter fun entry => entry.key = key tuple

/-- The check of the next entry with the key of the first pending row, or its own entry
when all have passed. -/
def indexInsert (index : UniqueIndex Key) (txn : TxnId) (new : Bytes × Int) (rest : List (Bytes × Int)) :
    UniqueIndex Key :=
  match (index.equal key new.1)[index.checked]? with
  | none =>
      { index with
        entries := index.entries ++ [⟨key new.1, rowidToTid new.2⟩]
        pending := rest
        checked := 0 }
  | some entry =>
      match checkUnique (index.lineage.backends.history.xacts txn)
          (index.lineage.backends.view txn).table entry.tid with
      | .passes => { index with checked := index.checked + 1 }
      | .waits => { index with checked := 0 }
      | .conflicts => { index with failed := true }

section Outcomes

variable {index : UniqueIndex Key} {txn : TxnId} {new : Bytes × Int} {rest : List (Bytes × Int)}
  {entry : IndexEntry Key}

theorem indexInsert_of_checked (checked : (index.equal key new.1)[index.checked]? = none) :
    index.indexInsert key txn new rest =
      { index with
        entries := index.entries ++ [⟨key new.1, rowidToTid new.2⟩]
        pending := rest
        checked := 0 } := by
  rw [indexInsert, checked]

theorem indexInsert_of_passes (next : (index.equal key new.1)[index.checked]? = some entry)
    (passes : checkUnique (index.lineage.backends.history.xacts txn)
      (index.lineage.backends.view txn).table entry.tid = .passes) :
    index.indexInsert key txn new rest = { index with checked := index.checked + 1 } := by
  rw [indexInsert, next]
  simp only [passes]

theorem indexInsert_of_waits (next : (index.equal key new.1)[index.checked]? = some entry)
    (waits : checkUnique (index.lineage.backends.history.xacts txn)
      (index.lineage.backends.view txn).table entry.tid = .waits) :
    index.indexInsert key txn new rest = { index with checked := 0 } := by
  rw [indexInsert, next]
  simp only [waits]

theorem indexInsert_of_conflicts (next : (index.equal key new.1)[index.checked]? = some entry)
    (conflicts : checkUnique (index.lineage.backends.history.xacts txn)
      (index.lineage.backends.view txn).table entry.tid = .conflicts) :
    index.indexInsert key txn new rest = { index with failed := true } := by
  rw [indexInsert, next]
  simp only [conflicts]

end Outcomes

def step (index : UniqueIndex Key) : UniqueEvent → Option (UniqueIndex Key)
  | .backends event =>
      if index.ready event then
        (index.lineage.step event).map fun lineage =>
          if index.lineage.backends.frees event then
            { index with lineage := lineage, pending := [], checked := 0, failed := false }
          else { index with lineage := lineage, pending := index.pending ++ index.lineage.news event }
      else none
  | .indexInsert txn =>
      match index.pending with
      | [] => none
      | new :: rest =>
          if index.lineage.backends.mayWrite txn && index.lineage.backends.active txn &&
              !index.failed then
            some (index.indexInsert key txn new rest)
          else none

def run : UniqueIndex Key → List UniqueEvent → Option (UniqueIndex Key) := Transition.run (step key)

end Step

end UniqueIndex

end SqliteHeap
