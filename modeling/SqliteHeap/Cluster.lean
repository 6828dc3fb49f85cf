import SqliteHeap.Rewrite
import SqliteHeap.XidStatus

/-! `relation_copy_for_cluster`. The copy decides from `xmax` alone which row versions to take
along, and stamps all of them with the xid of the rewrite. -/

set_option autoImplicit false

namespace SqliteHeap

/-- `relation_copy_for_cluster`: the new relation, `num_tuples` and `tups_vacuumed`. -/
def copyForCluster (xid : TransactionId) (cid : CommandId) (old new : Table) : Table × Nat × Nat :=
  let (writes, live, dead) := relationCopyForCluster xid cid old.selectAll
  (writes.foldl (fun table write => write.apply table) new, live, dead)

namespace Cluster

open Visibility

variable {now later : StatusMap} {old new : Table} {xid : TransactionId} {cid : CommandId}
  {snapshot : Snapshot} {row : StoredRow}

/-- Every xid in a header is our own, committed or aborted. -/
def Settled (now : StatusMap) (table : Table) : Prop :=
  ∀ row ∈ table.rows, now row.xmin ≠ .inProgress ∧ now row.xmax ≠ .inProgress

instance (now : StatusMap) (table : Table) : Decidable (Settled now table) :=
  inferInstanceAs (Decidable (∀ row ∈ table.rows, _))

def headerXids (table : Table) : List TransactionId := table.rows.flatMap fun row => [row.xmin, row.xmax]

/-- An MVCC snapshot that another transaction takes after our commit: what is finished then
is finished for it, and its bounds are within half the circle of what committed. -/
structure TakenAfter (now later : StatusMap) (xids : List TransactionId) (snapshot : Snapshot) :
    Prop where
  mvcc : snapshot.snapshotType = .mvcc
  committed : ∀ xid ∈ xids, now xid = .own ∨ now xid = .committed → later xid = .committed
  aborted : ∀ xid ∈ xids, now xid = .aborted → later xid = .aborted
  seen : ∀ xid ∈ xids, later xid = .committed →
    transactionIdPrecedes xid snapshot.xmax = true ∧ xid ∉ snapshot.xip

/-- The transaction's work stays when ours commits. -/
def Stays (now : StatusMap) (xid : TransactionId) : Prop :=
  xid ≠ 0#32 ∧ (now xid = .own ∨ now xid = .committed)

instance (now : StatusMap) (xid : TransactionId) : Decidable (Stays now xid) :=
  inferInstanceAs (Decidable (_ ∧ _))

/-- Rows that the copy takes along although their inserter aborted. -/
def resurrected (now : StatusMap) (table : Table) : List StoredRow :=
  table.rows.filter fun row => row.xmax = 0#32 ∧ ¬ Stays now row.xmin

/-- Rows that the copy leaves behind although their deleter aborted. -/
def lost (now : StatusMap) (table : Table) : List StoredRow :=
  table.rows.filter fun row =>
    row.xmax ≠ 0#32 ∧ ¬ Stays now row.xmax ∧ Stays now row.xmin

def visibleTuples (later : StatusMap) (snapshot : Snapshot) (table : Table) : List Bytes :=
  (table.rows.filter fun row => (rowVisible later.xacts row.toStoredHeader snapshot).1).map
    StoredRow.tuple

section After

variable {xids : List TransactionId} (after : TakenAfter now later xids snapshot)

include after

theorem seen_iff (member : xid ∈ xids) (settled : now xid ≠ .inProgress) :
    xidView later.xacts xid snapshot = .committedAndVisible ↔ Stays now xid := by
  rw [StatusMap.xidView_committed_iff, Stays]
  constructor
  · rintro ⟨assigned, committed, _⟩
    refine ⟨assigned, ?_⟩
    cases view : now xid with
    | own => exact .inl rfl
    | inProgress => exact absurd view settled
    | committed => exact .inr rfl
    | aborted =>
        rw [after.aborted xid member view] at committed
        cases committed
  · rintro ⟨assigned, stays⟩
    have committed := after.committed xid member stays
    exact ⟨assigned, committed, .inr (after.seen xid member committed)⟩

theorem not_current (member : xid ∈ xids) (settled : now xid ≠ .inProgress) :
    later.xacts.isCurrent xid = false := by
  refine Bool.eq_false_iff.mpr fun current => ?_
  have own := (StatusMap.isCurrent_iff.mp current).2
  cases view : now xid with
  | own => simp [after.committed xid member (.inl view)] at own
  | inProgress => exact settled view
  | committed => simp [after.committed xid member (.inr view)] at own
  | aborted => simp [after.aborted xid member view] at own

/-- A later snapshot sees the rows whose insertion stays and whose deletion does not. -/
theorem visibleAfter_iff (inserter : row.xmin ∈ xids) (deleter : row.xmax ∈ xids)
    (settled : now row.xmin ≠ .inProgress ∧ now row.xmax ≠ .inProgress) :
    (rowVisible later.xacts row.toStoredHeader snapshot).1 = true ↔
      Stays now row.xmin ∧ ¬ Stays now row.xmax := by
  have mvcc : (rowVisible later.xacts row.toStoredHeader snapshot).1 =
      visibleMvcc later.xacts row.toStoredHeader snapshot := by simp [rowVisible, after.mvcc]
  rw [mvcc, visibleMvcc_iff, seen_iff after inserter settled.1, DeletedFor,
    seen_iff after deleter settled.2]
  rw [not_current after inserter settled.1, not_current after deleter settled.2]
  simp only [Bool.false_eq_true, false_and, or_false]
  exact and_congr_right fun _ => not_congr ⟨And.right, fun stays => ⟨stays.1, stays⟩⟩

end After

/-- Two selections of a list have the same images if and only if what each has alone does. -/
theorem map_filter_perm_iff {α β : Type} (image : α → β) (first second : α → Bool) (items : List α) :
    ((items.filter first).map image).Perm ((items.filter second).map image) ↔
      ((items.filter fun item => !second item && first item).map image).Perm
        ((items.filter fun item => !first item && second item).map image) := by
  have parts (keep other : α → Bool) : ((items.filter fun item => other item && keep item).map image ++
      (items.filter fun item => !other item && keep item).map image).Perm
        ((items.filter keep).map image) := by
    have whole := (List.filter_append_perm other (items.filter keep)).map image
    rwa [List.map_append, List.filter_filter, List.filter_filter] at whole
  have shared : (items.filter fun item => second item && first item) =
      items.filter fun item => first item && second item :=
    List.filter_congr fun item _ => Bool.and_comm _ _
  have left := parts first second
  have right := parts second first
  rw [shared] at left
  constructor
  · intro same
    exact (List.perm_append_left_iff _).mp (left.trans (same.trans right.symm))
  · intro alone
    exact left.symm.trans (((List.perm_append_left_iff _).mpr alone).trans right)

/-! ## The copy -/

theorem copied_row (rows : List StoredRow) {table : Table}
    (member : row ∈ ((relationCopyForCluster xid cid rows).1.foldl
      (fun table write => write.apply table) table).rows) :
    row ∈ table.rows ∨ row.xmin = xid ∧ row.xmax = 0#32 := by
  induction rows generalizing table with
  | nil => exact .inl member
  | cons first rows ih =>
      rw [relationCopyForCluster] at member
      by_cases stamped : first.xmax = 0#32
      · simp only [stamped, ne_eq, not_true_eq_false, ↓reduceIte, List.foldl_cons] at member
        rcases ih member with before | copied
        · rcases List.mem_append.mp before with old | new
          · exact .inl old
          · rw [List.mem_singleton.mp new]
            exact .inr ⟨rfl, rfl⟩
        · exact .inr copied
      · simp only [ne_eq, stamped, not_false_eq_true, ↓reduceIte] at member
        exact ih member

theorem visibleTuples_copy (after : TakenAfter now later (xid :: headerXids old) snapshot)
    (own : now xid = .own) (assigned : xid ≠ 0#32) (empty : new.rows = []) :
    visibleTuples later snapshot (copyForCluster xid cid old new).1 =
      (old.rows.filter fun row => row.xmax = 0#32).map StoredRow.tuple := by
  have seen : ∀ row ∈ (copyForCluster xid cid old new).1.rows,
      (rowVisible later.xacts row.toStoredHeader snapshot).1 = true := by
    intro row member
    rcases copied_row old.rows member with before | ⟨inserter, undeleted⟩
    · rw [empty] at before
      cases before
    · have committed := after.committed xid (by simp) (.inl own)
      have inserted : xidView later.xacts row.xmin snapshot = .committedAndVisible := by
        rw [inserter, StatusMap.xidView_committed_iff]
        exact ⟨assigned, committed, .inr (after.seen xid (by simp) committed)⟩
      have visible : visibleMvcc later.xacts row.toStoredHeader snapshot = true :=
        visibleMvcc_iff.mpr ⟨.inl inserted, fun deleted => deleted.1 undeleted⟩
      simpa [rowVisible, after.mvcc] using visible
  rw [visibleTuples, List.filter_eq_self.mpr seen]
  have tuples := relationCopyForCluster_tuples xid cid old.rows new
  rw [empty] at tuples
  exact tuples

theorem visibleTuples_old (after : TakenAfter now later (xid :: headerXids old) snapshot)
    (settled : Settled now old) :
    visibleTuples later snapshot old =
      (old.rows.filter fun row => Stays now row.xmin ∧ ¬ Stays now row.xmax).map StoredRow.tuple := by
  refine congrArg (List.map StoredRow.tuple) (List.filter_congr fun row member => ?_)
  have inserter : row.xmin ∈ xid :: headerXids old :=
    List.mem_cons_of_mem _ (List.mem_flatMap.mpr ⟨row, member, by simp⟩)
  have deleter : row.xmax ∈ xid :: headerXids old :=
    List.mem_cons_of_mem _ (List.mem_flatMap.mpr ⟨row, member, by simp⟩)
  rw [Bool.eq_iff_iff, visibleAfter_iff after inserter deleter (settled row member), decide_eq_true_iff]

/-- CLUSTER keeps the tuples that a later snapshot sees if and only if the rows that it
brings back have the same tuples as those that it loses, as when there are none of either.
Its counts add up in any case. -/
theorem copy_preserves_iff {now later : StatusMap} {old new : Table} {xid : TransactionId}
    {snapshot : Snapshot} (settled : Settled now old) (own : now xid = .own) (assigned : xid ≠ 0#32)
    (empty : new.rows = []) (after : TakenAfter now later (xid :: headerXids old) snapshot)
    (cid : CommandId) :
    ((visibleTuples later snapshot (copyForCluster xid cid old new).1).Perm
        (visibleTuples later snapshot old) ↔
      ((resurrected now old).map StoredRow.tuple).Perm ((lost now old).map StoredRow.tuple)) ∧
      (copyForCluster xid cid old new).2.1 + (copyForCluster xid cid old new).2.2 =
        old.rows.length := by
  constructor
  · have unassigned : ¬ Stays now 0#32 := fun stays => stays.1 rfl
    have brought : resurrected now old = old.rows.filter fun row =>
        !decide (Stays now row.xmin ∧ ¬ Stays now row.xmax) && decide (row.xmax = 0#32) := by
      refine List.filter_congr fun row _ => ?_
      by_cases stamped : row.xmax = 0#32 <;> simp [stamped, unassigned]
    have left : lost now old = old.rows.filter fun row =>
        !decide (row.xmax = 0#32) && decide (Stays now row.xmin ∧ ¬ Stays now row.xmax) := by
      refine List.filter_congr fun row _ => ?_
      by_cases stamped : row.xmax = 0#32 <;> simp [stamped, and_comm]
    rw [visibleTuples_copy after own assigned empty, visibleTuples_old after settled,
      map_filter_perm_iff, brought, left]
  · have counts := relationCopyForCluster_counts xid cid old.rows
    have total := List.length_eq_length_filter_add (l := old.rows) fun row => decide (row.xmax = 0#32)
    simp only [copyForCluster, Table.selectAll, counts]
    simpa using total.symm

/-- Our transaction 102, and 100 committed; every other one aborted. -/
def ours102 : StatusMap := fun xid =>
  if xid = 102#32 then .own else if xid = 100#32 then .committed else .aborted

def committed102 : StatusMap := fun xid =>
  if xid = 102#32 ∨ xid = 100#32 then .committed else .aborted

def at110 : Snapshot := ⟨.mvcc, 110#32, 110#32, [], [], 0#32, 0#32⟩

/-- One row that 100 inserted, and one that it updated itself. -/
def clean : Table :=
  (((Table.empty.insertRow 100#32 0#32 [1]).insertRow 100#32 0#32 [2]).updateRow 1 100#32 1#32 [3]).1

theorem clean_takenAfter : TakenAfter ours102 committed102 (102#32 :: headerXids clean) at110 := by
  have headers : headerXids clean = [100#32, 100#32, 100#32, 0#32, 100#32, 0#32] := by decide
  rw [headers]
  refine ⟨rfl, ?_, ?_, ?_⟩ <;>
    simp [ours102, committed102, at110, show transactionIdPrecedes 102#32 110#32 = true by decide,
      show transactionIdPrecedes 100#32 110#32 = true by decide]

theorem clean_preserved :
    ((visibleTuples committed102 at110 (copyForCluster 102#32 0#32 clean Table.empty).1).Perm
        (visibleTuples committed102 at110 clean) ↔
      ((resurrected ours102 clean).map StoredRow.tuple).Perm
        ((lost ours102 clean).map StoredRow.tuple)) ∧
      (copyForCluster 102#32 0#32 clean Table.empty).2.1 +
        (copyForCluster 102#32 0#32 clean Table.empty).2.2 = clean.rows.length :=
  copy_preserves_iff (by decide) (by decide) (by decide) rfl
    clean_takenAfter 0#32

/-- Transaction 101 updated the row and aborted after SQLite committed its work. -/
def updateAborted : Table := ((Table.empty.insertRow 100#32 0#32 [1]).updateRow 1 101#32 0#32 [2]).1

theorem updateAborted_takenAfter :
    TakenAfter ours102 committed102 (102#32 :: headerXids updateAborted) at110 := by
  have headers : headerXids updateAborted = [100#32, 101#32, 101#32, 0#32] := by decide
  rw [headers]
  refine ⟨rfl, ?_, ?_, ?_⟩ <;>
    simp [ours102, committed102, at110, show transactionIdPrecedes 102#32 110#32 = true by decide,
      show transactionIdPrecedes 100#32 110#32 = true by decide]

/-- The copy drops the row and keeps the version that was never committed. -/
theorem updateAborted_swapped :
    (Settled ours102 updateAborted ∧
      TakenAfter ours102 committed102 (102#32 :: headerXids updateAborted) at110) ∧
      visibleTuples committed102 at110 updateAborted = [[1]] ∧
      visibleTuples committed102 at110 (copyForCluster 102#32 0#32 updateAborted Table.empty).1 =
        [[2]] :=
  ⟨⟨by decide, updateAborted_takenAfter⟩, by decide, by decide⟩

end Cluster

end SqliteHeap
