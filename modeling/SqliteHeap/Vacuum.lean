import SqliteHeap.Visibility

/-! VACUUM. `vacuum_dead` compares ids as signed numbers and does not ask whether
the deleter committed; this file says exactly when that removes only row versions
that no snapshot needs. -/

set_option autoImplicit false

namespace SqliteHeap

/-- `relation_vacuum`, given the horizon of `GetOldestNonRemovableTransactionId`. -/
def relationVacuum (oldest : TransactionId) (table : Table) : Table := (table.vacuumDead oldest).1

namespace Vacuum

open Visibility

/-- The row version is in the file before VACUUM and not after it. -/
def Removed (oldest : TransactionId) (table : Table) (row : StoredRow) : Prop :=
  row ∈ table.rows ∧ row ∉ (relationVacuum oldest table).rows

/-- The bar for reclaiming: a committed deletion that precedes the horizon. -/
def Reclaimable (xacts : Xacts) (oldest : TransactionId) (row : StoredHeader) : Prop :=
  row.xmax ≠ 0#32 ∧ didCommit xacts row.xmax = true ∧
    transactionIdPrecedes row.xmax oldest = true

/-- What is known later: a commit stays one, and ends its transaction. -/
structure Later (now later : Xacts) : Prop where
  committed : ∀ xid, now.transactionIdDidCommit xid = true → later.transactionIdDidCommit xid = true
  finished : ∀ xid, now.transactionIdDidCommit xid = true → later.isCurrent xid = false

/-- An MVCC snapshot whose xmin is at or after the horizon. Postgres keeps all ids
in use within half the circle of each other. -/
structure SnapshotSince (oldest xmax : TransactionId) (snapshot : Snapshot) : Prop where
  mvcc : snapshot.snapshotType = .mvcc
  normal : isNormal snapshot.xmin = true
  since : transactionIdPrecedes snapshot.xmin oldest = false
  window : isNormal xmax = true →
    2 * (Circular.distance xmax oldest + Circular.distance oldest snapshot.xmin) ≤ 2 ^ 32

/-- VACUUM removes reclaimable versions only, so no snapshot loses a row. -/
def Safe (xacts : Xacts) (oldest : TransactionId) (table : Table) : Prop :=
  (∀ row, Removed oldest table row → Reclaimable xacts oldest row.toStoredHeader) ∧
    ∀ row, Removed oldest table row → ∀ later snapshot, Later xacts later →
      SnapshotSince oldest row.xmax snapshot →
        (rowVisible later row.toStoredHeader snapshot).1 = false

theorem removed_iff {oldest : TransactionId} {table : Table} {row : StoredRow} :
    Removed oldest table row ↔
      ¬ oldest ≤ table.lastVacuumXmin ∧ row ∈ table.rows ∧ Table.isDead oldest row = true := by
  unfold Removed relationVacuum Table.vacuumDead
  split
  · next skipped => simp [skipped]
  · next runs =>
      simp only [Table.upsertMeta, Table.keepRows, List.mem_filter, not_and, runs, not_false_eq_true,
        true_and]
      constructor
      · rintro ⟨member, removed⟩
        exact ⟨member, by simpa using removed member⟩
      · rintro ⟨member, dead⟩
        exact ⟨member, fun _ => by simp [dead]⟩

theorem isDead_iff {oldest : TransactionId} {row : StoredRow} :
    Table.isDead oldest row = true ↔ row.xmax ≠ 0#32 ∧ row.xmax.toInt < oldest.toInt := by
  rw [Table.isDead, decide_eq_true_iff, ne_eq, bindU32_eq_zero_iff]
  rfl

/-- Below the horizon as a signed number, and before it on the circle. -/
theorem precedes_iff_near {xmax oldest : TransactionId} (normal : isNormal oldest = true)
    (below : xmax.toInt < oldest.toInt) :
    transactionIdPrecedes xmax oldest = true ↔ oldest.toInt - xmax.toInt ≤ 2 ^ 31 := by
  cases assigned : isNormal xmax with
  | true =>
      rw [transactionIdPrecedes_of_normal assigned normal,
        Circular.precedes_of_toInt_lt (by decide) below]
      omega
  | false =>
      have small : xmax.toNat < 3 := by
        simp only [isNormal, decide_eq_false_iff_not] at assigned
        bv_omega
      have bound := oldest.isLt
      have near : oldest.toInt - xmax.toInt ≤ 2 ^ 31 := by
        rw [BitVec.toInt_eq_toNat_cond, BitVec.toInt_eq_toNat_cond]
        split <;> split <;> omega
      exact iff_of_true (transactionIdPrecedes_of_permanent assigned normal) near

/-- A deletion that is committed and precedes the horizon hides the row from every
snapshot taken since. -/
theorem hidden_of_reclaimable {xacts later : Xacts} {oldest : TransactionId} {row : StoredHeader}
    {snapshot : Snapshot} (reclaimable : Reclaimable xacts oldest row) (normal : isNormal oldest = true)
    (progress : Later xacts later) (since : SnapshotSince oldest row.xmax snapshot) :
    (rowVisible later row snapshot).1 = false := by
  obtain ⟨stamped, committed, before⟩ := reclaimable
  have known : xacts.transactionIdDidCommit row.xmax = true := by
    simpa [didCommit, stamped] using committed
  have precedes : transactionIdPrecedes row.xmax snapshot.xmin = true := by
    cases assigned : isNormal row.xmax with
    | false => exact transactionIdPrecedes_of_permanent assigned since.normal
    | true =>
        rw [transactionIdPrecedes_of_normal assigned normal] at before
        rw [transactionIdPrecedes_of_normal assigned since.normal]
        exact Circular.precedes_trans (by decide) before (since.window assigned)
  have deleted : DeletedFor later row snapshot := by
    refine ⟨stamped, .inl (xidView_committed_iff.mpr ⟨progress.finished _ known, ?_, .inl precedes⟩)⟩
    simp [didCommit, stamped, progress.committed _ known]
  have hidden : visibleMvcc later row snapshot ≠ true :=
    fun visible => (visibleMvcc_iff.mp visible).2 deleted
  simpa [rowVisible, since.mvcc] using hidden

/-- VACUUM is safe if and only if it is skipped, or every row version stamped below
the horizon as a signed number was deleted by a committed transaction no more than
half the circle before the horizon. -/
theorem safe_iff (xacts : Xacts) {oldest : TransactionId} (normal : isNormal oldest = true)
    (table : Table) :
    Safe xacts oldest table ↔
      oldest ≤ table.lastVacuumXmin ∨ ∀ row ∈ table.rows, row.xmax ≠ 0#32 →
        row.xmax.toInt < oldest.toInt →
          didCommit xacts row.xmax = true ∧ oldest.toInt - row.xmax.toInt ≤ 2 ^ 31 := by
  constructor
  · intro safe
    by_cases skipped : oldest ≤ table.lastVacuumXmin
    · exact .inl skipped
    · refine .inr fun row member stamped below => ?_
      obtain ⟨_, committed, before⟩ :=
        safe.1 row (removed_iff.mpr ⟨skipped, member, isDead_iff.mpr ⟨stamped, below⟩⟩)
      exact ⟨committed, (precedes_iff_near normal below).mp before⟩
  · intro condition
    have reclaims : ∀ row, Removed oldest table row →
        Reclaimable xacts oldest row.toStoredHeader := by
      intro row removed
      obtain ⟨runs, member, dead⟩ := removed_iff.mp removed
      obtain ⟨stamped, below⟩ := isDead_iff.mp dead
      obtain ⟨committed, near⟩ := condition.resolve_left runs row member stamped below
      exact ⟨stamped, committed, (precedes_iff_near normal below).mpr near⟩
    exact ⟨reclaims, fun row removed later snapshot progress since =>
      hidden_of_reclaimable (reclaims row removed) normal progress since⟩

def only101 : Xacts where
  __ := Xacts.idle
  transactionIdDidCommit xid := xid = 101#32

/-- One row version, inserted by transaction 100. -/
def deletedBy (xmax : TransactionId) : Table :=
  (Table.empty.insertRow 100#32 0#32 [1]).stampRow 1 xmax 0#32

theorem safe_deletedBy_101 : Safe only101 200#32 (deletedBy 101#32) :=
  (safe_iff only101 (by decide) _).mpr (.inr (by decide))

/-- VACUUM removes a row whose deleter aborted, and one whose deleter is ahead of
the horizon on the circle. -/
theorem removes_needed :
    (isNormal 200#32 = true ∧ ¬ Safe only101 200#32 (deletedBy 102#32)) ∧
      isNormal 0x7ffffff0#32 = true ∧
      transactionIdPrecedes 0x7ffffff0#32 0x80000005#32 = true ∧
      ¬ Safe only101 0x7ffffff0#32 (deletedBy 0x80000005#32) := by
  refine ⟨⟨by decide, fun safe => ?_⟩, by decide, by decide, fun safe => ?_⟩
  · have reclaimable := safe.1 ⟨⟨1, 100#32, 0#32, 102#32, 0#32⟩, [1]⟩
      (removed_iff.mpr ⟨by decide, by decide, by decide⟩)
    exact absurd reclaimable.2.1 (by decide)
  · have reclaimable := safe.1 ⟨⟨1, 100#32, 0#32, 0x80000005#32, 0#32⟩, [1]⟩
      (removed_iff.mpr ⟨by decide, by decide, by decide⟩)
    exact absurd reclaimable.2.2 (by decide)

end Vacuum

end SqliteHeap
