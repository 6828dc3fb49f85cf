import SqliteHeap.XidStatus

/-! `visible_non_vacuumable`. Its snapshot carries a removal horizon, which the code does not
look at; this file says exactly which rows it hides all the same rightly. -/

set_option autoImplicit false

namespace SqliteHeap.NonVacuumable

open Visibility

/-- An MVCC snapshot whose xmin is at or after the horizon, both within half the circle
of the deleter's xid. -/
structure SnapshotFrom (oldest xmax : TransactionId) (snapshot : Snapshot) : Prop where
  mvcc : snapshot.snapshotType = .mvcc
  normal : isNormal snapshot.xmin = true
  since : transactionIdPrecedes snapshot.xmin oldest = false
  window : isNormal xmax = true → Circular.HalfWindow [xmax, oldest, snapshot.xmin]

/-- A hidden row is invisible to every snapshot from the horizon on. -/
def HidesRemovable (status : StatusMap) (oldest : TransactionId) (row : StoredHeader) : Prop :=
  visibleNonVacuumable status.xacts row = false →
    ∀ snapshot, SnapshotFrom oldest row.xmax snapshot → visibleMvcc status.xacts row snapshot = false

/-- Some snapshot sees the insertion of the row. -/
def Insertable (status : StatusMap) (row : StoredHeader) : Prop :=
  row.xmin ≠ 0#32 ∧
    (status row.xmin = .committed ∨ status row.xmin = .own ∧ row.cmin ≠ 0xffffffff#32)

instance (status : StatusMap) (row : StoredHeader) : Decidable (Insertable status row) :=
  inferInstanceAs (Decidable (_ ∧ _))

/-- The row's deletion is not committed, or before the horizon, or no snapshot that does not
see the deletion sees the insertion. -/
def Removable (status : StatusMap) (oldest : TransactionId) (row : StoredHeader) : Prop :=
  row.xmax = 0#32 ∨ status row.xmax ≠ .committed ∨ transactionIdPrecedes row.xmax oldest = true ∨
    row.xmin = row.xmax ∨ ¬ Insertable status row

instance (status : StatusMap) (oldest : TransactionId) (row : StoredHeader) :
    Decidable (Removable status oldest row) :=
  inferInstanceAs (Decidable (_ ∨ _))

variable {status : StatusMap} {oldest : TransactionId} {row : StoredHeader} {snapshot : Snapshot}

theorem hides_iff : visibleNonVacuumable status.xacts row = false ↔
    row.xmax ≠ 0#32 ∧ status row.xmax = .committed := by
  unfold visibleNonVacuumable
  split
  · next none => simp [none]
  · next stamped => simp [stamped]

theorem insertable_of_inserted (inserted : InsertedFor status.xacts row snapshot) :
    Insertable status row := by
  rcases inserted with seen | ⟨own, earlier⟩
  · obtain ⟨assigned, committed, _⟩ := StatusMap.xidView_committed_iff.mp seen
    exact ⟨assigned, .inl committed⟩
  · obtain ⟨assigned, own⟩ := StatusMap.isCurrent_iff.mp own
    refine ⟨assigned, .inr ⟨own, fun last => ?_⟩⟩
    rw [last] at earlier
    bv_omega

theorem precedes_xmin_of_precedes {xmax : TransactionId} (normal : isNormal oldest = true)
    (before : transactionIdPrecedes xmax oldest = true) (since : SnapshotFrom oldest xmax snapshot) :
    transactionIdPrecedes xmax snapshot.xmin = true := by
  cases assigned : isNormal xmax with
  | false => exact transactionIdPrecedes_of_permanent assigned since.normal
  | true =>
      obtain ⟨low, window⟩ := since.window assigned
      have first := window xmax (by simp)
      have second := window oldest (by simp)
      have third := window snapshot.xmin (by simp)
      have later := since.since
      rw [transactionIdPrecedes_of_normal since.normal normal, ← Bool.not_eq_true,
        Circular.precedes_iff_of_window (by decide) third second] at later
      rw [transactionIdPrecedes_of_normal assigned normal,
        Circular.precedes_iff_of_window (by decide) first second] at before
      rw [transactionIdPrecedes_of_normal assigned since.normal,
        Circular.precedes_iff_of_window (by decide) first third]
      omega

theorem hidesRemovable_of_removable (normal : isNormal oldest = true)
    (removable : Removable status oldest row) : HidesRemovable status oldest row := by
  intro hidden snapshot since
  obtain ⟨stamped, committed⟩ := hides_iff.mp hidden
  rw [← Bool.not_eq_true]
  intro visible
  obtain ⟨inserted, undeleted⟩ := visibleMvcc_iff.mp visible
  rcases removable with none | running | before | same | uninserted
  · exact stamped none
  · exact running committed
  · refine undeleted ⟨stamped, .inl (StatusMap.xidView_committed_iff.mpr ⟨stamped, committed, .inl ?_⟩)⟩
    exact precedes_xmin_of_precedes normal before since
  · rcases inserted with seen | ⟨own, _⟩
    · exact undeleted ⟨stamped, .inl (same ▸ seen)⟩
    · have own := (StatusMap.isCurrent_iff.mp own).2
      rw [same, committed] at own
      cases own
  · exact uninserted (insertable_of_inserted inserted)

theorem exists_precedes (xid : TransactionId) : ∃ next, transactionIdPrecedes xid next = true := by
  cases assigned : isNormal xid with
  | false => exact ⟨3#32, transactionIdPrecedes_of_permanent assigned (by decide)⟩
  | true =>
      by_cases last : xid = 0xffffffff#32
      · exact ⟨3#32, by rw [last]; decide⟩
      · have next : isNormal (xid + 1#32) = true := by
          simp only [isNormal, decide_eq_true_eq] at assigned ⊢
          bv_omega
        refine ⟨xid + 1#32, ?_⟩
        rw [transactionIdPrecedes_of_normal assigned next, Circular.precedes_iff (by decide)]
        have step : Circular.distance xid (xid + 1#32) = 1 := by
          rw [Circular.distance, BitVec.add_comm, BitVec.add_sub_cancel]
          rfl
        omega

/-- A snapshot at the horizon that counts the deleter as in progress. -/
def before (oldest next : TransactionId) (row : StoredHeader) : Snapshot :=
  ⟨.mvcc, oldest, next, [row.xmax], [], row.cmin + 1#32, 0#32⟩

theorem snapshotFrom_before (normal : isNormal oldest = true) (next : TransactionId)
    (recent : transactionIdPrecedes row.xmax oldest = false) :
    SnapshotFrom oldest row.xmax (before oldest next row) := by
  refine ⟨rfl, normal, ?_, fun assigned => ⟨oldest, ?_⟩⟩
  · rw [before, transactionIdPrecedes_of_normal normal normal, Circular.precedes_self]
  · rw [transactionIdPrecedes_of_normal assigned normal] at recent
    intro id member
    simp only [before, List.mem_cons, List.not_mem_nil, or_false] at member
    rcases member with rfl | rfl | rfl
    · exact Circular.distance_lt_of_not_precedes (by decide) recent
    · simp
    · simp

theorem inserted_before (insertable : Insertable status row) (other : row.xmin ≠ row.xmax)
    {next : TransactionId} (later : transactionIdPrecedes row.xmin next = true) :
    InsertedFor status.xacts row (before oldest next row) := by
  obtain ⟨assigned, committed | ⟨own, earlier⟩⟩ := insertable
  · refine .inl (StatusMap.xidView_committed_iff.mpr ⟨assigned, committed, .inr ⟨later, ?_⟩⟩)
    simpa [before] using other
  · refine .inr ⟨StatusMap.isCurrent_iff.mpr ⟨assigned, own⟩, ?_⟩
    simp only [before]
    bv_omega

theorem undeleted_before (committed : status row.xmax = .committed) (next : TransactionId)
    (recent : transactionIdPrecedes row.xmax oldest = false) :
    ¬ DeletedFor status.xacts row (before oldest next row) := by
  rintro ⟨_, seen | ⟨own, _⟩⟩
  · obtain ⟨_, _, precedes | ⟨_, unlisted⟩⟩ := StatusMap.xidView_committed_iff.mp seen
    · rw [before, recent] at precedes
      cases precedes
    · exact unlisted (by simp [before])
  · have own := (StatusMap.isCurrent_iff.mp own).2
    rw [committed] at own
    cases own

theorem removable_of_hidesRemovable (normal : isNormal oldest = true)
    (hides : HidesRemovable status oldest row) : Removable status oldest row := by
  by_contra needed
  simp only [Removable, not_or, ne_eq, not_not, Bool.not_eq_true] at needed
  obtain ⟨stamped, committed, recent, other, insertable⟩ := needed
  obtain ⟨next, later⟩ := exists_precedes row.xmin
  have invisible := hides (hides_iff.mpr ⟨stamped, committed⟩) (before oldest next row)
    (snapshotFrom_before normal next recent)
  have visible : visibleMvcc status.xacts row (before oldest next row) = true :=
    visibleMvcc_iff.mpr ⟨inserted_before insertable other later,
      undeleted_before committed next recent⟩
  rw [invisible] at visible
  cases visible

/-- `visible_non_vacuumable` hides only removable rows if and only if the row's deletion is
not committed or before the horizon, or its insertion is seen by no snapshot that does not
see the deletion. -/
theorem hidesRemovable_iff (status : StatusMap) {oldest : TransactionId}
    (normal : isNormal oldest = true) (row : StoredHeader) :
    HidesRemovable status oldest row ↔ Removable status oldest row :=
  ⟨removable_of_hidesRemovable normal, hidesRemovable_of_removable normal⟩

def upTo205 : StatusMap := fun xid =>
  if 100#32 ≤ xid ∧ xid ≤ 205#32 then .committed else .inProgress

theorem deletedBy150_hidesRemovable :
    HidesRemovable upTo205 200#32 ⟨1, 100#32, 0#32, 150#32, 0#32⟩ ↔
      Removable upTo205 200#32 ⟨1, 100#32, 0#32, 150#32, 0#32⟩ :=
  hidesRemovable_iff upTo205 (by decide) _

/-- A row that transaction 205 deleted is hidden, and seen by a snapshot that was taken at
the horizon 200 while 205 was in progress. -/
theorem recentlyDead_hidden : ¬ HidesRemovable upTo205 200#32 ⟨1, 100#32, 0#32, 205#32, 0#32⟩ := by
  intro hides
  have invisible := hides (by decide) ⟨.mvcc, 200#32, 206#32, [205#32], [], 1#32, 0#32⟩
    ⟨rfl, by decide, by decide, fun _ => ⟨200#32, by simp [Circular.distance]⟩⟩
  exact absurd invisible (by decide)

end SqliteHeap.NonVacuumable
