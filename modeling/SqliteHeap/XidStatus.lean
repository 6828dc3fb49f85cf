import SqliteHeap.Visibility

/-! Transaction-status maps. Every xid but zero is the backend's own, in progress
elsewhere, committed or aborted, and Postgres answers accordingly. -/

set_option autoImplicit false

namespace SqliteHeap

inductive XidStatus where
  | own | inProgress | committed | aborted
deriving DecidableEq

/-- The status of each xid. Zero is no transaction, so its entry is not asked for. -/
abbrev StatusMap := TransactionId → XidStatus

namespace StatusMap

/-- What Postgres answers. `TransactionIdIsInProgress` counts the backend's own xids. -/
def xacts (status : StatusMap) : Xacts where
  __ := Xacts.idle
  isCurrent xid := xid ≠ 0#32 && status xid = .own
  isInProgress xid := xid ≠ 0#32 && (status xid = .own || status xid = .inProgress)
  transactionIdDidCommit xid := xid ≠ 0#32 && status xid = .committed

def Finished (status : StatusMap) (xid : TransactionId) : Prop :=
  status xid = .committed ∨ status xid = .aborted

instance (status : StatusMap) (xid : TransactionId) : Decidable (status.Finished xid) :=
  inferInstanceAs (Decidable (_ ∨ _))

variable {status : StatusMap} {xid : TransactionId}

@[simp] theorem isCurrent_iff :
    status.xacts.isCurrent xid = true ↔ xid ≠ 0#32 ∧ status xid = .own := by
  simp [xacts]

@[simp] theorem isInProgress_iff : status.xacts.isInProgress xid = true ↔
    xid ≠ 0#32 ∧ (status xid = .own ∨ status xid = .inProgress) := by
  simp [xacts]

@[simp] theorem transactionIdDidCommit_iff :
    status.xacts.transactionIdDidCommit xid = true ↔ xid ≠ 0#32 ∧ status xid = .committed := by
  simp [xacts]

@[simp] theorem didCommit_iff : Visibility.didCommit status.xacts xid = true ↔
    xid ≠ 0#32 ∧ status xid = .committed := by
  unfold Visibility.didCommit
  split
  · next zero => simp [zero]
  · exact transactionIdDidCommit_iff

theorem xidView_committed_iff {snapshot : Snapshot} :
    Visibility.xidView status.xacts xid snapshot = .committedAndVisible ↔
      xid ≠ 0#32 ∧ status xid = .committed ∧
        (transactionIdPrecedes xid snapshot.xmin = true ∨
          transactionIdPrecedes xid snapshot.xmax = true ∧ xid ∉ snapshot.xip) := by
  rw [Visibility.xidView_committed_iff, didCommit_iff, ← Bool.not_eq_true, isCurrent_iff]
  constructor
  · rintro ⟨_, ⟨assigned, committed⟩, seen⟩
    exact ⟨assigned, committed, seen⟩
  · rintro ⟨assigned, committed, seen⟩
    exact ⟨fun own => by simp [committed] at own, ⟨assigned, committed⟩, seen⟩

end StatusMap

end SqliteHeap
