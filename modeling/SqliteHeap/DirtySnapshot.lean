import Mathlib.Data.List.Nodup
import SqliteHeap.XidStatus

/-! `visible_dirty` beside Postgres's `HeapTupleSatisfiesDirty`, whose contract it mirrors. A
unique check reads from the snapshot which transaction it has to wait for. -/

set_option autoImplicit false

namespace SqliteHeap

/-- Postgres's `HeapTupleSatisfiesDirty` on a row without hint bits, row locks and
speculative tokens. Its `HEAP_XMAX_INVALID` is an `xmax` of zero. -/
def heapTupleSatisfiesDirty (xacts : Xacts) (row : StoredHeader) (snapshot : Snapshot) :
    Bool × Snapshot :=
  let reset := { snapshot with xmin := 0#32, xmax := 0#32, speculativeToken := 0#32 }
  if xacts.isCurrent row.xmin then
    if row.xmax = 0#32 then (true, reset)
    -- a deleting subtransaction must have aborted
    else if !xacts.isCurrent row.xmax then (true, reset)
    else (false, reset)
  else if xacts.isInProgress row.xmin then (true, { reset with xmin := row.xmin })
  else if !xacts.transactionIdDidCommit row.xmin then (false, reset)
  else if row.xmax = 0#32 then (true, reset)
  else if xacts.isCurrent row.xmax then (false, reset)
  else if xacts.isInProgress row.xmax then (true, { reset with xmax := row.xmax })
  else if !xacts.transactionIdDidCommit row.xmax then (true, reset)
  else (false, reset)

/-- The xid that `_bt_check_unique` waits for, zero for none. -/
def Snapshot.xwait (snapshot : Snapshot) : TransactionId :=
  if snapshot.xmin ≠ 0#32 then snapshot.xmin else snapshot.xmax

namespace DirtySnapshot

open Visibility

/-- Others cannot delete a row whose inserter has not finished. -/
structure Orderly (status : StatusMap) (row : StoredHeader) : Prop where
  own : row.xmin ≠ 0#32 → status row.xmin = .own →
    row.xmax = 0#32 ∨ status row.xmax = .aborted ∨ status row.xmax = .own
  inProgress : row.xmin ≠ 0#32 → status row.xmin = .inProgress →
    row.xmax = 0#32 ∨ status row.xmax = .aborted ∨ status row.xmax = .inProgress

/-- The xid, if it is in progress elsewhere. -/
def pending (status : StatusMap) (xid : TransactionId) : TransactionId :=
  if status xid = .inProgress then xid else 0#32

def inserted (status : StatusMap) (row : StoredHeader) : Bool :=
  row.xmin ≠ 0#32 && status row.xmin ≠ .aborted

def deleted (status : StatusMap) (row : StoredHeader) : Bool :=
  row.xmax ≠ 0#32 && (status row.xmax = .own || status row.xmax = .committed)

variable {status later : StatusMap} {row : StoredHeader} {snapshot previous : Snapshot}
  {xid : TransactionId}

theorem inProgress_of_pending (reported : pending status xid ≠ 0#32) :
    status (pending status xid) = .inProgress := by
  unfold pending at reported ⊢
  split
  · next running => exact running
  · next ended => simp [ended] at reported

theorem undeletedDirty_eq (row : StoredHeader) (snapshot : Snapshot) (blank : snapshot.xmax = 0#32) :
    undeletedDirty status.xacts row snapshot =
      (!deleted status row, { snapshot with xmax := pending status row.xmax }) := by
  have kept : snapshot = { snapshot with xmax := 0#32 } := by rw [← blank]
  unfold undeletedDirty deleted pending
  by_cases unstamped : row.xmax = 0#32
  · simpa [unstamped] using kept
  · cases view : status row.xmax with
    | own => simpa [StatusMap.xacts, unstamped, view] using kept
    | inProgress => simp [StatusMap.xacts, unstamped, view]
    | committed => simpa [StatusMap.xacts, unstamped, view, didCommit] using kept
    | aborted => simpa [StatusMap.xacts, unstamped, view, didCommit] using kept

theorem visibleDirty_eq (row : StoredHeader) (snapshot : Snapshot) :
    visibleDirty status.xacts row snapshot =
      (inserted status row && !deleted status row,
        { snapshot with
          xmin := pending status row.xmin
          xmax := if inserted status row then pending status row.xmax else 0#32
          speculativeToken := 0#32 }) := by
  unfold visibleDirty
  simp only [undeletedDirty_eq]
  by_cases unassigned : row.xmin = 0#32
  · simp [StatusMap.xacts, unassigned, inserted, pending, didCommit]
  · cases view : status row.xmin <;>
      simp [StatusMap.xacts, unassigned, view, inserted, pending, didCommit]

theorem heapTupleSatisfiesDirty_eq (orderly : Orderly status row) (snapshot : Snapshot) :
    heapTupleSatisfiesDirty status.xacts row snapshot =
      (inserted status row && !deleted status row,
        { snapshot with
          xmin := pending status row.xmin
          xmax := if status row.xmin = .committed ∧ row.xmin ≠ 0#32 then pending status row.xmax
            else 0#32
          speculativeToken := 0#32 }) := by
  unfold heapTupleSatisfiesDirty inserted deleted pending
  by_cases unassigned : row.xmin = 0#32
  · simp [StatusMap.xacts, unassigned]
  · by_cases unstamped : row.xmax = 0#32
    · cases view : status row.xmin <;> simp [StatusMap.xacts, unassigned, view, unstamped]
    · cases view : status row.xmin with
      | own =>
          have deleter := (orderly.own unassigned view).resolve_left unstamped
          rcases deleter with stamped | stamped <;>
            simp [StatusMap.xacts, unassigned, view, unstamped, stamped]
      | inProgress =>
          have deleter := (orderly.inProgress unassigned view).resolve_left unstamped
          rcases deleter with stamped | stamped <;>
            simp [StatusMap.xacts, unassigned, view, stamped]
      | committed =>
          cases stamped : status row.xmax <;>
            simp [StatusMap.xacts, unassigned, view, unstamped, stamped]
      | aborted => simp [StatusMap.xacts, unassigned, view]

theorem xwait_eq (orderly : Orderly status row) (snapshot : Snapshot) :
    (visibleDirty status.xacts row snapshot).2.xwait =
      (heapTupleSatisfiesDirty status.xacts row snapshot).2.xwait := by
  rw [visibleDirty_eq, heapTupleSatisfiesDirty_eq orderly]
  unfold Snapshot.xwait
  by_cases running : pending status row.xmin = 0#32
  · simp only [running, ne_eq, not_true_eq_false, ↓reduceIte]
    by_cases unassigned : row.xmin = 0#32
    · simp [inserted, unassigned]
    · cases view : status row.xmin with
      | own =>
          rcases orderly.own unassigned view with none | aborted | own
          · simp [inserted, pending, none]
          · simp [inserted, pending, view, aborted]
          · simp [inserted, pending, view, own]
      | inProgress => simp [pending, view, unassigned] at running
      | committed => simp [inserted, unassigned, view]
      | aborted => simp [inserted, view]
  · simp [running]

theorem reports (status : StatusMap) (row : StoredHeader) (snapshot : Snapshot) :
    ((visibleDirty status.xacts row snapshot).2.xmin ≠ 0#32 →
        status (visibleDirty status.xacts row snapshot).2.xmin = .inProgress) ∧
      ((visibleDirty status.xacts row snapshot).2.xmax ≠ 0#32 →
        status (visibleDirty status.xacts row snapshot).2.xmax = .inProgress) := by
  rw [visibleDirty_eq]
  refine ⟨inProgress_of_pending, ?_⟩
  dsimp only
  split
  · exact inProgress_of_pending
  · intro reported
    exact absurd rfl reported

theorem not_reported (ended : status.Finished xid) (assigned : xid ≠ 0#32) (row : StoredHeader)
    (snapshot : Snapshot) :
    (visibleDirty status.xacts row snapshot).2.xmin ≠ xid ∧
      (visibleDirty status.xacts row snapshot).2.xmax ≠ xid := by
  have idle : status xid ≠ .inProgress := by
    rcases ended with committed | aborted
    · simp [committed]
    · simp [aborted]
  obtain ⟨xmin, xmax⟩ := reports status row snapshot
  constructor
  · rintro rfl
    exact idle (xmin assigned)
  · rintro rfl
    exact idle (xmax assigned)

/-- One evaluation of a row by a unique check. -/
structure Try where
  status : StatusMap
  row : StoredHeader
  snapshot : Snapshot

/-- The xid that the check waits for after the evaluation, zero for none. -/
def Try.waits (attempt : Try) : TransactionId :=
  (visibleDirty attempt.status.xacts attempt.row attempt.snapshot).2.xwait

/-- A check that goes on only after the xid it waits for has finished. -/
def Waited (tries : List Try) : Prop :=
  tries.Pairwise fun earlier later => earlier.waits ≠ 0#32 → later.status.Finished earlier.waits

theorem waits_ne_of_finished {attempt : Try} (ended : attempt.status.Finished xid)
    (assigned : xid ≠ 0#32) : attempt.waits ≠ xid := by
  have silent := not_reported ended assigned attempt.row attempt.snapshot
  unfold Try.waits Snapshot.xwait
  split
  · exact silent.1
  · exact silent.2

theorem waits_nodup {tries : List Try} (waited : Waited tries) :
    ((tries.map Try.waits).filter fun xid => xid ≠ 0#32).Nodup := by
  induction tries with
  | nil => exact List.nodup_nil
  | cons attempt tries ih =>
      obtain ⟨first, rest⟩ := List.pairwise_cons.mp waited
      rw [List.map_cons, List.filter_cons]
      split
      · next waits =>
          have assigned : attempt.waits ≠ 0#32 := by simpa using waits
          refine List.nodup_cons.mpr ⟨fun again => ?_, ih rest⟩
          obtain ⟨other, member, same⟩ := List.mem_map.mp (List.mem_filter.mp again).1
          exact waits_ne_of_finished (first other member assigned) assigned same
      · exact ih rest

/-- `visible_dirty` does what `HeapTupleSatisfiesDirty` promises its callers. -/
structure FollowsHeap (status : StatusMap) (row : StoredHeader) : Prop where
  verdict : ∀ snapshot, (visibleDirty status.xacts row snapshot).1 =
    (heapTupleSatisfiesDirty status.xacts row snapshot).1
  xwait : ∀ snapshot, (visibleDirty status.xacts row snapshot).2.xwait =
    (heapTupleSatisfiesDirty status.xacts row snapshot).2.xwait
  /-- The previous content of the snapshot does not matter. -/
  fresh : ∀ snapshot previous : Snapshot,
    (visibleDirty status.xacts row snapshot).1 = (visibleDirty status.xacts row previous).1 ∧
      (visibleDirty status.xacts row snapshot).2.xmin =
        (visibleDirty status.xacts row previous).2.xmin ∧
      (visibleDirty status.xacts row snapshot).2.xmax =
        (visibleDirty status.xacts row previous).2.xmax ∧
      (visibleDirty status.xacts row snapshot).2.speculativeToken =
        (visibleDirty status.xacts row previous).2.speculativeToken
  foreign : ∀ snapshot,
    ((visibleDirty status.xacts row snapshot).2.xmin ≠ 0#32 →
        status (visibleDirty status.xacts row snapshot).2.xmin = .inProgress) ∧
      ((visibleDirty status.xacts row snapshot).2.xmax ≠ 0#32 →
        status (visibleDirty status.xacts row snapshot).2.xmax = .inProgress)
  /-- Once the awaited xid has finished, the row does not report it again. -/
  finished : ∀ (snapshot again : Snapshot) (later : StatusMap),
    (visibleDirty status.xacts row snapshot).2.xwait ≠ 0#32 →
      later.Finished (visibleDirty status.xacts row snapshot).2.xwait →
        (visibleDirty later.xacts row again).2.xmin ≠
            (visibleDirty status.xacts row snapshot).2.xwait ∧
          (visibleDirty later.xacts row again).2.xmax ≠
            (visibleDirty status.xacts row snapshot).2.xwait

theorem followsHeap (orderly : Orderly status row) : FollowsHeap status row where
  verdict snapshot := by rw [visibleDirty_eq, heapTupleSatisfiesDirty_eq orderly]
  xwait := xwait_eq orderly
  fresh snapshot previous := by
    rw [visibleDirty_eq, visibleDirty_eq]
    exact ⟨rfl, rfl, rfl, rfl⟩
  foreign := reports _ row
  finished _ again _ assigned ended := not_reported ended assigned row again

/-- Dirty snapshots follow Postgres, and a unique check that waits and tries again does not
wait for one xid twice. -/
theorem dirty_followsHeap {status : StatusMap} {row : StoredHeader} (orderly : Orderly status row) :
    FollowsHeap status row ∧ ∀ tries : List Try, Waited tries →
      ((tries.map Try.waits).filter fun xid => xid ≠ 0#32).Nodup :=
  ⟨followsHeap orderly, fun _ waited => waits_nodup waited⟩

/-- Transaction 101, in progress elsewhere, inserted a row and deleted it again. -/
def bothPending : StoredHeader := ⟨1, 101#32, 0#32, 101#32, 1#32⟩

def only101Running : StatusMap := fun xid => if xid = 101#32 then .inProgress else .aborted

theorem bothPending_followsHeap :
    FollowsHeap only101Running bothPending ∧ ∀ tries : List Try, Waited tries →
      ((tries.map Try.waits).filter fun xid => xid ≠ 0#32).Nodup :=
  dirty_followsHeap ⟨fun _ own => absurd own (by decide), fun _ _ => .inr (.inr (by decide))⟩

end DirtySnapshot

end SqliteHeap
