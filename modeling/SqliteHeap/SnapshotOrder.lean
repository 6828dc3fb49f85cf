import SqliteHeap.BackendsInvariant

/-! How transactions and snapshots of the backends move on: a new snapshot sees what it must
of the earlier commands, and the ends of transactions take their snapshots with them. -/

set_option autoImplicit false

namespace SqliteHeap

open Versions

namespace Backends

variable {backends next : Backends} {snap : Snap} {op : Command}

/-! ## Taking a snapshot -/

theorem sees_mono {first later : Snap} (owner : later.owner = first.owner)
    (taken : later.taken = first.taken) (curcid : first.curcid ≤ later.curcid)
    (seen : first.sees op = true) : later.sees op = true := by
  simp only [Snap.sees, Bool.or_eq_true, Bool.and_eq_true, decide_eq_true_eq] at seen ⊢
  rw [owner, taken]
  exact seen.imp_right fun own => ⟨own.1, Nat.lt_of_lt_of_le own.2 curcid⟩

theorem snap_cases (snapshots : backends.Snapshots) (txn : TxnId) (id : Nat) :
    ((backends.snap txn id).taken = backends.history ∧
        ((backends.xact txn).repeatableRead = true →
          (backends.snap txn id).pinned = true ∧ ∀ snap ∈ backends.snaps, snap.owner ≠ txn)) ∨
      ∃ first ∈ backends.snaps, first.owner = txn ∧ (backends.xact txn).repeatableRead = true ∧
        first.pinned = true ∧ (backends.snap txn id).taken = first.taken := by
  cases found : backends.snaps.find? fun snap => snap.owner = txn && snap.pinned with
  | none =>
      refine .inl ⟨by simp [snap, found], fun isolated => ⟨by simp [snap, found, isolated], ?_⟩⟩
      rintro other member rfl
      obtain ⟨first, inSnaps, owner, pinned⟩ := snapshots.pinned other member isolated
      have absent := List.find?_eq_none.mp found first inSnaps
      simp [owner, pinned] at absent
  | some first =>
      have member := List.mem_of_find?_eq_some found
      have spec := List.find?_some found
      simp only [Bool.and_eq_true, decide_eq_true_eq] at spec
      obtain ⟨rfl, pinned⟩ := spec
      exact .inr ⟨first, member, rfl, snapshots.repeatable first member pinned, pinned,
        by simp [snap, found]⟩

namespace Follows

variable {txn : TxnId} {earlier later : Command}

/-- What has been committed by now is what a fresh snapshot sees of other transactions. -/
theorem closed_snap (follows : backends.Follows earlier later) (snapshots : backends.Snapshots)
    (running : backends.history.status txn = .running) (id : Nat)
    (seen : (backends.snap txn id).sees later = true) : (backends.snap txn id).sees earlier = true := by
  have own : earlier.txn.txn = later.txn.txn ∧ earlier.cid ≤ later.cid →
      (backends.snap txn id).sees earlier = true := by
    intro order
    simp only [Snap.sees, Bool.or_eq_true, Bool.and_eq_true, decide_eq_true_eq] at seen ⊢
    rw [order.1]
    exact seen.imp_right fun own => ⟨own.1, Nat.lt_of_le_of_lt order.2 own.2⟩
  rcases snap_cases snapshots txn id with ⟨taken, _⟩ | ⟨first, member, rfl, isolated, _, taken⟩
  · rcases follows.order with committed | order
    · simp [Snap.sees, taken, committed]
    · exact own order
  · have seenBy := seen
    simp only [Snap.sees, Bool.or_eq_true, Bool.and_eq_true, decide_eq_true_eq] at seenBy
    rcases seenBy with committed | ⟨writer, before⟩
    · have owner : (backends.snap first.owner id).owner = first.owner := rfl
      refine sees_mono owner taken (snapshots.curcid first member) (follows.closed first member ?_)
      simp [Snap.sees, ← taken, committed]
    · rcases follows.based first member isolated writer with mine | committed
      · rcases follows.order with ended | order
        · rw [mine, running] at ended
          cases ended
        · exact own order
      · simp [Snap.sees, taken, committed]

theorem based_snap (follows : backends.Follows earlier later) (snapshots : backends.Snapshots)
    (id : Nat) (writer : later.txn.txn = txn) :
    earlier.txn.txn = txn ∨ (backends.snap txn id).taken.status earlier.txn.txn = .committed := by
  rcases snap_cases snapshots txn id with ⟨taken, _⟩ | ⟨first, member, rfl, isolated, _, taken⟩
  · rw [taken]
    exact follows.order.symm.imp_left fun order => order.1.trans writer
  · rw [taken]
    exact follows.based first member isolated writer

theorem takeSnapshot (follows : backends.Follows earlier later) (snapshots : backends.Snapshots)
    (running : backends.history.status txn = .running) (id : Nat) :
    { backends with snaps := backends.snaps ++ [backends.snap txn id] }.Follows earlier later where
  order := follows.order
  closed :=
    List.forall_mem_append.mpr
      ⟨follows.closed, List.forall_mem_singleton.mpr (follows.closed_snap snapshots running id)⟩
  based :=
    List.forall_mem_append.mpr
      ⟨follows.based, List.forall_mem_singleton.mpr fun _ => follows.based_snap snapshots id⟩

end Follows

theorem snap_taken_eq (snapshots : backends.Snapshots) (member : snap ∈ backends.snaps)
    (isolated : (backends.xact snap.owner).repeatableRead = true) (id : Nat) :
    (backends.snap snap.owner id).taken = snap.taken := by
  rcases snap_cases snapshots snap.owner id with ⟨_, none⟩ | ⟨first, inSnaps, owner, _, _, taken⟩
  · exact absurd rfl ((none isolated).2 snap member)
  · exact taken.trans (snapshots.same snap member first inSnaps owner isolated)

theorem Snapshots.takeSnapshot (snapshots : backends.Snapshots)
    (formed : backends.history.WellFormed)
    (near : backends.history.nextXid ≤ backends.history.xmin + 2 ^ 31) {txn : TxnId}
    (running : backends.history.status txn = .running) (id : Nat) :
    { backends with snaps := backends.snaps ++ [backends.snap txn id] }.Snapshots where
  use := by
    refine List.forall_mem_append.mpr ⟨snapshots.use, List.forall_mem_singleton.mpr ?_⟩
    rcases snap_cases snapshots txn id with ⟨taken, _⟩ | ⟨first, inSnaps, rfl, _, _, taken⟩
    · rw [taken]
      exact ⟨formed, formed, .refl _, running, near⟩
    · rw [taken]
      exact snapshots.use first inSnaps
  curcid :=
    List.forall_mem_append.mpr ⟨snapshots.curcid, List.forall_mem_singleton.mpr (Nat.le_refl _)⟩
  pinned := by
    refine List.forall_mem_append.mpr
      ⟨fun snap member isolated => ?_, List.forall_mem_singleton.mpr fun isolated => ?_⟩
    · obtain ⟨first, inSnaps, spec⟩ := snapshots.pinned snap member isolated
      exact ⟨first, List.mem_append_left _ inSnaps, spec⟩
    · rcases snap_cases snapshots txn id with ⟨_, none⟩ | ⟨first, inSnaps, owner, _, pinned, _⟩
      · exact ⟨_, List.mem_append_right _ List.mem_cons_self, rfl, (none isolated).1⟩
      · exact ⟨first, List.mem_append_left _ inSnaps, owner, pinned⟩
  repeatable :=
    List.forall_mem_append.mpr
      ⟨snapshots.repeatable, List.forall_mem_singleton.mpr fun pinned =>
        (Bool.and_eq_true_iff.mp pinned).1⟩
  same := by
    refine List.forall_mem_append.mpr ⟨fun snap member => ?_, List.forall_mem_singleton.mpr ?_⟩
    · refine List.forall_mem_append.mpr ⟨snapshots.same snap member, ?_⟩
      refine List.forall_mem_singleton.mpr fun (owner : txn = snap.owner) isolated => ?_
      rw [owner]
      exact snap_taken_eq snapshots member isolated id
    · refine List.forall_mem_append.mpr ⟨fun other member owner isolated => ?_, ?_⟩
      · have sameOwner : other.owner = txn := owner
        rw [← sameOwner] at isolated ⊢
        exact (snap_taken_eq snapshots member isolated id).symm
      · exact List.forall_mem_singleton.mpr fun _ _ => rfl

/-! ## Time passes -/

theorem Snapshots.transfer (snapshots : backends.Snapshots) (formed : next.history.WellFormed)
    (since : backends.history.Since next.history)
    (near : ∀ snap ∈ next.snaps, next.history.nextXid ≤ snap.taken.xmin + 2 ^ 31)
    (xact : ∀ snap ∈ next.snaps,
      (next.xact snap.owner).repeatableRead = (backends.xact snap.owner).repeatableRead ∧
        (backends.xact snap.owner).cid ≤ (next.xact snap.owner).cid)
    (snaps : ∀ snap ∈ next.snaps, snap ∈ backends.snaps ∧ next.history.status snap.owner = .running)
    (kept : ∀ snap ∈ backends.snaps, snap.pinned = true → ∀ other ∈ next.snaps,
      snap.owner = other.owner → snap ∈ next.snaps) : next.Snapshots where
  use snap member := by
    have use := snapshots.use snap (snaps snap member).1
    exact ⟨use.formed, formed, use.since.trans since, (snaps snap member).2, near snap member⟩
  curcid snap member := Nat.le_trans (snapshots.curcid snap (snaps snap member).1) (xact snap member).2
  pinned snap member isolated := by
    rw [(xact snap member).1] at isolated
    obtain ⟨first, inSnaps, owner, pinned⟩ := snapshots.pinned snap (snaps snap member).1 isolated
    exact ⟨first, kept first inSnaps pinned snap member owner, owner, pinned⟩
  repeatable snap member pinned := by
    rw [(xact snap member).1]
    exact snapshots.repeatable snap (snaps snap member).1 pinned
  same snap member other inOther owner isolated := by
    rw [(xact snap member).1] at isolated
    exact snapshots.same snap (snaps snap member).1 other (snaps other inOther).1 owner isolated

/-- What holds of Postgres's side of the backends. -/
structure Driven (backends : Backends) : Prop where
  formed : backends.history.WellFormed
  top : ∀ assigned ∈ backends.history.assigned, assigned.sub = false
  near : backends.history.nextXid ≤ backends.history.xmin + 2 ^ 31
  cids : ∀ txn, (backends.xact txn).cid < 2 ^ 32
  snapshots : backends.Snapshots

/-- Transactions begin and end, command ids grow and snapshots end. -/
structure Moves (backends next : Backends) : Prop where
  formed : next.history.WellFormed
  top : ∀ assigned ∈ next.history.assigned, assigned.sub = false
  since : backends.history.Since next.history
  cids : ∀ txn, (next.xact txn).cid < 2 ^ 32
  xact : ∀ snap ∈ next.snaps,
    (next.xact snap.owner).repeatableRead = (backends.xact snap.owner).repeatableRead ∧
      (backends.xact snap.owner).cid ≤ (next.xact snap.owner).cid
  snaps : ∀ snap ∈ next.snaps, snap ∈ backends.snaps ∧ next.history.status snap.owner = .running
  pinned : ∀ snap ∈ backends.snaps, snap.pinned = true → ∀ other ∈ next.snaps,
    snap.owner = other.owner → snap ∈ next.snaps

theorem ne_of_status {history : History} {first second : TxnId} {status : XactStatus}
    (is : history.status first = status) (isNot : history.status second ≠ status) :
    first ≠ second := by
  rintro rfl
  exact isNot is

namespace Moves

variable {txn : TxnId}

theorem begin (driven : backends.Driven) (unstarted : backends.history.status txn = .unstarted)
    (repeatableRead : Bool) :
    backends.Moves { backends.setXact txn ⟨false, 0, repeatableRead⟩ with
      history := backends.history.setStatus txn .running } := by
  have changed : backends.history.Changes (backends.history.setStatus txn .running) :=
    .begin unstarted
  have owners : ∀ snap ∈ backends.snaps, snap.owner ≠ txn := fun snap member =>
    (ne_of_status unstarted (by rw [(driven.snapshots.use snap member).reading]; decide)).symm
  refine ⟨driven.formed.change changed, driven.top, .change driven.formed changed, fun owner => ?_,
    fun snap member => ?_, fun snap member => ⟨member, ?_⟩, fun snap member _ _ _ _ => member⟩
  · by_cases same : owner = txn
    · simp [setXact, same]
    · simpa [setXact, same] using driven.cids owner
  · simp [setXact, owners snap member]
  · change (backends.history.setStatus txn .running).status _ = _
    rw [History.setStatus_of_ne (owners snap member)]
    exact (driven.snapshots.use snap member).reading

theorem assign (driven : backends.Driven) (running : backends.history.status txn = .running) :
    backends.Moves { backends with history := backends.history.assignXid txn false } := by
  have changed : backends.history.Changes (backends.history.assignXid txn false) := .assign running
  refine ⟨driven.formed.change changed, fun assigned member => ?_, .change driven.formed changed,
    driven.cids, fun _ _ => ⟨rfl, Nat.le_refl _⟩,
    fun snap member => ⟨member, (driven.snapshots.use snap member).reading⟩,
    fun snap member _ _ _ _ => member⟩
  rcases List.mem_append.mp member with old | new
  · exact driven.top assigned old
  · rw [List.mem_singleton.mp new]

theorem commandCounterIncrement (driven : backends.Driven)
    (fits : (backends.xact txn).cid + 1 < 2 ^ 32) :
    backends.Moves
      (backends.setXact txn { backends.xact txn with cid := (backends.xact txn).cid + 1 }) := by
  refine ⟨driven.formed, driven.top, .refl _, fun owner => ?_, fun snap _ => ?_,
    fun snap member => ⟨member, (driven.snapshots.use snap member).reading⟩,
    fun snap member _ _ _ _ => member⟩
  · by_cases same : owner = txn
    · simpa [setXact, same] using fits
    · simpa [setXact, same] using driven.cids owner
  · by_cases same : snap.owner = txn
    · simp [setXact, same]
    · simp [setXact, same]

theorem releaseSnapshot (driven : backends.Driven) {id : Nat}
    (free : ∀ snap ∈ backends.snaps, snap.pinned = true → snap.id ≠ id) :
    backends.Moves { backends with
      snaps := backends.snaps.filter fun snap => snap.id ≠ id
      scans := backends.scans.filter fun scan => scan.snap.id ≠ id } := by
  refine ⟨driven.formed, driven.top, .refl _, driven.cids, fun _ _ => ⟨rfl, Nat.le_refl _⟩,
    fun snap member => ?_, fun snap member pinned _ _ _ => ?_⟩
  · have old := (List.mem_filter.mp member).1
    exact ⟨old, (driven.snapshots.use snap old).reading⟩
  · exact List.mem_filter.mpr ⟨member, by simpa using free snap member pinned⟩

theorem of_same (driven : backends.Driven) (history : next.history = backends.history)
    (xact : next.xact = backends.xact) (snaps : next.snaps = backends.snaps) : backends.Moves next := by
  refine ⟨history ▸ driven.formed, history ▸ driven.top, history ▸ .refl _, xact ▸ driven.cids, ?_, ?_, ?_⟩
  · rw [xact]
    exact fun _ _ => ⟨rfl, Nat.le_refl _⟩
  · rw [snaps, history]
    exact fun snap member => ⟨member, (driven.snapshots.use snap member).reading⟩
  · rw [snaps]
    exact fun snap member _ _ _ _ => member

theorem preCommit (driven : backends.Driven) (txn : TxnId) (file : Relation)
    (writer : Option (TxnId × Relation)) :
    backends.Moves { backends.setXact txn { backends.xact txn with preCommitted := true } with
      file := file, writer := writer } := by
  have xact : ∀ owner, ((backends.setXact txn { backends.xact txn with preCommitted := true }).xact
        owner).cid = (backends.xact owner).cid ∧
      ((backends.setXact txn { backends.xact txn with preCommitted := true }).xact
        owner).repeatableRead = (backends.xact owner).repeatableRead := by
    intro owner
    by_cases same : owner = txn
    · simp [setXact, same]
    · simp [setXact, same]
  refine ⟨driven.formed, driven.top, .refl _, fun owner => (xact owner).1 ▸ driven.cids owner,
    fun snap _ => ⟨(xact snap.owner).2, (xact snap.owner).1.ge⟩,
    fun snap member => ⟨member, (driven.snapshots.use snap member).reading⟩,
    fun snap member _ _ _ _ => member⟩

theorem finish (driven : backends.Driven) {status : XactStatus}
    (running : backends.history.status txn = .running)
    (ends : status = .committed ∨ status = .aborted) (writer : Option (TxnId × Relation)) :
    backends.Moves
      { backends.endXact txn (backends.history.finish txn status) with writer := writer } := by
  have changed : backends.history.Changes (backends.history.finish txn status) := .finish running ends
  have kept : ∀ {snap}, snap ∈ (backends.endXact txn (backends.history.finish txn status)).snaps →
      snap ∈ backends.snaps ∧ snap.owner ≠ txn := by
    intro snap member
    simpa [endXact] using member
  refine ⟨driven.formed.change changed, driven.top, .change driven.formed changed, driven.cids,
    fun _ _ => ⟨rfl, Nat.le_refl _⟩, fun snap member => ?_, fun snap member _ other inOther owner => ?_⟩
  · obtain ⟨old, different⟩ := kept member
    refine ⟨old, ?_⟩
    change (backends.history.finish txn status).status _ = _
    rw [History.finish, History.setStatus_of_ne different]
    exact (driven.snapshots.use snap old).reading
  · refine List.mem_filter.mpr ⟨member, ?_⟩
    rw [owner]
    simpa using (kept inOther).2

end Moves

/-- Postgres keeps its side while no snapshot in use falls half the circle behind. -/
theorem Driven.moves (driven : backends.Driven) (moves : backends.Moves next)
    (near : next.history.nextXid ≤ next.history.xmin + 2 ^ 31)
    (window : ∀ snap ∈ next.snaps, next.history.nextXid ≤ snap.taken.xmin + 2 ^ 31) : next.Driven :=
  ⟨moves.formed, moves.top, near, moves.cids,
    driven.snapshots.transfer moves.formed moves.since window moves.xact moves.snaps moves.pinned⟩

theorem Driven.takeSnapshot (driven : backends.Driven) {txn : TxnId}
    (running : backends.history.status txn = .running) (id : Nat) :
    { backends with snaps := backends.snaps ++ [backends.snap txn id] }.Driven :=
  ⟨driven.formed, driven.top, driven.near, driven.cids,
    driven.snapshots.takeSnapshot driven.formed driven.near running id⟩

end Backends

end SqliteHeap
