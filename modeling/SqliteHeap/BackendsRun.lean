import SqliteHeap.SnapshotOrder

/-! Every allowed step of the backends keeps the invariant. -/

set_option autoImplicit false

namespace SqliteHeap

open Versions

namespace Backends

variable {backends next : Backends} {rel : Relation} {snap : Snap} {op : Command}

/-! ## Taking a snapshot -/

namespace Sound

variable {txn : TxnId}

theorem reclaimed_snap (sound : backends.Sound rel) (postgres : TopLevel backends.history)
    (snapshots : backends.Snapshots) (id : Nat) (member : op ∈ rel.log)
    (below : op.txn.xid < rel.watermark) : (backends.snap txn id).sees op = true := by
  rcases snap_cases snapshots txn id with ⟨taken, _⟩ | ⟨first, inSnaps, rfl, _, _, taken⟩
  · have known := (sound.known op member).assigned
    have ended := History.WellFormed.ended_of_lt_xmin known
      (Nat.lt_of_lt_of_le below sound.horizon)
    cases status : backends.history.status op.txn.txn with
    | committed => simp [Snap.sees, taken, status]
    | running => exact absurd status ended
    | unstarted => exact absurd status (postgres.formed.started _ known)
    | aborted => exact absurd status (sound.unaborted op member)
  · have owner : (backends.snap first.owner id).owner = first.owner := rfl
    exact sees_mono owner taken (snapshots.curcid first inSnaps)
      (sound.reclaimed first inSnaps op member below)

theorem takeSnapshot (sound : backends.Sound rel) (postgres : TopLevel backends.history)
    (snapshots : backends.Snapshots) (running : backends.history.status txn = .running) (id : Nat) :
    { backends with snaps := backends.snaps ++ [backends.snap txn id] }.Sound rel := by
  exact {
    sound with
    closed := fun snap member =>
      sound.follows.imp fun follows onKey => ((follows onKey).takeSnapshot snapshots running id).closed snap member
    reclaimed := fun snap member op inLog below => by
      rcases List.mem_append.mp member with old | new
      · exact sound.reclaimed snap old op inLog below
      · rw [List.mem_singleton.mp new]
        exact sound.reclaimed_snap postgres snapshots id inLog below
    based := fun snap member isolated =>
      sound.follows.imp fun follows onKey =>
        ((follows onKey).takeSnapshot snapshots running id).based snap member isolated }

end Sound

/-! ## Scans -/

/-- A snapshot in use at two moments shows the same rows of a relation. -/
structure StaysInUse (backends next : Backends) (snap : Snap) : Prop where
  postgres : TopLevel backends.history
  postgres' : TopLevel next.history
  since : backends.history.Since next.history
  use : History.InUse snap.taken backends.history snap.owner
  use' : History.InUse snap.taken next.history snap.owner
  fits : snap.curcid < 2 ^ 32

theorem StaysInUse.rowVisible (stays : StaysInUse backends next snap)
    (readable : Readable backends.history snap rel) {row : StoredRow} (member : row ∈ rel.table.rows) :
    next.rowVisible snap row.toStoredHeader = backends.rowVisible snap row.toStoredHeader :=
  readable.rowVisible_since stays.use stays.postgres stays.use' stays.postgres' stays.since stays.fits
    member

theorem ScanSound.transfer {scan : Scan} (sound : backends.ScanSound scan)
    (stays : StaysInUse backends next scan.snap) (active : scan.snap ∈ next.snaps)
    (view : (next.view scan.snap.owner).log.filter scan.snap.sees =
      (backends.view scan.snap.owner).log.filter scan.snap.sees) : next.ScanSound scan := by
  have visible : scan.cursor.rowsLoaded = true → ∀ row ∈ scan.source.table.rows,
      next.rowVisible scan.snap row.toStoredHeader = backends.rowVisible scan.snap row.toStoredHeader :=
    fun loaded row member => stays.rowVisible (sound.readable loaded) member
  have remaining : scan.cursor.rowsLoaded = true →
      scan.cursor.remaining (next.rowVisible scan.snap) =
        scan.cursor.remaining (backends.rowVisible scan.snap) := by
    intro loaded
    refine List.filter_congr fun row member => visible loaded row ?_
    rw [← sound.rows loaded]
    exact List.mem_of_mem_drop member
  exact {
    active := active
    unloaded := sound.unloaded
    readable := fun loaded => (sound.readable loaded).since stays.since
    rows := sound.rows
    returned := fun loaded => by
      rw [remaining loaded, sound.returned loaded]
      exact (List.filter_congr fun row member => visible loaded row member).symm
    finished := fun finished => by
      cases loaded : scan.cursor.rowsLoaded with
      | true => rw [remaining loaded, sound.finished finished]
      | false => simp [(sound.unloaded loaded).2.2] at finished
    current := fun loaded => (sound.current loaded).trans view.symm }

/-! ## Steps that leave the relation as it is -/

/-- Transactions begin and end, command ids grow and snapshots end, while the file and
the writers that go on are the same. -/
structure Quiet (backends next : Backends) : Prop where
  postgres : TopLevel next.history
  since : backends.history.Since next.history
  cids : ∀ txn, (next.xact txn).cid < 2 ^ 32
  xact : ∀ snap ∈ next.snaps,
    (next.xact snap.owner).repeatableRead = (backends.xact snap.owner).repeatableRead ∧
      (backends.xact snap.owner).cid ≤ (next.xact snap.owner).cid
  snaps : ∀ snap ∈ next.snaps, snap ∈ backends.snaps ∧ next.history.status snap.owner = .running
  pinned : ∀ snap ∈ backends.snaps, snap.pinned = true → ∀ other ∈ next.snaps,
    snap.owner = other.owner → snap ∈ next.snaps
  scans : ∀ scan ∈ next.scans, scan ∈ backends.scans ∧ scan.snap ∈ next.snaps
  file : next.file = backends.file
  ended : ∀ op ∈ next.file.log, next.history.status op.txn.txn = .committed ∨
    next.history.status op.txn.txn = .running ∧ (next.xact op.txn.txn).preCommitted = true
  writer : ∀ holder work, next.writer = some (holder, work) →
    backends.writer = some (holder, work) ∧ next.active holder = true
  view : ∀ snap ∈ next.snaps, next.view snap.owner = backends.view snap.owner

theorem Snapshots.quiet (snapshots : backends.Snapshots) (quiet : backends.Quiet next) :
    next.Snapshots :=
  snapshots.transfer quiet.postgres.formed quiet.since
    (fun _ _ => Nat.le_trans quiet.postgres.near (Nat.le_add_left _ _)) quiet.xact quiet.snaps quiet.pinned

theorem Inv.stays (inv : backends.Inv) (snapshots : next.Snapshots) (postgres : TopLevel next.history)
    (since : backends.history.Since next.history) (member : snap ∈ backends.snaps)
    (member' : snap ∈ next.snaps) : StaysInUse backends next snap where
  postgres := inv.postgres
  postgres' := postgres
  since := since
  use := inv.snapshots.use snap member
  use' := snapshots.use snap member'
  fits := Nat.lt_of_le_of_lt (inv.snapshots.curcid snap member) (inv.cids snap.owner)

theorem Inv.quiet (inv : backends.Inv) (quiet : backends.Quiet next) : next.Inv := by
  have snapshots := inv.snapshots.quiet quiet
  have sound : ∀ {rel : Relation}, backends.Sound rel →
      (∀ op ∈ rel.log, next.history.status op.txn.txn ≠ .aborted) → next.Sound rel :=
    fun sound unaborted => sound.transfer inv.postgres quiet.postgres quiet.since unaborted
      (fun snap member => (quiet.snaps snap member).1) fun snap member => (quiet.xact snap member).1
  have ended : ∀ op ∈ next.file.log, next.history.status op.txn.txn ≠ .aborted := by
    intro op member
    rcases quiet.ended op member with status | ⟨status, _⟩ <;> rw [status] <;> decide
  refine ⟨quiet.postgres, quiet.cids, snapshots, ?_, quiet.ended, fun holder work held => ?_,
    fun scan member => ?_⟩
  · rw [quiet.file] at ended ⊢
    exact sound inv.file ended
  · obtain ⟨held, active⟩ := quiet.writer holder work held
    obtain ⟨workSound, _, new, log, mine⟩ := inv.work holder work held
    refine ⟨sound workSound fun op member => ?_, active, new, ?_, mine⟩
    · rw [log] at member
      rcases List.mem_append.mp member with old | own
      · exact ended op (quiet.file ▸ old)
      · rw [mine op own, (active_iff.mp active).1]
        decide
    · rw [quiet.file]
      exact log
  · obtain ⟨old, active⟩ := quiet.scans scan member
    have scanSound := inv.scans scan old
    refine scanSound.transfer
      (inv.stays snapshots quiet.postgres quiet.since scanSound.active active) active ?_
    rw [quiet.view scan.snap active]

namespace Inv

variable {txn : TxnId}

theorem driven (inv : backends.Inv) : backends.Driven :=
  ⟨inv.postgres.formed, inv.postgres.top, Nat.le_trans inv.postgres.near (Nat.le_add_left _ _),
    inv.cids, inv.snapshots⟩

theorem moves (inv : backends.Inv) (moves : backends.Moves next) (near : next.history.nextXid ≤ 2 ^ 31)
    (scans : ∀ scan ∈ next.scans, scan ∈ backends.scans ∧ scan.snap ∈ next.snaps)
    (file : next.file = backends.file)
    (ended : ∀ op ∈ next.file.log, next.history.status op.txn.txn = .committed ∨
      next.history.status op.txn.txn = .running ∧ (next.xact op.txn.txn).preCommitted = true)
    (writer : ∀ holder work, next.writer = some (holder, work) →
      backends.writer = some (holder, work) ∧ next.active holder = true)
    (view : ∀ snap ∈ next.snaps, next.view snap.owner = backends.view snap.owner) : next.Inv :=
  inv.quiet ⟨⟨moves.formed, moves.top, near⟩, moves.since, moves.cids, moves.xact, moves.snaps,
    moves.pinned, scans, file, ended, writer, view⟩

theorem begin (inv : backends.Inv) (unstarted : backends.history.status txn = .unstarted)
    (repeatableRead : Bool) :
    { backends.setXact txn ⟨false, 0, repeatableRead⟩ with
      history := backends.history.setStatus txn .running }.Inv := by
  have other : ∀ {owner}, backends.history.status owner ≠ .unstarted → owner ≠ txn :=
    fun started => (ne_of_status unstarted started).symm
  have xact : ∀ {owner}, owner ≠ txn →
      (backends.setXact txn ⟨false, 0, repeatableRead⟩).xact owner = backends.xact owner :=
    fun different => Function.update_of_ne different _ _
  refine inv.moves (.begin inv.driven unstarted repeatableRead) inv.postgres.near
    (fun scan member => ⟨member, (inv.scans scan member).active⟩) rfl (fun op member => ?_)
    (fun holder work held => ⟨held, ?_⟩) fun _ _ => rfl
  · have ended := inv.ended op member
    have different : op.txn.txn ≠ txn :=
      other (by rcases ended with status | ⟨status, _⟩ <;> rw [status] <;> decide)
    change (backends.history.setStatus txn .running).status _ = _ ∨
      (backends.history.setStatus txn .running).status _ = _ ∧
        ((backends.setXact txn _).xact op.txn.txn).preCommitted = true
    rw [History.setStatus_of_ne different, xact different]
    exact ended
  · have active := active_iff.mp (inv.work holder work held).active
    have different : holder ≠ txn := other (by rw [active.1]; decide)
    rw [active_iff]
    change (backends.history.setStatus txn .running).status _ = _ ∧
      ((backends.setXact txn _).xact holder).preCommitted = false
    rw [History.setStatus_of_ne different, xact different]
    exact active

theorem assign (inv : backends.Inv) (running : backends.history.status txn = .running)
    (small : backends.history.nextXid < 2 ^ 31) :
    { backends with history := backends.history.assignXid txn false }.Inv := by
  have near : advanceXid backends.history.nextXid ≤ 2 ^ 31 := by
    unfold SqliteHeap.advanceXid
    split <;> omega
  exact inv.moves (.assign inv.driven running) near
    (fun scan member => ⟨member, (inv.scans scan member).active⟩) rfl inv.ended
    (fun holder work held => ⟨held, (inv.work holder work held).active⟩) fun _ _ => rfl

theorem commandCounterIncrement (inv : backends.Inv)
    (fits : (backends.xact txn).cid + 1 < 2 ^ 32) :
    (backends.setXact txn { backends.xact txn with cid := (backends.xact txn).cid + 1 }).Inv := by
  have marks : ∀ owner, ((backends.setXact txn
      { backends.xact txn with cid := (backends.xact txn).cid + 1 }).xact owner).preCommitted =
        (backends.xact owner).preCommitted := by
    intro owner
    by_cases same : owner = txn <;> simp [setXact, same]
  refine inv.moves (.commandCounterIncrement inv.driven fits) inv.postgres.near
    (fun scan member => ⟨member, (inv.scans scan member).active⟩) rfl (fun op member => ?_)
    (fun holder work held => ⟨held, ?_⟩) fun _ _ => rfl
  · rw [marks]
    exact inv.ended op member
  · have active := (inv.work holder work held).active
    rw [active_iff] at active ⊢
    rw [marks]
    exact active

theorem releaseSnapshot (inv : backends.Inv) {id : Nat}
    (free : ∀ snap ∈ backends.snaps, snap.pinned = true → snap.id ≠ id) :
    { backends with
      snaps := backends.snaps.filter fun snap => snap.id ≠ id
      scans := backends.scans.filter fun scan => scan.snap.id ≠ id }.Inv := by
  refine inv.moves (.releaseSnapshot inv.driven free) inv.postgres.near (fun scan member => ?_) rfl
    inv.ended (fun holder work held => ⟨held, (inv.work holder work held).active⟩) fun _ _ => rfl
  obtain ⟨old, kept⟩ := List.mem_filter.mp member
  exact ⟨old, List.mem_filter.mpr ⟨(inv.scans scan old).active, kept⟩⟩

theorem finish (inv : backends.Inv) {status : XactStatus}
    (running : backends.history.status txn = .running)
    (ends : status = .committed ∨ status = .aborted)
    (file : ∀ op ∈ backends.file.log, op.txn.txn = txn → status = .committed)
    {writer : Option (TxnId × Relation)} (held : ∀ holder work, writer = some (holder, work) →
      backends.writer = some (holder, work) ∧ holder ≠ txn)
    (view : ∀ owner, owner ≠ txn →
      { backends with writer := writer }.view owner = backends.view owner) :
    { backends.endXact txn (backends.history.finish txn status) with writer := writer }.Inv := by
  have others : ∀ {owner}, owner ≠ txn →
      (backends.history.finish txn status).status owner = backends.history.status owner :=
    fun different => History.setStatus_of_ne different _ _
  refine inv.moves (.finish inv.driven running ends writer) inv.postgres.near (fun scan member => ?_)
    rfl (fun op member => ?_) (fun holder work has => ?_) fun snap member => view _ ?_
  · obtain ⟨old, different⟩ := List.mem_filter.mp member
    exact ⟨old, List.mem_filter.mpr ⟨(inv.scans scan old).active, different⟩⟩
  · change (backends.history.finish txn status).status _ = _ ∨
      (backends.history.finish txn status).status _ = _ ∧ _
    by_cases same : op.txn.txn = txn
    · rw [same, file op member same]
      exact .inl (History.setStatus_self _ _ _)
    · rw [others same]
      exact inv.ended op member
  · obtain ⟨old, different⟩ := held holder work has
    refine ⟨old, ?_⟩
    have active := (inv.work holder work old).active
    rw [active_iff] at active ⊢
    change (backends.history.finish txn status).status _ = _ ∧ _
    rw [others different]
    exact active
  · simpa using (List.mem_filter.mp member).2

end Inv

/-! ## Steps that change the relation -/

theorem mayWrite_iff {txn : TxnId} :
    backends.mayWrite txn = true ↔
      backends.writer = none ∨ ∃ work, backends.writer = some (txn, work) := by
  unfold mayWrite
  cases held : backends.writer with
  | none => simp
  | some pair =>
      obtain ⟨holder, work⟩ := pair
      simp

theorem held_of_not_mayWrite {txn : TxnId} (blocked : ¬ backends.mayWrite txn = true) :
    ∃ holder work, backends.writer = some (holder, work) ∧ holder ≠ txn := by
  unfold mayWrite at blocked
  split at blocked
  · exact absurd rfl blocked
  · next holder work held => exact ⟨holder, work, held, by simpa using blocked⟩

theorem ne_of_not_mayWrite {holder txn : TxnId} {work : Relation}
    (blocked : ¬ backends.mayWrite txn = true) (held : backends.writer = some (holder, work)) :
    holder ≠ txn := by
  rintro rfl
  exact blocked (mayWrite_iff.mpr (.inr ⟨work, held⟩))

theorem view_of_free {txn : TxnId} (free : backends.writer = none) :
    backends.view txn = backends.file := by
  simp [view, free]

theorem view_of_held {holder txn : TxnId} {work : Relation}
    (held : backends.writer = some (holder, work)) :
    backends.view txn = if holder = txn then work else backends.file := by
  simp [view, held]

theorem Snapshots.of_same (snapshots : backends.Snapshots) (history : next.history = backends.history)
    (snaps : next.snaps = backends.snaps)
    (xact : ∀ owner, (next.xact owner).cid = (backends.xact owner).cid ∧
      (next.xact owner).repeatableRead = (backends.xact owner).repeatableRead) : next.Snapshots := by
  refine ⟨?_, ?_, ?_, ?_, ?_⟩ <;> rw [snaps] <;> try simp only [xact]
  · rw [history]
    exact snapshots.use
  · exact snapshots.curcid
  · exact snapshots.pinned
  · exact snapshots.repeatable
  · exact snapshots.same

namespace Inv

variable {txn : TxnId}

theorem sound_view (inv : backends.Inv) (txn : TxnId) : backends.Sound (backends.view txn) := by
  cases held : backends.writer with
  | none =>
      rw [view_of_free held]
      exact inv.file
  | some pair =>
      rw [view_of_held held]
      split
      · exact (inv.work _ _ held).sound
      · exact inv.file

/-- What a transaction reads extends the file by its own commands. -/
theorem view_log (inv : backends.Inv) (txn : TxnId) :
    ∃ new, (backends.view txn).log = backends.file.log ++ new ∧
      ∀ op ∈ new, op.txn.txn = txn ∧ backends.active txn = true := by
  cases held : backends.writer with
  | none => exact ⟨[], by rw [view_of_free held, List.append_nil], by simp⟩
  | some pair =>
      rw [view_of_held held]
      split
      · next same =>
          obtain ⟨_, active, new, log, mine⟩ := inv.work _ _ held
          rw [same] at active mine
          exact ⟨new, log, fun op member => ⟨mine op member, active⟩⟩
      · exact ⟨[], (List.append_nil _).symm, by simp⟩

theorem sound_same (inv : backends.Inv) (history : next.history = backends.history)
    (xact : ∀ owner, (next.xact owner).repeatableRead = (backends.xact owner).repeatableRead)
    (snaps : next.snaps = backends.snaps) (sound : backends.Sound rel) : next.Sound rel := by
  refine sound.transfer inv.postgres (history ▸ inv.postgres) (history ▸ .refl _) ?_ ?_ fun snap _ => xact _
  · rw [history]
    exact sound.unaborted
  · rw [snaps]
    exact fun _ member => member

theorem stays_same (inv : backends.Inv) (history : next.history = backends.history)
    (member : snap ∈ backends.snaps) : StaysInUse backends next snap where
  postgres := inv.postgres
  postgres' := history ▸ inv.postgres
  since := history ▸ .refl _
  use := inv.snapshots.use snap member
  use' := history ▸ inv.snapshots.use snap member
  fits := Nat.lt_of_le_of_lt (inv.snapshots.curcid snap member) (inv.cids snap.owner)

theorem unseen_filter (inv : backends.Inv) (member : snap ∈ backends.snaps) {log new : List Command}
    (running : ∀ op ∈ new, backends.history.status op.txn.txn = .running)
    (late : ∀ op ∈ new, op.txn.txn = snap.owner → snap.curcid ≤ op.cid) :
    (log ++ new).filter snap.sees = log.filter snap.sees := by
  have none : new.filter snap.sees = [] := by
    refine List.filter_eq_nil_iff.mpr fun op inNew => ?_
    rw [inv.snapshots.unseen member (running op inNew) (late op inNew)]
    decide
  rw [List.filter_append, none, List.append_nil]

theorem write (inv : backends.Inv) (active : backends.active txn = true)
    (mayWrite : backends.mayWrite txn = true) {after : Relation} (sound : backends.Sound after)
    (log : ∃ new, after.log = (backends.view txn).log ++ new ∧
      ∀ op ∈ new, op.txn.txn = txn ∧ op.cid = (backends.xact txn).cid) :
    { backends with writer := some (txn, after) }.Inv := by
  obtain ⟨new, log, mine⟩ := log
  obtain ⟨old, viewLog, own⟩ := inv.view_log txn
  have same : ∀ {rel}, backends.Sound rel →
      { backends with writer := some (txn, after) }.Sound rel :=
    fun sound => inv.sound_same rfl (fun _ => rfl) rfl sound
  refine ⟨inv.postgres, inv.cids, ⟨inv.snapshots.use, inv.snapshots.curcid, inv.snapshots.pinned,
    inv.snapshots.repeatable, inv.snapshots.same⟩, same inv.file, inv.ended,
    fun holder work held => ?_, fun scan member => ?_⟩
  · cases held
    refine ⟨same sound, active, old ++ new, ?_, fun op member => ?_⟩
    · rw [log, viewLog, List.append_assoc]
    · exact (List.mem_append.mp member).elim (fun inOld => (own op inOld).1) fun inNew =>
        (mine op inNew).1
  · have scanSound := inv.scans scan member
    refine scanSound.transfer (inv.stays_same rfl scanSound.active) scanSound.active ?_
    rw [view_of_held rfl]
    split
    · next owner =>
        rw [log, ← owner]
        refine inv.unseen_filter scanSound.active (fun op inNew => ?_) fun op inNew writer => ?_
        · rw [(mine op inNew).1]
          exact (active_iff.mp active).1
        · rw [(mine op inNew).2, owner]
          exact inv.snapshots.curcid scan.snap scanSound.active
    · next foreign =>
        rcases mayWrite_iff.mp mayWrite with free | ⟨work, held⟩
        · rw [view_of_free free]
        · rw [view_of_held held, if_neg foreign]

theorem xact_preCommit (backends : Backends) (txn owner : TxnId) :
    let after := (backends.setXact txn { backends.xact txn with preCommitted := true }).xact owner
    after.cid = (backends.xact owner).cid ∧
      after.repeatableRead = (backends.xact owner).repeatableRead ∧
      (after.preCommitted = true ↔ owner = txn ∨ (backends.xact owner).preCommitted = true) := by
  by_cases same : owner = txn
  · simp [setXact, same]
  · simp [setXact, same]

theorem preCommit (inv : backends.Inv) (active : backends.active txn = true) :
    { backends.setXact txn { backends.xact txn with preCommitted := true } with
      file := backends.view txn
      writer := if backends.mayWrite txn then none else backends.writer }.Inv := by
  obtain ⟨new, viewLog, own⟩ := inv.view_log txn
  have running := (active_iff.mp active).1
  have xact := fun owner => xact_preCommit backends txn owner
  generalize marks : backends.setXact txn { backends.xact txn with preCommitted := true } = marked at xact ⊢
  have history : marked.history = backends.history := by rw [← marks]; rfl
  have snaps : marked.snaps = backends.snaps := by rw [← marks]; rfl
  have same : ∀ {rel}, backends.Sound rel →
      { marked with
        file := backends.view txn
        writer := if backends.mayWrite txn then none else backends.writer }.Sound rel :=
    fun sound => inv.sound_same history (fun owner => (xact owner).2.1) snaps sound
  refine ⟨history ▸ inv.postgres, fun owner => (xact owner).1 ▸ inv.cids owner,
    inv.snapshots.of_same history snaps fun owner => ⟨(xact owner).1, (xact owner).2.1⟩,
    same (inv.sound_view txn), fun op member => ?_, fun holder work held => ?_, fun scan member => ?_⟩
  · change marked.history.status _ = _ ∨ marked.history.status _ = _ ∧ _
    rw [history, (xact op.txn.txn).2.2]
    rw [viewLog] at member
    rcases List.mem_append.mp member with old | mine
    · exact (inv.ended op old).imp_right fun ended => ⟨ended.1, .inr ended.2⟩
    · rw [(own op mine).1]
      exact .inr ⟨running, .inl rfl⟩
  · change (if backends.mayWrite txn then none else backends.writer) = _ at held
    split at held
    · cases held
    · next blocked =>
        obtain ⟨sound, workActive, extending⟩ := inv.work holder work held
        have different := ne_of_not_mayWrite blocked held
        have file : backends.view txn = backends.file := by
          rw [view_of_held held, if_neg different]
        refine ⟨same sound, ?_, file ▸ extending⟩
        rw [active_iff] at workActive ⊢
        refine ⟨history ▸ workActive.1, ?_⟩
        rw [Bool.eq_false_iff, ne_eq, (xact holder).2.2, not_or]
        exact ⟨different, by rw [workActive.2]; decide⟩
  · have scanSound := inv.scans scan (by rw [← marks] at member; exact member)
    refine scanSound.transfer (inv.stays_same history scanSound.active) (snaps ▸ scanSound.active) ?_
    by_cases writes : backends.mayWrite txn = true
    · rw [view_of_free (if_pos writes)]
      change (backends.view txn).log.filter _ = _
      rcases mayWrite_iff.mp writes with free | ⟨work, held⟩
      · rw [view_of_free free, view_of_free free]
      · by_cases owner : txn = scan.snap.owner
        · rw [owner]
        · rw [viewLog, view_of_held held, if_neg owner]
          refine inv.unseen_filter scanSound.active (fun op inNew => ?_) fun op inNew writer => ?_
          · rw [(own op inNew).1]
            exact running
          · exact absurd ((own op inNew).1.symm.trans writer) owner
    · obtain ⟨holder, work, held, different⟩ := held_of_not_mayWrite writes
      have file : backends.view txn = backends.file := by
        rw [view_of_held held, if_neg different]
      simp only [writes, file]
      rfl

theorem withScans (inv : backends.Inv) {scans : List Scan}
    (sound : ∀ scan ∈ scans, backends.ScanSound scan) : { backends with scans := scans }.Inv := by
  refine ⟨inv.postgres, inv.cids, ⟨inv.snapshots.use, inv.snapshots.curcid, inv.snapshots.pinned,
    inv.snapshots.repeatable, inv.snapshots.same⟩, inv.sound_same rfl (fun _ => rfl) rfl inv.file,
    inv.ended, fun holder work held => ?_, fun scan member => ?_⟩
  · obtain ⟨sound, active, extending⟩ := inv.work holder work held
    exact ⟨inv.sound_same rfl (fun _ => rfl) rfl sound, active, extending⟩
  · have scanSound := sound scan member
    exact scanSound.transfer (inv.stays_same rfl scanSound.active) scanSound.active rfl

theorem takeSnapshot (inv : backends.Inv) (active : backends.active txn = true) (id : Nat) :
    { backends with snaps := backends.snaps ++ [backends.snap txn id] }.Inv := by
  have running := (active_iff.mp active).1
  refine ⟨inv.postgres, inv.cids, inv.snapshots.takeSnapshot inv.postgres.formed
      (Nat.le_trans inv.postgres.near (Nat.le_add_left _ _)) running id,
    inv.file.takeSnapshot inv.postgres inv.snapshots running id, inv.ended,
    fun holder work held => ?_, fun scan member => ?_⟩
  · obtain ⟨sound, workActive, extending⟩ := inv.work holder work held
    exact ⟨sound.takeSnapshot inv.postgres inv.snapshots running id, workActive, extending⟩
  · have scanSound := inv.scans scan member
    exact scanSound.transfer (inv.stays_same rfl scanSound.active)
      (List.mem_append_left _ scanSound.active) rfl

end Inv

theorem ScanSound.getnext {scan : Scan} (sound : backends.ScanSound scan) (inv : backends.Inv) :
    backends.ScanSound (backends.getnext scan) := by
  cases advanced : scan.cursor.doScanGetnext (backends.rowVisible scan.snap)
    (backends.view scan.snap.owner).table with
  | mk found cursor =>
      obtain ⟨rows, ended, sameRows, loaded⟩ := SqliteCursor.doScanGetnext_spec advanced
      have next : backends.getnext scan = { scan with
          cursor := cursor
          source := if scan.cursor.rowsLoaded then scan.source else backends.view scan.snap.owner
          returned := scan.returned ++ found.toList
          finished := found.isNone } := by
        simp [Backends.getnext, advanced]
      rw [next]
      have finished : found.isNone = true → cursor.remaining (backends.rowVisible scan.snap) = [] :=
        fun none => ended (Option.isNone_iff_eq_none.mp none)
      cases before : scan.cursor.rowsLoaded with
      | true =>
          have same : scan.cursor.ensureRowsLoaded (backends.view scan.snap.owner).table =
              scan.cursor := by simp [SqliteCursor.ensureRowsLoaded, before]
          rw [same] at rows sameRows
          refine ⟨sound.active, fun unloaded => ?_, fun _ => sound.readable before,
            fun _ => sameRows.trans (sound.rows before), fun _ => ?_, finished,
            fun _ => sound.current before⟩
          · rw [loaded] at unloaded
            cases unloaded
          · change (scan.returned ++ found.toList) ++ _ = _
            rw [List.append_assoc, ← rows]
            exact sound.returned before
      | false =>
          obtain ⟨alloc, none, _⟩ := sound.unloaded before
          rw [alloc] at rows sameRows
          refine ⟨sound.active, fun unloaded => ?_,
            fun _ => (inv.sound_view _).readable sound.active, fun _ => sameRows, fun _ => ?_,
            finished, fun _ => rfl⟩
          · rw [loaded] at unloaded
            cases unloaded
          · change (scan.returned ++ found.toList) ++ _ = _
            rw [none, List.nil_append, ← rows]
            rfl

theorem ScanSound.rescan {scan : Scan} (sound : backends.ScanSound scan) :
    backends.ScanSound
      { scan with cursor := scan.cursor.scanRescan, returned := [], finished := false } where
  active := sound.active
  unloaded unloaded := by
    refine ⟨?_, rfl, rfl⟩
    rw [(sound.unloaded unloaded).1]
    rfl
  readable := sound.readable
  rows := sound.rows
  returned loaded := by
    have rows := sound.rows loaded
    change (scan.cursor.rows.drop 0).filter _ = _
    rw [List.drop_zero, rows]
  finished finished := nomatch finished
  current := sound.current

/-! ## Runs -/

inductive Steps (backends : Backends) : Backends → Prop where
  | same : Steps backends backends
  | begin {txn : TxnId} (repeatableRead : Bool)
      (unstarted : backends.history.status txn = .unstarted) :
      Steps backends { backends.setXact txn ⟨false, 0, repeatableRead⟩ with
        history := backends.history.setStatus txn .running }
  | assign {txn : TxnId} (running : backends.history.status txn = .running)
      (small : backends.history.nextXid < 2 ^ 31) :
      Steps backends { backends with history := backends.history.assignXid txn false }
  | commandCounterIncrement {txn : TxnId} (fits : (backends.xact txn).cid + 1 < 2 ^ 32) :
      Steps backends
        (backends.setXact txn { backends.xact txn with cid := (backends.xact txn).cid + 1 })
  | takeSnapshot {txn : TxnId} (id : Nat) (active : backends.active txn = true) :
      Steps backends { backends with snaps := backends.snaps ++ [backends.snap txn id] }
  | releaseSnapshot {id : Nat} (free : ∀ snap ∈ backends.snaps, snap.pinned = true → snap.id ≠ id) :
      Steps backends { backends with
        snaps := backends.snaps.filter fun snap => snap.id ≠ id
        scans := backends.scans.filter fun scan => scan.snap.id ≠ id }
  | write {txn : TxnId} {after : Relation} (active : backends.active txn = true)
      (mayWrite : backends.mayWrite txn = true) (sound : backends.Sound after)
      (log : ∃ new, after.log = (backends.view txn).log ++ new ∧
        ∀ op ∈ new, op.txn.txn = txn ∧ op.cid = (backends.xact txn).cid) :
      Steps backends { backends with writer := some (txn, after) }
  | preCommit {txn : TxnId} (active : backends.active txn = true) :
      Steps backends { backends.setXact txn { backends.xact txn with preCommitted := true } with
        file := backends.view txn
        writer := if backends.mayWrite txn then none else backends.writer }
  | commit {txn : TxnId} (preCommitted : (backends.xact txn).preCommitted = true)
      (running : backends.history.status txn = .running) :
      Steps backends (backends.endXact txn (backends.history.finish txn .committed))
  | abort {txn : TxnId} (early : (backends.xact txn).preCommitted = false)
      (running : backends.history.status txn = .running) :
      Steps backends { backends.endXact txn (backends.history.finish txn .aborted) with
        writer := if backends.mayWrite txn then none else backends.writer }
  | scans {scans : List Scan} (sound : ∀ scan ∈ scans, backends.ScanSound scan) :
      Steps backends { backends with scans := scans }

namespace Inv

theorem start : Backends.start.Inv where
  postgres := ⟨.start, List.forall_mem_nil _, by decide⟩
  cids _ := by
    change 0 < _
    decide
  snapshots :=
    ⟨List.forall_mem_nil _, List.forall_mem_nil _, List.forall_mem_nil _, List.forall_mem_nil _,
      List.forall_mem_nil _⟩
  file :=
    ⟨rfl, List.forall_mem_nil _, List.forall_mem_nil _, List.forall_mem_nil _, List.Pairwise.nil,
      by decide, List.forall_mem_nil _, List.forall_mem_nil _, List.forall_mem_nil _⟩
  ended := List.forall_mem_nil _
  work _ _ held := nomatch held
  scans := List.forall_mem_nil _

theorem writes_of_author (inv : backends.Inv) {writer : Writer} (author : backends.Author writer) :
    backends.Writes writer :=
  ⟨History.mem_assigned_of_topXid author.top, (active_iff.mp author.active).1, inv.cids writer.txn⟩

theorem steps_of_step (inv : backends.Inv) {event : BackendsEvent} (allowed : backends.Allowed event)
    (stepped : backends.step event = some next) : backends.Steps next := by
  cases does_of_step stepped with
  | begin repeatableRead unstarted => exact .begin repeatableRead unstarted
  | assign running => exact .assign running allowed
  | commandCounterIncrement fits => exact .commandCounterIncrement (by omega)
  | takeSnapshot id active => exact .takeSnapshot id active
  | releaseSnapshot free => exact .releaseSnapshot free
  | insertsNothing | skips => exact .same
  | @doTupleInsert writer author tuple =>
      have sound := (inv.sound_view writer.txn).doTupleInsert inv.snapshots (inv.writes_of_author author) tuple
      exact .write author.active author.mayWrite sound
        ⟨_, rfl, List.forall_mem_singleton.mpr ⟨rfl, rfl⟩⟩
  | @multiInsert writer tuples author _ =>
      have sound := (inv.sound_view writer.txn).multiInsert inv.snapshots (inv.writes_of_author author) tuples
      exact .write author.active author.mayWrite sound (Relation.multiInsert_log writer _ tuples _)
  | @tupleDelete writer author snapId rowid =>
      obtain ⟨snap, member, _, owner, row⟩ := allowed
      obtain ⟨sound, log⟩ := (inv.sound_view writer.txn).tupleDelete inv.postgres inv.cids
        inv.snapshots (inv.writes_of_author author) ⟨snap, member, owner, row⟩
      exact .write author.active author.mayWrite sound
        ⟨_, log, List.forall_mem_singleton.mpr ⟨rfl, rfl⟩⟩
  | @tupleUpdate writer author snapId rowid tuple =>
      obtain ⟨snap, member, _, owner, row⟩ := allowed
      obtain ⟨sound, log⟩ := (inv.sound_view writer.txn).tupleUpdate inv.postgres inv.cids
        inv.snapshots (inv.writes_of_author author) ⟨snap, member, owner, row⟩ tuple
      exact .write author.active author.mayWrite sound
        ⟨_, log, List.forall_mem_singleton.mpr ⟨rfl, rfl⟩⟩
  | @relationVacuum txn oldest active mayWrite runs =>
      obtain ⟨near, ⟨snap, held, _⟩, horizon⟩ := allowed
      exact .write active mayWrite
        ((inv.sound_view txn).vacuum inv.postgres inv.snapshots near runs held horizon)
        ⟨[], (List.append_nil _).symm, List.forall_mem_nil _⟩
  | reset => exact absurd allowed id
  | preCommit active => exact .preCommit active
  | commit preCommitted running => exact .commit preCommitted running
  | abort running => exact .abort allowed running
  | scanBegin id held =>
      have unloaded : SqliteCursor.alloc.rowsLoaded ≠ true := Bool.false_ne_true
      refine .scans (List.forall_mem_append.mpr ⟨inv.scans, List.forall_mem_singleton.mpr ?_⟩)
      exact ⟨held, fun _ => ⟨rfl, rfl, rfl⟩, (absurd · unloaded), (absurd · unloaded),
        (absurd · unloaded), (absurd · Bool.false_ne_true), (absurd · unloaded)⟩
  | scanGetnext id =>
      refine .scans fun scan member => ?_
      obtain ⟨old, inScans, rfl⟩ := List.mem_map.mp member
      split
      · exact (inv.scans old inScans).getnext inv
      · exact inv.scans old inScans
  | scanRescan id =>
      refine .scans fun scan member => ?_
      obtain ⟨old, inScans, rfl⟩ := List.mem_map.mp member
      split
      · exact (inv.scans old inScans).rescan
      · exact inv.scans old inScans

theorem step (inv : backends.Inv) (stepped : backends.Steps next) : next.Inv := by
  cases stepped with
  | same => exact inv
  | begin repeatableRead unstarted => exact inv.begin unstarted repeatableRead
  | assign running small => exact inv.assign running small
  | commandCounterIncrement fits => exact inv.commandCounterIncrement fits
  | takeSnapshot id active => exact inv.takeSnapshot active id
  | releaseSnapshot free => exact inv.releaseSnapshot free
  | write active mayWrite sound log => exact inv.write active mayWrite sound log
  | preCommit active => exact inv.preCommit active
  | commit preCommitted running =>
      refine inv.finish running (.inl rfl) (fun _ _ _ => rfl) (fun holder work held => ⟨held, ?_⟩)
        fun _ _ => rfl
      rintro rfl
      have active := (active_iff.mp (inv.work holder work held).active).2
      rw [preCommitted] at active
      cases active
  | abort early running =>
      refine inv.finish running (.inr rfl) (fun op member writer => ?_) (fun holder work held => ?_)
        fun owner different => ?_
      · have ended := inv.ended op member
        simp [writer, running, early] at ended
      · split at held
        · cases held
        · next blocked => exact ⟨held, ne_of_not_mayWrite blocked held⟩
      · split
        · next writes =>
            rw [view_of_free rfl]
            rcases mayWrite_iff.mp writes with free | ⟨work, held⟩
            · rw [view_of_free free]
            · rw [view_of_held held, if_neg different.symm]
        · rfl
  | scans sound => exact inv.withScans sound

/-! ## What a snapshot sees of the log -/

theorem log_of_mayWrite {txn : TxnId} (mayWrite : backends.mayWrite txn = true) :
    backends.log = (backends.view txn).log := by
  rcases mayWrite_iff.mp mayWrite with free | ⟨work, held⟩
  · simp [Backends.log, view, free]
  · simp [Backends.log, view, held]

/-- A snapshot sees the same commands in the whole log as in what its transaction reads. -/
theorem filter_view (inv : backends.Inv) (member : snap ∈ backends.snaps) :
    (backends.view snap.owner).log.filter snap.sees = backends.log.filter snap.sees := by
  by_cases writes : backends.mayWrite snap.owner = true
  · rw [log_of_mayWrite writes]
  · obtain ⟨holder, work, held, different⟩ := held_of_not_mayWrite writes
    obtain ⟨_, active, new, log, mine⟩ := inv.work holder work held
    have whole : backends.log = work.log := by simp [Backends.log, held]
    rw [view_of_held held, if_neg different, whole, log]
    refine (inv.unseen_filter member (fun op inNew => ?_) fun op inNew own => ?_).symm
    · rw [mine op inNew]
      exact (active_iff.mp active).1
    · exact absurd ((mine op inNew).symm.trans own) different

/-- What a snapshot sees of the log does not change while it is in use. -/
theorem filter_step (inv : backends.Inv) (stepped : backends.Steps next)
    (member : snap ∈ backends.snaps) (member' : snap ∈ next.snaps) :
    next.log.filter snap.sees = backends.log.filter snap.sees := by
  cases stepped with
  | same | begin | assign | commandCounterIncrement | takeSnapshot | releaseSnapshot | commit | scans =>
      rfl
  | @write txn after active mayWrite sound log =>
      obtain ⟨new, log, mine⟩ := log
      rw [log_of_mayWrite mayWrite]
      change after.log.filter _ = _
      rw [log]
      refine inv.unseen_filter member (fun op inNew => ?_) fun op inNew own => ?_
      · rw [(mine op inNew).1]
        exact (active_iff.mp active).1
      · rw [(mine op inNew).2, ← (mine op inNew).1, own]
        exact inv.snapshots.curcid snap member
  | @preCommit txn active =>
      by_cases writes : backends.mayWrite txn = true
      · rw [log_of_mayWrite writes]
        simp [Backends.log, writes]
      · obtain ⟨holder, work, held, _⟩ := held_of_not_mayWrite writes
        simp [Backends.log, writes, held]
  | @abort txn early running =>
      by_cases writes : backends.mayWrite txn = true
      · obtain ⟨new, log, own⟩ := inv.view_log txn
        have different : snap.owner ≠ txn := by simpa using (List.mem_filter.mp member').2
        rw [log_of_mayWrite writes, log, inv.unseen_filter member (fun op inNew => ?_)
          fun op inNew mine => absurd (mine.symm.trans (own op inNew).1) different]
        · simp [Backends.log, writes, endXact]
        · rw [(own op inNew).1]
          exact running
      · obtain ⟨holder, work, held, _⟩ := held_of_not_mayWrite writes
        simp [Backends.log, writes, held]

end Inv

end Backends

end SqliteHeap
