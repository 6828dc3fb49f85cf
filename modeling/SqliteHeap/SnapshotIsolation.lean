import SqliteHeap.BackendsRun

/-! Scans read the snapshot-isolation store. In every run of the backends a scan under
an active snapshot returns one tuple for each logical row that exists at the snapshot,
in its version as of then, whenever and however interleaved the scan runs. -/

set_option autoImplicit false

namespace SqliteHeap

open Versions

namespace Backends

variable {backends next : Backends} {snap : Snap}

instance : DecidablePred backends.Allowed
  | .assign _ => inferInstanceAs (Decidable (backends.history.nextXid < 2 ^ 31))
  | .tupleDelete _ _ _ | .tupleUpdate _ _ _ _ =>
      inferInstanceAs (Decidable (∃ snap ∈ backends.snaps, _ ∧ _ ∧ ∃ row ∈ _, _ ∧ _ ∧ _))
  | .relationVacuum _ _ =>
      inferInstanceAs (Decidable (_ < 2 ^ 31 ∧ (∃ snap ∈ backends.snaps, _) ∧ ∀ snap ∈ backends.snaps, _))
  | .reset _ => isFalse id
  | .abort txn => inferInstanceAs (Decidable ((backends.xact txn).preCommitted = false))
  | .begin _ _ | .commandCounterIncrement _ | .takeSnapshot _ _ | .releaseSnapshot _
  | .doTupleInsert _ _ | .multiInsert _ _ | .preCommit _ | .commit _ | .scanBegin _ _
  | .scanGetnext _ | .scanRescan _ => isTrue trivial

namespace Inv

theorem run {events : List BackendsEvent} (inv : backends.Inv)
    (reached : Backends.run backends events = some next)
    (allowed : Transition.Meets Backends.step Backends.Allowed backends events) : next.Inv :=
  Transition.run_invariant
    (fun _ _ _ inv allowed stepped => inv.step (inv.steps_of_step allowed stepped)) inv allowed reached

theorem filter_run {events : List BackendsEvent} (inv : backends.Inv)
    (reached : Backends.run backends events = some next)
    (allowed : Transition.Meets Backends.step
      (fun state event => snap ∈ state.snaps ∧ state.Allowed event) backends events)
    (member : snap ∈ next.snaps) : next.log.filter snap.sees = backends.log.filter snap.sees := by
  induction events generalizing backends with
  | nil =>
      cases reached
      rfl
  | cons event rest ih =>
      obtain ⟨middle, stepped, reached⟩ := Transition.run_cons_iff.mp reached
      obtain ⟨⟨active, first⟩, later⟩ := allowed
      have steps := inv.steps_of_step first stepped
      have remains : snap ∈ middle.snaps := by
        cases rest with
        | nil =>
            cases reached
            exact member
        | cons second rest => exact (later middle stepped).1.1
      exact (ih (inv.step steps) reached (later middle stepped)).trans
        (inv.filter_step steps active remains)

theorem fullScan_eq (inv : backends.Inv) (member : snap ∈ backends.snaps) :
    (backends.fullScan snap).map (backends.view snap.owner).entry = snap.store backends.log := by
  have fits : snap.curcid < 2 ^ 32 :=
    Nat.lt_of_le_of_lt (inv.snapshots.curcid snap member) (inv.cids snap.owner)
  have rows := ((inv.sound_view snap.owner).readable member).visible_rows
    (inv.snapshots.use snap member) inv.postgres fits
  rw [fullScan, SqliteHeap.fullScan_eq]
  refine rows.trans ?_
  rw [Snap.store, Snap.store, inv.filter_view member]

theorem finished_eq (inv : backends.Inv) {scan : Scan} (member : scan ∈ backends.scans)
    (finished : scan.finished = true) :
    scan.returned.map scan.source.entry = scan.snap.store backends.log := by
  have sound := inv.scans scan member
  have active := sound.active
  have loaded : scan.cursor.rowsLoaded = true := by
    by_contra unloaded
    have fresh := (sound.unloaded (by simpa using unloaded)).2.2
    rw [finished] at fresh
    cases fresh
  have fits : scan.snap.curcid < 2 ^ 32 :=
    Nat.lt_of_le_of_lt (inv.snapshots.curcid scan.snap active) (inv.cids scan.snap.owner)
  have rows := (sound.readable loaded).visible_rows (inv.snapshots.use scan.snap active) inv.postgres
    fits
  have all := sound.returned loaded
  rw [sound.finished finished, List.append_nil] at all
  rw [all]
  refine rows.trans ?_
  rw [Snap.store, Snap.store, sound.current loaded, inv.filter_view active]

end Inv

/-- In every allowed run, at every moment that a snapshot is in use, a full scan
returns the snapshot-isolation store at the snapshot, and so does every finished scan,
however its steps interleaved with others. The store has each logical row at most
once, and is the same as long as the snapshot is in use. -/
theorem scans_snapshotIsolation {events : List BackendsEvent}
    (reached : Backends.run Backends.start events = some backends)
    (allowed : Transition.Meets Backends.step Backends.Allowed Backends.start events) :
    ∀ snap ∈ backends.snaps,
      (backends.fullScan snap).map (backends.view snap.owner).entry = snap.store backends.log ∧
      (∀ scan ∈ backends.scans, scan.snap = snap → scan.finished = true →
        scan.returned.map scan.source.entry = snap.store backends.log) ∧
      ((snap.store backends.log).map Prod.fst).Nodup ∧
      ∀ later next, Backends.run backends later = some next →
        Transition.Meets Backends.step (fun state event => snap ∈ state.snaps ∧ state.Allowed event)
          backends later → snap ∈ next.snaps → snap.store next.log = snap.store backends.log := by
  intro snap active
  have inv := Inv.start.run reached allowed
  refine ⟨inv.fullScan_eq active, fun scan member same finished => ?_, store_keys_nodup _,
    fun later next reached' kept member => ?_⟩
  · rw [← same]
    exact inv.finished_eq member finished
  · exact congrArg Versions.store (inv.filter_run reached' kept member)

/-- A reader whose scan starts after an update that its snapshot does not see. -/
def readerAndUpdate : List BackendsEvent :=
  [.begin 1 false, .assign 1, .doTupleInsert 1 [10], .preCommit 1, .commit 1, .begin 2 true,
    .takeSnapshot 2 0, .begin 3 false, .assign 3, .takeSnapshot 3 1, .tupleUpdate 3 1 1 [20],
    .preCommit 3, .commit 3, .scanBegin 0 0, .scanGetnext 0, .scanGetnext 0]

theorem readerAndUpdate_scans :
    ∃ backends snap scan, Backends.run Backends.start readerAndUpdate = some backends ∧
      backends.scans = [scan] ∧ backends.snaps = [snap] ∧ scan.finished = true ∧
      scan.returned.map scan.source.entry = [(0, [10])] ∧
      scan.returned.map scan.source.entry = snap.store backends.log := by
  obtain ⟨backends, snap, scan, reached, scans, snaps, same, finished, tuples⟩ :
      ∃ backends snap scan, Backends.run Backends.start readerAndUpdate = some backends ∧
        backends.scans = [scan] ∧ backends.snaps = [snap] ∧ scan.snap = snap ∧
        scan.finished = true ∧ scan.returned.map scan.source.entry = [(0, [10])] :=
    ⟨_, _, _, rfl, rfl, rfl, rfl, rfl, by decide⟩
  have isolation := scans_snapshotIsolation reached (by decide) snap (snaps ▸ List.mem_singleton_self _)
  refine ⟨backends, snap, scan, reached, scans, snaps, finished, tuples, ?_⟩
  exact isolation.2.1 scan (scans ▸ List.mem_singleton_self _) same finished

end Backends

end SqliteHeap
