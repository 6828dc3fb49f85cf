import SqliteHeap.Backends
import SqliteHeap.Residue

/-! A transaction whose SQLite transaction commits in `PreCommit` and which then aborts
leaves its changes in the file. The run of the backends is compared with the run in
which the transaction writes nothing. The rows that it inserted are never noticed; the
stamps that it leaves on rows of others, and the rows that it truncated, are. -/

set_option autoImplicit false

namespace SqliteHeap

open Residue

/-- The event writes rows of the relation on behalf of the transaction. -/
def BackendsEvent.writesFor (txn : TxnId) : BackendsEvent → Bool
  | .doTupleInsert writer _ | .multiInsert writer _ | .tupleDelete writer _ _
  | .tupleUpdate writer _ _ _ | .reset writer => writer = txn
  | _ => false

namespace Backends

variable {txn : TxnId} {xid : TransactionId} {backends twin next : Backends}

/-- `TM_Result` of an event, if it has one. -/
def tmResult (backends : Backends) : BackendsEvent → Option TmResult
  | .tupleDelete writer _ rowid =>
      (backends.history.topXid writer).map fun xid =>
        ((backends.view writer).tupleDelete ⟨writer, xid⟩ (backends.xact writer).cid rowid).2
  | .tupleUpdate writer _ rowid tuple =>
      (backends.history.topXid writer).map fun xid =>
        ((backends.view writer).tupleUpdate ⟨writer, xid⟩ (backends.xact writer).cid rowid tuple).2
  | _ => none

/-- The rowid in the twin of the row that a transaction finds at `rowid`. -/
def twinRowid (xid : TransactionId) (backends twin : Backends) (writer : TxnId) (rowid : Int) : Int :=
  counterpart xid (backends.view writer).table (twin.view writer).table rowid

/-- The same event in the twin, on the row that corresponds to its target. -/
def twinEvent (xid : TransactionId) (backends twin : Backends) : BackendsEvent → BackendsEvent
  | .tupleDelete writer snap rowid =>
      .tupleDelete writer snap (backends.twinRowid xid twin writer rowid)
  | .tupleUpdate writer snap rowid tuple =>
      .tupleUpdate writer snap (backends.twinRowid xid twin writer rowid) tuple
  | event => event

/-- The events of the run in which the transaction writes nothing. -/
def without (txn : TxnId) (xid : TransactionId) :
    Backends → Backends → List BackendsEvent → List BackendsEvent
  | _, _, [] => []
  | backends, twin, event :: rest =>
      let next := (backends.step event).getD backends
      if event.writesFor txn then without txn xid next twin rest
      else
        let event' := backends.twinEvent xid twin event
        event' :: without txn xid next ((twin.step event').getD twin) rest

/-- The transaction does not commit, it stamps and truncates no rows but those that it
inserted, and no other one has an xid that is stored like its own. -/
def OwnRowsOnly (txn : TxnId) (xid : TransactionId) (backends : Backends) : BackendsEvent → Prop
  | .assign owner => owner = txn ↔ storedXid backends.history.nextXid = xid
  | .tupleDelete writer _ rowid | .tupleUpdate writer _ rowid _ =>
      writer = txn → ∀ row ∈ (backends.view writer).table.rows, Table.isLive rowid row = true →
        row.insertedBy xid = true
  | .reset writer =>
      writer = txn → ∀ row ∈ (backends.view writer).table.rows, row.insertedBy xid = true
  | .commit committer => committer ≠ txn
  | _ => True

instance (event : BackendsEvent) : Decidable (backends.OwnRowsOnly txn xid event) := by
  cases event <;> unfold OwnRowsOnly <;> infer_instance

/-- Two scans that have returned the same, if not to the transaction itself. -/
structure ScanTwins (txn : TxnId) (xid : TransactionId) (scan twin : Scan) : Prop where
  id : twin.id = scan.id
  snap : twin.snap = scan.snap
  cursor : scan.snap.owner ≠ txn → CursorTwins xid scan.cursor twin.cursor
  returned : scan.snap.owner ≠ txn →
    scan.returned.map StoredRow.unplaced = twin.returned.map StoredRow.unplaced
  finished : scan.snap.owner ≠ txn → twin.finished = scan.finished

/-- The write lock has the same holder, or is held by the transaction only where it
writes. -/
inductive WriterTwins (txn : TxnId) (xid : TransactionId) (twinFile : Relation) :
    Option (TxnId × Relation) → Option (TxnId × Relation) → Prop where
  | free : WriterTwins txn xid twinFile none none
  | both {holder : TxnId} {work twinWork : Relation} (residue : Residue xid work.table twinWork.table) :
      WriterTwins txn xid twinFile (some (holder, work)) (some (holder, twinWork))
  | own {work : Relation} (residue : Residue xid work.table twinFile.table) :
      WriterTwins txn xid twinFile (some (txn, work)) none

/-- Which transaction the xid stands for, as long as it does not commit. -/
structure Uncommitted (txn : TxnId) (xid : TransactionId) (history : History) : Prop where
  stored : ∀ assigned ∈ history.assigned, assigned.stored = xid ↔ assigned.owner = txn
  status : history.status txn ≠ .committed

/-- The twin has gone through the same without the transaction's writes. -/
structure Twins (txn : TxnId) (xid : TransactionId) (backends twin : Backends) : Prop where
  history : twin.history = backends.history
  xact : twin.xact = backends.xact
  snaps : twin.snaps = backends.snaps
  uncommitted : Uncommitted txn xid backends.history
  file : Residue xid backends.file.table twin.file.table
  writer : WriterTwins txn xid twin.file backends.writer twin.writer
  scans : List.Forall₂ (ScanTwins txn xid) backends.scans twin.scans

/-! ## Visibility -/

namespace Uncommitted

variable {history : History}

theorem of_named (uncommitted : Uncommitted txn xid history) {assigned : AssignedXid}
    (named : history.named xid = some assigned) : assigned.owner = txn := by
  have stored := List.find?_some named
  simp only [Bool.and_eq_true, decide_eq_true_eq] at stored
  exact (uncommitted.stored assigned (List.mem_of_find?_eq_some named)).mp stored.1

theorem not_current (uncommitted : Uncommitted txn xid history) {reader : TxnId}
    (other : reader ≠ txn ∨ history.status txn ≠ .running) :
    (history.xacts reader).isCurrent xid = false := by
  unfold History.xacts
  dsimp only
  split
  · rfl
  · next assigned named =>
      have owner := uncommitted.of_named named
      rw [owner]
      rcases other with other | ended
      · simp [other.symm]
      · by_cases same : txn = reader
        · simp [← same, ended]
        · simp [same]

theorem not_inProgress (uncommitted : Uncommitted txn xid history)
    (ended : history.status txn ≠ .running) (reader : TxnId) :
    (history.xacts reader).isInProgress xid = false := by
  unfold History.xacts
  dsimp only
  split
  · rfl
  · next assigned named =>
      rw [uncommitted.of_named named]
      simpa using ended

theorem not_didCommit (uncommitted : Uncommitted txn xid history) (normal : isNormal xid = true)
    (reader : TxnId) : Visibility.didCommit (history.xacts reader) xid = false := by
  have permanent : History.isPermanent xid = false := by
    simp only [isNormal, decide_eq_true_eq] at normal
    simp only [History.isPermanent, Bool.or_eq_false_iff, decide_eq_false_iff_not]
    constructor <;> rintro rfl <;> exact absurd normal (by decide)
  unfold Visibility.didCommit History.xacts
  dsimp only
  rw [permanent, Bool.false_or]
  split
  · rfl
  · split
    · rfl
    · next assigned named =>
        rw [uncommitted.of_named named]
        simpa using uncommitted.status

theorem unseen_mvcc (uncommitted : Uncommitted txn xid history) (normal : isNormal xid = true)
    {reader : TxnId} (other : reader ≠ txn ∨ history.status txn ≠ .running) {row : StoredRow}
    (mine : row.insertedBy xid = true) (snapshot : Snapshot) :
    Visibility.visibleMvcc (history.xacts reader) row.toStoredHeader snapshot = false := by
  obtain rfl : row.xmin = xid := by simpa [StoredRow.insertedBy] using mine
  have view : Visibility.xidView (history.xacts reader) row.xmin snapshot = .notVisible := by
    simp [Visibility.xidView, uncommitted.not_current other, uncommitted.not_didCommit normal]
  simp [Visibility.visibleMvcc, view]

theorem unseen (uncommitted : Uncommitted txn xid history) (normal : isNormal xid = true)
    (ended : history.status txn ≠ .running) (reader : TxnId) {row : StoredRow}
    (mine : row.insertedBy xid = true) {snapshot : Snapshot} (notAny : snapshot.snapshotType ≠ .any)
    (notNonVacuumable : snapshot.snapshotType ≠ .nonVacuumable) :
    (Visibility.rowVisible (history.xacts reader) row.toStoredHeader snapshot).1 = false := by
  have own : row.xmin = xid := by simpa [StoredRow.insertedBy] using mine
  have current := @not_current _ _ _ uncommitted reader (.inr ended)
  have committed := uncommitted.not_didCommit normal reader
  have mvcc := @unseen_mvcc _ _ _ uncommitted normal reader (.inr ended) row mine snapshot
  cases type : snapshot.snapshotType with
  | any => exact absurd type notAny
  | nonVacuumable => exact absurd type notNonVacuumable
  | self => simp [Visibility.rowVisible, type, Visibility.visibleSelf, own, current, committed]
  | dirty =>
      simp [Visibility.rowVisible, type, Visibility.visibleDirty, own, current, committed,
        uncommitted.not_inProgress ended]
  | mvcc | historicMvcc | toast => simpa [Visibility.rowVisible, type] using mvcc

theorem setStatus (uncommitted : Uncommitted txn xid history) {owner : TxnId} {status : XactStatus}
    (kept : owner = txn → status ≠ .committed) :
    Uncommitted txn xid (history.setStatus owner status) where
  stored := uncommitted.stored
  status := by
    by_cases same : txn = owner
    · rw [same, History.setStatus_self]
      exact kept same.symm
    · rw [History.setStatus_of_ne same]
      exact uncommitted.status

theorem finish (uncommitted : Uncommitted txn xid history) {owner : TxnId} {status : XactStatus}
    (kept : owner = txn → status ≠ .committed) : Uncommitted txn xid (history.finish owner status) :=
  ⟨uncommitted.stored, (uncommitted.setStatus kept).status⟩

theorem assignXid (uncommitted : Uncommitted txn xid history) {owner : TxnId}
    (own : owner = txn ↔ storedXid history.nextXid = xid) :
    Uncommitted txn xid (history.assignXid owner false) where
  stored assigned member := by
    rcases List.mem_append.mp member with old | new
    · exact uncommitted.stored assigned old
    · rw [List.mem_singleton.mp new]
      exact own.symm
  status := uncommitted.status

theorem topXid (uncommitted : Uncommitted txn xid history) {owner : TxnId} {top : Nat}
    (assigned : history.topXid owner = some top) : storedXid top = xid ↔ owner = txn :=
  uncommitted.stored _ (History.mem_assigned_of_topXid assigned)

end Uncommitted

theorem rowVisible_unplaced (xacts : Xacts) (snapshot : Snapshot) (row : StoredRow) :
    (Visibility.rowVisible xacts row.toStoredHeader snapshot).1 =
      (Visibility.rowVisible xacts row.unplaced.toStoredHeader snapshot).1 := rfl

/-! ## Scanning -/

namespace ScanTwins

variable {scan twinScan : Scan}

theorem scanRescan (twins : ScanTwins txn xid scan twinScan) :
    ScanTwins txn xid { scan with cursor := scan.cursor.scanRescan, returned := [], finished := false }
      { twinScan with
        cursor := twinScan.cursor.scanRescan, returned := [], finished := false } where
  id := twins.id
  snap := twins.snap
  cursor other := (twins.cursor other).scanRescan
  returned _ := rfl
  finished _ := rfl

theorem getnext (twins : ScanTwins txn xid scan twinScan) (history : twin.history = backends.history)
    (uncommitted : Uncommitted txn xid backends.history) (normal : isNormal xid = true)
    (view : Residue xid (backends.view scan.snap.owner).table (twin.view scan.snap.owner).table) :
    ScanTwins txn xid (backends.getnext scan) (twin.getnext twinScan) := by
  have visible : twin.rowVisible scan.snap = backends.rowVisible scan.snap := by
    funext row
    rw [rowVisible, rowVisible, history]
  have both (other : scan.snap.owner ≠ txn) :=
    @CursorTwins.doScanGetnext _ _ _ _ _ (twins.cursor other) view (backends.rowVisible scan.snap)
      (rowVisible_unplaced _ _)
      fun _ mine => uncommitted.unseen_mvcc normal (.inl other) mine scan.snap.snapshot
  unfold Backends.getnext
  rw [twins.snap, visible]
  generalize backends.view scan.snap.owner = rel at both ⊢
  generalize twin.view scan.snap.owner = twinRel at both ⊢
  cases next : scan.cursor.doScanGetnext (backends.rowVisible scan.snap) rel.table with
  | mk found after =>
      cases twinNext : twinScan.cursor.doScanGetnext (backends.rowVisible scan.snap) twinRel.table with
      | mk twinFound twinAfter =>
          rw [next, twinNext] at both
          refine ⟨twins.id, rfl, fun other => (both other).2, fun other => ?_, fun other => ?_⟩
          · have first : found.toList.map StoredRow.unplaced = twinFound.toList.map StoredRow.unplaced := by
              rw [← Option.toList_map, ← Option.toList_map, (both other).1]
            rw [List.map_append, List.map_append, twins.returned other, first]
          · have ended := congrArg Option.isNone (both other).1
            simpa using ended.symm

end ScanTwins

/-! ## Writing -/

/-- Who may take the lock may take it in the twin, and giving it up frees both. -/
theorem WriterTwins.release {twinFile twinFile' : Relation}
    (writers : WriterTwins txn xid twinFile backends.writer twin.writer) (owner : TxnId)
    (kept : twin.writer = none → twinFile' = twinFile) :
    WriterTwins txn xid twinFile' (if backends.mayWrite owner then none else backends.writer)
      (if twin.mayWrite owner then none else twin.writer) := by
  unfold mayWrite
  generalize backends.writer = held at writers ⊢
  generalize twin.writer = twinHeld at writers kept ⊢
  cases writers with
  | free => exact .free
  | @both holder _ _ residue =>
      by_cases same : holder = owner
      · simpa [same] using .free
      · simpa [same] using .both residue
  | own residue =>
      by_cases same : txn = owner
      · simpa [same] using .free
      · simpa [same, kept rfl] using .own residue

/-- While the transaction may write, nobody else holds the lock in the twin. -/
theorem WriterTwins.held {twinFile : Relation}
    (writers : WriterTwins txn xid twinFile backends.writer twin.writer)
    (may : backends.mayWrite txn = true) :
    twin.writer = none ∨ ∃ work, twin.writer = some (txn, work) := by
  unfold mayWrite at may
  generalize backends.writer = held at writers may
  generalize twin.writer = twinHeld at writers ⊢
  cases writers with
  | free | own => exact .inl rfl
  | both =>
      obtain rfl : _ = txn := by simpa using may
      exact .inr ⟨_, rfl⟩

namespace Twins

theorem view (twins : Twins txn xid backends twin) (owner : TxnId) :
    Residue xid (backends.view owner).table (twin.view owner).table := by
  have writers := twins.writer
  have file := twins.file
  unfold Backends.view
  generalize backends.writer = held at writers ⊢
  generalize twin.writer = twinHeld at writers ⊢
  cases writers with
  | free => exact file
  | @both holder _ _ residue =>
      by_cases same : holder = owner
      · simpa [same] using residue
      · simpa [same] using file
  | own residue =>
      by_cases same : txn = owner
      · simpa [same] using residue
      · simpa [same] using file

theorem active_eq (twins : Twins txn xid backends twin) (owner : TxnId) :
    twin.active owner = backends.active owner := by
  rw [active, active, twins.history, twins.xact]

theorem mayWrite (twins : Twins txn xid backends twin) {owner : TxnId}
    (may : backends.mayWrite owner = true) : twin.mayWrite owner = true := by
  have writers := twins.writer
  unfold Backends.mayWrite at may ⊢
  generalize backends.writer = held at writers may
  generalize twin.writer = twinHeld at writers ⊢
  cases writers with
  | free | own => rfl
  | both => exact may

theorem write_both (twins : Twins txn xid backends twin) {owner : TxnId}
    {change change' : Relation → Relation} (stepped : backends.write owner change = some next)
    (kept : Residue xid (change (backends.view owner)).table (change' (twin.view owner)).table) :
    ∃ next', twin.write owner change' = some next' ∧ Twins txn xid next next' := by
  obtain ⟨active, mayWrite, rfl⟩ := active_of_write stepped
  refine ⟨_, if_pos ?_, { twins with writer := .both kept }⟩
  rw [twins.active_eq, active, twins.mayWrite mayWrite]
  rfl

theorem write_own (twins : Twins txn xid backends twin) (mayWrite : backends.mayWrite txn = true)
    {rel : Relation} (kept : ∀ table, Residue xid (backends.view txn).table table →
      Residue xid rel.table table) :
    Twins txn xid { backends with writer := some (txn, rel) } twin := by
  have changed := kept _ (twins.view txn)
  refine { twins with writer := ?_ }
  rcases twins.writer.held mayWrite with free | ⟨twinWork, held⟩
  · rw [show twin.view txn = twin.file by simp [Backends.view, free]] at changed
    rw [free]
    exact .own changed
  · rw [show twin.view txn = twinWork by simp [Backends.view, held]] at changed
    rw [held]
    exact .both changed

theorem writeAs_both (twins : Twins txn xid backends twin) {owner : TxnId} (other : owner ≠ txn)
    {change change' : Writer → Nat → Relation → Relation}
    (stepped : backends.writeAs owner change = some next)
    (kept : ∀ writer cid, storedXid writer.xid ≠ xid →
      Residue xid (change writer cid (backends.view owner)).table
        (change' writer cid (twin.view owner)).table) :
    ∃ next', twin.writeAs owner change' = some next' ∧ Twins txn xid next next' := by
  unfold writeAs at stepped ⊢
  rw [twins.history, twins.xact]
  cases assigned : backends.history.topXid owner with
  | none =>
      rw [assigned] at stepped
      cases stepped
  | some top =>
      rw [assigned] at stepped
      exact twins.write_both stepped
        (kept _ _ fun stored => other ((twins.uncommitted.topXid assigned).mp stored))

theorem step_own (twins : Twins txn xid backends twin) {event : BackendsEvent}
    (writes : event.writesFor txn = true) (own : backends.OwnRowsOnly txn xid event)
    (stepped : backends.step event = some next) : Twins txn xid next twin := by
  have stamps {writer : Writer} (author : backends.Author writer) (same : writer.txn = txn) :
      storedXid writer.xid = xid := (twins.uncommitted.topXid author.top).mpr same
  cases does_of_step stepped with
  | @doTupleInsert writer author tuple =>
      obtain rfl : writer.txn = txn := by simpa [BackendsEvent.writesFor] using writes
      obtain rfl := stamps author rfl
      exact twins.write_own author.mayWrite fun table residue => residue.insertRow_own _ tuple
  | insertsNothing => exact twins
  | @multiInsert writer tuples author _ =>
      obtain rfl : writer.txn = txn := by simpa [BackendsEvent.writesFor] using writes
      refine twins.write_own author.mayWrite fun table residue => ?_
      rw [Relation.multiInsert_table, stamps author rfl]
      exact residue.insertBatch_own _ _
  | @tupleDelete writer author snap rowid =>
      obtain rfl : writer.txn = txn := by simpa [BackendsEvent.writesFor] using writes
      refine twins.write_own author.mayWrite fun table residue => ?_
      rw [Relation.tupleDelete_table]
      exact residue.stampRow_own _ _ (own rfl)
  | @tupleUpdate writer author snap rowid tuple =>
      obtain rfl : writer.txn = txn := by simpa [BackendsEvent.writesFor] using writes
      obtain rfl := stamps author rfl
      exact twins.write_own author.mayWrite fun table residue =>
        (residue.stampRow_own _ _ (own rfl)).insertRow_own _ tuple
  | @reset writer active mayWrite =>
      obtain rfl : writer = txn := by simpa [BackendsEvent.writesFor] using writes
      exact twins.write_own mayWrite fun table residue => residue.reset_own (own rfl)
  | _ => cases writes

theorem snap_eq (twins : Twins txn xid backends twin) (owner : TxnId) (id : Nat) :
    twin.snap owner id = backends.snap owner id := by
  unfold snap
  rw [twins.history, twins.xact, twins.snaps]

theorem endXact (twins : Twins txn xid backends twin) (owner : TxnId) {history : History}
    (uncommitted : Uncommitted txn xid history) :
    Twins txn xid (backends.endXact owner history) (twin.endXact owner history) where
  history := rfl
  xact := twins.xact
  snaps := by simp only [Backends.endXact, twins.snaps]
  uncommitted := uncommitted
  file := twins.file
  writer := twins.writer
  scans := List.rel_filter (fun _ _ related => by simp [related.snap]) twins.scans

theorem mapScan (twins : Twins txn xid backends twin) (id : Nat) {change change' : Scan → Scan}
    (kept : ∀ scan twinScan, ScanTwins txn xid scan twinScan →
      ScanTwins txn xid (change scan) (change' twinScan)) :
    Twins txn xid (backends.mapScan id change) (twin.mapScan id change') := by
  refine { twins with scans := ?_ }
  refine List.forall₂_map_left_iff.mpr (List.forall₂_map_right_iff.mpr ?_)
  refine twins.scans.imp fun scan twinScan related => ?_
  rw [related.id]
  split
  · exact kept scan twinScan related
  · exact related

theorem step_others (twins : Twins txn xid backends twin) {event : BackendsEvent}
    {owner : TxnId} (other : owner ≠ txn) (writes : event.writesFor owner = true)
    (stepped : backends.step event = some next) :
    ∃ next', twin.step (backends.twinEvent xid twin event) = some next' ∧
      Twins txn xid next next' := by
  have view := twins.view owner
  cases event with
  | doTupleInsert writer tuple =>
      obtain rfl : writer = owner := by simpa [BackendsEvent.writesFor] using writes
      dsimp only [Backends.step, twinEvent] at stepped ⊢
      exact twins.writeAs_both other stepped fun _ cid foreign => view.insertRow_both foreign _ _
  | multiInsert writer tuples =>
      obtain rfl : writer = owner := by simpa [BackendsEvent.writesFor] using writes
      dsimp only [Backends.step, twinEvent] at stepped ⊢
      split at stepped
      · next empty =>
          obtain ⟨active, same⟩ := Option.ite_none_right_eq_some.mp stepped
          rw [if_pos empty, twins.active_eq, if_pos active]
          exact ⟨twin, rfl, Option.some.inj same ▸ twins⟩
      · next some =>
          rw [if_neg some]
          refine twins.writeAs_both other stepped fun author cid foreign => ?_
          rw [Relation.multiInsert_table, Relation.multiInsert_table]
          exact view.insertBatch_both foreign _ _
  | tupleDelete writer snap rowid =>
      obtain rfl : writer = owner := by simpa [BackendsEvent.writesFor] using writes
      dsimp only [Backends.step, twinEvent] at stepped ⊢
      refine twins.writeAs_both other stepped fun author cid foreign => ?_
      rw [Relation.tupleDelete_table, Relation.tupleDelete_table]
      exact view.stampRow_both _ _ _
  | tupleUpdate writer snap rowid tuple =>
      obtain rfl : writer = owner := by simpa [BackendsEvent.writesFor] using writes
      dsimp only [Backends.step, twinEvent] at stepped ⊢
      exact twins.writeAs_both other stepped fun author cid foreign =>
        (view.stampRow_both _ _ _).insertRow_both foreign _ _
  | reset writer =>
      obtain rfl : writer = owner := by simpa [BackendsEvent.writesFor] using writes
      exact twins.write_both stepped view.reset_both
  | _ => cases writes

theorem step_neutral (twins : Twins txn xid backends twin) (normal : isNormal xid = true)
    {event : BackendsEvent} (neutral : ∀ owner, event.writesFor owner = false)
    (own : backends.OwnRowsOnly txn xid event) (stepped : backends.step event = some next) :
    ∃ next', twin.step event = some next' ∧ Twins txn xid next next' := by
  cases event with
  | begin owner repeatableRead =>
      obtain ⟨history, begun, rfl⟩ := Option.map_eq_some_iff.mp stepped
      have started := Option.some.inj (Option.ite_none_right_eq_some.mp begun).2
      refine ⟨_, Option.map_eq_some_iff.mpr ⟨_, twins.history ▸ begun, rfl⟩, ?_⟩
      exact { twins with
        history := rfl
        xact := by simp only [setXact, twins.xact]
        uncommitted := started ▸ twins.uncommitted.setStatus fun _ => by decide }
  | assign owner =>
      obtain ⟨history, assigned, rfl⟩ := Option.map_eq_some_iff.mp stepped
      have given := Option.some.inj (Option.ite_none_right_eq_some.mp assigned).2
      refine ⟨_, Option.map_eq_some_iff.mpr ⟨_, twins.history ▸ assigned, rfl⟩, ?_⟩
      exact { twins with history := rfl, uncommitted := given ▸ twins.uncommitted.assignXid own }
  | commandCounterIncrement owner =>
      obtain ⟨may, same⟩ := Option.ite_none_right_eq_some.mp stepped
      obtain rfl := Option.some.inj same
      rw [← twins.active_eq, ← twins.xact] at may
      exact ⟨_, if_pos may, { twins with xact := by simp only [setXact, twins.xact] }⟩
  | takeSnapshot owner id =>
      obtain ⟨active, same⟩ := Option.ite_none_right_eq_some.mp stepped
      obtain rfl := Option.some.inj same
      rw [← twins.active_eq] at active
      exact ⟨_, if_pos active, { twins with snaps := by rw [twins.snaps, twins.snap_eq] }⟩
  | releaseSnapshot id =>
      obtain ⟨may, same⟩ := Option.ite_none_right_eq_some.mp stepped
      obtain rfl := Option.some.inj same
      rw [← twins.snaps] at may
      refine ⟨_, if_pos may, { twins with snaps := by rw [twins.snaps], scans := ?_ }⟩
      exact List.rel_filter (fun _ _ related => by simp [related.snap]) twins.scans
  | relationVacuum owner oldest =>
      have view := twins.view owner
      dsimp only [Backends.step] at stepped ⊢
      rw [← view.lastVacuumXmin_eq]
      split at stepped
      · next skipped =>
          obtain ⟨active, same⟩ := Option.ite_none_right_eq_some.mp stepped
          rw [if_pos skipped, twins.active_eq, if_pos active]
          exact ⟨twin, rfl, Option.some.inj same ▸ twins⟩
      · next runs =>
          rw [if_neg runs]
          exact twins.write_both stepped (view.relationVacuum_both _)
  | preCommit owner =>
      obtain ⟨active, same⟩ := Option.ite_none_right_eq_some.mp stepped
      obtain rfl := Option.some.inj same
      rw [← twins.active_eq] at active
      refine ⟨_, if_pos active, { twins with
        xact := by simp only [setXact, twins.xact]
        file := twins.view owner
        writer := twins.writer.release owner fun free => ?_ }⟩
      simp [Backends.view, free]
  | commit owner =>
      obtain ⟨ready, ended⟩ := Option.ite_none_right_eq_some.mp stepped
      obtain ⟨history, committed, rfl⟩ := Option.map_eq_some_iff.mp ended
      have finished := Option.some.inj (Option.ite_none_right_eq_some.mp committed).2
      rw [← twins.xact] at ready
      rw [← twins.history] at committed
      refine ⟨_, (if_pos ready).trans (Option.map_eq_some_iff.mpr ⟨_, committed, rfl⟩), ?_⟩
      exact twins.endXact owner (finished ▸ twins.uncommitted.finish fun same => absurd same own)
  | abort owner =>
      obtain ⟨history, aborted, rfl⟩ := Option.map_eq_some_iff.mp stepped
      have finished := Option.some.inj (Option.ite_none_right_eq_some.mp aborted).2
      refine ⟨_, Option.map_eq_some_iff.mpr ⟨_, twins.history ▸ aborted, rfl⟩, ?_⟩
      have ended := twins.endXact owner (finished ▸ twins.uncommitted.finish fun _ => by decide)
      exact { ended with writer := twins.writer.release owner fun _ => rfl }
  | scanBegin id snapId =>
      obtain ⟨snap, found, rfl⟩ := Option.map_eq_some_iff.mp stepped
      rw [← twins.snaps] at found
      refine ⟨_, Option.map_eq_some_iff.mpr ⟨_, found, rfl⟩, { twins with scans := ?_ }⟩
      refine List.rel_append twins.scans (.cons ?_ .nil)
      exact ⟨rfl, rfl, fun _ => CursorTwins.alloc xid, fun _ => rfl, fun _ => rfl⟩
  | scanGetnext id =>
      obtain rfl := Option.some.inj stepped
      refine ⟨_, rfl, twins.mapScan id fun scan twinScan related => ?_⟩
      exact related.getnext twins.history twins.uncommitted normal (twins.view scan.snap.owner)
  | scanRescan id =>
      obtain rfl := Option.some.inj stepped
      exact ⟨_, rfl, twins.mapScan id fun scan twinScan related => related.scanRescan⟩
  | doTupleInsert owner | multiInsert owner | tupleDelete owner | tupleUpdate owner | reset owner =>
      simp [BackendsEvent.writesFor] at neutral

theorem twinEvent_neutral {event : BackendsEvent} (neutral : ∀ owner, event.writesFor owner = false) :
    backends.twinEvent xid twin event = event := by
  cases event with
  | tupleDelete owner | tupleUpdate owner => simp [BackendsEvent.writesFor] at neutral
  | _ => rfl

theorem step (twins : Twins txn xid backends twin) (normal : isNormal xid = true)
    {event : BackendsEvent} (writes : event.writesFor txn = false)
    (own : backends.OwnRowsOnly txn xid event) (stepped : backends.step event = some next) :
    ∃ next', twin.step (backends.twinEvent xid twin event) = some next' ∧
      Twins txn xid next next' := by
  by_cases neutral : ∀ owner, event.writesFor owner = false
  · rw [twinEvent_neutral neutral]
    exact twins.step_neutral normal neutral own stepped
  · simp only [not_forall, Bool.not_eq_false] at neutral
    obtain ⟨owner, written⟩ := neutral
    refine twins.step_others (fun same => ?_) written stepped
    rw [same, writes] at written
    cases written

theorem run {events : List BackendsEvent} (twins : Twins txn xid backends twin)
    (normal : isNormal xid = true) (reached : Backends.run backends events = some next)
    (own : Transition.Meets Backends.step (OwnRowsOnly txn xid) backends events) :
    ∃ next', Backends.run twin (without txn xid backends twin events) = some next' ∧
      Twins txn xid next next' := by
  induction events generalizing backends twin with
  | nil =>
      cases reached
      exact ⟨twin, rfl, twins⟩
  | cons event rest ih =>
      obtain ⟨middle, stepped, reached⟩ := Transition.run_cons_iff.mp reached
      have later := own.2 middle stepped
      cases writes : event.writesFor txn with
      | true =>
          obtain ⟨next', ran, ended⟩ :=
            ih (twins.step_own writes own.1 stepped) reached later
          refine ⟨next', ?_, ended⟩
          simpa [without, writes, stepped] using ran
      | false =>
          obtain ⟨middle', stepped', twins'⟩ := twins.step normal writes own.1 stepped
          obtain ⟨next', ran, ended⟩ := ih twins' reached later
          refine ⟨next', ?_, ended⟩
          simp only [without, writes, stepped, stepped', Option.getD_some, Bool.false_eq_true, ↓reduceIte]
          exact Transition.run_cons_iff.mpr ⟨middle', stepped', ran⟩

theorem start (txn : TxnId) (xid : TransactionId) : Twins txn xid Backends.start Backends.start where
  history := rfl
  xact := rfl
  snaps := rfl
  uncommitted := ⟨fun _ member => (nomatch member), by simp [Backends.start, History.start]⟩
  file := Residue.of_empty xid
  writer := .free
  scans := .nil

end Twins

/-! ## Self-healing -/

/-- The row that a delete or update would stamp is not one that the xid inserted. -/
def SparesRowsOf (xid : TransactionId) (backends : Backends) : BackendsEvent → Prop
  | .tupleDelete writer _ rowid | .tupleUpdate writer _ rowid _ =>
      ∀ row ∈ (backends.view writer).table.rows, Table.isLive rowid row = true →
        row.insertedBy xid = false
  | _ => True

/-- Other transactions cannot tell the two states apart, apart from where rows are
stored. -/
structure Indistinguishable (txn : TxnId) (xid : TransactionId) (backends twin : Backends) : Prop where
  history : twin.history = backends.history
  snaps : twin.snaps = backends.snaps
  scans : List.Forall₂ (fun scan twinScan => twinScan.id = scan.id ∧ twinScan.snap = scan.snap ∧
    (scan.snap.owner ≠ txn → twinScan.finished = scan.finished ∧
      twinScan.returned.map StoredRow.unplaced = scan.returned.map StoredRow.unplaced))
    backends.scans twin.scans
  fullScan : ∀ snap : Snap, snap.owner ≠ txn →
    (twin.fullScan snap).map StoredRow.unplaced = (backends.fullScan snap).map StoredRow.unplaced
  /-- Once the transaction has ended, any backend and any snapshot for live rows. -/
  anySnapshot : backends.history.status txn ≠ .running → ∀ reader snapshot,
    snapshot.snapshotType ≠ .any → snapshot.snapshotType ≠ .nonVacuumable →
      let visible row := (Visibility.rowVisible (backends.history.xacts reader) row snapshot).1
      (SqliteHeap.fullScan visible (twin.view reader).table).map StoredRow.unplaced =
        (SqliteHeap.fullScan visible (backends.view reader).table).map StoredRow.unplaced
  /-- No other transaction learns the TID of a row that the transaction inserted. -/
  unseen : ∀ snap : Snap, snap.owner ≠ txn → ∀ row : StoredRow,
    backends.rowVisible snap row.toStoredHeader = true → row.insertedBy xid = false
  tmResult : ∀ event, event.writesFor txn = false → backends.SparesRowsOf xid event →
    twin.tmResult (backends.twinEvent xid twin event) = backends.tmResult event

theorem Relation.tupleDelete_result (writer : Writer) (cid : Nat) (rowid : Int) (rel : Relation) :
    (rel.tupleDelete writer cid rowid).2 =
      if rel.table.rows.countP (Table.isLive rowid) = 0 then .deleted else .ok := by
  unfold Relation.tupleDelete Table.setXmax
  dsimp only
  split <;> rfl

namespace Twins

theorem tmResult_eq (twins : Twins txn xid backends twin) {event : BackendsEvent}
    (spares : backends.SparesRowsOf xid event) :
    twin.tmResult (backends.twinEvent xid twin event) = backends.tmResult event := by
  cases event with
  | tupleDelete writer snap rowid =>
      have affected := (twins.view writer).affected_eq spares
      simp only [twinEvent, tmResult, Relation.tupleDelete_result, twins.history, twinRowid, affected]
  | tupleUpdate writer snap rowid tuple => simp only [twinEvent, tmResult, twins.history]; rfl
  | _ => rfl

theorem indistinguishable (twins : Twins txn xid backends twin) (normal : isNormal xid = true) :
    Indistinguishable txn xid backends twin where
  history := twins.history
  snaps := twins.snaps
  scans := twins.scans.imp fun _ _ related =>
    ⟨related.id, related.snap, fun other => ⟨related.finished other, (related.returned other).symm⟩⟩
  fullScan snap other := by
    have same : twin.rowVisible snap = backends.rowVisible snap := by
      funext row
      rw [rowVisible, rowVisible, twins.history]
    rw [Backends.fullScan, Backends.fullScan, fullScan_eq, fullScan_eq, same]
    exact (Residue.filter_visible (rowVisible_unplaced _ _)
      (fun _ mine => twins.uncommitted.unseen_mvcc normal (.inl other) mine snap.snapshot)
      (twins.view snap.owner).rows).symm
  anySnapshot ended reader snapshot notAny notNonVacuumable := by
    dsimp only
    rw [fullScan_eq, fullScan_eq]
    let visible row := (Visibility.rowVisible (backends.history.xacts reader) row snapshot).1
    exact (@Residue.filter_visible _ visible (rowVisible_unplaced _ _)
      (fun _ mine => twins.uncommitted.unseen normal ended reader mine notAny notNonVacuumable)
      _ _ (twins.view reader).rows).symm
  unseen snap other row visible := by
    by_contra mine
    have hidden := twins.uncommitted.unseen_mvcc normal (.inl other) (by simpa using mine) snap.snapshot
    exact absurd (visible.symm.trans hidden) (by decide)
  tmResult _ _ spares := twins.tmResult_eq spares

end Twins

/-- In every run in which a transaction stamps and truncates no rows but its own and
does not commit, whether or not its SQLite transaction committed, other transactions
cannot tell the run from the one in which it writes nothing. -/
theorem ownRows_selfHeal {txn : TxnId} {xid : TransactionId} (normal : isNormal xid = true)
    {events : List BackendsEvent} {backends : Backends}
    (reached : Backends.run Backends.start events = some backends)
    (own : Transition.Meets Backends.step (OwnRowsOnly txn xid) Backends.start events) :
    ∃ twin, Backends.run Backends.start (without txn xid Backends.start Backends.start events) =
      some twin ∧ Indistinguishable txn xid backends twin := by
  obtain ⟨twin, ran, twins⟩ := (Twins.start txn xid).run normal reached own
  exact ⟨twin, ran, twins.indistinguishable normal⟩

/-- Transaction 2 inserts a row, its SQLite transaction commits, and it aborts. Then
transaction 3 updates a row of transaction 1. -/
def insertThenAbort : List BackendsEvent :=
  [.begin 1 false, .assign 1, .doTupleInsert 1 [10], .preCommit 1, .commit 1,
    .begin 2 false, .assign 2, .doTupleInsert 2 [20], .preCommit 2, .abort 2,
    .begin 3 false, .assign 3, .takeSnapshot 3 0, .tupleUpdate 3 0 1 [11], .preCommit 3, .commit 3]

theorem insertThenAbort_selfHeals :
    ∃ backends twin, Backends.run Backends.start insertThenAbort = some backends ∧
      Backends.run Backends.start (without 2 4#32 Backends.start Backends.start insertThenAbort) =
        some twin ∧
      backends.file.table.rows.length = 3 ∧ twin.file.table.rows.length = 2 ∧
      Indistinguishable 2 4#32 backends twin := by
  obtain ⟨backends, reached, length⟩ : ∃ backends,
      Backends.run Backends.start insertThenAbort = some backends ∧
        backends.file.table.rows.length = 3 := ⟨_, rfl, by decide⟩
  obtain ⟨twin, ran, same⟩ := @ownRows_selfHeal 2 4#32 (by decide) _ _ reached (by decide)
  refine ⟨backends, twin, reached, ran, length, ?_, same⟩
  obtain rfl := Option.some.inj ran
  decide

/-- A row is committed, transaction 2 does this, its SQLite transaction commits and it
aborts, and transaction 3 takes a snapshot. -/
def abortAfter (event : BackendsEvent) : List BackendsEvent :=
  [.begin 1 false, .assign 1, .doTupleInsert 1 [10], .preCommit 1, .commit 1,
    .begin 2 false, .assign 2, .takeSnapshot 2 0, event, .preCommit 2, .abort 2,
    .begin 3 false, .assign 3, .takeSnapshot 3 1]

/-- What the rest of the run returns to transaction 3, with and without the writes of
transaction 2. -/
def resultOf {α : Type} (result : Backends → α) (events : List BackendsEvent) : Option (α × α) :=
  match Backends.run Backends.start events,
      Backends.run Backends.start (without 2 4#32 Backends.start Backends.start events) with
  | some backends, some twin =>
      if backends.history.status 2 = .aborted then some (result backends, result twin) else none
  | _, _ => none

/-- The tuples that the last snapshot sees. -/
def lastScan (backends : Backends) : List Bytes :=
  (backends.snaps.getLast?.map fun snap => (backends.fullScan snap).map StoredRow.tuple).getD []

/-- After an aborted delete that SQLite committed, a delete finds the row deleted and an
update leaves both versions visible; after such a TRUNCATE the row is gone. -/
theorem stamps_and_truncation_remain :
    resultOf (fun backends => backends.tmResult (.tupleDelete 3 1 1)) (abortAfter (.tupleDelete 2 0 1)) =
        some (some .deleted, some .ok) ∧
      resultOf lastScan (abortAfter (.tupleDelete 2 0 1) ++
          [.tupleUpdate 3 1 1 [11], .commandCounterIncrement 3, .takeSnapshot 3 2]) =
        some ([[10], [11]], [[11]]) ∧
      resultOf lastScan (abortAfter (.reset 2)) = some ([], [[10]]) := by
  refine ⟨?_, ?_, ?_⟩ <;> rfl

end Backends

end SqliteHeap
