import SqliteHeap.RelationWrites

/-! The invariant of the backends. The file and the writer's copy of it store the
versions of their logs, every active snapshot sees the commands on a logical row in
order, and every scan has returned part of what its snapshot sees. -/

set_option autoImplicit false

namespace SqliteHeap

open Versions

namespace Backends

/-- A relation as the running transactions and the active snapshots find it. -/
structure Sound (backends : Backends) (rel : Relation) : Prop where
  stores : rel.Stores
  fresh : ∀ op ∈ rel.log, op.key < rel.log.length
  known : ∀ op ∈ rel.log, Known backends.history op
  unaborted : ∀ op ∈ rel.log, backends.history.status op.txn.txn ≠ .aborted
  chain : rel.log.Pairwise fun earlier later => earlier.key = later.key →
    backends.history.status earlier.txn.txn = .committed ∨
      earlier.txn.txn = later.txn.txn ∧ earlier.cid < later.cid
  horizon : rel.watermark ≤ backends.history.xmin
  closed : ∀ snap ∈ backends.snaps, ClosedFor snap.sees rel.log
  reclaimed : ∀ snap ∈ backends.snaps, ∀ op ∈ rel.log, op.txn.xid < rel.watermark →
    snap.sees op = true
  /-- A repeatable-read transaction only builds on what its first snapshot saw. -/
  based : ∀ snap ∈ backends.snaps, (backends.xact snap.owner).repeatableRead = true →
    rel.log.Pairwise fun earlier later => earlier.key = later.key → later.txn.txn = snap.owner →
      earlier.txn.txn = snap.owner ∨ snap.taken.status earlier.txn.txn = .committed

/-- The active snapshots of running transactions. -/
structure Snapshots (backends : Backends) : Prop where
  use : ∀ snap ∈ backends.snaps, History.InUse snap.taken backends.history snap.owner
  curcid : ∀ snap ∈ backends.snaps, snap.curcid ≤ (backends.xact snap.owner).cid
  pinned : ∀ snap ∈ backends.snaps, (backends.xact snap.owner).repeatableRead = true →
    ∃ first ∈ backends.snaps, first.owner = snap.owner ∧ first.pinned = true
  repeatable : ∀ snap ∈ backends.snaps, snap.pinned = true →
    (backends.xact snap.owner).repeatableRead = true
  same : ∀ snap ∈ backends.snaps, ∀ other ∈ backends.snaps, other.owner = snap.owner →
    (backends.xact snap.owner).repeatableRead = true → other.taken = snap.taken

/-- A scan has returned a first part of the rows that its snapshot sees. -/
structure ScanSound (backends : Backends) (scan : Scan) : Prop where
  active : scan.snap ∈ backends.snaps
  unloaded : scan.cursor.rowsLoaded = false →
    scan.cursor = SqliteCursor.alloc ∧ scan.returned = [] ∧ scan.finished = false
  readable : scan.cursor.rowsLoaded = true → Readable backends.history scan.snap scan.source
  rows : scan.cursor.rowsLoaded = true → scan.cursor.rows = scan.source.table.rows
  returned : scan.cursor.rowsLoaded = true →
    scan.returned ++ scan.cursor.remaining (backends.rowVisible scan.snap) =
      scan.source.table.rows.filter fun row => backends.rowVisible scan.snap row.toStoredHeader
  finished : scan.finished = true → scan.cursor.remaining (backends.rowVisible scan.snap) = []
  current : scan.cursor.rowsLoaded = true → scan.source.log.filter scan.snap.sees =
    (backends.view scan.snap.owner).log.filter scan.snap.sees

/-- The writer's copy extends the file by the writer's own commands. -/
structure Holds (backends : Backends) (holder : TxnId) (work : Relation) : Prop where
  sound : backends.Sound work
  active : backends.active holder = true
  extending : ∃ new, work.log = backends.file.log ++ new ∧ ∀ op ∈ new, op.txn.txn = holder

structure Inv (backends : Backends) : Prop where
  postgres : TopLevel backends.history
  cids : ∀ txn, (backends.xact txn).cid < 2 ^ 32
  snapshots : backends.Snapshots
  file : backends.Sound backends.file
  ended : ∀ op ∈ backends.file.log, backends.history.status op.txn.txn = .committed ∨
    backends.history.status op.txn.txn = .running ∧ (backends.xact op.txn.txn).preCommitted = true
  work : ∀ holder work, backends.writer = some (holder, work) → backends.Holds holder work
  scans : ∀ scan ∈ backends.scans, backends.ScanSound scan

variable {backends next : Backends} {rel : Relation} {snap : Snap} {op : Command}

theorem active_iff {txn : TxnId} :
    backends.active txn = true ↔
      backends.history.status txn = .running ∧ (backends.xact txn).preCommitted = false := by
  simp [active]

namespace Snapshots

/-- A snapshot in use does not see what a running transaction does, except the earlier
commands of its own. -/
theorem unseen (snapshots : backends.Snapshots) (member : snap ∈ backends.snaps)
    (running : backends.history.status op.txn.txn = .running)
    (late : op.txn.txn = snap.owner → snap.curcid ≤ op.cid) : snap.sees op = false := by
  have uncommitted : snap.taken.status op.txn.txn ≠ .committed := by
    intro committed
    rw [(snapshots.use snap member).since.committed _ committed] at running
    cases running
  simp only [Snap.sees, uncommitted, decide_false, Bool.false_or, Bool.and_eq_false_iff,
    decide_eq_false_iff_not, Nat.not_lt]
  exact (Classical.em _).symm.imp_right late

end Snapshots

theorem committed_of_sees (snapshots : backends.Snapshots) (member : snap ∈ backends.snaps)
    (seen : snap.sees op = true) (foreign : op.txn.txn ≠ snap.owner) :
    snap.taken.status op.txn.txn = .committed ∧
      backends.history.status op.txn.txn = .committed := by
  have committed : snap.taken.status op.txn.txn = .committed := by
    simpa [Snap.sees, foreign] using seen
  exact ⟨committed, (snapshots.use snap member).since.committed _ committed⟩

/-- One command on a row builds on another: whoever sees it, now or in a later snapshot,
sees the other one too. -/
structure Follows (backends : Backends) (earlier later : Command) : Prop where
  order : backends.history.status earlier.txn.txn = .committed ∨
    earlier.txn.txn = later.txn.txn ∧ earlier.cid ≤ later.cid
  closed : ∀ snap ∈ backends.snaps, snap.sees later = true → snap.sees earlier = true
  based : ∀ snap ∈ backends.snaps, (backends.xact snap.owner).repeatableRead = true →
    later.txn.txn = snap.owner →
      earlier.txn.txn = snap.owner ∨ snap.taken.status earlier.txn.txn = .committed

/-- A command of a running transaction that is being executed, under a snapshot. -/
structure Executes (backends : Backends) (snap : Snap) (op : Command) : Prop where
  member : snap ∈ backends.snaps
  owner : snap.owner = op.txn.txn
  running : backends.history.status op.txn.txn = .running
  cid : op.cid = (backends.xact op.txn.txn).cid

namespace Follows

variable {earlier later : Command}

theorem refl (backends : Backends) (op : Command) : backends.Follows op op :=
  ⟨.inr ⟨rfl, Nat.le_refl _⟩, fun _ _ seen => seen, fun _ _ _ own => .inl own⟩

theorem order_of_sees (snapshots : backends.Snapshots) (executes : backends.Executes snap op)
    (seen : snap.sees earlier = true) :
    backends.history.status earlier.txn.txn = .committed ∨
      earlier.txn.txn = op.txn.txn ∧ earlier.cid < op.cid := by
  by_cases own : earlier.txn.txn = snap.owner
  · by_cases committed : backends.history.status earlier.txn.txn = .committed
    · exact .inl committed
    · refine .inr ⟨own.trans executes.owner, ?_⟩
      by_contra late
      have bound := snapshots.curcid snap executes.member
      have unseen : snap.sees earlier = false :=
        snapshots.unseen executes.member (by rw [own, executes.owner, executes.running]) fun _ => by
          rw [executes.owner, ← executes.cid] at bound
          omega
      rw [seen] at unseen
      cases unseen
  · exact .inl (committed_of_sees snapshots executes.member seen own).2

/-- No snapshot sees what its transaction, or another running one, is about to do. -/
theorem unseen_of_executes (snapshots : backends.Snapshots)
    (running : backends.history.status op.txn.txn = .running)
    (cid : op.cid = (backends.xact op.txn.txn).cid) {other : Snap} (member : other ∈ backends.snaps) :
    other.sees op = false := by
  refine snapshots.unseen member running fun own => ?_
  rw [cid, own]
  exact snapshots.curcid other member

theorem based_of_sees (snapshots : backends.Snapshots) (executes : backends.Executes snap op)
    (seen : snap.sees earlier = true) {other : Snap} (member : other ∈ backends.snaps)
    (isolated : (backends.xact other.owner).repeatableRead = true) (writer : op.txn.txn = other.owner) :
    earlier.txn.txn = other.owner ∨ other.taken.status earlier.txn.txn = .committed := by
  have sameOwner : snap.owner = other.owner := executes.owner.trans writer
  by_cases own : earlier.txn.txn = other.owner
  · exact .inl own
  · have committed := committed_of_sees snapshots executes.member seen (sameOwner ▸ own)
    rw [snapshots.same other member snap executes.member sameOwner isolated] at committed
    exact .inr committed.1

theorem of_sees (snapshots : backends.Snapshots) (executes : backends.Executes snap op)
    (seen : snap.sees earlier = true) : backends.Follows earlier op where
  order := (order_of_sees snapshots executes seen).imp_right fun own => ⟨own.1, own.2.le⟩
  closed other member seenOp := by
    rw [unseen_of_executes snapshots executes.running executes.cid member] at seenOp
    cases seenOp
  based _ member isolated writer := based_of_sees snapshots executes seen member isolated writer

theorem transfer (follows : backends.Follows earlier later)
    (since : backends.history.Since next.history)
    (snaps : ∀ snap ∈ next.snaps, snap ∈ backends.snaps)
    (repeatable : ∀ snap ∈ next.snaps,
      (next.xact snap.owner).repeatableRead = (backends.xact snap.owner).repeatableRead) :
    next.Follows earlier later where
  order := follows.order.imp_left (since.committed _)
  closed snap member := follows.closed snap (snaps snap member)
  based snap member isolated := follows.based snap (snaps snap member) (repeatable snap member ▸ isolated)

end Follows

namespace Sound

theorem readable (sound : backends.Sound rel) (member : snap ∈ backends.snaps) :
    Readable backends.history snap rel :=
  ⟨sound.stores, sound.known, sound.closed snap member, sound.reclaimed snap member⟩

theorem transfer (sound : backends.Sound rel) (postgres : TopLevel backends.history)
    (postgres' : TopLevel next.history) (since : backends.history.Since next.history)
    (unaborted : ∀ op ∈ rel.log, next.history.status op.txn.txn ≠ .aborted)
    (snaps : ∀ snap ∈ next.snaps, snap ∈ backends.snaps)
    (repeatable : ∀ snap ∈ next.snaps,
      (next.xact snap.owner).repeatableRead = (backends.xact snap.owner).repeatableRead) :
    next.Sound rel where
  stores := sound.stores
  fresh := sound.fresh
  known op member := (sound.known op member).since since
  unaborted := unaborted
  chain := sound.chain.imp fun ordered onKey => (ordered onKey).imp_left (since.committed _)
  horizon := Nat.le_trans sound.horizon (postgres.formed.xmin_mono postgres'.formed since)
  closed snap member := sound.closed snap (snaps snap member)
  reclaimed snap member := sound.reclaimed snap (snaps snap member)
  based snap member isolated :=
    sound.based snap (snaps snap member) (repeatable snap member ▸ isolated)

/-- The xid of a running transaction is past every horizon that VACUUM has reached. -/
theorem watermark_le (sound : backends.Sound rel) (known : Known backends.history op)
    (running : backends.history.status op.txn.txn = .running) : rel.watermark ≤ op.txn.xid :=
  Nat.le_trans sound.horizon
    (History.xmin_le (History.mem_running_iff.mpr ⟨known.assigned, running⟩))

/-- A command of a running transaction, whose snapshot sees every earlier command on
the logical row. -/
theorem append (sound : backends.Sound rel) (snapshots : backends.Snapshots)
    (known : Known backends.history op) (running : backends.history.status op.txn.txn = .running)
    (cid : op.cid = (backends.xact op.txn.txn).cid) (key : op.key ≤ rel.log.length)
    (builds : ∀ earlier ∈ rel.log, earlier.key = op.key →
      ∃ snap ∈ backends.snaps, snap.owner = op.txn.txn ∧ snap.sees earlier = true)
    {after : Relation} (log : after.log = rel.log ++ [op]) (stores : after.Stores)
    (watermark : after.watermark = rel.watermark) : backends.Sound after where
  stores := stores
  fresh other member := by
    rw [log] at member ⊢
    rw [List.length_append, List.length_singleton]
    rcases List.mem_append.mp member with old | new
    · exact Nat.lt_succ_of_lt (sound.fresh other old)
    · rw [List.mem_singleton.mp new]
      exact Nat.lt_succ_of_le key
  known other member := by
    rw [log] at member
    rcases List.mem_append.mp member with old | new
    · exact sound.known other old
    · rw [List.mem_singleton.mp new]
      exact known
  unaborted other member := by
    rw [log] at member
    rcases List.mem_append.mp member with old | new
    · exact sound.unaborted other old
    · rw [List.mem_singleton.mp new, running]
      decide
  chain := by
    rw [log, List.pairwise_append]
    refine ⟨sound.chain, List.pairwise_singleton _ _, fun earlier member last only => ?_⟩
    rw [List.mem_singleton.mp only]
    intro onKey
    obtain ⟨snap, inSnaps, owner, seen⟩ := builds earlier member onKey
    exact Follows.order_of_sees snapshots ⟨inSnaps, owner, running, cid⟩ seen
  horizon := watermark ▸ sound.horizon
  closed snap member := by
    rw [log]
    refine closedFor_append_iff.mpr ⟨sound.closed snap member, fun _ _ _ seen => ?_⟩
    rw [Follows.unseen_of_executes snapshots running cid member] at seen
    cases seen
  reclaimed snap member other inLog below := by
    rw [log] at inLog
    rw [watermark] at below
    rcases List.mem_append.mp inLog with old | new
    · exact sound.reclaimed snap member other old below
    · rw [List.mem_singleton.mp new] at below
      exact absurd (sound.watermark_le known running) (Nat.not_le.mpr below)
  based snap member isolated := by
    rw [log, List.pairwise_append]
    refine ⟨sound.based snap member isolated, List.pairwise_singleton _ _,
      fun earlier inLog last only => ?_⟩
    rw [List.mem_singleton.mp only]
    intro onKey writer
    obtain ⟨other, inSnaps, owner, seen⟩ := builds earlier inLog onKey
    exact Follows.based_of_sees snapshots ⟨inSnaps, owner, running, cid⟩ seen member isolated writer

/-- Commands on one logical row build on the earlier ones. -/
theorem follows (sound : backends.Sound rel) :
    rel.log.Pairwise fun earlier later => earlier.key = later.key → backends.Follows earlier later := by
  rw [List.pairwise_iff_forall_sublist]
  intro earlier later both onKey
  have order := List.pairwise_iff_forall_sublist.mp sound.chain both onKey
  exact ⟨order.imp_right fun own => ⟨own.1, own.2.le⟩,
    fun snap member => List.pairwise_iff_forall_sublist.mp (sound.closed snap member) both onKey,
    fun snap member isolated =>
      List.pairwise_iff_forall_sublist.mp (sound.based snap member isolated) both onKey⟩

/-- The snapshot of a delete or update sees every earlier command on the row's logical
row. -/
theorem sees_of_visible (sound : backends.Sound rel) (postgres : TopLevel backends.history)
    (snapshots : backends.Snapshots) (member : snap ∈ backends.snaps) (fits : snap.curcid < 2 ^ 32)
    {row : StoredRow} (inTable : row ∈ rel.table.rows) (live : row.xmax = 0#32)
    (visible : backends.rowVisible snap row.toStoredHeader = true) {earlier : Command}
    (inLog : earlier ∈ rel.log) (onKey : earlier.key = rel.named row.rowid) :
    snap.sees earlier = true := by
  obtain ⟨version, inVersions, same⟩ := sound.stores.version_of_mem inTable
  have small := SmallXids.of_known postgres sound.known
  have liveVersion : version.live = true := by
    rw [← RowImage.xmax_ofVersion_iff small inVersions, same]
    exact live
  have shown := (sound.readable member).rowVisible_eq (snapshots.use snap member) postgres fits
    inVersions
  rw [same] at shown
  have seen : version.visible snap.sees = true := shown.symm.trans visible
  have key : earlier.key = version.creator.key := onKey.trans (congrArg RowImage.key same).symm
  exact sees_of_live (sound.closed snap member) inVersions liveVersion
    (Bool.and_eq_true_iff.mp seen).1 inLog key

end Sound

/-- The transaction runs and its xid is assigned. -/
structure Writes (backends : Backends) (writer : Writer) : Prop where
  assigned : ⟨writer.xid, writer.txn, false⟩ ∈ backends.history.assigned
  running : backends.history.status writer.txn = .running
  cid : (backends.xact writer.txn).cid < 2 ^ 32

/-- A delete or update targets what its snapshot sees. -/
def Targets (backends : Backends) (txn : TxnId) (rowid : Int) (rel : Relation) : Prop :=
  ∃ snap ∈ backends.snaps, snap.owner = txn ∧
    ∃ row ∈ rel.table.rows, row.rowid = rowid ∧ row.xmax = 0#32 ∧
      backends.rowVisible snap row.toStoredHeader = true

namespace Sound

variable {writer : Writer}

theorem doTupleInsert (sound : backends.Sound rel) (snapshots : backends.Snapshots)
    (writes : backends.Writes writer) (tuple : Bytes) :
    backends.Sound (rel.doTupleInsert writer (backends.xact writer.txn).cid tuple) := by
  refine sound.append snapshots ⟨writes.assigned, writes.cid⟩ writes.running rfl (Nat.le_refl _)
    (fun earlier member onKey => ?_) rfl (Relation.stores_doTupleInsert sound.stores sound.fresh _ _ _)
    rfl
  exact absurd onKey (sound.fresh earlier member).ne

theorem multiInsert (sound : backends.Sound rel) (snapshots : backends.Snapshots)
    (writes : backends.Writes writer) (tuples : List Bytes) :
    backends.Sound (rel.multiInsert writer (backends.xact writer.txn).cid tuples) := by
  induction tuples generalizing rel with
  | nil => exact sound
  | cons tuple rest ih => exact ih (sound.doTupleInsert snapshots writes tuple)

theorem builds_of_targets (sound : backends.Sound rel) (postgres : TopLevel backends.history)
    (cids : ∀ txn, (backends.xact txn).cid < 2 ^ 32) (snapshots : backends.Snapshots) {txn : TxnId}
    {rowid : Int} (targets : backends.Targets txn rowid rel) :
    rel.hits rowid = true ∧ (∃ op ∈ rel.log, op.key = rel.named rowid) ∧
      ∀ earlier ∈ rel.log, earlier.key = rel.named rowid →
        ∃ snap ∈ backends.snaps, snap.owner = txn ∧ snap.sees earlier = true := by
  obtain ⟨snap, member, owner, row, inTable, rfl, live, visible⟩ := targets
  have fits : snap.curcid < 2 ^ 32 :=
    Nat.lt_of_le_of_lt (snapshots.curcid snap member) (cids snap.owner)
  obtain ⟨version, inVersions, same⟩ := sound.stores.version_of_mem inTable
  refine ⟨Relation.hits_iff.mpr ⟨row, inTable, rfl, live⟩, ?_, fun earlier inLog onKey => ?_⟩
  · exact ⟨version.creator, (mem_log inVersions).1, congrArg RowImage.key same⟩
  · exact ⟨snap, member, owner,
      sound.sees_of_visible postgres snapshots member fits inTable live visible inLog onKey⟩

theorem tupleDelete (sound : backends.Sound rel) (postgres : TopLevel backends.history)
    (cids : ∀ txn, (backends.xact txn).cid < 2 ^ 32) (snapshots : backends.Snapshots)
    (writes : backends.Writes writer) {rowid : Int} (targets : backends.Targets writer.txn rowid rel) :
    backends.Sound (rel.tupleDelete writer (backends.xact writer.txn).cid rowid).1 ∧
      (rel.tupleDelete writer (backends.xact writer.txn).cid rowid).1.log = rel.log ++
        [⟨writer, (backends.xact writer.txn).cid, rel.named rowid, none⟩] := by
  obtain ⟨hit, ⟨op, inLog, key⟩, builds⟩ := sound.builds_of_targets postgres cids snapshots targets
  have small := SmallXids.of_known postgres sound.known
  have known : Known backends.history
      ⟨writer, (backends.xact writer.txn).cid, rel.named rowid, none⟩ :=
    ⟨writes.assigned, writes.cid⟩
  have above := sound.watermark_le known writes.running
  have stores := Relation.stores_tupleDelete sound.stores small hit above
    (backends.xact writer.txn).cid
  rw [Relation.tupleDelete_eq hit] at stores ⊢
  refine ⟨sound.append snapshots known writes.running rfl ?_ builds rfl stores rfl, rfl⟩
  exact key ▸ (sound.fresh op inLog).le

theorem tupleUpdate (sound : backends.Sound rel) (postgres : TopLevel backends.history)
    (cids : ∀ txn, (backends.xact txn).cid < 2 ^ 32) (snapshots : backends.Snapshots)
    (writes : backends.Writes writer) {rowid : Int} (targets : backends.Targets writer.txn rowid rel)
    (tuple : Bytes) :
    backends.Sound (rel.tupleUpdate writer (backends.xact writer.txn).cid rowid tuple).1 ∧
      (rel.tupleUpdate writer (backends.xact writer.txn).cid rowid tuple).1.log = rel.log ++
        [⟨writer, (backends.xact writer.txn).cid, rel.named rowid, some tuple⟩] := by
  obtain ⟨hit, ⟨op, inLog, key⟩, builds⟩ := sound.builds_of_targets postgres cids snapshots targets
  have small := SmallXids.of_known postgres sound.known
  have known : Known backends.history
      ⟨writer, (backends.xact writer.txn).cid, rel.named rowid, some tuple⟩ :=
    ⟨writes.assigned, writes.cid⟩
  have above := sound.watermark_le known writes.running
  have stores := Relation.stores_tupleUpdate sound.stores small hit above
    (backends.xact writer.txn).cid tuple
  rw [Relation.tupleUpdate_eq hit] at stores ⊢
  refine ⟨sound.append snapshots known writes.running rfl ?_ builds rfl stores rfl, rfl⟩
  exact key ▸ (sound.fresh op inLog).le

/-- VACUUM removes what every active snapshot, and every later one, sees deleted. -/
theorem vacuum (sound : backends.Sound rel) (postgres : TopLevel backends.history)
    (snapshots : backends.Snapshots) {oldest : Nat} (near : oldest < 2 ^ 31)
    (runs : ¬ storedXid oldest ≤ rel.table.lastVacuumXmin) (held : snap ∈ backends.snaps)
    (horizon : ∀ snap ∈ backends.snaps, oldest ≤ snap.taken.xmin) :
    backends.Sound (rel.vacuum (storedXid oldest)) := by
  have mono : snap.taken.xmin ≤ backends.history.xmin :=
    (snapshots.use snap held).formed.xmin_mono postgres.formed (snapshots.use snap held).since
  have watermark := Relation.watermark_vacuum near runs
  have small := SmallXids.of_known postgres sound.known
  exact {
    sound with
    stores := Relation.stores_vacuum sound.stores small near runs
    horizon := by
      rw [watermark]
      exact Nat.le_trans (horizon snap held) mono
    reclaimed := fun other member op inLog below => by
      rw [watermark] at below
      have use := snapshots.use other member
      have before := Nat.lt_of_lt_of_le below (horizon other member)
      have bound := use.formed.xmin_le_nextXid
      have known : ⟨op.txn.xid, op.txn.txn, false⟩ ∈ other.taken.assigned := by
        rcases use.since.new _ (sound.known op inLog).assigned with known | (new : _ ≤ op.txn.xid)
        · exact known
        · omega
      have ended := History.WellFormed.ended_of_lt_xmin known before
      cases status : other.taken.status op.txn.txn with
      | committed => simp [Snap.sees, status]
      | running => exact absurd status ended
      | unstarted => exact absurd status (use.formed.started _ known)
      | aborted => exact absurd (use.since.aborted _ status) (sound.unaborted op inLog) }

end Sound

end Backends

end SqliteHeap
