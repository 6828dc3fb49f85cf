import SqliteHeap.IndexScan
import SqliteHeap.ScanAtomicity

/-! Index scans agree with sequential scans. Every row that some snapshot may still see has
one entry, once its statement has added it, and what index deletion drops points at rows that
no snapshot sees. -/

set_option autoImplicit false

namespace SqliteHeap

namespace Backends

variable {backends next : Backends} {snap : Snap} {rel : Relation} {txn : TxnId}

/-- The row's deleter had committed for every snapshot, and so for every later one. -/
def Dead (backends : Backends) (row : StoredHeader) : Prop :=
  ∃ op : Command, Known backends.history op ∧ row.xmax = storedXid op.txn.xid ∧
    backends.history.status op.txn.txn = .committed ∧
    ∀ snap ∈ backends.snaps, snap.taken.status op.txn.txn = .committed

theorem Dead.hidden {row : StoredHeader} (dead : backends.Dead row) (inv : backends.Inv)
    (member : snap ∈ backends.snaps) : backends.rowVisible snap row = false := by
  obtain ⟨op, known, xmax, _, taken⟩ := dead
  have again : Known backends.history { op with cid := row.cmax.toNat } :=
    ⟨known.assigned, row.cmax.isLt⟩
  have seen : snap.sees { op with cid := row.cmax.toNat } = true := by
    simp [Snap.sees, taken snap member]
  have deleted := (counts_iff inv member again).mpr seen
  rw [storedCid_toNat] at deleted
  rw [← Bool.not_eq_true, rowVisible_iff inv member, xmax]
  exact fun visible => visible.2 deleted

theorem Dead.of_xmax {row other : StoredHeader} (dead : backends.Dead row)
    (same : row.xmax = other.xmax) : backends.Dead other := by
  obtain ⟨op, known, xmax, committed⟩ := dead
  exact ⟨op, known, same ▸ xmax, committed⟩

theorem Dead.xmax_ne_zero {row : StoredHeader} (dead : backends.Dead row) (inv : backends.Inv) :
    row.xmax ≠ 0#32 := by
  obtain ⟨op, known, xmax, _⟩ := dead
  rw [xmax]
  exact known.storedXid_ne_zero inv.postgres.formed

/-- The snapshots after a step know what was committed before it, or are like earlier ones. -/
theorem taken_of_step (inv : backends.Inv) {event : BackendsEvent}
    (stepped : backends.step event = some next) (member : snap ∈ next.snaps) :
    snap.taken = backends.history ∨ ∃ first ∈ backends.snaps, snap.taken = first.taken := by
  have old (earlier : snap ∈ backends.snaps) :
      snap.taken = backends.history ∨ ∃ first ∈ backends.snaps, snap.taken = first.taken :=
    .inr ⟨snap, earlier, rfl⟩
  cases does_of_step stepped with
  | @takeSnapshot txn id active =>
      rcases List.mem_append.mp member with earlier | new
      · exact old earlier
      · rw [List.mem_singleton.mp new]
        rcases snap_cases inv.snapshots txn id with ⟨taken, _⟩ | ⟨first, inSnaps, _, _, _, taken⟩
        · exact .inl taken
        · exact .inr ⟨first, inSnaps, taken⟩
  | releaseSnapshot | commit | abort => exact old (List.mem_filter.mp member).1
  | begin | assign | commandCounterIncrement | doTupleInsert | insertsNothing | multiInsert
  | tupleDelete | tupleUpdate | skips | relationVacuum | reset | preCommit | scanBegin
  | scanGetnext | scanRescan => exact old member

theorem Dead.step {row : StoredHeader} (dead : backends.Dead row) (inv : backends.Inv)
    {event : BackendsEvent} (stepped : backends.step event = some next)
    (since : backends.history.Since next.history) : next.Dead row := by
  obtain ⟨op, known, xmax, committed, taken⟩ := dead
  refine ⟨op, known.since since, xmax, since.committed _ committed, fun snap member => ?_⟩
  rcases taken_of_step inv stepped member with now | ⟨first, inSnaps, same⟩
  · rw [now]
    exact committed
  · rw [same]
    exact taken first inSnaps

/-- A committed command before a snapshot's lower bound had committed when it was taken. -/
theorem committed_of_lt_xmin (inv : backends.Inv) (member : snap ∈ backends.snaps) {op : Command}
    (known : Known backends.history op) (committed : backends.history.status op.txn.txn = .committed)
    (before : op.txn.xid < snap.taken.xmin) : snap.taken.status op.txn.txn = .committed := by
  have use := inv.snapshots.use snap member
  have bound := use.formed.xmin_le_nextXid
  have known' : ⟨op.txn.xid, op.txn.txn, false⟩ ∈ snap.taken.assigned := by
    rcases use.since.new _ known.assigned with old | (new : _ ≤ op.txn.xid)
    · exact old
    · omega
  have ended := History.WellFormed.ended_of_lt_xmin known' before
  cases status : snap.taken.status op.txn.txn with
  | committed => rfl
  | running => exact absurd status ended
  | unstarted => exact absurd status (use.formed.started _ known')
  | aborted =>
      rw [use.since.aborted _ status] at committed
      cases committed

/-- What VACUUM removes is dead. -/
theorem dead_of_reclaimed (inv : backends.Inv) (sound : backends.Sound rel)
    (held : ∃ snap ∈ backends.snaps, snap.owner = txn) {row : StoredHeader}
    (reclaimed : rel.Reclaimed row.xmax) : backends.Dead row := by
  obtain ⟨op, inLog, xmax, below⟩ := reclaimed
  have known := sound.known op inLog
  have taken : ∀ snap ∈ backends.snaps, snap.taken.status op.txn.txn = .committed := by
    intro snap member
    have foreign : op.txn.txn ≠ snap.owner := by
      intro own
      have running := own ▸ (inv.snapshots.use snap member).reading
      exact absurd (sound.watermark_le known running) (Nat.not_le.mpr below)
    exact (committed_of_sees inv.snapshots member (sound.reclaimed snap member op inLog below) foreign).1
  obtain ⟨snap, member, _⟩ := held
  exact ⟨op, known, xmax, (inv.snapshots.use snap member).since.committed _ (taken snap member), taken⟩

theorem lt_of_precedes {xid oldest : Nat} (normal : 3 ≤ xid) (near : xid < 2 ^ 31)
    (near' : oldest < 2 ^ 31)
    (precedes : transactionIdPrecedes (storedXid xid) (storedXid oldest) = true) : xid < oldest := by
  by_cases permanent : 3 ≤ oldest
  · exact ((precedes_stored_iff (by omega) (by omega) (by omega) (by omega)).mp precedes).1
  · have unusual : isNormal (storedXid oldest) = false := by
      rw [isNormal, decide_eq_false_iff_not, BitVec.le_def, storedXid_toNat near']
      exact permanent
    rw [transactionIdPrecedes, unusual, Bool.and_false, if_neg Bool.false_ne_true,
      decide_eq_true_eq, BitVec.lt_def, storedXid_toNat near, storedXid_toNat near'] at precedes
    exact precedes

/-- What index deletion marks, with a horizon that VACUUM may have, is dead. -/
theorem dead_of_reclaimable (inv : backends.Inv) {row : StoredHeader}
    (known : KnownRow backends.history row) {oldest : Nat} (near : oldest < 2 ^ 31)
    (horizon : ∀ snap ∈ backends.snaps, oldest ≤ snap.taken.xmin)
    (reclaimable : Vacuum.Reclaimable (backends.history.xacts txn) (storedXid oldest) row) :
    backends.Dead row := by
  obtain ⟨stamped, committed, precedes⟩ := reclaimable
  rcases known.ended with live | ⟨op, known, xmax, _⟩
  · exact absurd live stamped
  · have named := known.named_of_recent inv.postgres.formed
      (Nat.le_trans inv.postgres.near (by omega))
    have small : 3 ≤ op.txn.xid ∧ op.txn.xid < 2 ^ 31 :=
      SmallXids.of_known inv.postgres (List.forall_mem_singleton.mpr known) op
        (List.mem_singleton_self op)
    rw [xmax] at committed precedes
    have ended := (inv.postgres.formed.didCommit_iff named txn).mp committed
    have below := lt_of_precedes small.1 small.2 near precedes
    exact ⟨op, known, xmax, ended, fun snap member =>
      committed_of_lt_xmin inv member known ended (Nat.lt_of_lt_of_le below (horizon snap member))⟩

/-- A running transaction's own `xmax` is not that of a dead row. -/
theorem Dead.not_owns {row : StoredHeader} (dead : backends.Dead row) (inv : backends.Inv)
    (running : backends.history.status txn = .running) {cid : CommandId} :
    ¬ backends.Owns txn row.xmax cid := by
  intro ⟨writer, own, assigned, xmax⟩
  obtain ⟨op, known, same, committed, _⟩ := dead
  have recent : ∀ xid, backends.history.nextXid ≤ xid + 2 ^ 32 :=
    fun xid => Nat.le_trans inv.postgres.near (by omega)
  have named := known.named_of_recent inv.postgres.formed (recent _)
  have named' := inv.postgres.formed.named_iff.mpr ⟨assigned, xmax.symm, recent _⟩
  rw [same, named] at named'
  have txns := congrArg AssignedXid.owner (Option.some.inj named')
  rw [show op.txn.txn = txn from txns, running] at committed
  cases committed

end Backends

namespace IndexScan

open Backends

variable {Key : Type} {key : Bytes → Key} {index next : IndexScan Key} {snap : Snap}

/-- The row has an entry with its key. -/
def Covered (key : Bytes → Key) (entries : List (IndexEntry Key)) (row : StoredRow) : Prop :=
  ∃ entry ∈ entries, entry.rowid = row.rowid ∧ entry.key = key row.tuple

/-- The row waits for its entry, and no snapshot sees it yet. -/
def Pending (index : IndexScan Key) (holder : TxnId) (row : StoredRow) : Prop :=
  (row.tuple, row.rowid) ∈ index.pending ∧ index.backends.Executing holder row.xmin row.cmin

/-- Rows of the file have their entries, unless they are dead, and rows of the writer's copy have
or wait for them. No two entries share a rowid. -/
structure Accounted (key : Bytes → Key) (index : IndexScan Key) : Prop where
  ordered : index.backends.Ordered
  distinct : (index.entries.map IndexEntry.rowid).Nodup
  file : ∀ row ∈ index.backends.file.table.rows,
    index.backends.Dead row.toStoredHeader ∨ Covered key index.entries row
  work : ∀ holder work, index.backends.writer = some (holder, work) → ∀ row ∈ work.table.rows,
    index.backends.Dead row.toStoredHeader ∨ Covered key index.entries row ∨ index.Pending holder row
  /-- The writer's copy has the rows of the file, or they are dead. -/
  kept : ∀ holder work, index.backends.writer = some (holder, work) →
    ∀ old ∈ index.backends.file.table.rows, index.backends.Dead old.toStoredHeader ∨
      ∃ row ∈ work.table.rows, row.rowid = old.rowid ∧
        (row.xmax = old.xmax ∨ index.backends.Owns holder row.xmax row.cmax)
  waiting : ∀ new ∈ index.pending, ∃ holder work, index.backends.writer = some (holder, work) ∧
    new.2 < work.table.nextRowid
  fits : ∀ new ∈ index.pending, 1 ≤ new.2 ∧ new.2 ≤ maxTidRowid
  fresh : ∀ new ∈ index.pending, ∀ entry ∈ index.entries, entry.rowid ≠ new.2
  apart : (index.pending.map Prod.snd).Nodup

theorem Covered.mono {entries more : List (IndexEntry Key)} {row : StoredRow}
    (covered : Covered key entries row) (subset : ∀ entry ∈ entries, entry ∈ more) :
    Covered key more row := by
  obtain ⟨entry, member, same⟩ := covered
  exact ⟨entry, subset entry member, same⟩

theorem Covered.of_same {entries : List (IndexEntry Key)} {row old : StoredRow}
    (covered : Covered key entries old) (rowid : old.rowid = row.rowid) (tuple : old.tuple = row.tuple) :
    Covered key entries row := by
  obtain ⟨entry, member, atRow, same⟩ := covered
  exact ⟨entry, member, atRow.trans rowid, tuple ▸ same⟩

namespace Accounted

theorem start : Accounted key (IndexScan.start : IndexScan Key) where
  ordered := .start
  distinct := List.nodup_nil
  file := List.forall_mem_nil _
  work _ _ held := nomatch held
  kept _ _ held := nomatch held
  waiting := List.forall_mem_nil _
  fits := List.forall_mem_nil _
  fresh := List.forall_mem_nil _
  apart := List.nodup_nil

theorem stays {backends : Backends} {event : BackendsEvent}
    (frees : index.backends.frees event = false) (none : index.backends.news event = [])
    (kept : Accounted key { index with backends := backends }) :
    Accounted key (if index.backends.frees event then { index with backends := backends, pending := [] }
      else { index with backends := backends, pending := index.pending ++ index.backends.news event }) := by
  rw [frees, if_neg Bool.false_ne_true, none, List.append_nil]
  exact kept

/-- A statement has added its entries before such an event. -/
theorem settled_of_ready {event : BackendsEvent} {txn : TxnId} (ready : index.ready event = true)
    (settles : settles event = some txn) (mayWrite : index.backends.mayWrite txn = true) :
    index.pending = [] := by
  rw [IndexScan.ready, settles, Option.all_some, mayWrite] at ready
  simpa using ready

variable (accounted : Accounted key index)

include accounted

/-- The rows that a transaction reads. -/
theorem view (txn : TxnId) : ∀ row ∈ (index.backends.view txn).table.rows,
    index.backends.Dead row.toStoredHeader ∨ Covered key index.entries row ∨ index.Pending txn row := by
  cases held : index.backends.writer with
  | none =>
      rw [view_of_free held]
      exact fun row member => (accounted.file row member).imp_right .inl
  | some held' =>
      obtain ⟨holder, work⟩ := held'
      rw [view_of_held held]
      split
      · next same =>
          subst same
          exact accounted.work holder work held
      · exact fun row member => (accounted.file row member).imp_right .inl

/-- What the transaction that may write reads has the rows of the file. -/
theorem view_kept {txn : TxnId} (mayWrite : index.backends.mayWrite txn = true) :
    ∀ old ∈ index.backends.file.table.rows, index.backends.Dead old.toStoredHeader ∨
      ∃ row ∈ (index.backends.view txn).table.rows, row.rowid = old.rowid ∧
        (row.xmax = old.xmax ∨ index.backends.Owns txn row.xmax row.cmax) := by
  rcases mayWrite_iff.mp mayWrite with free | ⟨work, held⟩
  · rw [view_of_free free]
    exact fun old member => .inr ⟨old, member, rfl, .inl rfl⟩
  · rw [view_of_held held, if_pos rfl]
    exact accounted.kept txn work held

theorem waiting_view {txn : TxnId} (mayWrite : index.backends.mayWrite txn = true) :
    ∀ new ∈ index.pending, new.2 < (index.backends.view txn).table.nextRowid := by
  intro new member
  obtain ⟨holder, work, held, below⟩ := accounted.waiting new member
  rcases mayWrite_iff.mp mayWrite with free | ⟨work', held'⟩
  · rw [free] at held
    cases held
  · rw [held] at held'
    obtain ⟨rfl, rfl⟩ := Prod.mk.inj (Option.some.inj held')
    rw [view_of_held held, if_pos rfl]
    exact below

theorem grows {writer : Writer} {after : Relation} {news : List (Bytes × Int)}
    (author : index.backends.Author writer)
    (grown : Table.Grows (storedXid writer.xid) (storedCid (index.backends.xact writer.txn).cid) news
      (index.backends.view writer.txn).table after.table)
    (fits : ∀ new ∈ news, new.2 ≤ maxTidRowid ∧ ∀ entry ∈ index.entries, entry.rowid ≠ new.2)
    (ordered : { index.backends with writer := some (writer.txn, after) }.Ordered) :
    Accounted key { index with
      backends := { index.backends with writer := some (writer.txn, after) }
      pending := index.pending ++ news } where
  ordered := ordered
  distinct := accounted.distinct
  file := accounted.file
  work holder work held row member := by
    cases held
    rcases grown.rows row member with ⟨old, inView, rowid, tuple, xmin, cmin, xmax⟩ | ⟨new, xmin, cmin⟩
    · rcases accounted.view writer.txn old inView with dead | covered | ⟨waits, executing⟩
      · have stamped := dead.xmax_ne_zero accounted.ordered.inv
        exact .inl (dead.of_xmax (xmax.resolve_right stamped))
      · exact .inr (.inl (covered.of_same rowid tuple))
      · refine .inr (.inr ⟨List.mem_append_left _ (rowid ▸ tuple ▸ waits), ?_⟩)
        rw [← xmin, ← cmin]
        exact executing
    · have executing := executing_of_author author
      rw [← xmin, ← cmin] at executing
      exact .inr (.inr ⟨List.mem_append_right _ new, executing⟩)
  kept holder work held old member := by
    cases held
    rcases accounted.view_kept author.mayWrite old member with dead | ⟨row, inView, rowid, xmax⟩
    · exact .inl dead
    · obtain ⟨last, inAfter, rowid', xmax'⟩ := grown.kept row inView
      refine .inr ⟨last, inAfter, rowid'.trans rowid, ?_⟩
      rcases xmax' with same | own
      · rw [same]
        exact xmax
      · rw [own]
        exact .inr (executing_of_author author).1
  waiting new member := by
    refine ⟨writer.txn, after, rfl, ?_⟩
    rcases List.mem_append.mp member with old | new
    · exact (accounted.waiting_view author.mayWrite _ old).trans_le grown.next
    · exact (grown.rowids _ new).2
  fits := by
    refine List.forall_mem_append.mpr ⟨accounted.fits, fun new member => ⟨?_, (fits new member).1⟩⟩
    exact (Table.one_le_nextRowid _).trans (grown.rowids new member).1
  fresh := List.forall_mem_append.mpr ⟨accounted.fresh, fun new member => (fits new member).2⟩
  apart := by
    rw [List.map_append]
    refine List.Nodup.append accounted.apart grown.distinct fun rowid inOld inNew => ?_
    obtain ⟨old, waits, rfl⟩ := List.mem_map.mp inOld
    obtain ⟨new, inNews, same⟩ := List.mem_map.mp inNew
    have order := (accounted.waiting_view author.mayWrite old waits).trans_le (grown.rowids new inNews).1
    exact order.ne' same

theorem vacuums {txn : TxnId} {oldest : Nat} (settled : index.pending = [])
    (active : index.backends.active txn = true) (mayWrite : index.backends.mayWrite txn = true)
    (near : oldest < 2 ^ 31) (held : ∃ snap ∈ index.backends.snaps, snap.owner = txn)
    (runs : ¬ storedXid oldest ≤ (index.backends.view txn).table.lastVacuumXmin)
    (ordered : { index.backends with
      writer := some (txn, (index.backends.view txn).vacuum (storedXid oldest)) }.Ordered) :
    Accounted key { index with
      backends := { index.backends with
        writer := some (txn, (index.backends.view txn).vacuum (storedXid oldest)) } } where
  ordered := ordered
  distinct := accounted.distinct
  file := accounted.file
  work holder work same row member := by
    cases same
    rw [Relation.rows_vacuum runs] at member
    exact accounted.view txn row (List.mem_filter.mp member).1
  kept holder work same old member := by
    cases same
    rcases accounted.view_kept mayWrite old member with dead | ⟨row, inView, rowid, xmax⟩
    · exact .inl dead
    · have sound := accounted.ordered.inv.sound_view txn
      have small := SmallXids.of_known accounted.ordered.inv.postgres sound.known
      cases stays : Relation.outlives oldest ((index.backends.view txn).image row) with
      | true =>
          refine .inr ⟨row, ?_, rowid, xmax⟩
          rw [Relation.rows_vacuum runs]
          exact List.mem_filter.mpr ⟨inView, stays⟩
      | false =>
          obtain ⟨op, inLog, stamped, below⟩ :=
            Relation.reclaimed_of_not_outlives sound.stores small near inView stays
          have after := (ordered.inv.work txn _ rfl).sound
          have dead : index.backends.Dead row.toStoredHeader :=
            dead_of_reclaimed ordered.inv after held
              ⟨op, inLog, stamped, (Relation.watermark_vacuum near runs).symm ▸ below⟩
          rcases xmax with same | own
          · exact .inl (dead.of_xmax same)
          · exact absurd own (dead.not_owns accounted.ordered.inv (active_iff.mp active).1)
  waiting := settled ▸ List.forall_mem_nil _
  fits := accounted.fits
  fresh := accounted.fresh
  apart := accounted.apart

/-- The file and the writer's copy are left. -/
theorem leaves {backends : Backends}
    (dead : ∀ row, index.backends.Dead row → backends.Dead row)
    (since : index.backends.history.Since backends.history)
    (file : backends.file = index.backends.file) (writer : backends.writer = index.backends.writer)
    (cid : ∀ holder work, index.backends.writer = some (holder, work) → index.pending ≠ [] →
      (backends.xact holder).cid = (index.backends.xact holder).cid)
    (ordered : backends.Ordered) : Accounted key { index with backends := backends } where
  ordered := ordered
  distinct := accounted.distinct
  file row member := by
    change row ∈ backends.file.table.rows at member
    rw [file] at member
    exact (accounted.file row member).imp_left (dead _)
  work holder work held row member := by
    change backends.writer = _ at held
    rw [writer] at held
    rcases accounted.work holder work held row member with gone | covered | ⟨waits, executing⟩
    · exact .inl (dead _ gone)
    · exact .inr (.inl covered)
    · refine .inr (.inr ⟨waits, executing.1.since since, executing.2.trans ?_⟩)
      rw [cid holder work held (List.ne_nil_of_mem waits)]
  kept holder work held old member := by
    change backends.writer = _ at held
    change old ∈ backends.file.table.rows at member
    rw [writer] at held
    rw [file] at member
    refine (accounted.kept holder work held old member).imp (dead _) fun ⟨row, inWork, rowid, xmax⟩ => ?_
    exact ⟨row, inWork, rowid, xmax.imp_right fun owns => owns.since since⟩
  waiting new member := by
    change ∃ holder work, backends.writer = _ ∧ _
    rw [writer]
    exact accounted.waiting new member
  fits := accounted.fits
  fresh := accounted.fresh
  apart := accounted.apart

theorem drops {backends : Backends} (dead : ∀ row, index.backends.Dead row → backends.Dead row)
    (file : backends.file = index.backends.file) (writer : backends.writer = none)
    (ordered : backends.Ordered) :
    Accounted key { index with backends := backends, pending := [] } where
  ordered := ordered
  distinct := accounted.distinct
  file row member := by
    change row ∈ backends.file.table.rows at member
    rw [file] at member
    exact (accounted.file row member).imp_left (dead _)
  work holder work held := by
    rw [writer] at held
    cases held
  kept holder work held := by
    rw [writer] at held
    cases held
  waiting := List.forall_mem_nil _
  fits := List.forall_mem_nil _
  fresh := List.forall_mem_nil _
  apart := List.nodup_nil

/-- `PreCommit` makes the writer's copy the file. -/
theorem publishes {txn : TxnId} {backends : Backends}
    (settled : index.backends.mayWrite txn = true → index.pending = [])
    (dead : ∀ row, index.backends.Dead row → backends.Dead row)
    (since : index.backends.history.Since backends.history)
    (xact : ∀ owner, (backends.xact owner).cid = (index.backends.xact owner).cid)
    (file : backends.file = index.backends.view txn)
    (writer : backends.writer = if index.backends.mayWrite txn then none else index.backends.writer)
    (ordered : backends.Ordered) : Accounted key { index with backends := backends } := by
  by_cases mayWrite : index.backends.mayWrite txn = true
  · have none := settled mayWrite
    have free : backends.writer = Option.none := writer.trans (if_pos mayWrite)
    exact {
      ordered := ordered
      distinct := accounted.distinct
      file := fun row member => by
        change row ∈ backends.file.table.rows at member
        rw [file] at member
        rcases accounted.view txn row member with gone | covered | waits
        · exact .inl (dead _ gone)
        · exact .inr covered
        · rw [Pending, none] at waits
          cases waits.1
      work := fun holder work held => by
        rw [free] at held
        cases held
      kept := fun holder work held => by
        rw [free] at held
        cases held
      waiting := none ▸ List.forall_mem_nil _
      fits := accounted.fits
      fresh := accounted.fresh
      apart := accounted.apart }
  · obtain ⟨holder, work, held, different⟩ := held_of_not_mayWrite mayWrite
    have unchanged : backends.file = index.backends.file := by
      rw [file, view_of_held held, if_neg different]
    exact accounted.leaves dead since unchanged (writer.trans (if_neg mayWrite))
      (fun owner _ _ _ => xact owner) ordered

theorem backends_step {event : BackendsEvent} {backends : Backends} (ready : index.ready event = true)
    (allowed : index.Allowed (.backends event)) (moved : index.backends.step event = some backends) :
    Accounted key (if index.backends.frees event then { index with backends := backends, pending := [] }
      else { index with backends := backends, pending := index.pending ++ index.backends.news event }) := by
  have inv := accounted.ordered.inv
  have ordered := accounted.ordered.step allowed.1 moved
  have since := (alters_of_step inv allowed.1 moved).since
  have dead : ∀ row, index.backends.Dead row → backends.Dead row :=
    fun row dead => dead.step inv moved since
  have fits := allowed.2
  cases does_of_step moved with
  | doTupleInsert author tuple =>
      exact accounted.grows author (.insertRow tuple _) fits ordered
  | @multiInsert writer tuples author some =>
      refine accounted.grows author ?_ fits ordered
      rw [Relation.multiInsert_table]
      exact .insertBatch tuples _
  | @tupleDelete writer author snap rowid =>
      refine accounted.grows author ?_ fits ordered
      rw [Relation.tupleDelete_table]
      exact .stampRow rowid _
  | tupleUpdate author snap rowid tuple =>
      exact accounted.grows author (.updateRow rowid tuple _) fits ordered
  | relationVacuum active mayWrite runs =>
      obtain ⟨near, held, _⟩ := allowed.1
      have settled := settled_of_ready ready rfl mayWrite
      exact stays rfl rfl (accounted.vacuums settled active mayWrite near held runs ordered)
  | @preCommit txn active =>
      refine stays rfl rfl (accounted.publishes
        (fun mayWrite => settled_of_ready ready rfl mayWrite) dead since (fun owner => ?_) rfl
        rfl ordered)
      exact (Inv.xact_preCommit index.backends txn owner).1
  | @abort txn running =>
      by_cases mayWrite : index.backends.mayWrite txn = true
      · have frees : index.backends.frees (.abort txn) = true := mayWrite
        rw [frees, if_pos rfl]
        exact accounted.drops dead rfl (if_pos mayWrite) ordered
      · have frees : index.backends.frees (.abort txn) = false := Bool.eq_false_iff.mpr mayWrite
        exact stays frees rfl
          (accounted.leaves dead since rfl (if_neg mayWrite) (fun _ _ _ _ => rfl) ordered)
  | @begin txn repeatableRead unstarted =>
      refine stays rfl rfl (accounted.leaves dead since rfl rfl (fun holder work held _ => ?_)
        ordered)
      have running := (active_iff.mp (inv.work holder work held).active).1
      have different : holder ≠ txn := by
        intro same
        rw [same, unstarted] at running
        cases running
      exact congrArg XactState.cid (Function.update_of_ne different _ _)
  | @commandCounterIncrement txn fits =>
      refine stays rfl rfl (accounted.leaves dead since rfl rfl
        (fun holder work held waits => ?_) ordered)
      have different : holder ≠ txn := by
        intro same
        refine waits (settled_of_ready ready rfl ?_)
        exact mayWrite_iff.mpr (.inr ⟨work, same ▸ held⟩)
      exact congrArg XactState.cid (Function.update_of_ne different _ _)
  | reset => exact allowed.1.elim
  | assign | takeSnapshot | releaseSnapshot | insertsNothing | skips | commit | scanBegin
  | scanGetnext | scanRescan =>
      exact stays rfl rfl (accounted.leaves dead since rfl rfl (fun _ _ _ _ => rfl) ordered)

/-- The first pending row gets its entry. -/
theorem indexInsert {new : Bytes × Int} {rest : List (Bytes × Int)}
    (waits : index.pending = new :: rest) :
    Accounted key { index with
      entries := index.entries ++ [⟨key new.1, rowidToTid new.2⟩], pending := rest } := by
  obtain ⟨⟨first, last⟩, fits⟩ := List.forall_mem_cons.mp (waits ▸ accounted.fits)
  obtain ⟨fresh, others⟩ := List.forall_mem_cons.mp (waits ▸ accounted.fresh)
  have apart := accounted.apart
  rw [waits, List.map_cons, List.nodup_cons] at apart
  let entry : IndexEntry Key := ⟨key new.1, rowidToTid new.2⟩
  have atRow : entry.rowid = new.2 := tidToRowid_rowidToTid first last
  have old : ∀ other ∈ index.entries, other ∈ index.entries ++ [entry] :=
    fun other member => List.mem_append_left _ member
  exact {
    ordered := accounted.ordered
    distinct := by
      rw [List.map_append, List.map_singleton, atRow]
      refine List.Nodup.append accounted.distinct (List.nodup_singleton _) fun rowid inOld isNew => ?_
      obtain ⟨other, member, same⟩ := List.mem_map.mp inOld
      exact fresh other member (same.trans (List.mem_singleton.mp isNew))
    file := fun row member => (accounted.file row member).imp_right fun covered => covered.mono old
    work := fun holder work held row member => by
      rcases accounted.work holder work held row member with dead | covered | ⟨pending, executing⟩
      · exact .inl dead
      · exact .inr (.inl (covered.mono old))
      · rw [waits] at pending
        rcases List.mem_cons.mp pending with now | later
        · refine .inr (.inl ⟨entry, List.mem_append_right _ (List.mem_singleton_self _), ?_, ?_⟩)
          · exact atRow.trans (congrArg Prod.snd now).symm
          · exact congrArg (fun new => key new.1) now.symm
        · exact .inr (.inr ⟨later, executing⟩)
    kept := accounted.kept
    waiting := fun other member => accounted.waiting other (waits ▸ List.mem_cons_of_mem _ member)
    fits := fits
    fresh := fun other member => List.forall_mem_append.mpr
      ⟨others other member, List.forall_mem_singleton.mpr fun same =>
        apart.1 (atRow.symm.trans same ▸ List.mem_map_of_mem member)⟩
    apart := apart.2 }

/-- What the marks of index deletion say of the rows at these TIDs. -/
theorem dead_of_marked {txn : TxnId} {oldest : Nat} {op : TmIndexDeleteOp} {entry : IndexEntry Key}
    {row : StoredRow} (near : oldest < 2 ^ 31)
    (horizon : ∀ snap ∈ index.backends.snaps, oldest ≤ snap.taken.xmin)
    (marked : Indexed.marked (index.backends.history.xacts txn) (storedXid oldest)
      (op.deltids.map TmIndexDelete.tid) (index.backends.view txn).table entry.tid = true)
    (member : row ∈ (index.backends.view txn).table.rows) (same : row.rowid = entry.rowid) :
    index.backends.Dead row.toStoredHeader := by
  obtain ⟨deltid, _, tid, deletable⟩ := Indexed.marked_iff.mp marked
  have inv := accounted.ordered.inv
  have known := (inv.sound_view txn).knownRow member
  refine dead_of_reclaimable inv known near horizon (deletable row member ?_)
  rw [tid]
  exact same

/-- Entries are dropped of which the caller finds no row, or a reclaimable one. -/
theorem indexDelete [DecidableEq Key] {txn : TxnId} {oldest : Nat} {op : TmIndexDeleteOp}
    {removed : List (IndexEntry Key)} (active : index.backends.active txn = true) (near : oldest < 2 ^ 31)
    (horizon : ∀ snap ∈ index.backends.snaps, oldest ≤ snap.taken.xmin)
    (found : index.Found txn op)
    (marked : ∀ entry ∈ removed, Indexed.marked (index.backends.history.xacts txn) (storedXid oldest)
      (op.deltids.map TmIndexDelete.tid) (index.backends.view txn).table entry.tid = true) :
    Accounted key { index with entries := index.entries.filter fun entry => !removed.contains entry } := by
  have inv := accounted.ordered.inv
  have remains {row : StoredRow} (covered : Covered key index.entries row)
      (spared : ∀ entry ∈ removed, entry.rowid = row.rowid → index.backends.Dead row.toStoredHeader) :
      index.backends.Dead row.toStoredHeader ∨
        Covered key (index.entries.filter fun entry => !removed.contains entry) row := by
    obtain ⟨entry, member, atRow, same⟩ := covered
    by_cases dropped : entry ∈ removed
    · exact .inl (spared entry dropped atRow)
    · refine .inr ⟨entry, List.mem_filter.mpr ⟨member, ?_⟩, atRow, same⟩
      simpa using dropped
  have subset : ∀ entry ∈ index.entries.filter fun entry => !removed.contains entry, entry ∈ index.entries :=
    fun entry member => (List.mem_filter.mp member).1
  have inView {row : StoredRow} (member : row ∈ (index.backends.view txn).table.rows) :
      ∀ entry ∈ removed, entry.rowid = row.rowid → index.backends.Dead row.toStoredHeader :=
    fun entry dropped atRow =>
      accounted.dead_of_marked near horizon (marked entry dropped) member atRow.symm
  exact {
    ordered := accounted.ordered
    distinct := accounted.distinct.sublist (List.filter_sublist.map _)
    file := fun row member => by
      refine (accounted.file row member).elim .inl fun covered => remains covered ?_
      by_cases mayWrite : index.backends.mayWrite txn = true
      · intro entry dropped atRow
        rcases accounted.view_kept mayWrite row member with dead | ⟨now, inTable, rowid, xmax⟩
        · exact dead
        · have dead := inView inTable entry dropped (atRow.trans rowid.symm)
          rcases xmax with same | own
          · exact dead.of_xmax same
          · exact absurd own (dead.not_owns inv (active_iff.mp active).1)
      · obtain ⟨holder, work, held, different⟩ := held_of_not_mayWrite mayWrite
        have unchanged : index.backends.view txn = index.backends.file := by
          rw [view_of_held held, if_neg different]
        exact inView (unchanged ▸ member)
    work := fun holder work held row member => by
      rcases accounted.work holder work held row member with dead | covered | waits
      · exact .inl dead
      · rw [← or_assoc]
        refine .inl (remains covered fun entry dropped atRow => ?_)
        by_cases own : holder = txn
        · refine inView ?_ entry dropped atRow
          rw [view_of_held held, if_pos own]
          exact member
        · obtain ⟨deltid, asked, tid, _⟩ := Indexed.marked_iff.mp (marked entry dropped)
          have named : tidToRowid deltid.tid = row.rowid := by
            rw [tid]
            exact atRow
          obtain ⟨old, inFile, rowid, xmax⟩ := found (holder, work) held row member ⟨deltid, asked, named⟩
          have dead := inView inFile entry dropped (atRow.trans rowid.symm)
          exact dead.of_xmax (xmax.resolve_right (dead.xmax_ne_zero inv))
      · exact .inr (.inr waits)
    kept := accounted.kept
    waiting := accounted.waiting
    fits := accounted.fits
    fresh := fun new member entry inEntries => accounted.fresh new member entry (subset entry inEntries)
    apart := accounted.apart }

theorem step [DecidableEq Key] {event : IndexScanEvent Key} (allowed : index.Allowed event)
    (stepped : index.step key event = some next) : Accounted key next := by
  cases event with
  | backends event =>
      obtain ⟨ready, mapped⟩ := Option.ite_none_right_eq_some.mp stepped
      obtain ⟨backends, moved, rfl⟩ := Option.map_eq_some_iff.mp mapped
      exact accounted.backends_step ready allowed moved
  | indexInsert txn =>
      rw [IndexScan.step] at stepped
      cases waits : index.pending with
      | nil =>
          rw [waits] at stepped
          cases stepped
      | cons new rest =>
          rw [waits] at stepped
          obtain ⟨_, same⟩ := Option.ite_none_right_eq_some.mp stepped
          exact Option.some.inj same ▸ accounted.indexInsert waits
  | indexDelete txn oldest op removed =>
      obtain ⟨near, _, horizon, found⟩ := allowed
      obtain ⟨⟨active, marked⟩, same⟩ := Option.ite_none_right_eq_some.mp stepped
      exact Option.some.inj same ▸ accounted.indexDelete active near horizon found marked

theorem run [DecidableEq Key] {events : List (IndexScanEvent Key)}
    (reached : IndexScan.run key index events = some next)
    (allowed : Transition.Meets (IndexScan.step key) IndexScan.Allowed index events) :
    Accounted key next :=
  Transition.run_invariant (fun _ _ _ accounted allowed stepped => accounted.step allowed stepped)
    accounted allowed reached

end Accounted

end IndexScan

end SqliteHeap
