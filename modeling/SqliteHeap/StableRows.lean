import SqliteHeap.ScanKinds
import SqliteHeap.SnapshotIsolation

/-! The rows that a snapshot shows, with their TIDs. While the snapshot is in use no write of
its own transaction, no commit of another one and no VACUUM changes which TIDs it sees or
what is stored there. -/

set_option autoImplicit false

namespace SqliteHeap

open Versions

def StoredRow.content (row : StoredRow) : Int × Bytes := (row.rowid, row.tuple)

/-- The rows that are visible, by TID. -/
def shown (visible : StoredHeader → Bool) (rows : List StoredRow) : List (Int × Bytes) :=
  (rows.filter fun row => visible row.toStoredHeader).map StoredRow.content

/-- A reader that does not see the commands with these xids and command ids, neither what they
insert nor what they delete, and to which rows with a reclaimed `xmax` are deleted. -/
structure Blind (unseen : TransactionId → CommandId → Prop) (reclaimed : TransactionId → Prop)
    (visible : StoredHeader → Bool) : Prop where
  inserted : ∀ header : StoredHeader, unseen header.xmin header.cmin → visible header = false
  deleted : ∀ (header : StoredHeader) xmax cmax, header.xmax = 0#32 → unseen xmax cmax →
    visible { header with xmax := xmax, cmax := cmax } = visible header
  gone : ∀ header : StoredHeader, reclaimed header.xmax → visible header = false

section Shown

variable {unseen unseen' : TransactionId → CommandId → Prop}
  {reclaimed reclaimed' : TransactionId → Prop} {visible visible' : StoredHeader → Bool}
  {table : Table} {rows : List StoredRow} {xid : TransactionId} {cid : CommandId}

theorem Blind.mono (blind : Blind unseen reclaimed visible)
    (fewer : ∀ xid cid, unseen' xid cid → unseen xid cid)
    (fewer' : ∀ xid, reclaimed' xid → reclaimed xid) : Blind unseen' reclaimed' visible where
  inserted header made := blind.inserted header (fewer _ _ made)
  deleted header xmax cmax live made := blind.deleted header xmax cmax live (fewer _ _ made)
  gone header dead := blind.gone header (fewer' _ dead)

theorem shown_congr (same : ∀ row ∈ rows, visible' row.toStoredHeader = visible row.toStoredHeader) :
    shown visible' rows = shown visible rows := by
  rw [shown, List.filter_congr same]
  rfl

theorem shown_insertRow (blind : Blind unseen reclaimed visible) (made : unseen xid cid)
    (tuple : Bytes) : shown visible (table.insertRow xid cid tuple).rows = shown visible table.rows := by
  have hidden := blind.inserted ⟨table.nextRowid, xid, cid, 0#32, 0#32⟩ made
  simp only [shown, Table.insertRow, List.filter_append, List.filter_cons, hidden, Bool.false_eq_true,
    ↓reduceIte, List.filter_nil, List.append_nil]

theorem visible_stamp (blind : Blind unseen reclaimed visible) (made : unseen xid cid) (rowid : Int)
    (row : StoredRow) :
    visible (Table.stamp rowid xid cid row).toStoredHeader = visible row.toStoredHeader := by
  by_cases live : Table.isLive rowid row = true
  · rw [Table.stamp, if_pos live]
    exact blind.deleted row.toStoredHeader xid cid (Relation.isLive_iff.mp live).2 made
  · rw [Table.stamp, if_neg live]

theorem content_stamp (rowid : Int) (row : StoredRow) :
    (Table.stamp rowid xid cid row).content = row.content := by
  unfold Table.stamp
  split <;> rfl

theorem shown_stampRow (blind : Blind unseen reclaimed visible) (made : unseen xid cid) (rowid : Int) :
    shown visible (table.stampRow rowid xid cid).rows = shown visible table.rows := by
  have same : (fun row : StoredRow => visible row.toStoredHeader) ∘ Table.stamp rowid xid cid =
      fun row => visible row.toStoredHeader := funext (visible_stamp blind made rowid)
  have contents : StoredRow.content ∘ Table.stamp rowid xid cid = StoredRow.content :=
    funext (content_stamp rowid)
  rw [shown, Table.stampRow, List.filter_map, same, List.map_map, contents]
  rfl

theorem shown_filter {keep : StoredRow → Bool}
    (dropped : ∀ row ∈ rows, keep row = false → visible row.toStoredHeader = false) :
    shown visible (rows.filter keep) = shown visible rows := by
  rw [shown, List.filter_filter]
  refine congrArg _ (List.filter_congr fun row member => ?_)
  cases kept : keep row with
  | true => rw [Bool.and_true]
  | false => rw [Bool.and_false, dropped row member kept]

end Shown

namespace Relation

/-- The xid of a command that VACUUM has passed. -/
def Reclaimed (rel : Relation) (stored : TransactionId) : Prop :=
  ∃ op ∈ rel.log, stored = storedXid op.txn.xid ∧ op.txn.xid < rel.watermark

/-- The second relation comes from the first one by commands with these xids and command ids,
and by VACUUM. -/
structure Rewrites (unseen : TransactionId → CommandId → Prop) (rel after : Relation) : Prop where
  shown : ∀ {visible : StoredHeader → Bool}, Blind unseen after.Reclaimed visible →
    shown visible after.table.rows = shown visible rel.table.rows
  reclaimed : ∀ xid, rel.Reclaimed xid → after.Reclaimed xid

variable {unseen unseen' : TransactionId → CommandId → Prop} {rel middle after : Relation}
  {writer : Writer} {cid : Nat}

namespace Rewrites

theorem refl (rel : Relation) : Rewrites unseen rel rel := ⟨fun _ => rfl, fun _ dead => dead⟩

theorem trans (first : Rewrites unseen rel middle) (second : Rewrites unseen middle after) :
    Rewrites unseen rel after where
  shown blind :=
    (second.shown blind).trans (first.shown (blind.mono (fun _ _ made => made) second.reclaimed))
  reclaimed xid dead := second.reclaimed xid (first.reclaimed xid dead)

theorem mono (rewrites : Rewrites unseen rel after)
    (more : ∀ xid cid, unseen xid cid → unseen' xid cid) : Rewrites unseen' rel after where
  shown blind := rewrites.shown (blind.mono more fun _ dead => dead)
  reclaimed := rewrites.reclaimed

theorem of_log {xid : TransactionId} (dead : rel.Reclaimed xid) {new : List Command}
    (log : after.log = rel.log ++ new) (watermark : after.watermark = rel.watermark) :
    after.Reclaimed xid := by
  obtain ⟨op, member, same, below⟩ := dead
  exact ⟨op, log ▸ List.mem_append_left _ member, same, watermark ▸ below⟩

variable (made : unseen (storedXid writer.xid) (storedCid cid))

include made

theorem doTupleInsert (tuple : Bytes) : Rewrites unseen rel (rel.doTupleInsert writer cid tuple) where
  shown blind := shown_insertRow blind made tuple
  reclaimed _ dead := of_log dead rfl rfl

theorem multiInsert (tuples : List Bytes) :
    Rewrites unseen rel (rel.multiInsert writer cid tuples) := by
  induction tuples generalizing rel with
  | nil => exact refl rel
  | cons tuple rest ih => exact (doTupleInsert made tuple).trans ih

theorem tupleDelete {rowid : Int} (hit : rel.hits rowid = true) :
    Rewrites unseen rel (rel.tupleDelete writer cid rowid).1 := by
  rw [tupleDelete_eq hit]
  exact ⟨fun blind => shown_stampRow blind made rowid, fun _ dead => of_log dead rfl rfl⟩

theorem tupleUpdate {rowid : Int} (hit : rel.hits rowid = true) (tuple : Bytes) :
    Rewrites unseen rel (rel.tupleUpdate writer cid rowid tuple).1 := by
  rw [tupleUpdate_eq hit]
  exact ⟨fun blind => (shown_insertRow blind made tuple).trans (shown_stampRow blind made rowid),
    fun _ dead => of_log dead rfl rfl⟩

end Rewrites

/-- A row that VACUUM removes has the `xmax` of a command before its horizon. -/
theorem reclaimed_of_not_outlives (stores : rel.Stores) (small : SmallXids rel.log) {oldest : Nat}
    (near : oldest < 2 ^ 31) {row : StoredRow} (member : row ∈ rel.table.rows)
    (removed : outlives oldest (rel.image row) = false) :
    ∃ op ∈ rel.log, row.xmax = storedXid op.txn.xid ∧ op.txn.xid < oldest := by
  obtain ⟨version, inVersions, same⟩ := stores.version_of_mem member
  have xmax : (RowImage.ofVersion version).header.xmax = row.xmax :=
    congrArg (fun image => image.header.xmax) same
  rw [← same, outlives, Bool.not_eq_false', decide_eq_true_iff] at removed
  cases ended : version.deleter with
  | none =>
      refine absurd ?_ removed.1
      simp [RowImage.ofVersion, ended]
  | some op =>
      have inLog := ((mem_log inVersions).2 op ended).1
      have stored : (RowImage.ofVersion version).header.xmax = storedXid op.txn.xid := by
        simp [RowImage.ofVersion, ended]
      rw [stored, storedXid_toInt (small op inLog).2, storedXid_toInt near] at removed
      exact ⟨op, inLog, xmax.symm.trans stored, Int.ofNat_lt.mp removed.2⟩

theorem Rewrites.vacuum (stores : rel.Stores) (small : SmallXids rel.log) {oldest : Nat}
    (near : oldest < 2 ^ 31) (runs : ¬ storedXid oldest ≤ rel.table.lastVacuumXmin) :
    Rewrites unseen rel (rel.vacuum (storedXid oldest)) where
  shown blind := by
    rw [rows_vacuum runs]
    refine shown_filter fun row member removed => ?_
    obtain ⟨op, inLog, xmax, below⟩ := reclaimed_of_not_outlives stores small near member removed
    exact blind.gone row.toStoredHeader
      ⟨op, inLog, xmax, (watermark_vacuum near runs).symm ▸ below⟩
  reclaimed xid dead := by
    obtain ⟨op, inLog, same, below⟩ := dead
    refine ⟨op, inLog, same, ?_⟩
    rw [watermark_vacuum near runs]
    rw [BitVec.le_def, storedXid_toNat near] at runs
    exact Nat.lt_trans below (Nat.not_le.mp runs)

end Relation

/-- The snapshot is in use until one of these events. -/
def BackendsEvent.ends (snap : Snap) : BackendsEvent → Bool
  | .releaseSnapshot id => id = snap.id
  | .commit txn | .abort txn => txn = snap.owner
  | _ => false

namespace Backends

variable {backends next : Backends} {snap : Snap} {rel after : Relation} {txn : TxnId}

/-- The xids and command ids of the commands that the snapshot does not see. -/
def Unseen (backends : Backends) (snap : Snap) (xid : TransactionId) (cid : CommandId) : Prop :=
  ∃ op : Command, Known backends.history op ∧ snap.sees op = false ∧
    xid = storedXid op.txn.xid ∧ cid = storedCid op.cid

/-- The xids of a transaction, with any command id. -/
def Owns (backends : Backends) (txn : TxnId) (xid : TransactionId) (_ : CommandId) : Prop :=
  ∃ writer : Writer, writer.txn = txn ∧ ⟨writer.xid, txn, false⟩ ∈ backends.history.assigned ∧
    xid = storedXid writer.xid

/-- The xids of a transaction, with the command id of its current command. -/
def Executing (backends : Backends) (txn : TxnId) (xid : TransactionId) (cid : CommandId) : Prop :=
  backends.Owns txn xid cid ∧ cid = storedCid (backends.xact txn).cid

theorem storedCid_toNat (cid : CommandId) : storedCid cid.toNat = cid := by
  rw [storedCid, BitVec.ofNat_toNat, BitVec.setWidth_eq]

theorem rowVisible_iff (inv : backends.Inv) (member : snap ∈ backends.snaps) (row : StoredHeader) :
    backends.rowVisible snap row = true ↔
      (History.Happened snap.taken backends.history snap.owner (storedCid snap.curcid) row.xmin
            row.cmin ∧ ¬ History.TooOld snap.taken backends.history row.xmin ∨
          History.CommittedSince snap.taken backends.history snap.owner row.xmin) ∧
        ¬ (History.Happened snap.taken backends.history snap.owner (storedCid snap.curcid) row.xmax
            row.cmax ∧ ¬ History.TooOld snap.taken backends.history row.xmax ∨
          History.CommittedSince snap.taken backends.history snap.owner row.xmax) :=
  (inv.snapshots.use snap member).rowVisible_iff (storedCid snap.curcid) row

theorem counts_iff (inv : backends.Inv) (member : snap ∈ backends.snaps) {op : Command}
    (known : Known backends.history op) :
    History.Happened snap.taken backends.history snap.owner (storedCid snap.curcid)
          (storedXid op.txn.xid) (storedCid op.cid) ∧
        ¬ History.TooOld snap.taken backends.history (storedXid op.txn.xid) ∨
      History.CommittedSince snap.taken backends.history snap.owner (storedXid op.txn.xid) ↔
    snap.sees op = true :=
  snap.counts_iff_sees (inv.snapshots.use snap member)
    (Nat.lt_of_le_of_lt (inv.snapshots.curcid snap member) (inv.cids snap.owner)) known
    (Nat.le_trans inv.postgres.near (Nat.le_add_left _ _))

/-- A reclaimed command had ended when the snapshot was taken, whatever its command id. -/
theorem sees_of_reclaimed (inv : backends.Inv) (sound : backends.Sound rel)
    (member : snap ∈ backends.snaps) {op : Command} (inLog : op ∈ rel.log)
    (below : op.txn.xid < rel.watermark) (cid : Nat) : snap.sees { op with cid := cid } = true := by
  have known := sound.known op inLog
  have ended : backends.history.status op.txn.txn ≠ .running := by
    intro running
    exact absurd (sound.watermark_le known running) (Nat.not_le.mpr below)
  have foreign : op.txn.txn ≠ snap.owner := by
    intro own
    exact ended (own ▸ (inv.snapshots.use snap member).reading)
  have committed := committed_of_sees inv.snapshots member
    (sound.reclaimed snap member op inLog below) foreign
  simp [Snap.sees, committed.1]

/-- A snapshot in use is blind to the commands that it does not see. -/
theorem blind (inv : backends.Inv) (sound : backends.Sound rel) (member : snap ∈ backends.snaps) :
    Blind (backends.Unseen snap) rel.Reclaimed (backends.rowVisible snap) where
  inserted header made := by
    obtain ⟨op, known, unseen, xmin, cmin⟩ := made
    rw [← Bool.not_eq_true, rowVisible_iff inv member, xmin, cmin, counts_iff inv member known, unseen]
    exact fun visible => Bool.false_ne_true visible.1
  deleted header xmax cmax live made := by
    obtain ⟨op, known, unseen, rfl, rfl⟩ := made
    rw [Bool.eq_iff_iff, rowVisible_iff inv member, rowVisible_iff inv member,
      counts_iff inv member known, unseen]
    refine and_congr_right fun _ => iff_of_true Bool.false_ne_true fun counts => ?_
    exact (inv.snapshots.use snap member).nonzero_of_counts counts live
  gone header dead := by
    obtain ⟨op, inLog, xmax, below⟩ := dead
    have known := sound.known op inLog
    have again : Known backends.history { op with cid := header.cmax.toNat } :=
      ⟨known.assigned, header.cmax.isLt⟩
    have deleted := (counts_iff inv member again).mpr
      (sees_of_reclaimed inv sound member inLog below header.cmax.toNat)
    rw [storedCid_toNat] at deleted
    rw [← Bool.not_eq_true, rowVisible_iff inv member, xmax]
    exact fun visible => visible.2 deleted

theorem unseen_of_executing (inv : backends.Inv) (member : snap ∈ backends.snaps)
    (running : backends.history.status txn = .running) {xid : TransactionId} {cid : CommandId}
    (executing : backends.Executing txn xid cid) : backends.Unseen snap xid cid := by
  obtain ⟨⟨writer, rfl, assigned, same⟩, current⟩ := executing
  refine ⟨⟨writer, (backends.xact writer.txn).cid, 0, none⟩, ⟨assigned, inv.cids writer.txn⟩, ?_, same,
    current⟩
  exact Follows.unseen_of_executes inv.snapshots running rfl member

theorem unseen_of_foreign (inv : backends.Inv) (member : snap ∈ backends.snaps)
    (running : backends.history.status txn = .running) (foreign : txn ≠ snap.owner)
    {xid : TransactionId} {cid : CommandId} (owns : backends.Owns txn xid cid) :
    backends.Unseen snap xid cid := by
  obtain ⟨writer, rfl, assigned, same⟩ := owns
  refine ⟨⟨writer, cid.toNat, 0, none⟩, ⟨assigned, cid.isLt⟩, ?_, same, (storedCid_toNat cid).symm⟩
  exact inv.snapshots.unseen member running fun own => absurd own foreign

/-- What an event makes of the relation: it changes the writer's copy, publishes it, or leaves
everybody's view. -/
inductive Alters (backends : Backends) : Backends → Prop where
  | writes {txn : TxnId} {after : Relation} (active : backends.active txn = true)
      (mayWrite : backends.mayWrite txn = true)
      (rewrites : (backends.view txn).Rewrites (backends.Executing txn) after) :
      Alters backends { backends with writer := some (txn, after) }
  | publishes {txn : TxnId} {next : Backends} (active : backends.active txn = true)
      (history : next.history = backends.history) (file : next.file = backends.view txn)
      (writer : next.writer = if backends.mayWrite txn then none else backends.writer) :
      Alters backends next
  | keeps {next : Backends} (since : backends.history.Since next.history)
      (file : next.file = backends.file)
      (writer : next.writer = backends.writer ∨ next.writer = none)
      (view : ∀ snap ∈ next.snaps, next.view snap.owner = backends.view snap.owner) :
      Alters backends next

theorem executing_of_author {writer : Writer} (author : backends.Author writer) :
    backends.Executing writer.txn (storedXid writer.xid) (storedCid (backends.xact writer.txn).cid) :=
  ⟨⟨writer, rfl, History.mem_assigned_of_topXid author.top, rfl⟩, rfl⟩

theorem view_eq (file : next.file = backends.file) (writer : next.writer = backends.writer)
    (txn : TxnId) : next.view txn = backends.view txn := by
  rw [view, view, file, writer]

theorem hits_of_allowed {snapId : Nat} {rowid : Int}
    (allowed : ∃ snap ∈ backends.snaps, snap.id = snapId ∧ snap.owner = txn ∧
      ∃ row ∈ (backends.view txn).table.rows, row.rowid = rowid ∧ row.xmax = 0#32 ∧
        backends.rowVisible snap row.toStoredHeader = true) :
    (backends.view txn).hits rowid = true := by
  obtain ⟨_, _, _, _, row, member, same, live, _⟩ := allowed
  exact Relation.hits_iff.mpr ⟨row, member, same, live⟩

theorem alters_of_step (inv : backends.Inv) {event : BackendsEvent} (allowed : backends.Allowed event)
    (stepped : backends.step event = some next) : backends.Alters next := by
  have formed := inv.postgres.formed
  cases does_of_step stepped with
  | begin _ unstarted =>
      exact .keeps (.change formed (.begin unstarted)) rfl (.inl rfl) fun _ _ => rfl
  | assign running =>
      exact .keeps (.change formed (.assign running)) rfl (.inl rfl) fun _ _ => rfl
  | commandCounterIncrement | takeSnapshot | releaseSnapshot | scanBegin | scanGetnext
  | scanRescan | insertsNothing | skips =>
      exact .keeps (.refl _) rfl (.inl rfl) fun _ _ => rfl
  | doTupleInsert author tuple =>
      exact .writes author.active author.mayWrite (.doTupleInsert (executing_of_author author) tuple)
  | multiInsert author =>
      exact .writes author.active author.mayWrite (.multiInsert (executing_of_author author) _)
  | tupleDelete author =>
      exact .writes author.active author.mayWrite
        (.tupleDelete (executing_of_author author) (hits_of_allowed allowed))
  | tupleUpdate author _ _ tuple =>
      exact .writes author.active author.mayWrite
        (.tupleUpdate (executing_of_author author) (hits_of_allowed allowed) tuple)
  | @relationVacuum txn oldest active mayWrite runs =>
      have sound := inv.sound_view txn
      exact .writes active mayWrite
        (.vacuum sound.stores (.of_known inv.postgres sound.known) allowed.1 runs)
  | reset => exact allowed.elim
  | preCommit active => exact .publishes active rfl rfl rfl
  | commit _ running =>
      exact .keeps (.change formed (.finish running (.inl rfl))) rfl (.inl rfl) fun _ _ => rfl
  | @abort txn running =>
      refine .keeps (.change formed (.finish running (.inr rfl))) rfl ?_ fun snap member => ?_
      · by_cases mayWrite : backends.mayWrite txn = true
        · exact .inr (if_pos mayWrite)
        · exact .inl (if_neg mayWrite)
      · have other : snap.owner ≠ txn := by simpa using (List.mem_filter.mp member).2
        by_cases mayWrite : backends.mayWrite txn = true
        · rw [view_of_free (if_pos mayWrite)]
          rcases mayWrite_iff.mp mayWrite with free | ⟨work, held⟩
          · exact (view_of_free free).symm
          · rw [view_of_held held, if_neg other.symm]
            rfl
        · refine view_eq ?_ ?_ snap.owner
          · rfl
          · exact if_neg mayWrite

/-! ## The writer's copy behind the file -/

/-- The writer's copy comes from the file by the writer's own commands, and by VACUUM. -/
def Shadows (backends : Backends) : Prop :=
  ∀ holder work, backends.writer = some (holder, work) →
    backends.file.Rewrites (backends.Owns holder) work

theorem Owns.since (since : backends.history.Since next.history) {xid : TransactionId}
    {cid : CommandId} (owns : backends.Owns txn xid cid) : next.Owns txn xid cid := by
  obtain ⟨writer, own, assigned, same⟩ := owns
  exact ⟨writer, own, since.kept _ assigned (.inl rfl), same⟩

theorem Shadows.alters (shadows : backends.Shadows) (alters : backends.Alters next) : next.Shadows := by
  intro holder work held
  cases alters with
  | @writes txn after active mayWrite rewrites =>
      cases held
      have written := rewrites.mono fun _ _ executing => executing.1
      rcases mayWrite_iff.mp mayWrite with free | ⟨before, held⟩
      · rw [view_of_free free] at written
        exact written
      · rw [view_of_held held, if_pos rfl] at written
        exact (shadows _ before held).trans written
  | @publishes txn _ active history file writer =>
      by_cases mayWrite : backends.mayWrite txn = true
      · rw [writer, if_pos mayWrite] at held
        cases held
      · rw [writer, if_neg mayWrite] at held
        rw [file, view_of_held held, if_neg (ne_of_not_mayWrite mayWrite held)]
        exact (shadows holder work held).mono fun _ _ owns => owns.since (history ▸ .refl _)
  | keeps since file writer _ =>
      rcases writer with same | free
      · rw [same] at held
        rw [file]
        exact (shadows holder work held).mono fun _ _ owns => owns.since since
      · rw [free] at held
        cases held

/-- The rows that a snapshot shows to its transaction. -/
def shown (backends : Backends) (snap : Snap) : List (Int × Bytes) :=
  SqliteHeap.shown (backends.rowVisible snap) (backends.view snap.owner).table.rows

theorem shown_of_history (history : next.history = backends.history) :
    next.shown snap =
      SqliteHeap.shown (backends.rowVisible snap) (next.view snap.owner).table.rows := by
  have visible : next.rowVisible snap = backends.rowVisible snap := by
    funext row
    rw [rowVisible, rowVisible, history]
  rw [shown, visible]

/-- A step leaves the rows that a snapshot shows, while the snapshot is in use. -/
theorem shown_step (inv : backends.Inv) (shadows : backends.Shadows) (after : next.Inv)
    (alters : backends.Alters next) (member : snap ∈ backends.snaps) (member' : snap ∈ next.snaps) :
    next.shown snap = backends.shown snap := by
  cases alters with
  | @writes txn work active mayWrite rewrites =>
      rw [shown_of_history rfl]
      by_cases own : txn = snap.owner
      · subst own
        have sound := (after.work _ work rfl).sound
        rw [view_of_held rfl, if_pos rfl]
        refine rewrites.shown ((blind after sound member').mono (fun xid cid executing => ?_)
          fun _ dead => dead)
        exact unseen_of_executing inv member (active_iff.mp active).1 executing
      · rw [view_of_held rfl, if_neg own]
        rcases mayWrite_iff.mp mayWrite with free | ⟨before, held⟩
        · rw [shown, view_of_free free]
          rfl
        · rw [shown, view_of_held held, if_neg own]
          rfl
  | @publishes txn _ active history file writer =>
      rw [shown_of_history history]
      by_cases mayWrite : backends.mayWrite txn = true
      · rw [view_of_free (writer.trans (if_pos mayWrite)), file]
        rcases mayWrite_iff.mp mayWrite with free | ⟨work, held⟩
        · rw [shown, view_of_free free, view_of_free free]
        · rw [shown, view_of_held held, view_of_held held, if_pos rfl]
          by_cases own : txn = snap.owner
          · rw [if_pos own]
          · rw [if_neg own]
            have sound := (inv.work _ work held).sound
            refine (shadows _ work held).shown ((blind inv sound member).mono
              (fun xid cid owns => ?_) fun _ dead => dead)
            exact unseen_of_foreign inv member (active_iff.mp active).1 own owns
      · obtain ⟨holder, work, held, different⟩ := held_of_not_mayWrite mayWrite
        have published : backends.view txn = backends.file := by
          rw [view_of_held held, if_neg different]
        rw [shown, view_eq (file.trans published) (writer.trans (if_neg mayWrite))]
  | keeps since file writer view =>
      rw [shown, shown, view snap member']
      refine shown_congr fun row inTable => ?_
      exact (inv.stays after.snapshots after.postgres since member member').rowVisible
        ((inv.sound_view snap.owner).readable member) inTable

structure Ordered (backends : Backends) : Prop where
  inv : backends.Inv
  shadows : backends.Shadows

theorem Ordered.start : Backends.start.Ordered := ⟨.start, fun _ _ held => nomatch held⟩

theorem Ordered.step (ordered : backends.Ordered) {event : BackendsEvent}
    (allowed : backends.Allowed event) (stepped : backends.step event = some next) : next.Ordered :=
  ⟨ordered.inv.step (ordered.inv.steps_of_step allowed stepped),
    ordered.shadows.alters (alters_of_step ordered.inv allowed stepped)⟩

theorem Ordered.run {events : List BackendsEvent} (ordered : backends.Ordered)
    (reached : Backends.run backends events = some next)
    (allowed : Transition.Meets Backends.step Backends.Allowed backends events) : next.Ordered :=
  Transition.run_invariant (fun _ _ _ ordered allowed stepped => ordered.step allowed stepped) ordered
    allowed reached

theorem mem_snaps_of_step {event : BackendsEvent} (member : snap ∈ backends.snaps)
    (stepped : backends.step event = some next) (stays : event.ends snap = false) :
    snap ∈ next.snaps := by
  cases does_of_step stepped with
  | takeSnapshot => exact List.mem_append_left _ member
  | releaseSnapshot | commit | abort =>
      have other := Ne.symm (of_decide_eq_false stays)
      exact List.mem_filter.mpr ⟨member, decide_eq_true other⟩
  | begin | assign | commandCounterIncrement | doTupleInsert | insertsNothing | multiInsert
  | tupleDelete | tupleUpdate | skips | relationVacuum | reset | preCommit | scanBegin
  | scanGetnext | scanRescan => exact member

end Backends

/-- Fetching by TID finds the row that is shown there. -/
theorem content_fetch (visible : StoredHeader → Bool) (table : Table) (rowid : Int) :
    (SqliteScanState.fetchOneIntoSlot visible table rowid).map StoredRow.content =
      (shown visible table.rows).find? fun content => content.1 = rowid := by
  rw [shown, List.find?_map, List.find?_filter]
  refine congrArg _ (Option.ext fun row => ?_)
  let wanted : StoredRow → Bool := fun row => decide (visible row.toStoredHeader = true ∧
    decide (row.rowid = rowid) = true)
  change _ ↔ table.rows.find? wanted = some row
  rw [SqliteScanState.fetchOneIntoSlot_eq_some_iff]
  constructor
  · intro ⟨member, same, seen⟩
    cases found : table.rows.find? wanted with
    | none => exact absurd (List.find?_eq_none.mp found row member) (by simp [wanted, same, seen])
    | some other =>
        have hit : wanted other = true := List.find?_some found
        have rowid' : other.rowid = rowid := of_decide_eq_true (of_decide_eq_true hit).2
        rw [Table.eq_of_rowid_eq table.sorted (List.mem_of_find?_eq_some found) member
          (rowid'.trans same.symm)]
  · intro found
    have hit : wanted row = true := List.find?_some found
    obtain ⟨seen, same⟩ := of_decide_eq_true hit
    exact ⟨List.mem_of_find?_eq_some found, of_decide_eq_true same, seen⟩

namespace Backends

/-- `index_fetch_tuple` and `tuple_fetch_row_version`, under a snapshot. -/
def fetch (backends : Backends) (snap : Snap) (rowid : Int) : Option StoredRow :=
  SqliteScanState.fetchOneIntoSlot (backends.rowVisible snap) (backends.view snap.owner).table rowid

end Backends

end SqliteHeap
