import SqliteHeap.SnapshotReads

/-! What the writes of the access method do to the versions that a relation stores.
A stamp ends the live version of a logical row, an insert adds one, and VACUUM removes
those that ended before its horizon. -/

set_option autoImplicit false

namespace SqliteHeap

open Versions

/-- Stored xids of these commands are ids below half the circle. -/
def SmallXids (log : List Command) : Prop := ∀ op ∈ log, 3 ≤ op.txn.xid ∧ op.txn.xid < 2 ^ 31

theorem SmallXids.of_known {history : History} (postgres : TopLevel history) {log : List Command}
    (known : ∀ op ∈ log, Known history op) : SmallXids log := by
  intro op member
  have below := (known op member).lt_nextXid postgres
  have normal : 3 ≤ op.txn.xid % 2 ^ 32 := postgres.formed.normal _ (known op member).assigned
  have near := postgres.near
  omega

theorem storedXid_toNat {xid : Nat} (small : xid < 2 ^ 31) : (storedXid xid).toNat = xid := by
  rw [storedXid, BitVec.toNat_ofNat]
  omega

theorem storedXid_toInt {xid : Nat} (small : xid < 2 ^ 31) : (storedXid xid).toInt = xid := by
  rw [BitVec.toInt_eq_toNat_cond, storedXid_toNat small]
  split <;> omega

theorem storedXid_ne_zero {xid : Nat} (positive : 0 < xid) (small : xid < 2 ^ 31) :
    storedXid xid ≠ 0#32 := by
  intro zero
  have value := storedXid_toNat small
  rw [zero] at value
  simp at value
  omega

namespace RowImage

theorem xmax_ofVersion_iff {log : List Command} (small : SmallXids log) {version : RowVersion}
    (member : version ∈ versions log) :
    (ofVersion version).header.xmax = 0#32 ↔ version.live = true := by
  cases ended : version.deleter with
  | none => simp [ofVersion, Version.live, ended]
  | some op =>
      have bounds := small op ((mem_log member).2 op ended).1
      simp [ofVersion, Version.live, ended, storedXid_ne_zero (by omega) bounds.2]

end RowImage

namespace Relation

variable {rel : Relation}

theorem eq_of_named_eq (stores : rel.Stores) (small : SmallXids rel.log) {first second : StoredRow}
    (inFirst : first ∈ rel.table.rows) (inSecond : second ∈ rel.table.rows)
    (live : first.xmax = 0#32) (live' : second.xmax = 0#32)
    (same : rel.named first.rowid = rel.named second.rowid) : first = second := by
  let isLive : RowImage → Bool := fun image => image.header.xmax = 0#32
  have keys : (rel.table.rows.filter (isLive ∘ rel.image)).map (fun row => rel.named row.rowid) =
      (((versions rel.log).filter rel.keeps).filter Version.live).map fun version =>
        version.creator.key := by
    calc (rel.table.rows.filter (isLive ∘ rel.image)).map (RowImage.key ∘ rel.image)
        = ((rel.table.rows.map rel.image).filter isLive).map RowImage.key := by
          rw [List.filter_map, List.map_map]
      _ = (((versions rel.log).filter rel.keeps).filter (isLive ∘ RowImage.ofVersion)).map
            (RowImage.key ∘ RowImage.ofVersion) := by
          rw [stores, List.filter_map, List.map_map]
      _ = _ := by
          have liveness : ∀ version ∈ (versions rel.log).filter rel.keeps,
              (isLive ∘ RowImage.ofVersion) version = version.live := by
            intro version member
            rw [Bool.eq_iff_iff]
            simpa [isLive] using
              RowImage.xmax_ofVersion_iff small (List.mem_filter.mp member).1
          rw [List.filter_congr liveness]
          rfl
  have distinct : ((versions rel.log).filter Version.live |>.map fun version =>
      version.creator.key).Nodup := by
    have nodup := store_keys_nodup rel.log
    rw [← live_eq_store, List.map_map] at nodup
    exact nodup
  have nodup : ((rel.table.rows.filter (isLive ∘ rel.image)).map
      fun row => rel.named row.rowid).Nodup := by
    rw [keys, List.filter_filter]
    refine List.Nodup.sublist (List.Sublist.map _ ?_) distinct
    refine List.monotone_filter_right _ fun version both => ?_
    exact (Bool.and_eq_true_iff.mp both).1
  refine List.inj_on_of_nodup_map nodup ?_ ?_ same
  · exact List.mem_filter.mpr ⟨inFirst, decide_eq_true live⟩
  · exact List.mem_filter.mpr ⟨inSecond, decide_eq_true live'⟩

theorem isLive_iff {rowid : Int} {row : StoredRow} :
    Table.isLive rowid row = true ↔ row.rowid = rowid ∧ row.xmax = 0#32 := by
  rw [Table.isLive, decide_eq_true_iff, bindU32_eq_zero_iff]

theorem hits_iff {rowid : Int} :
    rel.hits rowid = true ↔ ∃ row ∈ rel.table.rows, row.rowid = rowid ∧ row.xmax = 0#32 := by
  simp only [hits, List.any_eq_true, isLive_iff]

/-- What a command makes of the image of a row: it ends a live version of its key. -/
def superseded (op : Command) (image : RowImage) : RowImage :=
  if image.key = op.key ∧ image.header.xmax = 0#32 then
    { image with header :=
      { image.header with xmax := storedXid op.txn.xid, cmax := storedCid op.cid } }
  else image

theorem image_stamp (stores : rel.Stores) (small : SmallXids rel.log) {target row : StoredRow}
    (inTable : target ∈ rel.table.rows) (live : target.xmax = 0#32) (member : row ∈ rel.table.rows)
    {op : Command} (key : op.key = rel.named target.rowid) :
    rel.image (Table.stamp target.rowid (storedXid op.txn.xid) (storedCid op.cid) row) =
      superseded op (rel.image row) := by
  have condition : Table.isLive target.rowid row = true ↔
      rel.named row.rowid = op.key ∧ row.xmax = 0#32 := by
    rw [isLive_iff, key]
    refine and_congr_left fun liveRow => ⟨fun same => by rw [same], fun same => ?_⟩
    rw [eq_of_named_eq stores small member inTable liveRow live same]
  by_cases stamped : Table.isLive target.rowid row = true
  · simp [Table.stamp, image, superseded, stamped, condition.mp stamped]
  · have unstamped : ¬ ((rel.image row).key = op.key ∧ (rel.image row).header.xmax = 0#32) :=
      fun both => stamped (condition.mpr both)
    rw [Table.stamp, if_neg stamped, superseded, if_neg unstamped]

theorem ofVersion_supersede {log : List Command} (small : SmallXids log) {version : RowVersion}
    (member : version ∈ versions log) (op : Command) :
    RowImage.ofVersion (supersede op version) = superseded op (RowImage.ofVersion version) := by
  have liveness := RowImage.xmax_ofVersion_iff small member
  by_cases ends : version.creator.key = op.key ∧ version.live = true
  · have stamped : (RowImage.ofVersion version).key = op.key ∧
        (RowImage.ofVersion version).header.xmax = 0#32 := ⟨ends.1, liveness.mpr ends.2⟩
    rw [supersede, if_pos ends, superseded, if_pos stamped]
    rfl
  · have unstamped : ¬ ((RowImage.ofVersion version).key = op.key ∧
        (RowImage.ofVersion version).header.xmax = 0#32) :=
      fun both => ends ⟨both.1, liveness.mp both.2⟩
    rw [supersede, if_neg ends, superseded, if_neg unstamped]

theorem keeps_supersede {op : Command} (above : rel.watermark ≤ op.txn.xid) (version : RowVersion) :
    rel.keeps (supersede op version) = rel.keeps version := by
  unfold supersede
  split
  · next ends =>
      have live : version.deleter = none := by simpa [Version.live] using ends.2
      simp [keeps, live, above]
  · rfl

/-- Stamping a TID without `xmax` ends the live version of its logical row. -/
theorem stamp_image (stores : rel.Stores) (small : SmallXids rel.log) {rowid : Int}
    (hit : rel.hits rowid = true) {op : Command} (key : op.key = rel.named rowid)
    (above : rel.watermark ≤ op.txn.xid) :
    (rel.table.rows.map
        (Table.stamp rowid (storedXid op.txn.xid) (storedCid op.cid))).map rel.image =
      (((versions rel.log).map (supersede op)).filter rel.keeps).map RowImage.ofVersion := by
  obtain ⟨target, inTable, rfl, live⟩ := hits_iff.mp hit
  calc (rel.table.rows.map
        (Table.stamp target.rowid (storedXid op.txn.xid) (storedCid op.cid))).map rel.image
      = (rel.table.rows.map rel.image).map (superseded op) := by
        rw [List.map_map, List.map_map]
        exact List.map_congr_left fun row member => image_stamp stores small inTable live member key
    _ = ((versions rel.log).filter rel.keeps).map (superseded op ∘ RowImage.ofVersion) := by
        rw [stores, List.map_map]
    _ = ((versions rel.log).filter rel.keeps).map (RowImage.ofVersion ∘ supersede op) :=
        List.map_congr_left fun version member =>
          (ofVersion_supersede small (List.mem_filter.mp member).1 op).symm
    _ = _ := by
        have same : rel.keeps ∘ supersede op = rel.keeps := funext (keeps_supersede above)
        rw [List.filter_map, List.map_map, same]

theorem supersede_fresh {log : List Command} {op : Command}
    (fresh : ∀ other ∈ log, other.key ≠ op.key) : (versions log).map (supersede op) = versions log := by
  refine List.map_congr_left (fun version member => ?_) |>.trans (List.map_id _)
  have different := fresh _ (mem_log member).1
  simp [supersede, different]

theorem image_update {table : Table} {rows : List StoredRow} (below : ∀ row ∈ rows,
    row.rowid < table.nextRowid) (key : Nat) (other : Table) (log : List Command) :
    rows.map (image ⟨other, Function.update rel.named table.nextRowid key, log⟩) =
      rows.map rel.image := by
  refine List.map_congr_left fun row member => ?_
  have different : row.rowid ≠ table.nextRowid := (below row member).ne
  simp [image, different]

@[simp] theorem keeps_live (creator : Command) (value : Bytes) :
    rel.keeps ⟨creator, value, none⟩ = true := rfl

theorem stores_doTupleInsert (stores : rel.Stores) (fresh : ∀ op ∈ rel.log, op.key < rel.log.length)
    (writer : Writer) (cid : Nat) (tuple : Bytes) : (rel.doTupleInsert writer cid tuple).Stores := by
  have old : (versions rel.log).map (supersede ⟨writer, cid, rel.log.length, some tuple⟩) =
      versions rel.log := supersede_fresh fun op member => (fresh op member).ne
  have images : rel.table.rows.map (rel.doTupleInsert writer cid tuple).image =
      rel.table.rows.map rel.image :=
    image_update (fun row member => Table.rowid_lt_nextRowid member) _ _ _
  change (rel.table.rows ++ [_]).map _ = ((versions (rel.log ++ [_])).filter rel.keeps).map _
  rw [versions_append, extend, old, List.map_append, images, stores, List.filter_append,
    List.map_append]
  congr 1
  simp [image, RowImage.ofVersion, List.filter_cons, doTupleInsert, Table.insert]

theorem tupleDelete_eq {rowid : Int} (hit : rel.hits rowid = true) (writer : Writer) (cid : Nat) :
    rel.tupleDelete writer cid rowid =
      (⟨rel.table.stampRow rowid (storedXid writer.xid) (storedCid cid), rel.named,
        rel.log ++ [⟨writer, cid, rel.named rowid, none⟩]⟩, .ok) := by
  have affected : rel.table.rows.countP (Table.isLive rowid) ≠ 0 :=
    hits_eq_false_iff.not.mp (by simp [hit])
  exact if_neg affected

theorem stores_tupleDelete (stores : rel.Stores) (small : SmallXids rel.log) {rowid : Int}
    (hit : rel.hits rowid = true) {writer : Writer} (above : rel.watermark ≤ writer.xid) (cid : Nat) :
    (rel.tupleDelete writer cid rowid).1.Stores := by
  rw [tupleDelete_eq hit]
  have stamped := @stamp_image rel stores small rowid hit ⟨writer, cid, rel.named rowid, none⟩ rfl above
  change (rel.table.rows.map _).map rel.image = ((versions (rel.log ++ [_])).filter rel.keeps).map _
  rw [versions_append, extend, stamped, Option.map_none, Option.toList_none, List.append_nil]

theorem tupleUpdate_eq {rowid : Int} (hit : rel.hits rowid = true) (writer : Writer) (cid : Nat)
    (tuple : Bytes) :
    rel.tupleUpdate writer cid rowid tuple =
      (⟨(rel.table.stampRow rowid (storedXid writer.xid) (storedCid cid)).insertRow
          (storedXid writer.xid) (storedCid cid) tuple,
        Function.update rel.named
          (rel.table.stampRow rowid (storedXid writer.xid) (storedCid cid)).nextRowid
          (rel.named rowid),
        rel.log ++ [⟨writer, cid, rel.named rowid, some tuple⟩]⟩, .ok) := by
  rw [tupleUpdate, if_pos hit]
  rfl

theorem stores_tupleUpdate (stores : rel.Stores) (small : SmallXids rel.log) {rowid : Int}
    (hit : rel.hits rowid = true) {writer : Writer} (above : rel.watermark ≤ writer.xid) (cid : Nat)
    (tuple : Bytes) : (rel.tupleUpdate writer cid rowid tuple).1.Stores := by
  rw [tupleUpdate_eq hit]
  have stamped :=
    @stamp_image rel stores small rowid hit ⟨writer, cid, rel.named rowid, some tuple⟩ rfl above
  let after := rel.table.stampRow rowid (storedXid writer.xid) (storedCid cid)
  have images : after.rows.map (image ⟨after.insertRow (storedXid writer.xid) (storedCid cid) tuple,
      Function.update rel.named after.nextRowid (rel.named rowid),
      rel.log ++ [⟨writer, cid, rel.named rowid, some tuple⟩]⟩) = after.rows.map rel.image :=
    image_update (fun row member => Table.rowid_lt_nextRowid member) _ _ _
  change (after.rows ++ [_]).map _ = ((versions (rel.log ++ [_])).filter rel.keeps).map _
  rw [versions_append, extend, List.map_append, images, List.filter_append, List.map_append,
    ← stamped]
  congr 1
  simp [image, RowImage.ofVersion, List.filter_cons]

theorem watermark_vacuum {oldest : Nat} (small : oldest < 2 ^ 31)
    (runs : ¬ storedXid oldest ≤ rel.table.lastVacuumXmin) :
    (rel.vacuum (storedXid oldest)).watermark = oldest := by
  have table : (rel.vacuum (storedXid oldest)).table =
      (rel.table.keepRows fun row => !Table.isDead (storedXid oldest) row).upsertMeta
        Table.metaLastVacuumXmin (Table.toLeBytes (storedXid oldest)) := by
    simp [vacuum, relationVacuum, Table.vacuumDead, runs]
  have found : (rel.vacuum (storedXid oldest)).table.lastVacuumXmin = storedXid oldest := by
    rw [table]
    simp [Table.lastVacuumXmin, Table.metaGet, Table.upsertMeta, Table.fromLeBytes_toLeBytes]
  rw [watermark, found, storedXid_toNat small]

/-- VACUUM with this horizon leaves the row. -/
def outlives (oldest : Nat) (image : RowImage) : Bool :=
  !decide (image.header.xmax ≠ 0#32 ∧ image.header.xmax.toInt < (storedXid oldest).toInt)

theorem rows_vacuum {oldest : Nat} (runs : ¬ storedXid oldest ≤ rel.table.lastVacuumXmin) :
    (rel.vacuum (storedXid oldest)).table.rows = rel.table.rows.filter (outlives oldest ∘ rel.image) := by
  have same : (fun row => !Table.isDead (storedXid oldest) row) = outlives oldest ∘ rel.image := by
    funext row
    rw [Bool.eq_iff_iff, Bool.not_eq_true', ← Bool.not_eq_true, Vacuum.isDead_iff]
    simp only [outlives, image, Function.comp_apply, Bool.not_eq_true']
    exact decide_eq_false_iff_not.symm
  rw [← same]
  simp [vacuum, relationVacuum, Table.vacuumDead, runs, Table.keepRows, Table.upsertMeta]

theorem keeps_vacuum (small : SmallXids rel.log) {oldest : Nat} (near : oldest < 2 ^ 31)
    (runs : ¬ storedXid oldest ≤ rel.table.lastVacuumXmin) {version : RowVersion}
    (member : version ∈ versions rel.log) :
    (rel.vacuum (storedXid oldest)).keeps version =
      (outlives oldest (RowImage.ofVersion version) && rel.keeps version) := by
  have ahead : rel.watermark < oldest := by
    rw [BitVec.le_def, storedXid_toNat near] at runs
    exact Nat.not_le.mp runs
  cases ended : version.deleter with
  | none => simp [keeps, outlives, RowImage.ofVersion, ended]
  | some op =>
      have bounds := small op ((mem_log member).2 op ended).1
      have nonzero := storedXid_ne_zero (by omega) bounds.2
      rw [Bool.eq_iff_iff]
      simp only [keeps, ended, Option.all_some, outlives, RowImage.ofVersion, Option.map_some,
        Option.getD_some, watermark_vacuum near runs, storedXid_toInt bounds.2, storedXid_toInt near,
        Bool.and_eq_true, decide_eq_true_eq, Bool.not_eq_true', decide_eq_false_iff_not, ne_eq,
        nonzero, not_false_eq_true, true_and]
      omega

/-- VACUUM removes the versions that ended before its horizon. -/
theorem stores_vacuum (stores : rel.Stores) (small : SmallXids rel.log) {oldest : Nat}
    (near : oldest < 2 ^ 31) (runs : ¬ storedXid oldest ≤ rel.table.lastVacuumXmin) :
    (rel.vacuum (storedXid oldest)).Stores := by
  change ((rel.vacuum (storedXid oldest)).table.rows).map rel.image = _
  calc ((rel.vacuum (storedXid oldest)).table.rows).map rel.image
      = ((rel.table.rows.map rel.image).filter (outlives oldest)) := by
        rw [rows_vacuum runs, List.filter_map]
    _ = (((versions rel.log).filter rel.keeps).filter (outlives oldest ∘ RowImage.ofVersion)).map
          RowImage.ofVersion := by rw [stores, List.filter_map]
    _ = ((versions rel.log).filter (rel.vacuum (storedXid oldest)).keeps).map
          RowImage.ofVersion := by
        rw [List.filter_filter]
        congr 1
        exact List.filter_congr fun version member => (keeps_vacuum small near runs member).symm

end Relation

end SqliteHeap
