import SqliteHeap.Lineage

/-! What a write leaves of the rows that its transaction reads: it adds rows at successive
rowids and ends versions, and the earlier rows keep their TIDs and tuples. -/

set_option autoImplicit false

namespace SqliteHeap

def newRows : List Bytes → Int → List (Bytes × Int)
  | [], _ => []
  | tuple :: rest, rowid => (tuple, rowid) :: newRows rest (rowid + 1)

def Lineage.news (lineage : Lineage) (event : BackendsEvent) : List (Bytes × Int) :=
  match event.inserter with
  | none => []
  | some txn => newRows event.tuples (lineage.backends.view txn).table.nextRowid

/-- A trace and a table with some new rows of a transaction. Rows keep their TIDs, tuples and
versions, and a version that was ended stays so. -/
structure Trace.Extends (txn : TxnId) (news : List (Bytes × Int)) (trace : Trace) (table : Table)
    (after : Trace) (larger : Table) : Prop where
  rows : ∀ row ∈ larger.rows,
    (∃ old ∈ table.rows, old.rowid = row.rowid ∧ old.tuple = row.tuple) ∨
      (row.tuple, row.rowid) ∈ news ∧ after.ids row.rowid < after.count ∧
        (after.creator (after.ids row.rowid)).txn.txn = txn
  rowids : ∀ new ∈ news, table.nextRowid ≤ new.2 ∧ new.2 < larger.nextRowid
  distinct : ∀ first ∈ news, ∀ second ∈ news, first.2 = second.2 → first = second
  next : table.nextRowid ≤ larger.nextRowid
  count : trace.count ≤ after.count
  ids : ∀ rowid < table.nextRowid, after.ids rowid = trace.ids rowid
  creator : ∀ id < trace.count, after.creator id = trace.creator id
  deleter : ∀ id < trace.count, ∀ op, trace.deleter id = some op → after.deleter id = some op

namespace Trace.Extends

variable {txn : TxnId} {news more : List (Bytes × Int)} {trace middle after : Trace}
  {table between larger : Table}

theorem of_rows (rows : larger.rows = table.rows) (trace : Trace) :
    trace.Extends txn [] table trace larger where
  rows row member := .inl ⟨row, rows ▸ member, rfl, rfl⟩
  rowids := nofun
  distinct := nofun
  next := by rw [Table.nextRowid, Table.nextRowid, rows]
  count := Nat.le_refl _
  ids _ _ := rfl
  creator _ _ := rfl
  deleter _ _ _ found := found

theorem trans (first : trace.Extends txn news table middle between)
    (second : middle.Extends txn more between after larger) :
    trace.Extends txn (news ++ more) table after larger where
  rows row member := by
    rcases second.rows row member with ⟨old, inBetween, rowid, tuple⟩ | ⟨inMore, below, own⟩
    · rw [← rowid, ← tuple]
      rcases first.rows old inBetween with earlier | ⟨inNews, below, own⟩
      · exact .inl earlier
      · have kept := second.ids old.rowid (Table.rowid_lt_nextRowid inBetween)
        refine .inr ⟨List.mem_append_left _ inNews, ?_, ?_⟩
        · rw [kept]
          exact Nat.lt_of_lt_of_le below second.count
        · rw [kept, second.creator _ below]
          exact own
    · exact .inr ⟨List.mem_append_right _ inMore, below, own⟩
  rowids :=
    List.forall_mem_append.mpr
      ⟨fun new member => ⟨(first.rowids new member).1, (first.rowids new member).2.trans_le second.next⟩,
        fun new member => ⟨first.next.trans (second.rowids new member).1, (second.rowids new member).2⟩⟩
  distinct := by
    refine List.forall_mem_append.mpr ⟨fun old inOld => List.forall_mem_append.mpr
        ⟨first.distinct old inOld, fun new inNew same => ?_⟩,
      fun new inNew => List.forall_mem_append.mpr ⟨fun old inOld same => ?_, second.distinct new inNew⟩⟩
    · have order := (first.rowids old inOld).2.trans_le (second.rowids new inNew).1
      exact absurd same order.ne
    · have order := (first.rowids old inOld).2.trans_le (second.rowids new inNew).1
      exact absurd same.symm order.ne
  next := first.next.trans second.next
  count := first.count.trans second.count
  ids rowid below := (second.ids rowid (below.trans_le first.next)).trans (first.ids rowid below)
  creator id below :=
    (second.creator id (Nat.lt_of_lt_of_le below first.count)).trans (first.creator id below)
  deleter id below op found :=
    second.deleter id (Nat.lt_of_lt_of_le below first.count) op (first.deleter id below op found)

theorem insert (op : Command) (own : op.txn.txn = txn) (trace : Trace) (table : Table)
    (xmin : TransactionId) (cmin : CommandId) (tuple : Bytes) :
    trace.Extends txn [(tuple, table.nextRowid)] table (trace.insert op table.nextRowid)
      (table.insertRow xmin cmin tuple) where
  rows := by
    refine List.forall_mem_append.mpr ⟨fun row member => .inl ⟨row, member, rfl, rfl⟩,
      List.forall_mem_singleton.mpr (.inr ⟨List.mem_singleton_self _, ?_, ?_⟩)⟩
    · exact (ids_insert_self op _ trace).symm ▸ Nat.lt_succ_self _
    · rw [ids_insert_self, creator_insert_self, own]
  rowids := List.forall_mem_singleton.mpr ⟨Int.le_refl _, by simp [Table.nextRowid]⟩
  distinct := List.forall_mem_singleton.mpr (List.forall_mem_singleton.mpr fun _ => rfl)
  next := by simp [Table.nextRowid]
  count := Nat.le_succ _
  ids rowid below := ids_insert_of_ne op _ trace below.ne
  creator id below := creator_insert_of_lt op _ trace below
  deleter id below _ found := (deleter_insert_of_lt op _ trace below).trans found

theorem stamp {rowid : Int} (live : trace.deleter (trace.ids rowid) = none) (op : Command)
    (table : Table) (xmax : TransactionId) (cmax : CommandId) :
    trace.Extends txn [] table (trace.stamp op rowid) (table.stampRow rowid xmax cmax) where
  rows row member := by
    obtain ⟨old, inOld, rfl⟩ := List.mem_map.mp member
    refine .inl ⟨old, inOld, (Table.stamp_rowid _ _ _ _).symm, ?_⟩
    unfold Table.stamp
    split <;> rfl
  rowids := nofun
  distinct := nofun
  next := (Table.nextRowid_stampRow _ _ _ _).ge
  count := Nat.le_refl _
  ids _ _ := rfl
  creator _ _ := rfl
  deleter id _ ended found := by
    have different : id ≠ trace.ids rowid := by
      rintro rfl
      rw [live] at found
      cases found
    exact (deleter_stamp_of_ne op rowid trace different).trans found

theorem multiInsert (writer : Writer) (cid : Nat) (tuples : List Bytes) (trace : Trace) (table : Table) :
    trace.Extends writer.txn (newRows tuples table.nextRowid) table
      (trace.multiInsert writer cid tuples table.nextRowid)
      (table.insertBatch (storedXid writer.xid) (storedCid cid) tuples).1 := by
  induction tuples generalizing trace table with
  | nil => exact .of_rows rfl trace
  | cons tuple rest ih =>
      let op : Command := ⟨writer, cid, trace.count, some tuple⟩
      have first := Extends.insert op rfl trace table (storedXid writer.xid) (storedCid cid) tuple
      have later := ih (trace.insert op table.nextRowid)
        (table.insertRow (storedXid writer.xid) (storedCid cid) tuple)
      rw [Table.nextRowid_insertRow] at later
      exact first.trans later

/-- More links and fewer rows change nothing of it. -/
theorem relink (extends' : trace.Extends txn news table after larger) (links : List Link) :
    trace.Extends txn news table { after with links := links } larger :=
  { extends' with }

end Trace.Extends

namespace Lineage

variable {lineage next : Lineage} {txn : TxnId} {event : BackendsEvent}

theorem news_of_tuples (tuples : event.tuples = []) : lineage.news event = [] := by
  unfold news
  split
  · rfl
  · rw [tuples, newRows]

/-- A write of a statement extends what its transaction reads by its new rows, and between
statements VACUUM and TRUNCATE remove rows. -/
theorem Alters.extending_or_removing {window : Nat} (told : lineage.Told window) {trace : Trace}
    {table : Table} (alters : lineage.Alters txn event trace table) :
    (lineage.view txn).Extends txn (lineage.news event) (lineage.backends.view txn).table trace table ∨
      event.between = some txn ∧ lineage.news event = [] ∧ trace = lineage.view txn ∧
        ∀ row ∈ table.rows, row ∈ (lineage.backends.view txn).table.rows := by
  have version {rowid : Int} (hit : (lineage.backends.view txn).hits rowid = true) :
      (lineage.view txn).deleter ((lineage.view txn).ids rowid) = none := by
    obtain ⟨target, inTable, isLive⟩ := List.any_eq_true.mp hit
    obtain ⟨rfl, live⟩ := Relation.isLive_iff.mp isLive
    exact ((told.tells.view txn).deleter_eq_none_iff told.driven.formed inTable).mpr live
  cases alters with
  | inserts inserter writes =>
      rw [Lineage.news, inserter]
      exact .inl (.multiInsert (lineage.writer txn) _ event.tuples _ _)
  | deletes writes snap rowid hit =>
      exact .inl ((Trace.Extends.stamp (version hit) _ _ _ _).relink _)
  | misses snap rowid rows => exact .inl (.of_rows rows _)
  | updates writes snap rowid tuple =>
      let op : Command := ⟨lineage.writer txn, (lineage.backends.xact txn).cid,
        (lineage.view txn).origin rowid, some tuple⟩
      have inserted (trace : Trace) := Trace.Extends.insert op rfl trace
        ((lineage.backends.view txn).table.stampRow rowid (storedXid (lineage.writer txn).xid)
          (storedCid (lineage.backends.xact txn).cid)) (storedXid (lineage.writer txn).xid)
        (storedCid (lineage.backends.xact txn).cid) tuple
      rw [Table.nextRowid_stampRow] at inserted
      refine .inl ?_
      cases hit : (lineage.backends.view txn).hits rowid with
      | true => exact ((Trace.Extends.stamp (version hit) op _ _ _).trans (inserted _)).relink _
      | false =>
          have missed : (lineage.view txn).Extends txn [] (lineage.backends.view txn).table
              (lineage.view txn) ((lineage.backends.view txn).table.stampRow rowid
                (storedXid (lineage.writer txn).xid) (storedCid (lineage.backends.xact txn).cid)) :=
            .of_rows (Table.stampRow_of_miss hit _ _) _
          exact (missed.trans (inserted _)).relink _
  | removes between tuples rows => exact .inr ⟨between, news_of_tuples tuples, rfl, rows⟩

theorem view_of_free (free : lineage.backends.writer = none) (txn : TxnId) :
    lineage.view txn = lineage.file ∧ lineage.backends.view txn = lineage.backends.file := by
  unfold Lineage.view Backends.view
  rw [free]
  exact ⟨rfl, rfl⟩

theorem view_of_held {rel : Relation} (held : lineage.backends.writer = some (txn, rel)) :
    lineage.view txn = lineage.work ∧ lineage.backends.view txn = rel := by
  unfold Lineage.view Backends.view
  rw [held]
  exact ⟨if_pos rfl, if_pos rfl⟩

theorem Alters.frees {trace : Trace} {table : Table} (alters : lineage.Alters txn event trace table) :
    lineage.backends.frees event = false := by
  cases alters with
  | inserts inserter _ => cases event <;> first | rfl | cases inserter
  | deletes | misses | updates => rfl
  | removes between _ _ => cases event <;> first | rfl | cases between

theorem view_of_blocked (blocked : lineage.backends.mayWrite txn = false) :
    lineage.view txn = lineage.file ∧ lineage.backends.view txn = lineage.backends.file := by
  obtain ⟨holder, rel, held, other⟩ :=
    Backends.held_of_not_mayWrite (Bool.eq_false_iff.mp blocked)
  unfold Lineage.view Backends.view
  rw [held]
  exact ⟨if_neg other, if_neg other⟩

end Lineage

end SqliteHeap
