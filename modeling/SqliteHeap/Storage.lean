import Mathlib.Data.List.Nodup
import Mathlib.Data.List.Pairwise
import Mathlib.Tactic.Common

/-! The SQLite file of one relation: the `storage` and `meta` tables, the SQL
statements that `sqlite.rs` runs on them and the values these return. -/

set_option autoImplicit false

namespace SqliteHeap

/-- Postgres's `u32` transaction and command counters. -/
abbrev TransactionId := BitVec 32
abbrev CommandId := BitVec 32
abbrev Bytes := List UInt8

/-- A row's MVCC bookkeeping. -/
structure StoredHeader where
  rowid : Int
  xmin : TransactionId
  cmin : CommandId
  xmax : TransactionId
  cmax : CommandId
deriving DecidableEq, Repr

/-- A stored row: MVCC header plus the opaque tuple bytes. -/
structure StoredRow extends StoredHeader where
  tuple : Bytes
deriving DecidableEq, Repr

/-- `bind_u32`: an unsigned column value is bound as a signed `int`, so this is
the number that SQL comparisons see. -/
def bindU32 (v : BitVec 32) : Int := v.toInt

/-- `col_u32`: the cast back when a row is read. -/
def colU32 (stored : Int) : BitVec 32 := BitVec.ofInt 32 stored

@[simp] theorem colU32_bindU32 (v : BitVec 32) : colU32 (bindU32 v) = v := BitVec.ofInt_toInt

theorem bindU32_eq_zero_iff {v : BitVec 32} : bindU32 v = 0 ↔ v = 0#32 := by
  rw [bindU32, ← BitVec.toInt_inj, BitVec.toInt_zero]

/-- Both tables of one file. `rows` is `storage` in rowid order; rowids come
from SQLite, which numbers from one. -/
structure Table where
  rows : List StoredRow
  metaRows : List (String × Bytes)
  sorted : rows.Pairwise fun before after => before.rowid < after.rowid
  positive : ∀ row ∈ rows, 1 ≤ row.rowid
deriving DecidableEq

namespace Table

/-- A freshly installed schema. -/
def empty : Table := ⟨[], [], List.Pairwise.nil, by simp⟩

/-- `max(rowid)`, or zero for an empty table. -/
def maxRowid (rows : List StoredRow) : Int :=
  match rows.getLast? with
  | none => 0
  | some row => row.rowid

@[simp] theorem maxRowid_append_singleton (front : List StoredRow) (last : StoredRow) :
    maxRowid (front ++ [last]) = last.rowid := by
  rw [maxRowid, List.getLast?_concat]

theorem rowid_le_maxRowid {rows : List StoredRow}
    (sorted : rows.Pairwise fun before after => before.rowid < after.rowid)
    {row : StoredRow} (member : row ∈ rows) : row.rowid ≤ maxRowid rows := by
  rcases List.eq_nil_or_concat rows with rfl | ⟨front, last, rfl⟩
  · simp at member
  · rw [List.concat_eq_append] at sorted member ⊢
    rw [maxRowid_append_singleton]
    rcases List.mem_append.mp member with earlier | final
    · exact Int.le_of_lt ((List.pairwise_append.mp sorted).2.2 row earlier last (by simp))
    · exact Int.le_of_eq (by rw [List.mem_singleton.mp final])

theorem eq_of_rowid_eq {rows : List StoredRow}
    (sorted : rows.Pairwise fun before after => before.rowid < after.rowid)
    {first second : StoredRow} (inFirst : first ∈ rows) (inSecond : second ∈ rows)
    (same : first.rowid = second.rowid) : first = second := by
  have unique : (rows.map fun row => row.rowid).Nodup :=
    List.pairwise_map.mpr (sorted.imp Int.ne_of_lt)
  exact List.inj_on_of_nodup_map unique inFirst inSecond same

theorem rows_nodup (table : Table) : table.rows.Nodup :=
  table.sorted.imp fun before same => by
    rw [same] at before
    exact Int.lt_irrefl _ before

theorem maxRowid_nonneg {rows : List StoredRow} (positive : ∀ row ∈ rows, 1 ≤ row.rowid) :
    0 ≤ maxRowid rows := by
  rcases List.eq_nil_or_concat rows with rfl | ⟨front, last, rfl⟩
  · simp [maxRowid]
  · rw [List.concat_eq_append] at positive ⊢
    rw [maxRowid_append_singleton]
    have bound := positive last (by simp)
    omega

/-- The rowid SQLite gives the next row: the key is a plain
`INTEGER PRIMARY KEY`, without AUTOINCREMENT. -/
def nextRowid (table : Table) : Int := maxRowid table.rows + 1

theorem rowid_lt_nextRowid {table : Table} {row : StoredRow} (member : row ∈ table.rows) :
    row.rowid < table.nextRowid := by
  have bound := rowid_le_maxRowid table.sorted member
  unfold nextRowid
  omega

theorem one_le_nextRowid (table : Table) : 1 ≤ table.nextRowid := by
  have bound := maxRowid_nonneg table.positive
  unfold nextRowid
  omega

/-- `INSERT INTO storage (xmin, cmin, tuple) VALUES (?1, ?2, ?3)`. -/
def insertRow (xmin : TransactionId) (cmin : CommandId) (tuple : Bytes) (table : Table) : Table where
  rows := table.rows ++ [⟨⟨table.nextRowid, xmin, cmin, 0#32, 0#32⟩, tuple⟩]
  metaRows := table.metaRows
  sorted := by
    rw [List.pairwise_append]
    refine ⟨table.sorted, by simp, ?_⟩
    intro before member after singleton
    rw [List.mem_singleton.mp singleton]
    exact rowid_lt_nextRowid member
  positive := by
    intro row member
    rcases List.mem_append.mp member with earlier | final
    · exact table.positive row earlier
    · rw [List.mem_singleton.mp final]
      exact table.one_le_nextRowid

/-- `WHERE rowid = ?3 AND xmax = 0`. -/
def isLive (rowid : Int) (row : StoredRow) : Bool := row.rowid = rowid ∧ bindU32 row.xmax = 0

/-- `SET xmax = ?1, cmax = ?2` on the rows of the WHERE clause. -/
def stamp (rowid : Int) (xmax : TransactionId) (cmax : CommandId) (row : StoredRow) : StoredRow :=
  if isLive rowid row then { row with xmax := xmax, cmax := cmax } else row

@[simp] theorem stamp_rowid (rowid : Int) (xmax : TransactionId) (cmax : CommandId)
    (row : StoredRow) : (stamp rowid xmax cmax row).rowid = row.rowid := by
  unfold stamp
  split <;> rfl

/-- `UPDATE storage SET xmax = ?1, cmax = ?2 WHERE rowid = ?3 AND xmax = 0`. -/
def stampRow (rowid : Int) (xmax : TransactionId) (cmax : CommandId) (table : Table) : Table where
  rows := table.rows.map (stamp rowid xmax cmax)
  metaRows := table.metaRows
  sorted := by simpa [List.pairwise_map] using table.sorted
  positive := by
    intro row member
    obtain ⟨old, oldMember, rfl⟩ := List.mem_map.mp member
    rw [stamp_rowid]
    exact table.positive old oldMember

theorem stampRow_of_miss {table : Table} {rowid : Int} (missed : table.rows.any (isLive rowid) = false)
    (xmax : TransactionId) (cmax : CommandId) : (table.stampRow rowid xmax cmax).rows = table.rows := by
  refine (List.map_congr_left fun row member => ?_).trans (List.map_id _)
  have unstamped := List.any_eq_false.mp missed row member
  rw [stamp, if_neg unstamped, id_eq]

@[simp] theorem maxRowid_insertRow (xmin : TransactionId) (cmin : CommandId) (tuple : Bytes)
    (table : Table) : maxRowid (table.insertRow xmin cmin tuple).rows = maxRowid table.rows + 1 := by
  simp [insertRow, nextRowid]

@[simp] theorem maxRowid_stampRow (rowid : Int) (xmax : TransactionId) (cmax : CommandId)
    (table : Table) : maxRowid (table.stampRow rowid xmax cmax).rows = maxRowid table.rows := by
  simp only [stampRow, maxRowid, List.getLast?_map]
  cases table.rows.getLast? <;> simp

@[simp] theorem nextRowid_insertRow (xmin : TransactionId) (cmin : CommandId) (tuple : Bytes)
    (table : Table) : (table.insertRow xmin cmin tuple).nextRowid = table.nextRowid + 1 := by
  rw [nextRowid, maxRowid_insertRow, nextRowid]

@[simp] theorem nextRowid_stampRow (rowid : Int) (xmax : TransactionId) (cmax : CommandId)
    (table : Table) : (table.stampRow rowid xmax cmax).nextRowid = table.nextRowid := by
  rw [nextRowid, maxRowid_stampRow, nextRowid]

/-- `DELETE FROM storage WHERE ...`, keeping the rows for which `keep` holds. -/
def keepRows (keep : StoredRow → Bool) (table : Table) : Table where
  rows := table.rows.filter keep
  metaRows := table.metaRows
  sorted := table.sorted.filter keep
  positive := fun row member => table.positive row (List.mem_filter.mp member).1

/-- `WHERE xmax != 0 AND xmax < ?1`: a comparison of the bound signed numbers. -/
def isDead (oldest : TransactionId) (row : StoredRow) : Bool :=
  bindU32 row.xmax ≠ 0 ∧ bindU32 row.xmax < bindU32 oldest

def upsertMeta (key : String) (value : Bytes) (table : Table) : Table :=
  { table with metaRows := (key, value) :: table.metaRows.filter fun entry => entry.1 ≠ key }

inductive Stmt where
  | insertRow (xmin : TransactionId) (cmin : CommandId) (tuple : Bytes)
  | stampRow (rowid : Int) (xmax : TransactionId) (cmax : CommandId)
  | deleteRow (rowid : Int)
  | deleteAll
  | deleteDead (oldest : TransactionId)
  | upsertMeta (key : String) (value : Bytes)
deriving DecidableEq

def exec : Stmt → Table → Table
  | .insertRow xmin cmin tuple => insertRow xmin cmin tuple
  | .stampRow rowid xmax cmax => stampRow rowid xmax cmax
  | .deleteRow rowid => keepRows fun row => row.rowid ≠ rowid
  | .deleteAll => keepRows fun _ => false
  | .deleteDead oldest => keepRows fun row => !isDead oldest row
  | .upsertMeta key value => upsertMeta key value

/-! ## Public CRUD -/

/-- `insert`: returns the new rowid. -/
def insert (xmin : TransactionId) (cmin : CommandId) (tuple : Bytes) (table : Table) : Table × Int :=
  (table.insertRow xmin cmin tuple, table.nextRowid)

/-- `insert_batch`: returns the new rowids in order. -/
def insertBatch (xmin : TransactionId) (cmin : CommandId) : List Bytes → Table → Table × List Int
  | [], table => (table, [])
  | tuple :: rest, table =>
      let (after, rowid) := table.insert xmin cmin tuple
      let (final, rowids) := insertBatch xmin cmin rest after
      (final, rowid :: rowids)

/-- `select_all`: every physical row version in rowid order. -/
def selectAll (table : Table) : List StoredRow := table.rows

/-- `select_one`, and the lookup of `fetch_one_ref`. -/
def selectOne (rowid : Int) (table : Table) : Option StoredRow :=
  table.rows.find? fun row => row.rowid = rowid

theorem selectOne_eq_some_iff {table : Table} {rowid : Int} {row : StoredRow} :
    table.selectOne rowid = some row ↔ row ∈ table.rows ∧ row.rowid = rowid := by
  have picks {other : StoredRow} (found : table.selectOne rowid = some other) :
      other ∈ table.rows ∧ other.rowid = rowid :=
    ⟨List.mem_of_find?_eq_some found, by simpa using List.find?_some found⟩
  constructor
  · exact picks
  · intro selected
    cases found : table.selectOne rowid with
    | none => exact absurd selected.2 (by simpa using List.find?_eq_none.mp found row selected.1)
    | some other =>
        have same : other.rowid = row.rowid := (picks found).2.trans selected.2.symm
        rw [eq_of_rowid_eq table.sorted (picks found).1 selected.1 same]

theorem selectOne_of_mem {table : Table} {row : StoredRow} (member : row ∈ table.rows) :
    table.selectOne row.rowid = some row :=
  selectOne_eq_some_iff.mpr ⟨member, rfl⟩

/-- `select_xmax_batch`: a rowid that is absent is not physically present. -/
def selectXmaxBatch (rowids : List Int) (table : Table) : List (Int × TransactionId) :=
  (table.rows.filter fun row => row.rowid ∈ rowids).map fun row => (row.rowid, row.xmax)

/-- `set_xmax`: returns the number of rows affected. -/
def setXmax (rowid : Int) (xmax : TransactionId) (cmax : CommandId) (table : Table) : Table × Nat :=
  (table.stampRow rowid xmax cmax, table.rows.countP (isLive rowid))

/-- `update_row`: stamp the old version, insert the new one, whether or not the
stamp found its row. -/
def updateRow (oldRowid : Int) (xid : TransactionId) (cid : CommandId) (tuple : Bytes)
    (table : Table) : Table × Int :=
  (table.stampRow oldRowid xid cid).insert xid cid tuple

/-- `physical_delete`: returns the number of rows affected. -/
def physicalDelete (rowid : Int) (table : Table) : Table × Nat :=
  (table.keepRows fun row => row.rowid ≠ rowid, table.rows.countP fun row => row.rowid = rowid)

/-- `reset`: empty the relation's storage. -/
def reset (table : Table) : Table := table.keepRows fun _ => false

def metaGet (key : String) (table : Table) : Option Bytes :=
  (table.metaRows.find? fun entry => entry.1 = key).map Prod.snd

/-- `u32::to_le_bytes`. -/
def toLeBytes (v : BitVec 32) : Bytes :=
  [UInt8.ofBitVec (v.extractLsb' 0 8), UInt8.ofBitVec (v.extractLsb' 8 8),
    UInt8.ofBitVec (v.extractLsb' 16 8), UInt8.ofBitVec (v.extractLsb' 24 8)]

/-- `u32::from_le_bytes` after the conversion of the slice to four bytes. -/
def fromLeBytes : Bytes → Option (BitVec 32)
  | [b0, b1, b2, b3] => some (b3.toBitVec ++ b2.toBitVec ++ b1.toBitVec ++ b0.toBitVec)
  | _ => none

theorem fromLeBytes_toLeBytes (v : BitVec 32) : fromLeBytes (toLeBytes v) = some v := by
  simp only [toLeBytes, fromLeBytes, Option.some.injEq]
  apply BitVec.eq_of_getLsbD_eq
  intro i bound
  simp only [BitVec.getLsbD_append, BitVec.getLsbD_extractLsb']
  by_cases first : i < 8
  · simp [first]
  · by_cases second : i - 8 < 8
    · rw [if_neg first, if_pos second, show 8 + (i - 8) = i by omega]
      simp [second]
    · by_cases third : i - 8 - 8 < 8
      · rw [if_neg first, if_neg second, if_pos third, show 16 + (i - 8 - 8) = i by omega]
        simp [third]
      · have fourth : i - 8 - 8 - 8 < 8 := by omega
        rw [if_neg first, if_neg second, if_neg third,
          show 24 + (i - 8 - 8 - 8) = i by omega]
        simp [fourth]

def metaLastVacuumXmin : String := "last_vacuum_xmin"

/-- The watermark that a VACUUM left, zero before the first one. -/
def lastVacuumXmin (table : Table) : TransactionId :=
  ((table.metaGet metaLastVacuumXmin).bind fromLeBytes).getD 0#32

/-- `vacuum_dead`: returns the number of rows removed. -/
def vacuumDead (oldestXmin : TransactionId) (table : Table) : Table × Nat :=
  if oldestXmin ≤ table.lastVacuumXmin then (table, 0)
  else
    ((table.keepRows fun row => !isDead oldestXmin row).upsertMeta metaLastVacuumXmin
        (toLeBytes oldestXmin),
      table.rows.countP (isDead oldestXmin))

/-- The tuple count of `estimate_size`. -/
def countRows (table : Table) : Nat := table.rows.length

end Table

end SqliteHeap
