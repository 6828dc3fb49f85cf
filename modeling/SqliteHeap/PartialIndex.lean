import SqliteHeap.IndexBuild

/-! `build_index` on a partial index. Postgres leaves it to the build to test the predicate of
`index_info`, and drops conditions that the predicate implies from a scan of the index. -/

set_option autoImplicit false

namespace SqliteHeap

variable {Key : Type}

/-- `IndexInfo`: what `FormIndexDatum` makes of a tuple, and `ii_Predicate`. -/
structure IndexInfo (Key : Type) where
  key : Bytes → Key
  predicate : Option (Bytes → Bool)

/-- `ExecQual` on `ii_Predicate`; without one every tuple satisfies it. -/
def IndexInfo.satisfied (info : IndexInfo Key) (tuple : Bytes) : Bool :=
  match info.predicate with
  | none => true
  | some predicate => predicate tuple

/-- A call of the build's callback, with the row that is in the slot. -/
structure IndexCallback (Key : Type) where
  row : StoredRow
  entry : IndexEntry Key

namespace PartialIndex

/-- One pass of the loop of `build_index`. -/
def callbackRow (info : IndexInfo Key) (built : List (IndexCallback Key) × Nat) (row : StoredRow) :
    List (IndexCallback Key) × Nat :=
  if row.xmax ≠ 0#32 then built
  else (built.1 ++ [⟨row, ⟨info.key row.tuple, rowidToTid row.rowid⟩⟩], built.2 + 1)

end PartialIndex

/-- `index_build_range_scan`: the calls of the callback, and `reltuples`. -/
def indexBuildRangeScan (info : IndexInfo Key) (table : Table) : List (IndexCallback Key) × Nat :=
  table.selectAll.foldl (PartialIndex.callbackRow info) ([], 0)

namespace PartialIndex

open IndexBuild

variable {info : IndexInfo Key} {table : Table} {row : StoredRow}

theorem foldl_callbackRow (rows : List StoredRow) (built : List (IndexCallback Key) × Nat) :
    rows.foldl (callbackRow info) built =
      (built.1 ++ (rows.filter fun row => row.xmax = 0#32).map
          fun row => ⟨row, entryOf info.key row⟩,
        built.2 + (rows.filter fun row => row.xmax = 0#32).length) :=
  foldl_live _ (fun _ _ => rfl) rows built

theorem indexBuildRangeScan_eq (info : IndexInfo Key) (table : Table) :
    indexBuildRangeScan info table =
      ((live table).map fun row => ⟨row, entryOf info.key row⟩, (live table).length) := by
  rw [indexBuildRangeScan, foldl_callbackRow]
  simp [live, Table.selectAll]

/-- The predicate changes nothing: the entries are those of the index without it. -/
theorem indexBuildRangeScan_entries (info : IndexInfo Key) (table : Table) :
    ((indexBuildRangeScan info table).1.map IndexCallback.entry, (indexBuildRangeScan info table).2) =
      buildIndex info.key table := by
  rw [indexBuildRangeScan_eq, buildIndex, Table.selectAll, foldl_indexRow]
  simp [live]

/-- The index holds what the predicate asks for. -/
structure Exact (info : IndexInfo Key) (table : Table) : Prop where
  satisfied : ∀ call ∈ (indexBuildRangeScan info table).1, info.satisfied call.row.tuple = true
  once : ((indexBuildRangeScan info table).1.map fun call => call.entry.tid).Nodup
  counted : (indexBuildRangeScan info table).2 = (indexBuildRangeScan info table).1.length
  scanned : ∀ (visible : StoredHeader → Bool) (cond : Key → Bool),
    ∀ row ∈ indexScan visible table cond ((indexBuildRangeScan info table).1.map IndexCallback.entry),
      info.satisfied row.tuple = true

/-- Every row that is not stamped satisfies the predicate, and so does the row that its TID
stands for. No two of them share a TID. -/
structure OnlySatisfying (info : IndexInfo Key) (table : Table) : Prop where
  satisfied : ∀ row ∈ table.rows, row.xmax = 0#32 → info.satisfied row.tuple = true
  distinct : ∀ row ∈ table.rows, ∀ other ∈ table.rows, row.xmax = 0#32 → other.xmax = 0#32 →
    Tid.wrapped row.rowid = Tid.wrapped other.rowid → row = other
  resolved : ∀ row ∈ table.rows, ∀ other ∈ table.rows, row.xmax = 0#32 →
    other.rowid = Tid.wrapped row.rowid → info.satisfied other.tuple = true

theorem mem_live_iff : row ∈ live table ↔ row ∈ table.rows ∧ row.xmax = 0#32 := by
  simp [live]

theorem entries_nodup_iff : ((indexBuildRangeScan info table).1.map fun call => call.entry.tid).Nodup ↔
    ∀ row ∈ table.rows, ∀ other ∈ table.rows, row.xmax = 0#32 → other.xmax = 0#32 →
      Tid.wrapped row.rowid = Tid.wrapped other.rowid → row = other := by
  have tids : ((indexBuildRangeScan info table).1.map fun call => call.entry.tid) =
      (live table).map fun row => rowidToTid row.rowid := by
    rw [indexBuildRangeScan_eq, List.map_map]
    rfl
  have nodup : (live table).Nodup := table.rows_nodup.filter _
  rw [tids, List.nodup_map_iff_inj_on nodup]
  constructor
  · intro injective row member other member' unstamped unstamped' same
    refine injective row (mem_live_iff.mpr ⟨member, unstamped⟩) other
      (mem_live_iff.mpr ⟨member', unstamped'⟩) ?_
    exact (Tid.rowidToTid_eq_iff (table.positive row member) (table.positive other member')).mpr same
  · intro distinct row inLive other inLive' same
    obtain ⟨member, unstamped⟩ := mem_live_iff.mp inLive
    obtain ⟨member', unstamped'⟩ := mem_live_iff.mp inLive'
    refine distinct row member other member' unstamped unstamped' ?_
    exact (Tid.rowidToTid_eq_iff (table.positive row member) (table.positive other member')).mp same

/-- An index scan fetches the rows that the TIDs of the entries stand for. -/
theorem mem_indexScan_iff {visible : StoredHeader → Bool} {cond : Key → Bool} :
    row ∈ indexScan visible table cond ((indexBuildRangeScan info table).1.map IndexCallback.entry) ↔
      row ∈ table.rows ∧ visible row.toStoredHeader = true ∧
        ∃ indexed ∈ table.rows, indexed.xmax = 0#32 ∧ cond (info.key indexed.tuple) = true ∧
          row.rowid = Tid.wrapped indexed.rowid := by
  rw [indexBuildRangeScan_eq, indexScan]
  simp only [List.map_map, List.mem_filterMap, List.mem_filter, List.mem_map, mem_live_iff,
    SqliteScanState.fetchOneIntoSlot_eq_some_iff, Function.comp_apply]
  constructor
  · rintro ⟨_, ⟨⟨indexed, ⟨member, unstamped⟩, rfl⟩, meets⟩, inTable, here, seen⟩
    rw [entryOf, Tid.tidToRowid_rowidToTid (table.positive indexed member)] at here
    exact ⟨inTable, seen, indexed, member, unstamped, meets, here⟩
  · rintro ⟨inTable, seen, indexed, member, unstamped, meets, here⟩
    refine ⟨entryOf info.key indexed, ⟨⟨indexed, ⟨member, unstamped⟩, rfl⟩, meets⟩, inTable, ?_, seen⟩
    rw [entryOf, Tid.tidToRowid_rowidToTid (table.positive indexed member)]
    exact here

theorem onlySatisfying_of_exact (built : Exact info table) : OnlySatisfying info table where
  satisfied := by
    intro row member unstamped
    refine built.satisfied ⟨row, entryOf info.key row⟩ ?_
    rw [indexBuildRangeScan_eq]
    exact List.mem_map.mpr ⟨row, mem_live_iff.mpr ⟨member, unstamped⟩, rfl⟩
  distinct := entries_nodup_iff.mp built.once
  resolved := by
    intro row member other member' unstamped here
    refine built.scanned (fun _ => true) (fun _ => true) other (mem_indexScan_iff.mpr ?_)
    exact ⟨member', rfl, row, member, unstamped, rfl, here⟩

theorem exact_of_onlySatisfying (only : OnlySatisfying info table) : Exact info table where
  satisfied := by
    intro call member
    rw [indexBuildRangeScan_eq] at member
    obtain ⟨row, inLive, rfl⟩ := List.mem_map.mp member
    obtain ⟨inTable, unstamped⟩ := mem_live_iff.mp inLive
    exact only.satisfied row inTable unstamped
  once := entries_nodup_iff.mpr only.distinct
  counted := by simp [indexBuildRangeScan_eq]
  scanned := by
    intro visible cond row member
    obtain ⟨inTable, _, indexed, inTable', unstamped, _, here⟩ := mem_indexScan_iff.mp member
    exact only.resolved indexed inTable' row inTable unstamped here

/-- A partial index holds only rows that satisfy its predicate if and only if the predicate
holds for every row that is not stamped and the row that its TID stands for, and no two of
these share a TID. -/
theorem exact_iff (info : IndexInfo Key) (table : Table) :
    Exact info table ↔ OnlySatisfying info table :=
  ⟨onlySatisfying_of_exact, exact_of_onlySatisfying⟩

/-- As long as all rowids fit a TID, it is the predicate on the unstamped rows alone. -/
theorem onlySatisfying_iff_of_fits (fits : ∀ row ∈ table.rows, row.rowid ≤ maxTidRowid) :
    OnlySatisfying info table ↔
      ∀ row ∈ table.rows, row.xmax = 0#32 → info.satisfied row.tuple = true := by
  have stands : ∀ row ∈ table.rows, Tid.wrapped row.rowid = row.rowid := fun row member =>
    Tid.wrapped_of_fits (table.positive row member) (fits row member)
  refine ⟨OnlySatisfying.satisfied, fun satisfied => ⟨satisfied, ?_, ?_⟩⟩
  · intro row member other member' _ _ same
    rw [stands row member, stands other member'] at same
    exact Table.eq_of_rowid_eq table.sorted member member' same
  · intro row member other member' unstamped here
    rw [stands row member] at here
    rw [Table.eq_of_rowid_eq table.sorted member' member here]
    exact satisfied row member unstamped

/-- An index on the first byte, for tuples whose second byte is one. -/
def activeOnly : IndexInfo UInt8 := ⟨fun tuple => tuple.headD 0, some fun tuple => tuple.getD 1 0 = 1⟩

/-- Two rows with the key 50, active and not. -/
def activeAndNot : Table := (Table.empty.insertRow 3#32 0#32 [50, 1]).insertRow 3#32 0#32 [50, 0]

/-- The row that fails the predicate gets an entry, and a scan for its key returns it. -/
theorem activeAndNot_indexed :
    ¬ Exact activeOnly activeAndNot ∧
      (indexBuildRangeScan activeOnly activeAndNot).1.map (fun call => call.entry) =
        [⟨50, ⟨0, 1⟩⟩, ⟨50, ⟨0, 2⟩⟩] ∧
      (indexScan (fun _ => true) activeAndNot (fun key => key = 50)
        ((indexBuildRangeScan activeOnly activeAndNot).1.map IndexCallback.entry)).map
          (fun row => activeOnly.satisfied row.tuple) = [true, false] := by
  refine ⟨fun built => ?_, by decide, by decide⟩
  have satisfied := built.scanned (fun _ => true) (fun _ => true)
    ⟨⟨2, 3#32, 0#32, 0#32, 0#32⟩, [50, 0]⟩ (by decide)
  exact absurd satisfied (by decide)

end PartialIndex

end SqliteHeap
