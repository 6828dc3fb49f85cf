import SqliteHeap.IndexEntries
import SqliteHeap.TidRange
import SqliteHeap.Visibility

/-! `index_build_range_scan`. The build decides from `xmax` alone which row versions get
an entry; an index scan later fetches the entries' TIDs under its own snapshot. -/

set_option autoImplicit false

namespace SqliteHeap

variable {Key : Type}

/-- What one pass of the loop of `build_index` does with the entries and `reltuples`. -/
def indexRow (key : Bytes → Key) (built : List (IndexEntry Key) × Nat) (row : StoredRow) :
    List (IndexEntry Key) × Nat :=
  if row.xmax ≠ 0#32 then built
  else (built.1 ++ [⟨key row.tuple, rowidToTid row.rowid⟩], built.2 + 1)

/-- `build_index`: the entries that the callback gets, and `reltuples`. -/
def buildIndex (key : Bytes → Key) (table : Table) : List (IndexEntry Key) × Nat :=
  table.selectAll.foldl (indexRow key) ([], 0)

/-- An index scan with a condition on the key: every entry that meets it is fetched with
`index_fetch_tuple`. -/
def indexScan (visible : StoredHeader → Bool) (table : Table) (cond : Key → Bool)
    (index : List (IndexEntry Key)) : List StoredRow :=
  (index.filter fun entry => cond entry.key).filterMap fun entry =>
    SqliteScanState.fetchOneIntoSlot visible table (tidToRowid entry.tid)

namespace IndexBuild

variable {key : Bytes → Key} {table : Table} {visible : StoredHeader → Bool}

/-- The rows that the build does not skip. -/
def live (table : Table) : List StoredRow := table.rows.filter fun row => row.xmax = 0#32

def entryOf (key : Bytes → Key) (row : StoredRow) : IndexEntry Key :=
  ⟨key row.tuple, rowidToTid row.rowid⟩

/-- A loop that skips the stamped rows. -/
theorem foldl_live {Emitted : Type} {step : List Emitted × Nat → StoredRow → List Emitted × Nat}
    (emit : StoredRow → Emitted)
    (steps : ∀ built row, step built row =
      if row.xmax ≠ 0#32 then built else (built.1 ++ [emit row], built.2 + 1))
    (rows : List StoredRow) (built : List Emitted × Nat) :
    rows.foldl step built =
      (built.1 ++ (rows.filter fun row => row.xmax = 0#32).map emit,
        built.2 + (rows.filter fun row => row.xmax = 0#32).length) := by
  induction rows generalizing built with
  | nil => simp
  | cons row rows ih =>
      rw [List.foldl_cons, ih, steps]
      by_cases stamped : row.xmax = 0#32
      · simp [stamped]
        omega
      · simp [stamped]

theorem foldl_indexRow (rows : List StoredRow) (built : List (IndexEntry Key) × Nat) :
    rows.foldl (indexRow key) built =
      (built.1 ++ (rows.filter fun row => row.xmax = 0#32).map (entryOf key),
        built.2 + (rows.filter fun row => row.xmax = 0#32).length) :=
  foldl_live (entryOf key) (fun _ _ => rfl) rows built

theorem buildIndex_entries (key : Bytes → Key) (table : Table) :
    (buildIndex key table).1 = (live table).map (entryOf key) := by
  rw [buildIndex, foldl_indexRow]
  rfl

/-- The rows with an entry that an index scan resolves to the row. -/
def resolving (table : Table) (row : StoredRow) : List StoredRow :=
  (live table).filter fun other => tidToRowid (rowidToTid other.rowid) = row.rowid

/-- The build makes exactly one entry that resolves to the row, and it has the row's key. -/
def IndexedOnce (key : Bytes → Key) (table : Table) (row : StoredRow) : Prop :=
  if ∀ other ∈ table.rows, other.rowid ≤ maxTidRowid then row.xmax = 0#32
  else (resolving table row).map (fun other => key other.tuple) = [key row.tuple]

theorem live_of_rowid {row : StoredRow} (member : row ∈ table.rows) :
    ((live table).filter fun other => other.rowid = row.rowid) =
      if row.xmax = 0#32 then [row] else [] := by
  have only : ((live table).filter fun other => other.rowid = row.rowid) =
      (live table).filter fun other => other = row := by
    refine List.filter_congr fun other inLive => decide_eq_decide.mpr ⟨fun same => ?_, fun same => ?_⟩
    · exact Table.eq_of_rowid_eq table.sorted (List.mem_filter.mp inLive).1 member same
    · rw [same]
  have nodup : (live table).Nodup := table.rows_nodup.filter _
  rw [only]
  by_cases stamped : row.xmax = 0#32
  · have inLive : row ∈ live table := List.mem_filter.mpr ⟨member, by simpa using stamped⟩
    rw [if_pos stamped, List.filter_eq, List.count_eq_one_of_mem nodup inLive]
    rfl
  · rw [if_neg stamped]
    refine List.filter_eq_nil_iff.mpr fun other inLive same => stamped ?_
    have live := (List.mem_filter.mp inLive).2
    rw [of_decide_eq_true same] at live
    simpa using live

theorem indexedOnce_iff {row : StoredRow} (member : row ∈ table.rows) :
    IndexedOnce key table row ↔
      (resolving table row).map (fun other => key other.tuple) = [key row.tuple] := by
  unfold IndexedOnce
  split
  · next fits =>
      have decoded : resolving table row = (live table).filter fun other => other.rowid = row.rowid := by
        refine List.filter_congr fun other inLive => ?_
        have inTable := (List.mem_filter.mp inLive).1
        rw [tidToRowid_rowidToTid (table.positive other inTable) (fits other inTable)]
      rw [decoded, live_of_rowid member]
      by_cases stamped : row.xmax = 0#32 <;> simp [stamped]
  · exact Iff.rfl

theorem count_indexScan (cond : Key → Bool) (row : StoredRow) :
    (indexScan visible table cond (buildIndex key table).1).count row =
      if row ∈ table.rows ∧ visible row.toStoredHeader = true then
        ((resolving table row).map fun other => key other.tuple).countP cond
      else 0 := by
  rw [indexScan, buildIndex_entries, List.filter_map, List.filterMap_map, List.count_filterMap,
    List.countP_filter, List.countP_map, resolving, List.countP_filter]
  split
  · next seen =>
      refine List.countP_congr fun other _ => ?_
      simp only [Function.comp_apply, entryOf, Bool.and_eq_true, beq_iff_eq,
        SqliteScanState.fetchOneIntoSlot_eq_some_iff, decide_eq_true_eq, seen, true_and, and_true]
      rw [eq_comm, and_comm]
  · next unseen =>
      refine List.countP_eq_zero.mpr fun other _ => ?_
      simp only [Function.comp_apply, entryOf, Bool.and_eq_true, beq_iff_eq,
        SqliteScanState.fetchOneIntoSlot_eq_some_iff]
      exact fun both => unseen ⟨both.1.1, both.1.2.2⟩

theorem count_seqScan (cond : Key → Bool) (row : StoredRow) :
    ((fullScan visible table).filter fun row => cond (key row.tuple)).count row =
      if row ∈ table.rows ∧ visible row.toStoredHeader = true then [key row.tuple].countP cond
      else 0 := by
  rw [fullScan_eq]
  have nodup := (table.rows_nodup.filter fun row => visible row.toStoredHeader).filter
    fun row => cond (key row.tuple)
  rw [nodup.count]
  simp only [List.mem_filter, List.countP_singleton]
  split <;> split <;> simp_all

theorem rowidToTid_decoded {first second : Int} (positive : 1 ≤ first)
    (decoded : tidToRowid (rowidToTid first) = second) : rowidToTid first = rowidToTid second := by
  have offset := Tid.rowidToTid_offset positive
  rw [← decoded]
  exact (rowidToTid_tidToRowid offset.1 offset.2).symm

/-- The index that the build made serves the scans of a snapshot: every row version that
the snapshot sees has an entry with its TID, and an index scan returns the rows of a
sequential scan with the same condition. -/
structure Serves (key : Bytes → Key) (table : Table) (visible : StoredHeader → Bool) : Prop where
  entries : ∀ row ∈ table.rows, visible row.toStoredHeader = true →
    ∃ entry ∈ (buildIndex key table).1, entry.tid = rowidToTid row.rowid
  scans : ∀ cond : Key → Bool, (indexScan visible table cond (buildIndex key table).1).Perm
    ((fullScan visible table).filter fun row => cond (key row.tuple))

theorem indexedOnce_of_serves (serves : Serves key table visible) {row : StoredRow}
    (member : row ∈ table.rows) (seen : visible row.toStoredHeader = true) :
    IndexedOnce key table row := by
  classical
  have counts (cond : Key → Bool) : ((resolving table row).map fun other => key other.tuple).countP cond =
      [key row.tuple].countP cond := by
    have same := (serves.scans cond).count_eq row
    rwa [count_indexScan, count_seqScan, if_pos ⟨member, seen⟩, if_pos ⟨member, seen⟩] at same
  rw [indexedOnce_iff member]
  generalize (resolving table row).map (fun other => key other.tuple) = keys at counts
  have one : keys.length = 1 := by simpa using counts fun _ => true
  obtain ⟨only, rfl⟩ := List.length_eq_one_iff.mp one
  have same := counts fun found => found = key row.tuple
  simpa [List.countP_singleton] using same

theorem serves_of_indexedOnce
    (once : ∀ row ∈ table.rows, visible row.toStoredHeader = true → IndexedOnce key table row) :
    Serves key table visible where
  entries := by
    intro row member seen
    have keys := (indexedOnce_iff member).mp (once row member seen)
    obtain ⟨other, only, _⟩ := List.map_eq_singleton_iff.mp keys
    have inResolving : other ∈ resolving table row := by simp [only]
    obtain ⟨inLive, decoded⟩ := List.mem_filter.mp inResolving
    refine ⟨entryOf key other, ?_, ?_⟩
    · rw [buildIndex_entries]
      exact List.mem_map_of_mem inLive
    · have inTable := (List.mem_filter.mp inLive).1
      exact rowidToTid_decoded (table.positive other inTable) (of_decide_eq_true decoded)
  scans := by
    intro cond
    rw [List.perm_iff_count]
    intro row
    rw [count_indexScan, count_seqScan]
    split
    · next seen =>
        rw [(indexedOnce_iff seen.1).mp (once row seen.1 seen.2)]
    · rfl

/-- The index serves the scans of every needed snapshot if and only if every row version
that one of them sees as inserted is seen as deleted or got its entry. -/
theorem serves_iff (key : Bytes → Key) (table : Table) (needed : Xacts → Snapshot → Prop)
    (mvcc : ∀ xacts snapshot, needed xacts snapshot → snapshot.snapshotType = .mvcc) :
    (∀ xacts snapshot, needed xacts snapshot →
        Serves key table fun row => (Visibility.rowVisible xacts row snapshot).1) ↔
      ∀ xacts snapshot, needed xacts snapshot → ∀ row ∈ table.rows,
        Visibility.InsertedFor xacts row.toStoredHeader snapshot →
          Visibility.DeletedFor xacts row.toStoredHeader snapshot ∨ IndexedOnce key table row := by
  have visible {xacts : Xacts} {snapshot : Snapshot} (held : needed xacts snapshot) (row : StoredRow) :
      (Visibility.rowVisible xacts row.toStoredHeader snapshot).1 = true ↔
        Visibility.InsertedFor xacts row.toStoredHeader snapshot ∧
          ¬ Visibility.DeletedFor xacts row.toStoredHeader snapshot := by
    have value : (Visibility.rowVisible xacts row.toStoredHeader snapshot).1 =
        Visibility.visibleMvcc xacts row.toStoredHeader snapshot := by
      simp [Visibility.rowVisible, mvcc xacts snapshot held]
    rw [value]
    exact Visibility.visibleMvcc_iff
  constructor
  · intro serves xacts snapshot held row member inserted
    by_cases deleted : Visibility.DeletedFor xacts row.toStoredHeader snapshot
    · exact .inl deleted
    · exact .inr (indexedOnce_of_serves (serves xacts snapshot held) member
        ((visible held row).mpr ⟨inserted, deleted⟩))
  · intro indexed xacts snapshot held
    refine serves_of_indexedOnce fun row member seen => ?_
    obtain ⟨inserted, undeleted⟩ := (visible held row).mp seen
    exact (indexed xacts snapshot held row member inserted).resolve_left undeleted

/-- These transactions committed, and every other one aborted. -/
def committed (xids : List TransactionId) : Xacts where
  __ := Xacts.idle
  transactionIdDidCommit xid := xids.contains xid

/-- A snapshot before which all transactions below `xmax` but those in `xip` ended. -/
def snapshotOf (xmin xmax : TransactionId) (xip : List TransactionId) : Snapshot :=
  ⟨.mvcc, xmin, xmax, xip, [], 0#32, 0#32⟩

/-- Two rows that transaction 100 inserted, the first one stamped since. -/
def stampedBy (xmax : TransactionId) : Table :=
  ((Table.empty.insertRow 100#32 0#32 [1]).insertRow 100#32 0#32 [2]).stampRow 1 xmax 0#32

/-- Transaction 101 deleted a row and committed before every needed snapshot. -/
theorem deletedBefore_serves :
    Serves id (stampedBy 101#32) fun row =>
      (Visibility.rowVisible (committed [100#32, 101#32]) row (snapshotOf 200#32 200#32 [])).1 := by
  refine (serves_iff id (stampedBy 101#32) (fun xacts snapshot =>
    xacts = committed [100#32, 101#32] ∧ snapshot = snapshotOf 200#32 200#32 []) ?_).mpr ?_ _ _
      ⟨rfl, rfl⟩
  · rintro xacts snapshot ⟨rfl, rfl⟩
    rfl
  · rintro xacts snapshot ⟨rfl, rfl⟩ row member _
    have rows : (stampedBy 101#32).rows = [⟨⟨1, 100#32, 0#32, 101#32, 0#32⟩, [1]⟩,
      ⟨⟨2, 100#32, 0#32, 0#32, 0#32⟩, [2]⟩] := by decide
    have fits : ∀ other ∈ (stampedBy 101#32).rows, other.rowid ≤ maxTidRowid := by
      rw [rows]
      decide
    rw [rows] at member
    rcases List.mem_cons.mp member with rfl | member
    · exact .inl ⟨by decide, .inl (by decide)⟩
    · obtain rfl := List.mem_singleton.mp member
      exact .inr (by rw [IndexedOnce, if_pos fits])

/-- The build leaves out a row whose deletion was rolled back, and a row whose deleter
committed but was running when a snapshot still held was taken. -/
theorem stamped_unserved :
    (¬ Serves id (stampedBy 101#32) fun row =>
        (Visibility.rowVisible (committed [100#32]) row (snapshotOf 200#32 200#32 [])).1) ∧
      ¬ Serves id (stampedBy 101#32) fun row =>
        (Visibility.rowVisible (committed [100#32, 101#32]) row
          (snapshotOf 101#32 102#32 [101#32])).1 := by
  refine ⟨fun serves => ?_, fun serves => ?_⟩ <;>
    · obtain ⟨entry, member, tid⟩ :=
        serves.entries ⟨⟨1, 100#32, 0#32, 101#32, 0#32⟩, [1]⟩ (by decide) (by decide)
      have only : (buildIndex id (stampedBy 101#32)).1 = [⟨[2], rowidToTid 2⟩] := by decide
      rw [only] at member
      obtain rfl := List.mem_singleton.mp member
      exact absurd tid (by decide)

end IndexBuild

end SqliteHeap
