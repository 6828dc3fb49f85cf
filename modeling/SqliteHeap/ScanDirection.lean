import Mathlib.Data.List.Sort
import SqliteHeap.Lib.Cursor
import SqliteHeap.TidRange

/-! The direction argument of `scan_getnextslot` and `scan_getnextslot_tidrange`. Neither
reads it: every request walks on from the position of the cursor, unless it panics on a
bound. -/

set_option autoImplicit false

namespace SqliteHeap

open Cursor (Direction results move takeNext)

/-- Rows by `ItemPointerCompare` of their TIDs. -/
def inTidOrder (rows : List StoredRow) : List StoredRow :=
  rows.insertionSort fun row other => (rowidToTid row.rowid).le (rowidToTid other.rowid) = true

def visibleRows (visible : StoredHeader → Bool) (table : Table) : List StoredRow :=
  table.rows.filter fun row => visible row.toStoredHeader

/-- The visible rows whose rowid is within the decoded bounds, in rowid order. -/
def boundedRows (visible : StoredHeader → Bool) (table : Table) (low high : Tid) : List StoredRow :=
  table.rows.filter fun row => ScanNode.inBounds low high row.toStoredHeader &&
    visible row.toStoredHeader

theorem Tid.le_iff_wrapped {first second : Int} (positive : 1 ≤ first) (positive' : 1 ≤ second) :
    (rowidToTid first).le (rowidToTid second) = true ↔ wrapped first ≤ wrapped second := by
  obtain ⟨block, index, _, small, blockOf, offsetOf, stands⟩ := rowidToTid_parts positive
  obtain ⟨block', index', _, small', blockOf', offsetOf', stands'⟩ := rowidToTid_parts positive'
  simp only [le, blockOf, offsetOf, stands, blockOf', offsetOf', stands', Bool.or_eq_true,
    Bool.and_eq_true, decide_eq_true_eq]
  omega

/-- Rows in rowid order are in TID order while their rowids fit a TID. -/
theorem inTidOrder_filter {table : Table} (keep : StoredRow → Bool)
    (fits : ∀ row ∈ table.rows, row.rowid ≤ maxTidRowid) :
    inTidOrder (table.rows.filter keep) = table.rows.filter keep := by
  refine List.Pairwise.insertionSort_eq ((table.sorted.filter keep).imp_of_mem ?_)
  intro row other member member' order
  have stored := (List.mem_filter.mp member).1
  have stored' := (List.mem_filter.mp member').1
  have positive := table.positive row stored
  have positive' := table.positive other stored'
  rw [Tid.le_iff_wrapped positive positive', Tid.wrapped_of_fits positive (fits row stored),
    Tid.wrapped_of_fits positive' (fits other stored')]
  exact Int.le_of_lt order

namespace SqliteScanState

variable (visible : StoredHeader → Bool) (table : Table)

/-- `scan_getnextslot` with its direction. -/
def getnextslotIn (_direction : Direction) (scan : SqliteScanState) :
    Option StoredRow × SqliteScanState :=
  scan.scanGetnextslot visible table

/-- `scan_getnextslot_tidrange` with its direction. A panic is no result, and leaves the scan
as it was. -/
def getnextslotTidrangeIn (_direction : Direction) (scan : SqliteScanState) :
    Option (Option StoredRow) × SqliteScanState :=
  match scan.scanGetnextslotTidrange visible table with
  | none => (none, scan)
  | some (found, after) => (some found, after)

def getnextslots (requests : List Direction) : List (Option StoredRow) :=
  results (getnextslotIn visible table) alloc requests

def getnextslotsTidrange (low high : Tid) (requests : List Direction) :
    List (Option (Option StoredRow)) :=
  results (getnextslotTidrangeIn visible table) (alloc.scanSetTidrange low high) requests

variable {visible : StoredHeader → Bool} {table : Table} {scan after : SqliteScanState}

/-- A step takes the first row that is left. -/
theorem scanGetnextslot_takes (visible : StoredHeader → Bool) {found : Option StoredRow}
    (stepped : scan.scanGetnextslot visible table = (found, after)) :
    found = (scan.rest visible table).head? ∧
      after.rest visible table = (scan.rest visible table).tail := by
  obtain ⟨items, ended, _⟩ := scanGetnextslot_spec stepped
  cases found with
  | some row => simp [items]
  | none =>
      have none := ended rfl
      rw [none] at items ⊢
      exact ⟨rfl, by simpa using items.symm⟩

theorem getnextslots_eq (requests : List Direction) :
    getnextslots visible table requests = results takeNext (visibleRows visible table) requests := by
  refine Cursor.results_eq_takeNext (fun scan rows => scan.rest visible table = rows) ?_ rfl requests
  rintro scan _ request rfl
  exact scanGetnextslot_takes visible rfl

theorem getnextslotsTidrange_panics {low high : Tid} (panics : ¬ Tid.Decodes low high)
    (requests : List Direction) :
    getnextslotsTidrange visible table low high requests = requests.map fun _ => none := by
  refine Cursor.results_stuck (fun request => ?_) requests
  rcases ScanNode.scanGetnextslotTidrange_cases visible table (alloc.scanSetTidrange low high) with
    ⟨none, _⟩ | ⟨decodes, _⟩
  · rw [getnextslotTidrangeIn, none]
  · exact absurd decodes panics

theorem getnextslotsTidrange_eq {low high : Tid} (decodes : Tid.Decodes low high)
    (requests : List Direction) :
    getnextslotsTidrange visible table low high requests =
      (results takeNext (boundedRows visible table low high) requests).map some := by
  let loop (_ : Direction) (scan : SqliteScanState) : Option StoredRow × SqliteScanState :=
    scan.scanGetnextslot (fun row => ScanNode.inBounds low high row && visible row) table
  have looped : getnextslotsTidrange visible table low high requests =
      (results loop (alloc.scanSetTidrange low high) requests).map some := by
    refine Cursor.results_map_some (fun scan => scan.mintid = low ∧ scan.maxtid = high) ?_ ⟨rfl, rfl⟩ requests
    rintro scan request ⟨rfl, rfl⟩
    rcases ScanNode.scanGetnextslotTidrange_cases visible table scan with ⟨_, zero, _⟩ | ⟨_, decoded⟩
    · exact (zero.elim decodes.1 decodes.2).elim
    · refine ⟨?_, rfl, rfl⟩
      rw [getnextslotTidrangeIn, decoded]
  let Left (scan : SqliteScanState) (rows : List StoredRow) : Prop :=
    scan.rest (fun row => ScanNode.inBounds low high row && visible row) table = rows
  have begun : Left (alloc.scanSetTidrange low high) (boundedRows visible table low high) := rfl
  rw [looped]
  refine congrArg (List.map some) (Cursor.results_eq_takeNext Left ?_ begun requests)
  rintro scan _ request rfl
  exact scanGetnextslot_takes (fun row => ScanNode.inBounds low high row && visible row) rfl

theorem boundedRows_of_placed {low high : Tid} (decodes : Tid.Decodes low high)
    (placed : ∀ row ∈ table.rows, visible row.toStoredHeader = true → Tid.Placed low high row.rowid) :
    boundedRows visible table low high = ScanNode.tidRangeRows visible table low high := by
  refine List.filter_congr fun row member => ?_
  cases seen : visible row.toStoredHeader with
  | false => simp
  | true =>
      have both := (ScanNode.inBounds_iff_between decodes (table.positive row member)).mpr
        (placed row member seen)
      simp only [Bool.and_true]
      exact Bool.eq_iff_iff.mpr both

/-- Whatever directions are requested, both scans go forward, in rowid order, but a TID range
scan panics on every request when a bound has offset 0. Rowid order is TID order while the rowids
fit a TID, and the rows within the decoded bounds are those in range if the bounds place them. -/
theorem requests_goForward (visible : StoredHeader → Bool) (table : Table) (low high : Tid)
    (requests : List Direction) :
    getnextslots visible table requests =
        results (move (visibleRows visible table)) 0 (Cursor.forwards requests) ∧
      getnextslotsTidrange visible table low high requests =
        (if Tid.Decodes low high then
          (results (move (boundedRows visible table low high)) 0 (Cursor.forwards requests)).map some
        else requests.map fun _ => none) ∧
      ((∀ row ∈ table.rows, row.rowid ≤ maxTidRowid) →
        visibleRows visible table = inTidOrder (visibleRows visible table) ∧
          (Tid.Decodes low high →
            (∀ row ∈ table.rows, visible row.toStoredHeader = true → Tid.Placed low high row.rowid) →
            boundedRows visible table low high =
              inTidOrder (ScanNode.tidRangeRows visible table low high))) := by
  refine ⟨?_, ?_, fun fits => ⟨?_, fun decodes placed => ?_⟩⟩
  · rw [getnextslots_eq, Cursor.results_takeNext_forwards]
  · by_cases decodes : Tid.Decodes low high
    · rw [if_pos decodes, getnextslotsTidrange_eq decodes, Cursor.results_takeNext_forwards]
    · rw [if_neg decodes, getnextslotsTidrange_panics decodes]
  · exact (inTidOrder_filter _ fits).symm
  · rw [boundedRows_of_placed decodes placed]
    exact (inTidOrder_filter _ fits).symm

/-- The third request is a backward one, and the scans are at their ends. -/
theorem backward_ignored :
    (getnextslots (fun _ => true) ScanNode.twoRows [.forward, .forward, .backward] =
        [some ScanNode.rowOne, some ScanNode.rowTwo, none] ∧
      results (move (inTidOrder (visibleRows (fun _ => true) ScanNode.twoRows))) 0
          [.forward, .forward, .backward] =
        [some ScanNode.rowOne, some ScanNode.rowTwo, some ScanNode.rowOne]) ∧
      getnextslotsTidrange (fun _ => true) ScanNode.twoRows ⟨0, 1⟩ ⟨0, 2⟩
          [.forward, .forward, .backward] =
        [some (some ScanNode.rowOne), some (some ScanNode.rowTwo), some none] ∧
      results (move (inTidOrder (ScanNode.tidRangeRows (fun _ => true) ScanNode.twoRows ⟨0, 1⟩ ⟨0, 2⟩)))
          0 [.forward, .forward, .backward] =
        [some ScanNode.rowOne, some ScanNode.rowTwo, some ScanNode.rowOne] := by
  decide

/-- The requests whose directions are obeyed: all forward, none where there is a row to
find, or forward to a single row and then only backward. -/
theorem directions_obeyed_iff (visible : StoredHeader → Bool) (table : Table) {low high : Tid}
    (decodes : Tid.Decodes low high) (requests : List Direction) :
    (getnextslots visible table requests =
          results (move (inTidOrder (visibleRows visible table))) 0 requests ↔
        Cursor.Agree (visibleRows visible table) (inTidOrder (visibleRows visible table)) requests) ∧
      (getnextslotsTidrange visible table low high requests =
          (results (move (inTidOrder (ScanNode.tidRangeRows visible table low high))) 0 requests).map some ↔
        Cursor.Agree (boundedRows visible table low high)
          (inTidOrder (ScanNode.tidRangeRows visible table low high)) requests) := by
  rw [getnextslots_eq, getnextslotsTidrange_eq decodes, (List.map_injective_iff.mpr (Option.some_injective _)).eq_iff]
  constructor
  · exact Cursor.results_eq_iff (table.rows_nodup.filter _)
  · exact Cursor.results_eq_iff (table.rows_nodup.filter _)

end SqliteScanState

end SqliteHeap
