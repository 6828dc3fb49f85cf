import SqliteHeap.ScanKinds

/-! What the scans of each kind return, from any state of their cursor, and when a scan
that is begun again with `scan_rescan` returns what a new one returns. `scan_rescan`
resets the position in the rows and nothing else. -/

set_option autoImplicit false

namespace SqliteHeap

open Pull

namespace SqliteScanState

variable {visible : StoredHeader → Bool} {table : Table} {scan after : SqliteScanState}

/-- The rows of the scan, once they are loaded. -/
def rows (table : Table) (scan : SqliteScanState) : List StoredRow :=
  (scan.cursor.ensureRowsLoaded table).rows

/-- The visible rows from the position on. -/
def rest (visible : StoredHeader → Bool) (table : Table) (scan : SqliteScanState) : List StoredRow :=
  (scan.rows table |>.drop scan.cursor.pos).filter fun row => visible row.toStoredHeader

/-- Two states that differ in the rows' position at most. -/
structure SamePages (table : Table) (scan after : SqliteScanState) : Prop where
  rows : after.rows table = scan.rows table
  mintid : after.mintid = scan.mintid
  maxtid : after.maxtid = scan.maxtid
  tbmIterator : after.tbmIterator = scan.tbmIterator
  sampleBlockConsumed : after.cursor.sampleBlockConsumed = scan.cursor.sampleBlockConsumed

theorem ensureRowsLoaded_pos (cursor : SqliteCursor) (table : Table) :
    (cursor.ensureRowsLoaded table).pos = cursor.pos := by
  unfold SqliteCursor.ensureRowsLoaded
  split <;> rfl

theorem ensureRowsLoaded_rows (cursor : SqliteCursor) (table : Table) (pos : Nat) :
    ({ cursor with pos := pos }.ensureRowsLoaded table).rows = (cursor.ensureRowsLoaded table).rows := by
  unfold SqliteCursor.ensureRowsLoaded
  cases cursor.rowsLoaded <;> rfl

theorem rest_eq (visible : StoredHeader → Bool) (table : Table) (scan : SqliteScanState) :
    scan.rest visible table =
      (scan.cursor.toSqliteCursor.ensureRowsLoaded table).remaining visible := by
  rw [SqliteCursor.remaining, ensureRowsLoaded_pos]
  rfl

theorem scanGetnextslot_spec {found : Option StoredRow}
    (stepped : scan.scanGetnextslot visible table = (found, after)) :
    scan.rest visible table = found.toList ++ after.rest visible table ∧
      (found = none → scan.rest visible table = []) ∧ SamePages table scan after := by
  unfold scanGetnextslot at stepped
  cases next : scan.cursor.toSqliteCursor.doScanGetnext visible table with
  | mk first cursor =>
      rw [next] at stepped
      obtain ⟨rfl, rfl⟩ := Prod.mk.inj stepped
      obtain ⟨items, ended, rows, loaded⟩ := SqliteCursor.doScanGetnext_spec next
      have already : cursor.ensureRowsLoaded table = cursor := by
        simp [SqliteCursor.ensureRowsLoaded, loaded]
      have later : (scan.setCursor cursor).rest visible table = cursor.remaining visible := by
        rw [rest_eq]
        exact congrArg (SqliteCursor.remaining visible) already
      rw [rest_eq, later]
      refine ⟨items, fun none => ?_, ?_, rfl, rfl, rfl, rfl⟩
      · rw [items, none, ended none]
        rfl
      · exact (congrArg SqliteCursor.rows already).trans rows

/-- The rows that the offsets of a page fetch. -/
def fetched (visible : StoredHeader → Bool) (table : Table) (blockno : BitVec 32)
    (offsets : List (BitVec 16)) : List StoredRow :=
  offsets.filterMap (fetchOffset visible table blockno)

/-- The visible rows of the current page that have not been returned. -/
def pending (visible : StoredHeader → Bool) (table : Table) (scan : SqliteScanState) :
    List StoredRow :=
  fetched visible table scan.cursor.bitmapBlockno
    (scan.cursor.bitmapOffsets.drop scan.cursor.bitmapOffsetPos)

theorem drainOffsets_spec {blockno : BitVec 32} {offsets : List (BitVec 16)} {pos later : Nat}
    {found : Option StoredRow}
    (drained : drainOffsets visible table blockno offsets pos = (found, later)) :
    pos ≤ later ∧
      fetched visible table blockno offsets =
        found.toList ++ fetched visible table blockno (offsets.drop (later - pos)) ∧
      (found = none → fetched visible table blockno offsets = []) := by
  induction offsets generalizing pos with
  | nil =>
      cases drained
      simp [fetched]
  | cons offset offsets ih =>
      rw [drainOffsets] at drained
      cases fetch : fetchOffset visible table blockno offset with
      | some row =>
          rw [fetch] at drained
          cases drained
          simp [fetched, fetch]
      | none =>
          rw [fetch] at drained
          obtain ⟨order, items, ended⟩ := ih drained
          have steps : later - pos = (later - (pos + 1)) + 1 := by omega
          have skipped : fetched visible table blockno (offset :: offsets) =
              fetched visible table blockno offsets := by simp [fetched, fetch]
          rw [steps, List.drop_succ_cons, skipped]
          exact ⟨by omega, items, ended⟩

theorem drainPage_spec {found : Option StoredRow}
    (drained : scan.drainPage visible table = (found, after)) :
    scan.pending visible table = found.toList ++ after.pending visible table ∧
      (found = none → scan.pending visible table = []) ∧ SamePages table scan after := by
  unfold drainPage at drained
  cases offsets : drainOffsets visible table scan.cursor.bitmapBlockno
      (scan.cursor.bitmapOffsets.drop scan.cursor.bitmapOffsetPos) scan.cursor.bitmapOffsetPos with
  | mk first later =>
      rw [offsets] at drained
      obtain ⟨rfl, rfl⟩ := Prod.mk.inj drained
      obtain ⟨order, items, ended⟩ := drainOffsets_spec offsets
      rw [List.drop_drop, Nat.add_sub_cancel' order] at items
      exact ⟨items, ended, rfl, rfl, rfl, rfl, rfl⟩

/-- The offsets that a page of the bitmap stands for. -/
def offsetsOf (rows : List StoredRow) (page : TbmIterateResult) : List (BitVec 16) :=
  if page.lossy then lossyOffsets page.blockno rows else page.offsets.take maxOffsets

theorem loadPage_pending (page : TbmIterateResult) :
    (scan.loadPage table page).pending visible table =
      fetched visible table page.blockno (offsetsOf (scan.rows table) page) := by
  unfold loadPage offsetsOf
  cases page.lossy <;> rfl

theorem loadPage_same (page : TbmIterateResult) : SamePages table scan (scan.loadPage table page) := by
  unfold loadPage
  cases page.lossy with
  | false => exact ⟨rfl, rfl, rfl, rfl, rfl⟩
  | true =>
      refine ⟨?_, rfl, rfl, rfl, rfl⟩
      have loaded := SqliteCursor.ensureRowsLoaded_loaded table scan.cursor.toSqliteCursor
      simp only [rows, ↓reduceIte]
      generalize scan.cursor.ensureRowsLoaded table = cursor at loaded ⊢
      simp [SqliteCursor.ensureRowsLoaded, loaded]

end SqliteScanState

namespace ScanNode

open SqliteScanState

variable {visible : StoredHeader → Bool} {table : Table} {node after : ScanNode}

/-- The test of `scan_getnextslot_tidrange` on a rowid, which none passes when a bound cannot
be decoded. -/
def within (min max : Tid) (rowid : Int) : Bool :=
  match checkedTidToRowid min, checkedTidToRowid max with
  | some minRowid, some maxRowid => !(rowid < minRowid || maxRowid < rowid)
  | none, _ | some _, none => false

def inBounds (min max : Tid) (row : StoredHeader) : Bool := within min max row.rowid

/-- The rows of the pages that the iterator has not given yet. -/
def ofPages (visible : StoredHeader → Bool) (table : Table) (rows : List StoredRow)
    (pages : List TbmIterateResult) : List Returned :=
  pages.flatMap fun page =>
    (fetched visible table page.blockno (offsetsOf rows page)).map fun row => (row, page.recheck)

def ofBitmap (visible : StoredHeader → Bool) (table : Table) (pages : List TbmIterateResult)
    (node : ScanNode) : List Returned :=
  ((node.scan.pending visible table).map fun row => (row, node.recheck)) ++
    ofPages visible table (node.scan.rows table) pages

/-- The block of a sample scan, if it has not been given yet. -/
def sampleBlock (visible : StoredHeader → Bool) (table : Table) (scan : SqliteScanState) :
    List StoredRow :=
  if scan.cursor.sampleBlockConsumed then []
  else (scan.rows table).filter fun row => visible row.toStoredHeader

def ofSample (visible : StoredHeader → Bool) (table : Table) (node : ScanNode) : List StoredRow :=
  (if node.haveBlock then node.scan.rest visible table else []) ++
    sampleBlock visible table node.scan

/-- What a scan of each kind has left to return. -/
def remaining (visible : StoredHeader → Bool) (table : Table) (request : ScanRequest)
    (node : ScanNode) : List Returned :=
  match request with
  | .sequential => (node.scan.rest visible table).map fun row => (row, false)
  | .tidRange _ _ =>
      (node.scan.rest (fun row => inBounds node.scan.mintid node.scan.maxtid row && visible row)
        table).map fun row => (row, false)
  | .bitmap _ => ofBitmap visible table node.scan.tbmIterator node
  | .sample => (ofSample visible table node).map fun row => (row, false)

/-- A call panics when a bound cannot be decoded, and then no row is in bounds. -/
theorem scanGetnextslotTidrange_cases (visible : StoredHeader → Bool) (table : Table)
    (scan : SqliteScanState) :
    (scan.scanGetnextslotTidrange visible table = none ∧
        (scan.mintid.offset = 0#16 ∨ scan.maxtid.offset = 0#16) ∧
        ∀ row, inBounds scan.mintid scan.maxtid row = false) ∨
      (scan.mintid.offset ≠ 0#16 ∧ scan.maxtid.offset ≠ 0#16) ∧
        scan.scanGetnextslotTidrange visible table = some (scan.scanGetnextslot
          (fun row => inBounds scan.mintid scan.maxtid row && visible row) table) := by
  by_cases low : scan.mintid.offset = 0#16
  · exact .inl ⟨by simp [scanGetnextslotTidrange, checkedTidToRowid, low], .inl low,
      fun row => by simp [inBounds, within, checkedTidToRowid, low]⟩
  · by_cases high : scan.maxtid.offset = 0#16
    · exact .inl ⟨by simp [scanGetnextslotTidrange, checkedTidToRowid, low, high], .inr high,
        fun row => by simp [inBounds, within, checkedTidToRowid, low, high]⟩
    · exact .inr ⟨⟨low, high⟩, by
        simp [scanGetnextslotTidrange, checkedTidToRowid, low, high, inBounds, within]⟩

theorem scanBitmapNextTuple_spec {pages : List TbmIterateResult} {found : Option StoredRow}
    (stepped : scanBitmapNextTuple visible table pages node = (found, after)) :
    (found = none → ofBitmap visible table pages node = []) ∧
      (∀ row, found = some row → ofBitmap visible table pages node =
        (row, after.recheck) :: ofBitmap visible table after.scan.tbmIterator after) ∧
      after.scan.rows table = node.scan.rows table := by
  induction pages generalizing node with
  | nil =>
      cases drained : node.scan.drainPage visible table with
      | mk first scan =>
          obtain ⟨items, ended, same⟩ := drainPage_spec drained
          simp only [scanBitmapNextTuple, drained] at stepped
          obtain ⟨rfl, rfl⟩ := Prod.mk.inj stepped
          refine ⟨fun none => ?_, fun row found => ?_, same.rows⟩
          · simp [ofBitmap, ofPages, ended none]
          · obtain rfl := found
            have same : ({ scan with tbmIterator := [] } : SqliteScanState).pending visible table =
              scan.pending visible table := rfl
            simp [ofBitmap, ofPages, items, same]
  | cons page rest ih =>
      cases drained : node.scan.drainPage visible table with
      | mk first scan =>
          obtain ⟨items, ended, same⟩ := drainPage_spec drained
          simp only [scanBitmapNextTuple, drained] at stepped
          cases first with
          | some row =>
              obtain ⟨rfl, rfl⟩ := Prod.mk.inj stepped
              have pending : ({ scan with tbmIterator := page :: rest } : SqliteScanState).pending
                visible table = scan.pending visible table := rfl
              have rows : ({ scan with tbmIterator := page :: rest } : SqliteScanState).rows table =
                node.scan.rows table := same.rows
              refine ⟨(fun none => nomatch none), fun other first => ?_, rows⟩
              cases first
              simp [ofBitmap, items, pending, rows]
          | none =>
              have loaded : ofBitmap visible table (page :: rest) node =
                  ofBitmap visible table rest
                    { node with
                      scan := scan.loadPage table page
                      recheck := page.recheck
                      lossyPages := if page.lossy then node.lossyPages + 1 else node.lossyPages
                      exactPages := if page.lossy then node.exactPages else node.exactPages + 1 } := by
                simp only [ofBitmap, ended rfl, List.map_nil, List.nil_append, loadPage_pending,
                  (loadPage_same page).rows, same.rows]
                rfl
              obtain ⟨ends, first, rows⟩ := ih stepped
              rw [loaded]
              exact ⟨ends, first, rows.trans ((loadPage_same page).rows.trans same.rows)⟩

theorem tablesampleNextBlock_spec {found : Option StoredRow}
    (stepped : tablesampleNextBlock visible table node = (found, after)) :
    (found = none → sampleBlock visible table node.scan = []) ∧
      (∀ row, found = some row →
        sampleBlock visible table node.scan = row :: ofSample visible table after) ∧
      after.scan.rows table = node.scan.rows table := by
  unfold tablesampleNextBlock scanSampleNextBlock at stepped
  cases consumed : node.scan.cursor.sampleBlockConsumed with
  | true =>
      simp only [consumed, ↓reduceIte] at stepped
      cases stepped
      simp [sampleBlock, consumed]
  | false =>
      simp only [consumed, Bool.false_eq_true, ↓reduceIte] at stepped
      let entered : SqliteScanState :=
        { node.scan with cursor := { node.scan.cursor with sampleBlockConsumed := true, pos := 0 } }
      have rows : entered.rows table = node.scan.rows table := ensureRowsLoaded_rows _ table 0
      have block : sampleBlock visible table node.scan = entered.rest visible table := by
        simp [sampleBlock, consumed, rest, rows, entered]
      rw [block]
      cases next : entered.scanSampleNextTuple visible table with
      | mk first scan =>
          obtain ⟨items, ended, same⟩ := scanGetnextslot_spec next
          have entering : scan.cursor.sampleBlockConsumed = true := same.sampleBlockConsumed
          simp only [entered] at next
          rw [next] at stepped
          cases first with
          | none =>
              cases stepped
              exact ⟨fun _ => ended rfl, (fun row none => nomatch none), same.rows.trans rows⟩
          | some row =>
              cases stepped
              refine ⟨(fun none => nomatch none), fun other first => ?_, same.rows.trans rows⟩
              cases first
              simp [items, ofSample, sampleBlock, entering]

theorem tablesampleGetnext_spec {found : Option StoredRow}
    (stepped : tablesampleGetnext visible table node = (found, after)) :
    (found = none → ofSample visible table node = []) ∧
      (∀ row, found = some row → ofSample visible table node = row :: ofSample visible table after) ∧
      after.scan.rows table = node.scan.rows table := by
  unfold tablesampleGetnext at stepped
  cases inside : node.haveBlock with
  | false =>
      simp only [inside, Bool.false_eq_true, ↓reduceIte] at stepped
      have block := tablesampleNextBlock_spec stepped
      simpa [ofSample, inside] using block
  | true =>
      simp only [inside, ↓reduceIte] at stepped
      cases next : node.scan.scanSampleNextTuple visible table with
      | mk first scan =>
          obtain ⟨items, ended, same⟩ := scanGetnextslot_spec next
          rw [next] at stepped
          cases first with
          | some row =>
              cases stepped
              refine ⟨(fun none => nomatch none), fun other first => ?_, same.rows⟩
              cases first
              simp [ofSample, inside, items, sampleBlock, same.sampleBlockConsumed, same.rows]
          | none =>
              have block := tablesampleNextBlock_spec stepped
              have left : ofSample visible table node = sampleBlock visible table scan := by
                simp [ofSample, inside, ended rfl, sampleBlock, same.sampleBlockConsumed, same.rows]
              rw [left]
              exact ⟨block.1, block.2.1, block.2.2.trans same.rows⟩

theorem getnext_remaining (request : ScanRequest) :
    Remaining (getnext visible table request) (remaining visible table request) := by
  intro node
  cases request with
  | sequential =>
      cases stepped : node.scan.scanGetnextslot visible table with
      | mk found scan =>
          obtain ⟨items, ended, _⟩ := scanGetnextslot_spec stepped
          cases found with
          | none => simp [getnext, stepped, remaining, ended rfl]
          | some row => simp [getnext, stepped, remaining, items]
  | tidRange min max =>
      rcases scanGetnextslotTidrange_cases visible table node.scan with
        ⟨panics, _, outside⟩ | ⟨_, decoded⟩
      · simp [getnext, panics, remaining, rest, outside]
      · cases stepped : node.scan.scanGetnextslot
            (fun row => inBounds node.scan.mintid node.scan.maxtid row && visible row) table with
        | mk found scan =>
            obtain ⟨items, ended, same⟩ := scanGetnextslot_spec stepped
            rw [stepped] at decoded
            cases found with
            | none =>
                have none := ended rfl
                simp only [getnext, decoded, remaining, Option.map_none]
                exact congrArg _ none
            | some row =>
                simp only [getnext, decoded, remaining, Option.map_some, same.mintid, same.maxtid]
                exact congrArg _ items
  | bitmap pages =>
      cases stepped : scanBitmapNextTuple visible table node.scan.tbmIterator node with
      | mk found after =>
          have left := scanBitmapNextTuple_spec stepped
          cases found with
          | none => simpa [getnext, stepped, remaining] using left.1 rfl
          | some row => simpa [getnext, stepped, remaining] using left.2.1 row rfl
  | sample =>
      cases stepped : tablesampleGetnext visible table node with
      | mk found after =>
          have left := tablesampleGetnext_spec stepped
          cases found with
          | none => simp [getnext, stepped, remaining, left.1 rfl]
          | some row => simp [getnext, stepped, remaining, left.2.1 row rfl]

theorem getnext_rows (request : ScanRequest) :
    (node.getnext visible table request).2.scan.rows table = node.scan.rows table := by
  cases request with
  | sequential =>
      cases stepped : node.scan.scanGetnextslot visible table with
      | mk found scan =>
          simp only [getnext, stepped]
          exact (scanGetnextslot_spec stepped).2.2.rows
  | tidRange min max =>
      rcases scanGetnextslotTidrange_cases visible table node.scan with ⟨panics, _⟩ | ⟨_, decoded⟩
      · simp only [getnext, panics]
      · simp only [getnext, decoded]
        exact (scanGetnextslot_spec rfl).2.2.rows
  | bitmap pages =>
      cases stepped : scanBitmapNextTuple visible table node.scan.tbmIterator node with
      | mk found after =>
          simp only [getnext, stepped]
          exact (scanBitmapNextTuple_spec stepped).2.2
  | sample =>
      cases stepped : tablesampleGetnext visible table node with
      | mk found after =>
          simp only [getnext, stepped]
          exact (tablesampleGetnext_spec stepped).2.2

theorem ask_rows (request : ScanRequest) : (ask request node).scan.rows table = node.scan.rows table := by
  cases request with
  | tidRange min max => exact ensureRowsLoaded_rows _ table 0
  | sequential | bitmap pages | sample => rfl

theorem scanRescan_rows (request : ScanRequest) :
    (node.scanRescan request).scan.rows table = node.scan.rows table := by
  rw [scanRescan, ask_rows]
  exact ensureRowsLoaded_rows _ table 0

theorem Reachable.rows {request : ScanRequest} (reached : Reachable visible table request node) :
    node.scan.rows table = table.rows := by
  induction reached with
  | begin request =>
      rw [scanBegin, ask_rows]
      rfl
  | getnext _ ih => rw [getnext_rows, ih]
  | rescan _ _ ih => rw [scanRescan_rows, ih]

/-- Nothing of an earlier use is left: a bitmap page holds no further visible row, and
the block of a sample has not been given. -/
def Clean (visible : StoredHeader → Bool) (table : Table) (node : ScanNode) : ScanRequest → Prop
  | .sequential | .tidRange _ _ => True
  | .bitmap _ =>
      ∀ offset ∈ node.scan.cursor.bitmapOffsets.drop node.scan.cursor.bitmapOffsetPos,
        fetchOffset visible table node.scan.cursor.bitmapBlockno offset = none
  | .sample =>
      node.scan.cursor.sampleBlockConsumed = false ∨
        ∀ row ∈ table.rows, visible row.toStoredHeader = false

theorem remaining_begin_bitmap (pages : List TbmIterateResult) :
    remaining visible table (.bitmap pages) (scanBegin (.bitmap pages)) =
      ofPages visible table table.rows pages := rfl

theorem remaining_begin_sample :
    remaining visible table .sample (scanBegin .sample) =
      (table.rows.filter fun row => visible row.toStoredHeader).map fun row => (row, false) := rfl

section Rescanned

variable {request again : ScanRequest} (reached : Reachable visible table request node)

include reached

theorem remaining_rescan_bitmap (pages : List TbmIterateResult) :
    remaining visible table (.bitmap pages) (node.scanRescan (.bitmap pages)) =
      ((node.scan.pending visible table).map fun row => (row, true)) ++
        ofPages visible table table.rows pages := by
  have rows := (scanRescan_rows (.bitmap pages)).trans reached.rows
  simp only [remaining, ofBitmap, rows]
  rfl

theorem remaining_rescan_sample :
    remaining visible table .sample (node.scanRescan .sample) =
      (if node.scan.cursor.sampleBlockConsumed then []
        else table.rows.filter fun row => visible row.toStoredHeader).map fun row => (row, false) := by
  have rows := (scanRescan_rows .sample).trans reached.rows
  simp only [remaining, ofSample, sampleBlock, rows]
  rfl

theorem remaining_rescan_rows (rescanned : again = .sequential ∨ ∃ min max, again = .tidRange min max) :
    remaining visible table again (node.scanRescan again) =
      remaining visible table again (scanBegin again) := by
  have rows := (scanRescan_rows again).trans reached.rows
  have fresh := (@Reachable.begin visible table again).rows
  rcases rescanned with rfl | ⟨min, max, rfl⟩ <;>
    · simp only [remaining, rest, rows, fresh]
      rfl

/-- What a rescan has left is what a new scan has left, if the cursor is clean. -/
theorem remaining_rescan_iff (alike : request.Alike again) :
    remaining visible table again (node.scanRescan again) =
        remaining visible table again (scanBegin again) ↔ Clean visible table node again := by
  cases again with
  | sequential => exact iff_of_true (remaining_rescan_rows reached (.inl rfl)) trivial
  | tidRange min max => exact iff_of_true (remaining_rescan_rows reached (.inr ⟨min, max, rfl⟩)) trivial
  | bitmap pages =>
      rw [remaining_rescan_bitmap reached, remaining_begin_bitmap, List.append_left_eq_self,
        List.map_eq_nil_iff]
      exact List.filterMap_eq_nil_iff
  | sample =>
      rw [remaining_rescan_sample reached, remaining_begin_sample, Clean]
      cases consumed : node.scan.cursor.sampleBlockConsumed with
      | false => simp
      | true =>
          simp only [↓reduceIte, List.map_nil, Bool.true_eq_false, false_or]
          rw [eq_comm, List.map_eq_nil_iff, List.filter_eq_nil_iff]
          simp

end Rescanned

/-- A rescan returns the rows of a new scan if and only if the cursor is clean, from every
state that it can be in and for everything that the rescan can ask for. -/
theorem rescan_eq_fresh_iff {visible : StoredHeader → Bool} {table : Table}
    {request again : ScanRequest} {node : ScanNode} (reached : Reachable visible table request node)
    (alike : request.Alike again) :
    ∃ rows fresh, Yields (getnext visible table again) (node.scanRescan again) rows ∧
      Yields (getnext visible table again) (scanBegin again) fresh ∧
      (rows = fresh ↔ Clean visible table node again) :=
  ⟨_, _, yields_remaining (getnext_remaining again) _, yields_remaining (getnext_remaining again) _,
    remaining_rescan_iff reached alike⟩

/-- Two rows, at offsets 1 and 2 of the first block. -/
def twoRows : Table := (Table.empty.insertRow 3#32 0#32 [1]).insertRow 3#32 0#32 [2]

def rowOne : StoredRow := ⟨⟨1, 3#32, 0#32, 0#32, 0#32⟩, [1]⟩
def rowTwo : StoredRow := ⟨⟨2, 3#32, 0#32, 0#32, 0#32⟩, [2]⟩

/-- A bitmap scan for some offsets of the first block. -/
def exactPage (offsets : List (BitVec 16)) : ScanRequest := .bitmap [⟨0#32, false, false, offsets⟩]

/-- A scan of two rows after its first row. -/
def afterFirst (request : ScanRequest) : ScanNode :=
  (getnext (fun _ => true) twoRows request (scanBegin request)).2

theorem afterOnly_fresh :
    ∃ rows fresh,
      Yields (getnext (fun _ => true) twoRows (exactPage [2#16]))
        ((afterFirst (exactPage [1#16])).scanRescan (exactPage [2#16])) rows ∧
      Yields (getnext (fun _ => true) twoRows (exactPage [2#16])) (scanBegin (exactPage [2#16]))
        fresh ∧
      (rows = fresh ↔ Clean (fun _ => true) twoRows (afterFirst (exactPage [1#16])) (exactPage [2#16])) :=
  rescan_eq_fresh_iff (.getnext (.begin (exactPage [1#16]))) trivial

/-- A bitmap scan stopped inside a page returns the rest of it after the rescan, and a
sample scan returns nothing. -/
theorem stopped_differs :
    (Reachable (fun _ => true) twoRows (exactPage [1#16, 2#16]) (afterFirst (exactPage [1#16, 2#16])) ∧
      Yields (getnext (fun _ => true) twoRows (exactPage [1#16]))
        ((afterFirst (exactPage [1#16, 2#16])).scanRescan (exactPage [1#16]))
        [(rowTwo, true), (rowOne, false)] ∧
      Yields (getnext (fun _ => true) twoRows (exactPage [1#16])) (scanBegin (exactPage [1#16]))
        [(rowOne, false)]) ∧
      Reachable (fun _ => true) twoRows .sample (afterFirst .sample) ∧
      Yields (getnext (fun _ => true) twoRows .sample) ((afterFirst .sample).scanRescan .sample) [] ∧
      Yields (getnext (fun _ => true) twoRows .sample) (scanBegin .sample)
        [(rowOne, false), (rowTwo, false)] := by
  refine ⟨⟨.getnext (.begin _), ?_, ?_⟩, .getnext (.begin _), ?_, ?_⟩
  · exact .more rfl (.more rfl (.done rfl))
  · exact .more rfl (.done rfl)
  · exact .done rfl
  · exact .more rfl (.more rfl (.done rfl))

end ScanNode

end SqliteHeap
