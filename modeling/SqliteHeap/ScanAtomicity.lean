import SqliteHeap.BitmapScan
import SqliteHeap.StableRows

/-! Scans of each kind, stepped while everything else goes on. What a scan has left to return
depends on the rows that its snapshot shows and on its cursor, not on the table of the moment,
so a scan whose steps are interleaved with writes returns what it returns when it is run at
once. -/

set_option autoImplicit false

namespace SqliteHeap

open Pull

/-- The row that is shown at a TID. -/
def lookup (all : List (Int × Bytes)) (rowid : Int) : Option (Int × Bytes) :=
  all.find? fun content => content.1 = rowid

namespace ScanNode

open SqliteScanState

/-- What a call returns, apart from the header of the row. -/
def content (returned : Returned) : (Int × Bytes) × Bool := (returned.1.content, returned.2)

/-! ## What is left, from the rows that are shown -/

section Left

variable (visible : StoredHeader → Bool) (all : List (Int × Bytes))

/-- The shown rows from the position on. -/
def restOf (scan : SqliteScanState) : List (Int × Bytes) :=
  if scan.cursor.rowsLoaded then shown visible (scan.cursor.rows.drop scan.cursor.pos) else all

def fetchedOf (blockno : BitVec 32) (offsets : List (BitVec 16)) : List (Int × Bytes) :=
  offsets.filterMap fun offset => lookup all (tidToRowid ⟨blockno, offset⟩)

/-- The shown rows of a page of the bitmap. -/
def pageOf (page : TbmIterateResult) : List (Int × Bytes) :=
  if page.lossy then all.filter fun content => (rowidToTid content.1).block = page.blockno
  else fetchedOf all page.blockno (page.offsets.take maxOffsets)

def pendingOf (scan : SqliteScanState) : List (Int × Bytes) :=
  fetchedOf all scan.cursor.bitmapBlockno (scan.cursor.bitmapOffsets.drop scan.cursor.bitmapOffsetPos)

/-- What a scan of each kind has left of the rows that are shown. -/
def leftOf (request : ScanRequest) (node : ScanNode) : List ((Int × Bytes) × Bool) :=
  match request with
  | .sequential => (restOf visible all node.scan).map fun row => (row, false)
  | .tidRange _ _ =>
      ((restOf visible all node.scan).filter fun row =>
        within node.scan.mintid node.scan.maxtid row.1).map fun row => (row, false)
  | .bitmap _ =>
      ((pendingOf all node.scan).map fun row => (row, node.recheck)) ++
        node.scan.tbmIterator.flatMap fun page => (pageOf all page).map fun row => (row, page.recheck)
  | .sample =>
      ((if node.haveBlock then restOf visible all node.scan else []) ++
        if node.scan.cursor.sampleBlockConsumed then []
        else if node.scan.cursor.rowsLoaded then shown visible node.scan.cursor.rows
        else all).map fun row => (row, false)

end Left

/-- The TIDs of a table that a bitmap scans are those of its rows. -/
def Fits : ScanRequest → Table → Prop
  | .bitmap _, table => FitsBitmap table
  | .sequential, _ | .tidRange _ _, _ | .sample, _ => True

/-- The cursor stands in a table whose shown rows are these, or has none yet. -/
structure Follows (visible : StoredHeader → Bool) (all : List (Int × Bytes)) (request : ScanRequest)
    (scan : SqliteScanState) : Prop where
  unloaded : scan.cursor.rowsLoaded = false → scan.cursor.pos = 0
  loaded : scan.cursor.rowsLoaded = true →
    ∃ source : Table, scan.cursor.rows = source.rows ∧ shown visible source.rows = all ∧ Fits request source

section Reading

variable {visible : StoredHeader → Bool} {table : Table} {all : List (Int × Bytes)}
  {request : ScanRequest} {node after : ScanNode} {scan : SqliteScanState}
  (same : shown visible table.rows = all)

theorem rows_of_loaded (loaded : scan.cursor.rowsLoaded = true) : scan.rows table = scan.cursor.rows := by
  simp [rows, SqliteCursor.ensureRowsLoaded, loaded]

theorem rows_of_unloaded (unloaded : scan.cursor.rowsLoaded = false) : scan.rows table = table.rows := by
  simp [rows, SqliteCursor.ensureRowsLoaded, unloaded, Table.selectAll]

include same

theorem Follows.source (follows : Follows visible all request scan) (fits : Fits request table) :
    ∃ source : Table, scan.rows table = source.rows ∧ shown visible source.rows = all ∧
      Fits request source := by
  cases loaded : scan.cursor.rowsLoaded with
  | true =>
      rw [rows_of_loaded loaded]
      exact follows.loaded loaded
  | false => exact ⟨table, rows_of_unloaded loaded, same, fits⟩

theorem rest_content (follows : Follows visible all request scan) :
    (scan.rest visible table).map StoredRow.content = restOf visible all scan := by
  cases loaded : scan.cursor.rowsLoaded with
  | true =>
      rw [restOf, loaded, if_pos rfl, rest, rows_of_loaded loaded]
      rfl
  | false =>
      rw [restOf, loaded, if_neg Bool.false_ne_true, rest, rows_of_unloaded loaded,
        follows.unloaded loaded, List.drop_zero]
      exact same

theorem fetched_content (blockno : BitVec 32) (offsets : List (BitVec 16)) :
    (fetched visible table blockno offsets).map StoredRow.content = fetchedOf all blockno offsets := by
  rw [fetched, List.map_filterMap, fetchedOf]
  refine congrArg (fun fetch => List.filterMap fetch offsets) (funext fun offset => ?_)
  rw [fetchOffset, content_fetch, same]
  rfl

/-- The offsets of a lossy page fetch the shown rows of its block. -/
theorem fetchedOf_lossyOffsets (fits : FitsBitmap table) (blockno : BitVec 32) :
    fetchedOf all blockno (lossyOffsets blockno table.rows) =
      all.filter fun content => (rowidToTid content.1).block = blockno := by
  have fetches : ∀ row ∈ table.rows.filter fun row => (rowidToTid row.rowid).block = blockno,
      lookup all (tidToRowid ⟨blockno, (rowidToTid row.rowid).offset⟩) =
        if visible row.toStoredHeader then some row.content else none := by
    intro row member
    obtain ⟨inTable, block⟩ := List.mem_filter.mp member
    obtain rfl := of_decide_eq_true block
    have tid : tidToRowid ⟨(rowidToTid row.rowid).block, (rowidToTid row.rowid).offset⟩ = row.rowid :=
      tidToRowid_of_fits fits inTable
    have found := content_fetch visible table row.rowid
    rw [fetchOneIntoSlot, Table.selectOne_of_mem inTable, Option.filter_some, same] at found
    rw [tid, lookup, ← found]
    split <;> rfl
  calc fetchedOf all blockno (lossyOffsets blockno table.rows)
      = (table.rows.filter fun row => (rowidToTid row.rowid).block = blockno).filterMap fun row =>
          if visible row.toStoredHeader then some row.content else none := by
        rw [fetchedOf, lossyOffsets, List.filterMap_map]
        exact List.filterMap_congr fetches
    _ = ((table.rows.filter fun row => (rowidToTid row.rowid).block = blockno).filter fun row =>
          visible row.toStoredHeader).map StoredRow.content := by
        rw [← List.filterMap_filter, List.filterMap_eq_map']
    _ = all.filter fun content => (rowidToTid content.1).block = blockno := by
        rw [← same, shown, List.filter_map, List.filter_filter, List.filter_filter]
        refine congrArg _ (List.filter_congr fun row _ => ?_)
        exact Bool.and_comm _ _

theorem page_content {source : Table} (shows : shown visible source.rows = all)
    (fits : FitsBitmap source) (page : TbmIterateResult) :
    (fetched visible table page.blockno (offsetsOf source.rows page)).map StoredRow.content =
      pageOf all page := by
  rw [fetched_content same, offsetsOf, pageOf]
  cases page.lossy with
  | true => exact fetchedOf_lossyOffsets shows fits page.blockno
  | false => rfl

theorem inBounds_content (scan : SqliteScanState) (min max : Tid)
    (follows : Follows visible all request scan) :
    (scan.rest (fun row => inBounds min max row && visible row) table).map StoredRow.content =
      (restOf visible all scan).filter fun row => within min max row.1 := by
  have bounded : scan.rest (fun row => inBounds min max row && visible row) table =
      (scan.rest visible table).filter fun row => within min max row.rowid := by
    rw [rest, rest, List.filter_filter]
    rfl
  rw [bounded, ← rest_content same follows, List.filter_map]
  rfl

/-- What a scan has left, from the rows that are shown. -/
theorem remaining_content (follows : Follows visible all request node.scan)
    (fits : Fits request table) :
    (remaining visible table request node).map content = leftOf visible all request node := by
  cases request with
  | sequential =>
      rw [leftOf, ← rest_content same follows, remaining, List.map_map, List.map_map]
      rfl
  | tidRange min max =>
      rw [leftOf, ← inBounds_content same node.scan _ _ follows, remaining, List.map_map, List.map_map]
      rfl
  | bitmap pages =>
      obtain ⟨source, rows, shows, fits'⟩ := follows.source same fits
      have pages : ∀ page ∈ node.scan.tbmIterator,
          ((fetched visible table page.blockno (offsetsOf source.rows page)).map fun row =>
            (row, page.recheck)).map content =
              (pageOf all page).map fun row => (row, page.recheck) := by
        intro page _
        rw [← page_content same shows fits' page, List.map_map, List.map_map]
        rfl
      rw [leftOf, pendingOf, ← fetched_content same, remaining, ofBitmap, ofPages, rows,
        List.map_append, List.map_map, List.map_map, List.map_flatMap, List.flatMap_congr pages]
      rfl
  | sample =>
      obtain ⟨source, rows, shows, _⟩ := follows.source same fits
      have block : (sampleBlock visible table node.scan).map StoredRow.content =
          if node.scan.cursor.sampleBlockConsumed then []
          else if node.scan.cursor.rowsLoaded then shown visible node.scan.cursor.rows else all := by
        rw [sampleBlock]
        cases node.scan.cursor.sampleBlockConsumed with
        | true => rfl
        | false =>
            cases loaded : node.scan.cursor.rowsLoaded with
            | true =>
                rw [rows_of_loaded loaded]
                rfl
            | false =>
                rw [rows_of_unloaded loaded]
                exact same
      rw [leftOf, ← block, ← rest_content same follows, remaining, ofSample, List.map_map]
      cases node.haveBlock with
      | true =>
          rw [if_pos rfl, if_pos rfl, ← List.map_append, List.map_map]
          rfl
      | false =>
          rw [if_neg Bool.false_ne_true, if_neg Bool.false_ne_true, List.nil_append, List.nil_append,
            List.map_map]
          rfl

end Reading

/-- Two readers that see the same loaded rows have the same left. -/
theorem leftOf_congr {visible visible' : StoredHeader → Bool} {all : List (Int × Bytes)}
    {request : ScanRequest} {node : ScanNode}
    (same : node.scan.cursor.rowsLoaded = true → ∀ row ∈ node.scan.cursor.rows,
      visible' row.toStoredHeader = visible row.toStoredHeader) :
    leftOf visible' all request node = leftOf visible all request node := by
  have rest : restOf visible' all node.scan = restOf visible all node.scan := by
    unfold restOf
    split
    · next loaded =>
        exact shown_congr fun row member => same loaded row (List.mem_of_mem_drop member)
    · rfl
  have block : (if node.scan.cursor.rowsLoaded then shown visible' node.scan.cursor.rows else all) =
      if node.scan.cursor.rowsLoaded then shown visible node.scan.cursor.rows else all := by
    split
    · next loaded => exact shown_congr (same loaded)
    · rfl
  cases request with
  | sequential | tidRange => rw [leftOf, rest, leftOf]
  | bitmap => rfl
  | sample => rw [leftOf, rest, block, leftOf]

/-! ## What one call does -/

section Calls

variable {visible : StoredHeader → Bool} {table : Table} {request : ScanRequest}
  {node after : ScanNode} {scan scanned : SqliteScanState}

/-- The cursor has no position before its rows are loaded. -/
def Unmoved (scan : SqliteScanState) : Prop :=
  scan.cursor.rowsLoaded = false → scan.cursor.pos = 0

theorem scanGetnextslot_unmoved {found : Option StoredRow}
    (stepped : scan.scanGetnextslot visible table = (found, scanned)) : Unmoved scanned := by
  intro unloaded
  unfold scanGetnextslot at stepped
  cases next : scan.cursor.toSqliteCursor.doScanGetnext visible table with
  | mk first cursor =>
      rw [next] at stepped
      obtain ⟨rfl, rfl⟩ := Prod.mk.inj stepped
      have loaded := (SqliteCursor.doScanGetnext_spec next).2.2.2
      exact absurd (loaded.symm.trans unloaded) Bool.noConfusion

theorem loadPage_unmoved (unmoved : Unmoved scan) (page : TbmIterateResult) :
    Unmoved (scan.loadPage table page) := by
  intro unloaded
  unfold loadPage at unloaded ⊢
  cases lossy : page.lossy with
  | true =>
      rw [lossy] at unloaded
      have loaded := SqliteCursor.ensureRowsLoaded_loaded table scan.cursor.toSqliteCursor
      exact absurd (loaded.symm.trans unloaded) Bool.noConfusion
  | false =>
      rw [lossy] at unloaded
      exact unmoved unloaded

theorem scanBitmapNextTuple_unmoved {pages : List TbmIterateResult} (unmoved : Unmoved node.scan) :
    Unmoved (scanBitmapNextTuple visible table pages node).2.scan := by
  induction pages generalizing node with
  | nil => exact unmoved
  | cons page rest ih =>
      rw [scanBitmapNextTuple]
      cases drained : node.scan.drainPage visible table with
      | mk first scan =>
          have kept : Unmoved scan := by
            obtain ⟨_, rfl⟩ := Prod.mk.inj drained
            exact unmoved
          cases first with
          | some row => exact kept
          | none => exact ih (loadPage_unmoved kept page)

theorem tablesampleNextBlock_unmoved (unmoved : Unmoved node.scan) :
    Unmoved (tablesampleNextBlock visible table node).2.scan := by
  unfold tablesampleNextBlock scanSampleNextBlock
  cases node.scan.cursor.sampleBlockConsumed with
  | true => exact unmoved
  | false =>
      simp only [Bool.false_eq_true, ↓reduceIte]
      split
      · next stepped => exact scanGetnextslot_unmoved stepped
      · next stepped => exact scanGetnextslot_unmoved stepped

theorem getnext_unmoved (unmoved : Unmoved node.scan) :
    Unmoved (node.getnext visible table request).2.scan := by
  cases request with
  | sequential => exact scanGetnextslot_unmoved rfl
  | tidRange min max =>
      rcases scanGetnextslotTidrange_cases visible table node.scan with ⟨panics, _⟩ | ⟨_, decoded⟩
      · simp only [getnext, panics]
        exact unmoved
      · simp only [getnext, decoded]
        exact scanGetnextslot_unmoved rfl
  | bitmap => exact scanBitmapNextTuple_unmoved unmoved
  | sample =>
      simp only [getnext, tablesampleGetnext]
      cases node.haveBlock with
      | false => exact tablesampleNextBlock_unmoved unmoved
      | true =>
          simp only [↓reduceIte]
          cases stepped : node.scan.scanSampleNextTuple visible table with
          | mk first scanned =>
              have kept : Unmoved scanned := scanGetnextslot_unmoved stepped
              cases first with
              | some row => exact kept
              | none => exact tablesampleNextBlock_unmoved kept

theorem scanBitmapNextTuple_ended {pages : List TbmIterateResult}
    (ended : (scanBitmapNextTuple visible table pages node).1 = none) :
    ofBitmap visible table (scanBitmapNextTuple visible table pages node).2.scan.tbmIterator
      (scanBitmapNextTuple visible table pages node).2 = [] := by
  induction pages generalizing node with
  | nil =>
      cases drained : node.scan.drainPage visible table with
      | mk first scan =>
          simp only [scanBitmapNextTuple, drained] at ended ⊢
          obtain ⟨items, empty, _⟩ := drainPage_spec drained
          rw [empty ended, ended] at items
          have none : scan.pending visible table = [] := items.symm
          simp only [ofBitmap, ofPages, List.flatMap_nil, List.append_nil, List.map_eq_nil_iff]
          exact none
  | cons page rest ih =>
      rw [scanBitmapNextTuple] at ended ⊢
      cases drained : node.scan.drainPage visible table with
      | mk first scan =>
          rw [drained] at ended
          cases first with
          | some row => cases ended
          | none => exact ih ended

theorem tablesampleNextBlock_ended (ended : (tablesampleNextBlock visible table node).1 = none) :
    ofSample visible table (tablesampleNextBlock visible table node).2 = [] := by
  unfold tablesampleNextBlock scanSampleNextBlock at ended ⊢
  cases consumed : node.scan.cursor.sampleBlockConsumed with
  | true => simp [ofSample, sampleBlock, consumed]
  | false =>
      simp only [consumed, Bool.false_eq_true, ↓reduceIte] at ended ⊢
      split
      · next row scanned stepped =>
          rw [stepped] at ended
          cases ended
      · next scanned stepped =>
          have entered := (scanGetnextslot_spec stepped).2.2.sampleBlockConsumed
          simp [ofSample, sampleBlock, entered]

theorem remaining_of_none (ended : (node.getnext visible table request).1 = none) :
    remaining visible table request (node.getnext visible table request).2 = [] := by
  cases request with
  | sequential =>
      cases stepped : node.scan.scanGetnextslot visible table with
      | mk found scanned =>
          simp only [getnext, stepped, Option.map_eq_none_iff] at ended ⊢
          obtain ⟨items, empty, _⟩ := scanGetnextslot_spec stepped
          rw [empty ended, ended] at items
          exact List.map_eq_nil_iff.mpr items.symm
  | tidRange min max =>
      rcases scanGetnextslotTidrange_cases visible table node.scan with
        ⟨panics, _, outside⟩ | ⟨_, decoded⟩
      · simp [getnext, panics, remaining, rest, outside]
      · cases stepped : node.scan.scanGetnextslot
            (fun row => inBounds node.scan.mintid node.scan.maxtid row && visible row) table with
        | mk found scanned =>
            rw [stepped] at decoded
            simp only [getnext, decoded, Option.map_eq_none_iff] at ended ⊢
            obtain ⟨items, empty, same⟩ := scanGetnextslot_spec stepped
            rw [empty ended, ended] at items
            simp only [remaining, same.mintid, same.maxtid]
            exact List.map_eq_nil_iff.mpr items.symm
  | bitmap pages =>
      simp only [getnext, Option.map_eq_none_iff] at ended
      exact scanBitmapNextTuple_ended ended
  | sample =>
      simp only [getnext, Option.map_eq_none_iff, tablesampleGetnext] at ended
      simp only [getnext, remaining, tablesampleGetnext, List.map_eq_nil_iff]
      cases inside : node.haveBlock with
      | false =>
          simp only [inside, Bool.false_eq_true, ↓reduceIte] at ended ⊢
          exact tablesampleNextBlock_ended ended
      | true =>
          simp only [inside, ↓reduceIte] at ended ⊢
          cases stepped : node.scan.scanSampleNextTuple visible table with
          | mk found scanned =>
              rw [stepped] at ended
              cases found with
              | some row => cases ended
              | none => exact tablesampleNextBlock_ended ended

variable {all : List (Int × Bytes)} (same : shown visible table.rows = all)

include same

theorem getnext_follows (follows : Follows visible all request node.scan) (fits : Fits request table) :
    Follows visible all request (node.getnext visible table request).2.scan where
  unloaded := getnext_unmoved follows.unloaded
  loaded loaded := by
    rw [← @rows_of_loaded table _ loaded, getnext_rows]
    exact follows.source same fits

/-- A call returns the first of what is left, or finds nothing left. -/
theorem getnext_left (follows : Follows visible all request node.scan) (fits : Fits request table) :
    leftOf visible all request node =
        (node.getnext visible table request).1.toList.map content ++
          leftOf visible all request (node.getnext visible table request).2 ∧
      ((node.getnext visible table request).1 = none →
        leftOf visible all request (node.getnext visible table request).2 = []) := by
  have before := remaining_content same follows fits
  have afterwards := remaining_content same (getnext_follows same follows fits) fits
  have step := @getnext_remaining visible table request node
  have ended := @remaining_of_none visible table request node
  rw [← before, ← afterwards]
  cases stepped : node.getnext visible table request with
  | mk found next =>
      rw [stepped] at step ended
      cases found with
      | none =>
          have empty := ended rfl
          simp only at step
          rw [step, empty]
          exact ⟨rfl, fun _ => rfl⟩
      | some item =>
          simp only at step
          rw [step]
          exact ⟨rfl, fun none => absurd none (Option.some_ne_none _)⟩

end Calls

end ScanNode

namespace Backends

variable {backends next : Backends} {snap : Snap} {rel : Relation}

/-- A stored header is made of commands of transactions with xids. -/
structure KnownRow (history : History) (row : StoredHeader) : Prop where
  created : ∃ op : Command, Known history op ∧ row.xmin = storedXid op.txn.xid ∧
    row.cmin = storedCid op.cid
  ended : row.xmax = 0#32 ∨ ∃ op : Command, Known history op ∧ row.xmax = storedXid op.txn.xid ∧
    row.cmax = storedCid op.cid

theorem Sound.knownRow (sound : backends.Sound rel) {row : StoredRow} (member : row ∈ rel.table.rows) :
    KnownRow backends.history row.toStoredHeader := by
  obtain ⟨version, inVersions, same⟩ := sound.stores.version_of_mem member
  have header := congrArg RowImage.header same
  obtain ⟨creator, deleter⟩ := Versions.mem_log inVersions
  refine ⟨⟨version.creator, sound.known _ creator, ?_, ?_⟩, ?_⟩
  · exact (congrArg StoredHeader.xmin header).symm
  · exact (congrArg StoredHeader.cmin header).symm
  · have xmax := congrArg StoredHeader.xmax header
    have cmax := congrArg StoredHeader.cmax header
    cases ended : version.deleter with
    | none =>
        rw [RowImage.ofVersion, ended] at xmax
        exact .inl xmax.symm
    | some op =>
        rw [RowImage.ofVersion, ended] at xmax cmax
        exact .inr ⟨op, sound.known _ (deleter op ended).1, xmax.symm, cmax.symm⟩

theorem KnownRow.since {history later : History} {row : StoredHeader} (known : KnownRow history row)
    (since : history.Since later) : KnownRow later row where
  created := by
    obtain ⟨op, known, same⟩ := known.created
    exact ⟨op, known.since since, same⟩
  ended := known.ended.imp_right fun ⟨op, known, same⟩ => ⟨op, known.since since, same⟩

/-- Such a row is seen or not for as long as the snapshot is in use, also when it is gone from
the table. -/
theorem KnownRow.rowVisible {row : StoredHeader} (known : KnownRow backends.history row)
    (inv : backends.Inv) (after : next.Inv) (since : backends.history.Since next.history)
    (member : snap ∈ backends.snaps) (member' : snap ∈ next.snaps) :
    next.rowVisible snap row = backends.rowVisible snap row := by
  obtain ⟨⟨creator, made, xmin, cmin⟩, ended⟩ := known
  have deleted : (History.Happened snap.taken next.history snap.owner (storedCid snap.curcid) row.xmax
        row.cmax ∧ ¬ History.TooOld snap.taken next.history row.xmax ∨
      History.CommittedSince snap.taken next.history snap.owner row.xmax) ↔
      (History.Happened snap.taken backends.history snap.owner (storedCid snap.curcid) row.xmax
        row.cmax ∧ ¬ History.TooOld snap.taken backends.history row.xmax ∨
      History.CommittedSince snap.taken backends.history snap.owner row.xmax) := by
    rcases ended with live | ⟨op, stamped, xmax, cmax⟩
    · exact iff_of_false
        (fun counts => (after.snapshots.use snap member').nonzero_of_counts counts live)
        (fun counts => (inv.snapshots.use snap member).nonzero_of_counts counts live)
    · rw [xmax, cmax, counts_iff after member' (stamped.since since), counts_iff inv member stamped]
  rw [Bool.eq_iff_iff, rowVisible_iff after member', rowVisible_iff inv member, xmin, cmin,
    counts_iff after member' (made.since since), counts_iff inv member made, deleted]

theorem Alters.since (alters : backends.Alters next) : backends.history.Since next.history := by
  cases alters with
  | writes => exact .refl _
  | publishes _ history => exact history ▸ .refl _
  | keeps since => exact since

end Backends

/-! ## A scan among other events -/

/-- A scan under a snapshot, beside the backends. -/
structure ScanRun where
  backends : Backends
  request : ScanRequest
  node : ScanNode
  returned : List ((Int × Bytes) × Bool)
  /-- The last call found nothing. -/
  ended : Bool

inductive ScanRunEvent where
  | backends (event : BackendsEvent)
  | getnext
  | rescan (request : ScanRequest)

def ScanRunEvent.rescans : ScanRunEvent → Bool
  | .rescan _ => true
  | .backends _ | .getnext => false

namespace ScanRun

/-- `scan_begin`. -/
def begin (backends : Backends) (request : ScanRequest) : ScanRun :=
  ⟨backends, request, .scanBegin request, [], false⟩

/-- What the executor gets from a call of the scan. -/
def next (snap : Snap) (run : ScanRun) : ScanNode → Option ScanNode.Returned × ScanNode :=
  ScanNode.getnext (run.backends.rowVisible snap) (run.backends.view snap.owner).table run.request

def step (snap : Snap) (run : ScanRun) : ScanRunEvent → Option ScanRun
  | .backends event => (run.backends.step event).map fun backends => { run with backends := backends }
  | .getnext =>
      let (found, node) := run.next snap run.node
      some { run with
        node := node
        returned := run.returned ++ found.toList.map ScanNode.content
        ended := found.isNone }
  | .rescan request =>
      some { run with
        request := request, node := run.node.scanRescan request, returned := [], ended := false }

def run (snap : Snap) : ScanRun → List ScanRunEvent → Option ScanRun := Transition.run (step snap)

/-- The snapshot stays in use, the TIDs that a bitmap scan meets fit a bitmap, and a rescan is for
a scan of the same kind. -/
def Allowed (snap : Snap) (run : ScanRun) : ScanRunEvent → Prop
  | .backends event => run.backends.Allowed event ∧ event.ends snap = false
  | .getnext => ScanNode.Fits run.request (run.backends.view snap.owner).table
  | .rescan request => run.request.Alike request

instance : DecidableRel ScanRequest.Alike
  | .sequential, .sequential | .tidRange _ _, .tidRange _ _ | .bitmap _, .bitmap _
  | .sample, .sample => isTrue trivial
  | .sequential, .tidRange _ _ | .sequential, .bitmap _ | .sequential, .sample
  | .tidRange _ _, .sequential | .tidRange _ _, .bitmap _ | .tidRange _ _, .sample
  | .bitmap _, .sequential | .bitmap _, .tidRange _ _ | .bitmap _, .sample
  | .sample, .sequential | .sample, .tidRange _ _ | .sample, .bitmap _ => isFalse id

instance (request : ScanRequest) (table : Table) : Decidable (ScanNode.Fits request table) :=
  match request with
  | .bitmap _ => inferInstanceAs (Decidable (∀ row ∈ table.rows, _ ≤ _))
  | .sequential | .tidRange _ _ | .sample => isTrue trivial

instance (snap : Snap) (run : ScanRun) : DecidablePred (run.Allowed snap)
  | .backends _ => inferInstanceAs (Decidable (_ ∧ _))
  | .getnext => inferInstanceAs (Decidable (ScanNode.Fits _ _))
  | .rescan _ => inferInstanceAs (Decidable (ScanRequest.Alike _ _))

/-- What the scan has left of the rows that its snapshot shows. -/
def left (snap : Snap) (run : ScanRun) : List ((Int × Bytes) × Bool) :=
  ScanNode.leftOf (run.backends.rowVisible snap) (run.backends.shown snap) run.request run.node

/-- The scan stands in rows that are shown like those of its table. -/
structure Sound (snap : Snap) (run : ScanRun) : Prop where
  ordered : run.backends.Ordered
  active : snap ∈ run.backends.snaps
  follows : ScanNode.Follows (run.backends.rowVisible snap) (run.backends.shown snap) run.request
    run.node.scan
  known : run.node.scan.cursor.rowsLoaded = true → ∀ row ∈ run.node.scan.cursor.rows,
    Backends.KnownRow run.backends.history row.toStoredHeader
  ended : run.ended = true → run.left snap = []

variable {snap : Snap} {state later : ScanRun} {request : ScanRequest}

theorem cursor_ask (request : ScanRequest) (node : ScanNode) :
    (ScanNode.ask request node).scan.cursor.rows = node.scan.cursor.rows ∧
      (ScanNode.ask request node).scan.cursor.rowsLoaded = node.scan.cursor.rowsLoaded ∧
      (node.scan.cursor.pos = 0 → (ScanNode.ask request node).scan.cursor.pos = 0) := by
  cases request with
  | tidRange min max => exact ⟨rfl, rfl, fun _ => rfl⟩
  | sequential | bitmap pages | sample => exact ⟨rfl, rfl, fun start => start⟩

theorem Sound.begin {backends : Backends} (ordered : backends.Ordered) (active : snap ∈ backends.snaps)
    (request : ScanRequest) : (ScanRun.begin backends request).Sound snap := by
  obtain ⟨rows, loaded, start⟩ := cursor_ask request ⟨SqliteScanState.alloc, false, 0, 0, false, false⟩
  exact {
    ordered := ordered
    active := active
    follows := ⟨fun _ => start rfl, fun already => absurd (loaded.symm.trans already) Bool.false_ne_true⟩
    known := fun already => absurd (loaded.symm.trans already) Bool.false_ne_true
    ended := fun ended => absurd ended Bool.false_ne_true }

theorem fits_of_alike {request again : ScanRequest} (alike : request.Alike again) {table : Table}
    (fits : ScanNode.Fits request table) : ScanNode.Fits again table := by
  cases again with
  | bitmap => cases request with
    | bitmap => exact fits
    | sequential | tidRange | sample => exact alike.elim
  | sequential | tidRange | sample => trivial

theorem Sound.rescan (sound : state.Sound snap) {again : ScanRequest}
    (alike : state.request.Alike again) :
    Sound snap { state with
      request := again, node := state.node.scanRescan again, returned := [], ended := false } := by
  obtain ⟨rows, loaded, start⟩ := cursor_ask again { state.node with scan := state.node.scan.scanRescan }
  exact {
    ordered := sound.ordered
    active := sound.active
    follows := {
      unloaded := fun _ => start rfl
      loaded := fun already => by
        obtain ⟨source, same, shows, fits⟩ := sound.follows.loaded (loaded.symm.trans already)
        exact ⟨source, rows.trans same, shows, fits_of_alike alike fits⟩ }
    known := fun already row member =>
      sound.known (loaded.symm.trans already) row (rows ▸ member)
    ended := fun ended => absurd ended Bool.false_ne_true }

/-- Other events leave what the scan has left. -/
theorem Sound.backends (sound : state.Sound snap) {event : BackendsEvent} {next : Backends}
    (allowed : state.backends.Allowed event) (stays : event.ends snap = false)
    (stepped : state.backends.step event = some next) :
    Sound snap { state with backends := next } ∧
      left snap { state with backends := next } = state.left snap := by
  have after := sound.ordered.step allowed stepped
  have alters := Backends.alters_of_step sound.ordered.inv allowed stepped
  have active := Backends.mem_snaps_of_step sound.active stepped stays
  have same := Backends.shown_step sound.ordered.inv sound.ordered.shadows after.inv alters sound.active
    active
  have visible : state.node.scan.cursor.rowsLoaded = true → ∀ row ∈ state.node.scan.cursor.rows,
      next.rowVisible snap row.toStoredHeader = state.backends.rowVisible snap row.toStoredHeader :=
    fun loaded row member => (sound.known loaded row member).rowVisible sound.ordered.inv after.inv
      alters.since sound.active active
  have unchanged : left snap { state with backends := next } = state.left snap := by
    rw [left, left, same]
    exact ScanNode.leftOf_congr visible
  refine ⟨⟨after, active, ⟨sound.follows.unloaded, fun loaded => ?_⟩, fun loaded row member => ?_,
    fun ended => unchanged.trans (sound.ended ended)⟩, unchanged⟩
  · obtain ⟨source, rows, shows, fits⟩ := sound.follows.loaded loaded
    refine ⟨source, rows, ?_, fits⟩
    rw [same, ← shows, ← rows]
    exact shown_congr (visible loaded)
  · exact (sound.known loaded row member).since alters.since

theorem Sound.getnext (sound : state.Sound snap)
    (fits : ScanNode.Fits state.request (state.backends.view snap.owner).table) {next : ScanRun}
    (stepped : state.step snap .getnext = some next) :
    next.Sound snap ∧ next.returned ++ next.left snap = state.returned ++ state.left snap := by
  obtain ⟨items, ended⟩ := ScanNode.getnext_left rfl sound.follows fits
  have follows := ScanNode.getnext_follows rfl sound.follows fits
  have rows := @ScanNode.getnext_rows (state.backends.rowVisible snap)
    (state.backends.view snap.owner).table state.node state.request
  obtain rfl := Option.some.inj stepped
  refine ⟨⟨sound.ordered, sound.active, follows, fun loaded row member => ?_, fun none => ?_⟩, ?_⟩
  · rw [← @ScanNode.rows_of_loaded (state.backends.view snap.owner).table _ loaded] at member
    change row ∈ SqliteScanState.rows _ (ScanNode.getnext _ _ _ state.node).2.scan at member
    rw [rows] at member
    cases already : state.node.scan.cursor.rowsLoaded with
    | true =>
        rw [ScanNode.rows_of_loaded already] at member
        exact sound.known already row member
    | false =>
        rw [ScanNode.rows_of_unloaded already] at member
        exact (sound.ordered.inv.sound_view snap.owner).knownRow member
  · exact ended (Option.isNone_iff_eq_none.mp none)
  · rw [left, left]
    refine (List.append_assoc _ _ _).trans (congrArg _ ?_)
    exact items.symm

theorem Sound.step (sound : state.Sound snap) {event : ScanRunEvent} (allowed : state.Allowed snap event)
    (stepped : state.step snap event = some later) :
    later.Sound snap ∧ (event.rescans = false →
      later.returned ++ later.left snap = state.returned ++ state.left snap) := by
  cases event with
  | backends event =>
      obtain ⟨next, moved, rfl⟩ := Option.map_eq_some_iff.mp stepped
      obtain ⟨kept, same⟩ := sound.backends allowed.1 allowed.2 moved
      exact ⟨kept, fun _ => congrArg _ same⟩
  | getnext =>
      obtain ⟨kept, same⟩ := sound.getnext allowed stepped
      exact ⟨kept, fun _ => same⟩
  | rescan request =>
      obtain rfl := Option.some.inj stepped
      exact ⟨sound.rescan allowed, fun none => absurd none Bool.noConfusion⟩

theorem Sound.run {events : List ScanRunEvent} (sound : state.Sound snap)
    (reached : ScanRun.run snap state events = some later)
    (allowed : Transition.Meets (ScanRun.step snap) (ScanRun.Allowed snap) state events) :
    later.Sound snap :=
  Transition.run_invariant (fun _ _ _ sound allowed stepped => (sound.step allowed stepped).1) sound
    allowed reached

end ScanRun

end SqliteHeap
