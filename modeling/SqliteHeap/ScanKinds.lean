import SqliteHeap.Ffi
import SqliteHeap.Lib.Pull
import SqliteHeap.TableScan

/-! `tam.rs`: the four kinds of scan that share a cursor, as the executor drives them.
A scan is begun or rescanned with what its kind asks for and then stepped until it
returns no row. `visible` is `row_visible` under the snapshot of the scan. -/

set_option autoImplicit false

namespace SqliteHeap

/-- `SqliteCursor` with the fields of sample and bitmap scans. -/
structure ScanCursor extends SqliteCursor where
  sampleBlockConsumed : Bool
  bitmapBlockno : BitVec 32
  bitmapOffsets : List (BitVec 16)
  bitmapOffsetPos : Nat

/-- `TBMIterateResult`: a page of a TID bitmap. A lossy page has no offsets of its own. -/
structure TbmIterateResult where
  blockno : BitVec 32
  lossy : Bool
  recheck : Bool
  offsets : List (BitVec 16)

/-- `SqliteScanState`, with the bounds and the bitmap iterator of its base. -/
structure SqliteScanState where
  cursor : ScanCursor
  mintid : Tid
  maxtid : Tid
  tbmIterator : List TbmIterateResult

/-- What a scan is begun or rescanned for. -/
inductive ScanRequest where
  | sequential
  | tidRange (min max : Tid)
  | bitmap (pages : List TbmIterateResult)
  | sample

def ScanRequest.Alike : ScanRequest → ScanRequest → Prop
  | .sequential, .sequential | .tidRange _ _, .tidRange _ _ | .bitmap _, .bitmap _
  | .sample, .sample => True
  | _, _ => False

namespace SqliteScanState

/-- `SqliteScanState::alloc`. -/
def alloc : SqliteScanState where
  cursor := ⟨SqliteCursor.alloc, false, 0, [], 0⟩
  mintid := ⟨0, 0⟩
  maxtid := ⟨0, 0⟩
  tbmIterator := []

def setCursor (scan : SqliteScanState) (cursor : SqliteCursor) : SqliteScanState :=
  { scan with cursor := { scan.cursor with toSqliteCursor := cursor } }

def scanRescan (scan : SqliteScanState) : SqliteScanState :=
  scan.setCursor scan.cursor.scanRescan

def scanSetTidrange (min max : Tid) (scan : SqliteScanState) : SqliteScanState :=
  { scan.setCursor { scan.cursor.toSqliteCursor with pos := 0 } with mintid := min, maxtid := max }

section Steps

variable (visible : StoredHeader → Bool) (table : Table) (scan : SqliteScanState)

def scanGetnextslot : Option StoredRow × SqliteScanState :=
  let (found, cursor) := scan.cursor.doScanGetnext visible table
  (found, scan.setCursor cursor)

/-- `scan_getnextslot_tidrange`: the same loop, which also skips rowids outside the
decoded bounds. `none` is a panic: each call decodes both bounds first. -/
def scanGetnextslotTidrange : Option (Option StoredRow × SqliteScanState) := do
  let minRowid ← checkedTidToRowid scan.mintid
  let maxRowid ← checkedTidToRowid scan.maxtid
  some (scan.scanGetnextslot
    (fun row => !(row.rowid < minRowid || maxRowid < row.rowid) && visible row) table)

/-- `scan_sample_next_block`: the table is one block. -/
def scanSampleNextBlock : Bool × SqliteScanState :=
  if scan.cursor.sampleBlockConsumed then (false, scan)
  else (true, { scan with cursor := { scan.cursor with sampleBlockConsumed := true, pos := 0 } })

def scanSampleNextTuple : Option StoredRow × SqliteScanState := scan.scanGetnextslot visible table

def fetchOneIntoSlot (rowid : Int) : Option StoredRow :=
  (table.selectOne rowid).filter fun row => visible row.toStoredHeader

/-- Fetch the row of a TID of the current bitmap page. -/
def fetchOffset (blockno : BitVec 32) (offset : BitVec 16) : Option StoredRow :=
  fetchOneIntoSlot visible table (tidToRowid ⟨blockno, offset⟩)

/-- The inner loop of `scan_bitmap_next_tuple` over the offsets from the position on. -/
def drainOffsets (blockno : BitVec 32) : List (BitVec 16) → Nat → Option StoredRow × Nat
  | [], pos => (none, pos)
  | offset :: rest, pos =>
      match fetchOffset visible table blockno offset with
      | some row => (some row, pos + 1)
      | none => drainOffsets blockno rest (pos + 1)

def drainPage : Option StoredRow × SqliteScanState :=
  let (found, pos) := drainOffsets visible table scan.cursor.bitmapBlockno
    (scan.cursor.bitmapOffsets.drop scan.cursor.bitmapOffsetPos) scan.cursor.bitmapOffsetPos
  (found, { scan with cursor := { scan.cursor with bitmapOffsetPos := pos } })

def maxOffsets : Nat := 1024

/-- The offsets of every rowid that maps into the block. -/
def lossyOffsets (blockno : BitVec 32) (rows : List StoredRow) : List (BitVec 16) :=
  (rows.filter fun row => (rowidToTid row.rowid).block = blockno).map
    fun row => (rowidToTid row.rowid).offset

/-- The page that `tbm_iterate` gave becomes the current one. -/
def loadPage (page : TbmIterateResult) : SqliteScanState :=
  let cursor := scan.cursor
  if page.lossy then
    let loaded := cursor.ensureRowsLoaded table
    { scan with
      cursor := { toSqliteCursor := loaded
                  sampleBlockConsumed := cursor.sampleBlockConsumed
                  bitmapBlockno := page.blockno
                  bitmapOffsets := lossyOffsets page.blockno loaded.rows
                  bitmapOffsetPos := 0 } }
  else
    { scan with
      cursor := { cursor with
        bitmapBlockno := page.blockno
        bitmapOffsets := page.offsets.take maxOffsets
        bitmapOffsetPos := 0 } }

end Steps

theorem fetchOneIntoSlot_eq_some_iff {visible : StoredHeader → Bool} {table : Table} {rowid : Int}
    {row : StoredRow} :
    fetchOneIntoSlot visible table rowid = some row ↔
      row ∈ table.rows ∧ row.rowid = rowid ∧ visible row.toStoredHeader = true := by
  rw [fetchOneIntoSlot, Option.filter_eq_some_iff, Table.selectOne_eq_some_iff, and_assoc]

end SqliteScanState

/-- A scan node of the executor. It owns the scan state, the flags that a bitmap scan
reports through pointers, and whether a sample scan is inside a block. The last call of a
TID range scan may have panicked, and has returned no row then. -/
structure ScanNode where
  scan : SqliteScanState
  recheck : Bool
  lossyPages : Nat
  exactPages : Nat
  haveBlock : Bool
  panicked : Bool

namespace ScanNode

/-- A row, and for bitmap scans whether the executor checks its condition again. -/
abbrev Returned := StoredRow × Bool

section Steps

variable (visible : StoredHeader → Bool) (table : Table)

/-- The outer loop of `scan_bitmap_next_tuple`: drain the current page, then take the
next one of the iterator. -/
def scanBitmapNextTuple : List TbmIterateResult → ScanNode → Option StoredRow × ScanNode
  | [], node =>
      let (found, scan) := node.scan.drainPage visible table
      (found, { node with scan := { scan with tbmIterator := [] } })
  | page :: rest, node =>
      match node.scan.drainPage visible table with
      | (some row, scan) => (some row, { node with scan := { scan with tbmIterator := page :: rest } })
      | (none, scan) =>
          scanBitmapNextTuple rest
            { node with
              scan := scan.loadPage table page
              recheck := page.recheck
              lossyPages := if page.lossy then node.lossyPages + 1 else node.lossyPages
              exactPages := if page.lossy then node.exactPages else node.exactPages + 1 }

/-- `tablesample_getnext` of the executor outside a block, with every block and tuple
sampled. -/
def tablesampleNextBlock (node : ScanNode) : Option StoredRow × ScanNode :=
  match node.scan.scanSampleNextBlock with
  | (false, scan) => (none, { node with scan := scan, haveBlock := false })
  | (true, scan) =>
      match scan.scanSampleNextTuple visible table with
      | (some row, scan) => (some row, { node with scan := scan, haveBlock := true })
      -- there is no second block
      | (none, scan) => (none, { node with scan := scan, haveBlock := false })

def tablesampleGetnext (node : ScanNode) : Option StoredRow × ScanNode :=
  if node.haveBlock then
    match node.scan.scanSampleNextTuple visible table with
    | (some row, scan) => (some row, { node with scan := scan })
    | (none, scan) => tablesampleNextBlock visible table { node with scan := scan }
  else tablesampleNextBlock visible table node

/-- One call of the executor for a scan of this kind. -/
def getnext (request : ScanRequest) (node : ScanNode) : Option Returned × ScanNode :=
  match request with
  | .sequential =>
      let (found, scan) := node.scan.scanGetnextslot visible table
      (found.map fun row => (row, false), { node with scan := scan })
  | .tidRange _ _ =>
      match node.scan.scanGetnextslotTidrange visible table with
      | none => (none, { node with panicked := true })
      | some (found, scan) =>
          (found.map fun row => (row, false), { node with scan := scan, panicked := false })
  | .bitmap _ =>
      let (found, next) := scanBitmapNextTuple visible table node.scan.tbmIterator node
      (found.map fun row => (row, next.recheck), next)
  | .sample =>
      let (found, next) := tablesampleGetnext visible table node
      (found.map fun row => (row, false), next)

end Steps

/-- What the executor does after `scan_begin` or `scan_rescan`: it sets the bounds of a TID
range, gives a bitmap's iterator and rechecks until a page is read, or holds no block of
a sample. -/
def ask (request : ScanRequest) (node : ScanNode) : ScanNode :=
  match request with
  | .sequential => node
  | .tidRange min max => { node with scan := node.scan.scanSetTidrange min max }
  | .bitmap pages => { node with scan := { node.scan with tbmIterator := pages }, recheck := true }
  | .sample => { node with haveBlock := false }

def scanBegin (request : ScanRequest) : ScanNode :=
  ask request ⟨SqliteScanState.alloc, false, 0, 0, false, false⟩

def scanRescan (request : ScanRequest) (node : ScanNode) : ScanNode :=
  ask request { node with scan := node.scan.scanRescan }

/-- The nodes that a scan can be in: begun, stepped and rescanned any number of times. -/
inductive Reachable (visible : StoredHeader → Bool) (table : Table) :
    ScanRequest → ScanNode → Prop where
  | begin (request : ScanRequest) : Reachable visible table request (scanBegin request)
  | getnext {request : ScanRequest} {node : ScanNode} (reached : Reachable visible table request node) :
      Reachable visible table request (node.getnext visible table request).2
  | rescan {request again : ScanRequest} {node : ScanNode}
      (reached : Reachable visible table request node) (alike : request.Alike again) :
      Reachable visible table again (node.scanRescan again)

end ScanNode

end SqliteHeap
