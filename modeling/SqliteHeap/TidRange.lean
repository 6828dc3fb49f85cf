import SqliteHeap.Rescan

/-! TID range scans. The bounds are TIDs with any block and offset, but the scan decodes them,
which panics for offset 0, and compares rowids, and the offsets of a block are 1 to 256. -/

set_option autoImplicit false

namespace SqliteHeap

open Pull

namespace Tid

/-- `ItemPointerCompare`: blocks first, then offsets. -/
def le (tid other : Tid) : Bool :=
  tid.block.toNat < other.block.toNat ||
    tid.block.toNat = other.block.toNat && tid.offset.toNat ≤ other.offset.toNat

/-- The TID of a rowid is between the bounds. -/
def between (low high : Tid) (rowid : Int) : Bool :=
  low.le (rowidToTid rowid) && (rowidToTid rowid).le high

/-- The smallest rowid with a TID from the bound on. -/
def firstRowid (low : Tid) : Nat := low.block.toNat * 256 + max 1 (min low.offset.toNat 257)

/-- The largest rowid with a TID up to the bound. -/
def lastRowid (high : Tid) : Nat := high.block.toNat * 256 + min high.offset.toNat 256

/-- The rowid that the TID of a rowid stands for. -/
def wrapped (rowid : Int) : Int := (rowid - 1) % maxTidRowid + 1

/-- The interval of rowids that the scan tests puts the rowid where its TID is. -/
def Placed (low high : Tid) (rowid : Int) : Prop :=
  if rowid ≤ maxTidRowid then
    -- a large lower offset reaches into later blocks and leaves their rows out
    ¬(low.block.toNat * 256 + 256 < rowid ∧ rowid < tidToRowid low ∧ rowid ≤ high.lastRowid) ∧
      -- a large upper offset reaches into later blocks and takes their rows in
      ¬(high.block.toNat * 256 + 256 < rowid ∧ rowid ≤ tidToRowid high ∧ tidToRowid low ≤ rowid)
  else
    (tidToRowid low ≤ rowid ∧ rowid ≤ tidToRowid high) ↔
      (low.firstRowid ≤ wrapped rowid ∧ wrapped rowid ≤ high.lastRowid)

instance (low high : Tid) (rowid : Int) : Decidable (Placed low high rowid) := by
  unfold Placed
  infer_instance

theorem wrapped_of_fits {rowid : Int} (positive : 1 ≤ rowid) (fits : rowid ≤ maxTidRowid) :
    wrapped rowid = rowid := by
  simp only [wrapped, maxTidRowid, tidsPerBlock] at fits ⊢
  omega

/-- Bounds that the scan can decode. -/
def Decodes (low high : Tid) : Prop := low.offset ≠ 0#16 ∧ high.offset ≠ 0#16

instance (low high : Tid) : Decidable (Decodes low high) := inferInstanceAs (Decidable (_ ∧ _))

theorem one_le_offset {tid : Tid} (nonzero : tid.offset ≠ 0#16) : 1 ≤ tid.offset.toNat := by
  refine Nat.one_le_iff_ne_zero.mpr fun zero => nonzero (BitVec.eq_of_toNat_eq ?_)
  rw [zero, BitVec.toNat_zero]

theorem placed_iff {low high : Tid} {rowid : Int} (decodes : Decodes low high) (positive : 1 ≤ rowid) :
    Placed low high rowid ↔
      ((tidToRowid low ≤ rowid ∧ rowid ≤ tidToRowid high) ↔
        (low.firstRowid ≤ wrapped rowid ∧ wrapped rowid ≤ high.lastRowid)) := by
  unfold Placed
  split
  · next fits =>
      have first := one_le_offset decodes.1
      rw [wrapped_of_fits positive fits]
      simp only [firstRowid, lastRowid, tidToRowid, tidsPerBlock]
      omega
  · exact Iff.rfl

theorem rowidToTid_parts {rowid : Int} (positive : 1 ≤ rowid) :
    ∃ block index : Nat, block < 2 ^ 32 ∧ index < 256 ∧
      (rowidToTid rowid).block.toNat = block ∧ (rowidToTid rowid).offset.toNat = index + 1 ∧
      wrapped rowid = block * 256 + index + 1 := by
  obtain ⟨number, rfl⟩ : ∃ number : Nat, rowid = number + 1 := ⟨(rowid - 1).toNat, by omega⟩
  refine ⟨number / 256 % 2 ^ 32, number % 256, by omega, by omega, ?_, ?_, ?_⟩
  · rw [rowidToTid_succ, BitVec.toNat_ofNat]
  · rw [rowidToTid_succ, BitVec.toNat_ofNat, Nat.mod_eq_of_lt (by omega)]
  · simp only [wrapped, maxTidRowid, tidsPerBlock]
    omega

theorem rowidToTid_offset {rowid : Int} (positive : 1 ≤ rowid) :
    1 ≤ (rowidToTid rowid).offset.toNat ∧ (rowidToTid rowid).offset.toNat ≤ 256 := by
  obtain ⟨_, index, _, _, _, offsetOf, _⟩ := rowidToTid_parts positive
  omega

theorem tidToRowid_rowidToTid {rowid : Int} (positive : 1 ≤ rowid) :
    tidToRowid (rowidToTid rowid) = wrapped rowid := by
  obtain ⟨block, index, _, _, blockOf, offsetOf, stands⟩ := rowidToTid_parts positive
  rw [tidToRowid, blockOf, offsetOf, stands, tidsPerBlock]
  omega

/-- Two rowids share a TID if it stands for the same one. -/
theorem rowidToTid_eq_iff {first second : Int} (positive : 1 ≤ first) (positive' : 1 ≤ second) :
    rowidToTid first = rowidToTid second ↔ wrapped first = wrapped second := by
  constructor
  · intro same
    rw [← tidToRowid_rowidToTid positive, ← tidToRowid_rowidToTid positive', same]
  · intro same
    obtain ⟨block, index, _, small, blockOf, offsetOf, stands⟩ := rowidToTid_parts positive
    obtain ⟨block', index', _, small', blockOf', offsetOf', stands'⟩ := rowidToTid_parts positive'
    cases left : rowidToTid first with
    | mk leftBlock leftOffset =>
        cases right : rowidToTid second with
        | mk rightBlock rightOffset =>
            rw [left] at blockOf offsetOf
            rw [right] at blockOf' offsetOf'
            dsimp only at blockOf offsetOf blockOf' offsetOf'
            have blocks : leftBlock = rightBlock := BitVec.eq_of_toNat_eq (by omega)
            have offsets : leftOffset = rightOffset := BitVec.eq_of_toNat_eq (by omega)
            rw [blocks, offsets]

theorem between_iff {low high : Tid} {rowid : Int} (positive : 1 ≤ rowid) :
    between low high rowid = true ↔ low.firstRowid ≤ wrapped rowid ∧ wrapped rowid ≤ high.lastRowid := by
  obtain ⟨block, index, _, small, blockOf, offsetOf, stands⟩ := rowidToTid_parts positive
  simp only [between, le, blockOf, offsetOf, stands, firstRowid, lastRowid, Bool.and_eq_true,
    Bool.or_eq_true, decide_eq_true_eq]
  refine and_congr ?_ ?_ <;> omega

/-- Bounds with the offsets of rows place every rowid that fits a TID. -/
theorem placed_of_offsets {low high : Tid} (decodes : Decodes low high)
    (lowOffset : low.offset.toNat ≤ 257) (highOffset : high.offset.toNat ≤ 256)
    {rowid : Int} (positive : 1 ≤ rowid) (fits : rowid ≤ maxTidRowid) : Placed low high rowid := by
  have first := one_le_offset decodes.1
  rw [placed_iff decodes positive, wrapped_of_fits positive fits]
  simp only [firstRowid, lastRowid, tidToRowid, tidsPerBlock]
  omega

end Tid

namespace ScanNode

open SqliteScanState

variable {visible : StoredHeader → Bool} {table : Table} {request : ScanRequest} {node : ScanNode}

/-- The visible rows whose TIDs are between the bounds. -/
def tidRangeRows (visible : StoredHeader → Bool) (table : Table) (low high : Tid) : List StoredRow :=
  table.rows.filter fun row => Tid.between low high row.rowid && visible row.toStoredHeader

theorem remaining_tidRange (reached : Reachable visible table request node) (low high : Tid) :
    remaining visible table (.tidRange low high) (ask (.tidRange low high) node) =
      (table.rows.filter fun row => inBounds low high row.toStoredHeader &&
        visible row.toStoredHeader).map fun row => (row, false) := by
  have rows := (@ask_rows table node (.tidRange low high)).trans reached.rows
  simp only [remaining, rest, rows]
  rfl

theorem inBounds_iff {low high : Tid} (decodes : Tid.Decodes low high) (row : StoredHeader) :
    inBounds low high row = true ↔ tidToRowid low ≤ row.rowid ∧ row.rowid ≤ tidToRowid high := by
  simp [inBounds, within, checkedTidToRowid, decodes.1, decodes.2]

theorem inBounds_iff_between {low high : Tid} (decodes : Tid.Decodes low high) {row : StoredRow}
    (positive : 1 ≤ row.rowid) :
    (inBounds low high row.toStoredHeader = true ↔ Tid.between low high row.rowid = true) ↔
      Tid.Placed low high row.rowid := by
  rw [Tid.placed_iff decodes positive, Tid.between_iff positive, inBounds_iff decodes]

/-- The last call has panicked just if a bound cannot be decoded. -/
theorem yieldsTo_panicked {low high : Tid} {rows : List Returned} {last : ScanNode}
    (bounds : node.scan.mintid = low ∧ node.scan.maxtid = high)
    (yields : YieldsTo (getnext visible table (.tidRange low high)) node rows last) :
    last.panicked = false ↔ Tid.Decodes low high := by
  refine yields.last (fun node => node.scan.mintid = low ∧ node.scan.maxtid = high)
    (fun last => last.panicked = false ↔ Tid.Decodes low high) bounds ?_ ?_
  · rintro before ⟨rfl, rfl⟩
    rcases scanGetnextslotTidrange_cases visible table before.scan with ⟨panics, _⟩ | ⟨_, decoded⟩
    · simp only [getnext, panics, and_self]
    · simp only [getnext, decoded]
      exact ⟨rfl, rfl⟩
  · rintro before after ⟨rfl, rfl⟩ ended
    rcases scanGetnextslotTidrange_cases visible table before.scan with ⟨panics, zero, _⟩ | ⟨nonzero, decoded⟩
    · simp only [getnext, panics] at ended
      obtain rfl := (Prod.mk.inj ended).2
      refine iff_of_false Bool.noConfusion fun decodes => ?_
      exact zero.elim decodes.1 decodes.2
    · simp only [getnext, decoded] at ended
      obtain rfl := (Prod.mk.inj ended).2
      exact iff_of_true rfl nonzero

theorem remaining_perm_iff (reached : Reachable visible table request node) {low high : Tid}
    (decodes : Tid.Decodes low high) :
    ((remaining visible table (.tidRange low high) (ask (.tidRange low high) node)).map
        Prod.fst).Perm (tidRangeRows visible table low high) ↔
      ∀ row ∈ table.rows, visible row.toStoredHeader = true → Tid.Placed low high row.rowid := by
  rw [remaining_tidRange reached, List.map_map]
  change ((table.rows.filter _).map id).Perm _ ↔ _
  rw [List.map_id]
  constructor
  · intro same row member seen
    have both := same.mem_iff (a := row)
    simp only [tidRangeRows, List.mem_filter, member, seen, true_and, Bool.and_true] at both
    exact (inBounds_iff_between decodes (table.positive row member)).mp both
  · intro placed
    refine List.Perm.of_eq (List.filter_congr fun row member => ?_)
    cases seen : visible row.toStoredHeader with
    | false => simp
    | true =>
        have both := (inBounds_iff_between decodes (table.positive row member)).mpr (placed row member seen)
        simp only [Bool.and_true]
        exact Bool.eq_iff_iff.mpr both

/-- With bounds that are TIDs of rows the scan is exact on every table whose rowids fit a TID. -/
theorem tidRange_exact_of_offsets (reached : Reachable visible table request node) {low high : Tid}
    (decodes : Tid.Decodes low high) (lowOffset : low.offset.toNat ≤ 257)
    (highOffset : high.offset.toNat ≤ 256) (fits : ∀ row ∈ table.rows, row.rowid ≤ maxTidRowid) :
    ∃ rows, Yields (getnext visible table (.tidRange low high)) (ask (.tidRange low high) node) rows ∧
      (rows.map Prod.fst).Perm (tidRangeRows visible table low high) := by
  refine ⟨_, yields_remaining (getnext_remaining _) _, ?_⟩
  rw [remaining_perm_iff reached decodes]
  intro row member _
  exact Tid.placed_of_offsets decodes lowOffset highOffset (table.positive row member)
    (fits row member)

/-- A TID range scan returns without a panic the visible rows between the bounds if and only if
no bound has offset 0 and the rowids of all visible rows are placed by the bounds. -/
theorem tidRange_exact_iff {visible : StoredHeader → Bool} {table : Table} {request : ScanRequest}
    {node : ScanNode} (reached : Reachable visible table request node) (low high : Tid) :
    ∃ rows last,
      YieldsTo (getnext visible table (.tidRange low high)) (ask (.tidRange low high) node) rows last ∧
      (last.panicked = false ∧ (rows.map Prod.fst).Perm (tidRangeRows visible table low high) ↔
        Tid.Decodes low high ∧
          ∀ row ∈ table.rows, visible row.toStoredHeader = true → Tid.Placed low high row.rowid) := by
  obtain ⟨last, yields⟩ := (yields_remaining (@getnext_remaining visible table (.tidRange low high))
    (ask (.tidRange low high) node)).yieldsTo
  refine ⟨_, last, yields, ?_⟩
  rw [yieldsTo_panicked ⟨rfl, rfl⟩ yields]
  exact and_congr_right fun decodes => remaining_perm_iff reached decodes

/-- A range inside the first block, scanned again after its first row. -/
theorem firstBlock_exact :
    ∃ rows last, YieldsTo (getnext (fun _ => true) twoRows (.tidRange ⟨0, 1⟩ ⟨0, 2⟩))
        (ask (.tidRange ⟨0, 1⟩ ⟨0, 2⟩) (afterFirst (.tidRange ⟨0, 1⟩ ⟨0, 2⟩))) rows last ∧
      (last.panicked = false ∧
          (rows.map Prod.fst).Perm (tidRangeRows (fun _ => true) twoRows ⟨0, 1⟩ ⟨0, 2⟩) ↔
        Tid.Decodes ⟨0, 1⟩ ⟨0, 2⟩ ∧
          ∀ row ∈ twoRows.rows, true = true → Tid.Placed ⟨0, 1⟩ ⟨0, 2⟩ row.rowid) :=
  tidRange_exact_iff (.getnext (.begin (.tidRange ⟨0, 1⟩ ⟨0, 2⟩))) ⟨0, 1⟩ ⟨0, 2⟩

def lastOfFirstBlock : StoredRow := ⟨⟨256, 3#32, 0#32, 0#32, 0#32⟩, [1]⟩
def firstOfSecondBlock : StoredRow := ⟨⟨257, 3#32, 0#32, 0#32, 0#32⟩, [2]⟩

/-- The rows on both sides of the end of the first block. -/
def acrossBlocks : Table :=
  ⟨[lastOfFirstBlock, firstOfSecondBlock], [], by decide, by decide⟩

/-- From `(0,0)` on, the first call panics, and up to `(0,65535)` the scan returns the row with
TID `(1,1)`. -/
theorem openBounds_inexact :
    (∃ last, YieldsTo (getnext (fun _ => true) acrossBlocks (.tidRange ⟨0, 0⟩ ⟨0, 256⟩))
        (scanBegin (.tidRange ⟨0, 0⟩ ⟨0, 256⟩)) [] last ∧ last.panicked = true ∧
      tidRangeRows (fun _ => true) acrossBlocks ⟨0, 0⟩ ⟨0, 256⟩ = [lastOfFirstBlock]) ∧
      Yields (getnext (fun _ => true) acrossBlocks (.tidRange ⟨0, 1⟩ ⟨0, 65535⟩))
        (scanBegin (.tidRange ⟨0, 1⟩ ⟨0, 65535⟩))
        [(lastOfFirstBlock, false), (firstOfSecondBlock, false)] ∧
      tidRangeRows (fun _ => true) acrossBlocks ⟨0, 1⟩ ⟨0, 65535⟩ = [lastOfFirstBlock] := by
  refine ⟨⟨_, .done rfl, rfl, by decide⟩, ?_, by decide⟩
  exact .more rfl (.more rfl (.done rfl))

end ScanNode

end SqliteHeap
