import Mathlib.Data.List.Perm.Subperm
import SqliteHeap.TidRange

/-! Bitmap scans. A page of the bitmap names a block and, unless it is lossy, the offsets
of rows in it. The scan fetches the rows by TID, and those of a lossy page by the TIDs of
all rows of the block. -/

set_option autoImplicit false

namespace SqliteHeap

open Pull

namespace TbmIterateResult

def Lists (page : TbmIterateResult) (tid : Tid) : Prop :=
  tid.block = page.blockno ∧ (page.lossy = false → tid.offset ∈ page.offsets)

instance (page : TbmIterateResult) (tid : Tid) : Decidable (page.Lists tid) := by
  unfold Lists
  infer_instance

/-- The offsets that a page lists are those of rows, each once. -/
structure Formed (page : TbmIterateResult) : Prop where
  nodup : page.lossy = false → page.offsets.Nodup
  first : page.lossy = false → ∀ offset ∈ page.offsets, 1 ≤ offset.toNat
  last : page.lossy = false → ∀ offset ∈ page.offsets, offset.toNat ≤ 256

end TbmIterateResult

/-- The pages that an iterator gives: at most one of every block. -/
structure BitmapFormed (pages : List TbmIterateResult) : Prop where
  blocks : (pages.map fun page => page.blockno).Nodup
  formed : ∀ page ∈ pages, page.Formed

namespace SqliteScanState

variable {visible : StoredHeader → Bool} {table : Table} {blockno : BitVec 32}
  {page : TbmIterateResult} {row : StoredRow}

theorem fetchOffset_eq_some_iff {offset : BitVec 16} :
    fetchOffset visible table blockno offset = some row ↔
      row ∈ table.rows ∧ row.rowid = tidToRowid ⟨blockno, offset⟩ ∧
        visible row.toStoredHeader = true :=
  fetchOneIntoSlot_eq_some_iff

theorem offset_eq_of_tidToRowid {first second : BitVec 16}
    (same : tidToRowid ⟨blockno, first⟩ = tidToRowid ⟨blockno, second⟩) : first = second := by
  simp only [tidToRowid] at same
  exact BitVec.eq_of_toNat_eq (by omega)

theorem fetched_nodup {offsets : List (BitVec 16)} (nodup : offsets.Nodup) :
    (fetched visible table blockno offsets).Nodup := by
  refine nodup.filterMap fun first second row fetch fetch' => ?_
  obtain ⟨_, rowid, _⟩ := fetchOffset_eq_some_iff.mp fetch
  obtain ⟨_, rowid', _⟩ := fetchOffset_eq_some_iff.mp fetch'
  exact offset_eq_of_tidToRowid (rowid.symm.trans rowid')

/-- A TID bitmap names blocks below the last one. -/
def FitsBitmap (table : Table) : Prop := ∀ row ∈ table.rows, row.rowid ≤ tidsPerBlock * (2 ^ 32 - 1)

section Listed

variable (fits : FitsBitmap table)

include fits

theorem tidToRowid_of_fits (member : row ∈ table.rows) :
    tidToRowid (rowidToTid row.rowid) = row.rowid := by
  refine tidToRowid_rowidToTid (table.positive row member) ?_
  have bound := fits row member
  simp only [maxTidRowid, tidsPerBlock] at bound ⊢
  omega

theorem offsetsOf_nodup (formed : page.Formed) : (offsetsOf table.rows page).Nodup := by
  unfold offsetsOf
  cases lossy : page.lossy with
  | false => exact (formed.nodup lossy).sublist (List.take_sublist _ _)
  | true =>
      refine (table.rows_nodup.filter _).map_on fun first member second member' same => ?_
      simp only [List.mem_filter, decide_eq_true_eq] at member member'
      have tids : rowidToTid first.rowid = rowidToTid second.rowid := by
        cases left : rowidToTid first.rowid with
        | mk leftBlock leftOffset =>
            cases right : rowidToTid second.rowid with
            | mk rightBlock rightOffset =>
                simp only [left, right] at member member' same
                rw [member.2, member'.2, same]
      refine Table.eq_of_rowid_eq table.sorted member.1 member'.1 ?_
      rw [← tidToRowid_of_fits fits member.1, ← tidToRowid_of_fits fits member'.1, tids]

end Listed

/-- A page has no more offsets than the scan takes. -/
theorem offsets_length (formed : page.Formed) (exact : page.lossy = false) :
    page.offsets.length ≤ maxOffsets := by
  have nodup : (page.offsets.map BitVec.toNat).Nodup :=
    (formed.nodup exact).map fun first second same => BitVec.eq_of_toNat_eq same
  have within : page.offsets.map BitVec.toNat ⊆ List.range 257 := by
    intro number listed
    obtain ⟨offset, member, rfl⟩ := List.mem_map.mp listed
    have bound := formed.last exact offset member
    exact List.mem_range.mpr (by omega)
  have bound := (nodup.subperm within).length_le
  simp only [List.length_map, List.length_range, maxOffsets] at bound ⊢
  omega

theorem mem_fetched_iff (fits : FitsBitmap table) (formed : page.Formed) :
    row ∈ fetched visible table page.blockno (offsetsOf table.rows page) ↔
      row ∈ table.rows ∧ visible row.toStoredHeader = true ∧ page.Lists (rowidToTid row.rowid) := by
  simp only [fetched, List.mem_filterMap, fetchOffset_eq_some_iff, TbmIterateResult.Lists]
  cases lossy : page.lossy with
  | false =>
      rw [offsetsOf, lossy, if_neg Bool.false_ne_true,
        List.take_of_length_le (offsets_length formed lossy)]
      constructor
      · rintro ⟨offset, listed, member, rowid, seen⟩
        rw [rowid, rowidToTid_tidToRowid (formed.first lossy offset listed)
          (formed.last lossy offset listed)]
        exact ⟨member, seen, rfl, fun _ => listed⟩
      · rintro ⟨member, seen, block, listed⟩
        refine ⟨(rowidToTid row.rowid).offset, listed rfl, member, ?_, seen⟩
        rw [← block]
        exact (tidToRowid_of_fits fits member).symm
  | true =>
      simp only [offsetsOf, lossy, ↓reduceIte, lossyOffsets, List.mem_map, List.mem_filter,
        decide_eq_true_eq]
      constructor
      · rintro ⟨offset, ⟨other, ⟨member', block⟩, rfl⟩, member, rowid, seen⟩
        have same : row.rowid = other.rowid := by
          rw [rowid, ← block]
          exact tidToRowid_of_fits fits member'
        rw [same]
        refine ⟨member, seen, block, ?_⟩
        intro flagged
        cases flagged
      · rintro ⟨member, seen, block, _⟩
        refine ⟨_, ⟨row, ⟨member, block⟩, rfl⟩, member, ?_, seen⟩
        rw [← block]
        exact (tidToRowid_of_fits fits member).symm

end SqliteScanState

namespace ScanNode

open SqliteScanState

variable {visible : StoredHeader → Bool} {table : Table} {pages : List TbmIterateResult}
  {node after : ScanNode}

theorem mem_ofPages_iff (fits : FitsBitmap table) (formed : BitmapFormed pages) {row : StoredRow}
    {recheck : Bool} :
    (row, recheck) ∈ ofPages visible table table.rows pages ↔
      row ∈ table.rows ∧ visible row.toStoredHeader = true ∧
        ∃ page ∈ pages, page.Lists (rowidToTid row.rowid) ∧ page.recheck = recheck := by
  simp only [ofPages, List.mem_flatMap, List.mem_map, Prod.mk.injEq]
  constructor
  · rintro ⟨page, member, _, listed, rfl, flag⟩
    obtain ⟨stored, seen, lists⟩ := (mem_fetched_iff fits (formed.formed page member)).mp listed
    exact ⟨stored, seen, page, member, lists, flag⟩
  · rintro ⟨stored, seen, page, member, lists, flag⟩
    exact ⟨page, member, row,
      (mem_fetched_iff fits (formed.formed page member)).mpr ⟨stored, seen, lists⟩, rfl, flag⟩

theorem ofPages_nodup (fits : FitsBitmap table) (formed : BitmapFormed pages) :
    ((ofPages visible table table.rows pages).map Prod.fst).Nodup := by
  have rows : (ofPages visible table table.rows pages).map Prod.fst =
      pages.flatMap fun page => fetched visible table page.blockno (offsetsOf table.rows page) := by
    simp [ofPages, List.map_flatMap, Function.comp_def]
  rw [rows, List.nodup_flatMap]
  constructor
  · exact fun page member => fetched_nodup (offsetsOf_nodup fits (formed.formed page member))
  · refine (List.pairwise_map.mp formed.blocks).imp_of_mem fun {page other} member member' blocks => ?_
    -- a row of both pages would be in both blocks
    intro row first second
    obtain ⟨_, _, block, _⟩ := (mem_fetched_iff fits (formed.formed page member)).mp first
    obtain ⟨_, _, block', _⟩ := (mem_fetched_iff fits (formed.formed other member')).mp second
    exact blocks (block.symm.trans block')

def lossyCount (pages : List TbmIterateResult) : Nat := pages.countP fun page => page.lossy

def exactCount (pages : List TbmIterateResult) : Nat := pages.countP fun page => !page.lossy

/-- The reported numbers with those of the pages that are left. -/
structure Counted (lossy exact : Nat) (pages : List TbmIterateResult) (node : ScanNode) : Prop where
  lossyPages : node.lossyPages + lossyCount pages = lossy
  exactPages : node.exactPages + exactCount pages = exact

theorem scanBitmapNextTuple_counted {lossy exact : Nat} {found : Option StoredRow}
    (counted : Counted lossy exact pages node)
    (stepped : scanBitmapNextTuple visible table pages node = (found, after)) :
    Counted lossy exact after.scan.tbmIterator after ∧ (found = none → after.scan.tbmIterator = []) := by
  induction pages generalizing node with
  | nil =>
      simp only [scanBitmapNextTuple] at stepped
      obtain ⟨rfl, rfl⟩ := Prod.mk.inj stepped
      exact ⟨⟨counted.lossyPages, counted.exactPages⟩, fun _ => rfl⟩
  | cons page rest ih =>
      cases drained : node.scan.drainPage visible table with
      | mk first scan =>
          simp only [scanBitmapNextTuple, drained] at stepped
          cases first with
          | some row =>
              obtain ⟨rfl, rfl⟩ := Prod.mk.inj stepped
              refine ⟨⟨counted.lossyPages, counted.exactPages⟩, ?_⟩
              intro none
              cases none
          | none =>
              refine ih ?_ stepped
              obtain ⟨lossyPages, exactPages⟩ := counted
              simp only [lossyCount, exactCount, List.countP_cons] at lossyPages exactPages ⊢
              constructor <;> cases lossy : page.lossy <;>
                simp [lossy, lossyCount, exactCount] at lossyPages exactPages ⊢ <;> omega

theorem yieldsTo_counted {rows : List Returned} {last : ScanNode}
    (yields : YieldsTo (getnext visible table (.bitmap pages)) node rows last) :
    last.lossyPages = node.lossyPages + lossyCount node.scan.tbmIterator ∧
      last.exactPages = node.exactPages + exactCount node.scan.tbmIterator := by
  refine Pull.YieldsTo.last
    (fun later => Counted (node.lossyPages + lossyCount node.scan.tbmIterator)
      (node.exactPages + exactCount node.scan.tbmIterator) later.scan.tbmIterator later)
    (fun last => last.lossyPages = node.lossyPages + lossyCount node.scan.tbmIterator ∧
      last.exactPages = node.exactPages + exactCount node.scan.tbmIterator)
    yields ⟨rfl, rfl⟩ ?_ ?_
  · exact fun state counted => (scanBitmapNextTuple_counted counted rfl).1
  · intro state after counted ended
    cases stepped : scanBitmapNextTuple visible table state.scan.tbmIterator state with
    | mk found next =>
        obtain ⟨left, empty⟩ := scanBitmapNextTuple_counted counted stepped
        simp only [getnext, stepped] at ended
        obtain ⟨none, rfl⟩ := Prod.mk.inj ended
        obtain ⟨lossyPages, exactPages⟩ := left
        rw [empty (Option.map_eq_none_iff.mp none)] at lossyPages exactPages
        exact ⟨lossyPages, exactPages⟩

/-- A new bitmap scan, with the numbers that an earlier one has reported. -/
def beginBitmap (pages : List TbmIterateResult) (lossyPages exactPages : Nat) : ScanNode :=
  { scanBegin (.bitmap pages) with lossyPages := lossyPages, exactPages := exactPages }

/-- A bitmap scan ends and returns every visible row of the bitmap once, with the recheck
flag of its page, and it reports the numbers of lossy and exact pages. -/
theorem bitmapScan_exact {visible : StoredHeader → Bool} {table : Table}
    {pages : List TbmIterateResult} (fits : FitsBitmap table) (formed : BitmapFormed pages)
    (lossyPages exactPages : Nat) :
    ∃ rows last,
      YieldsTo (getnext visible table (.bitmap pages)) (beginBitmap pages lossyPages exactPages)
        rows last ∧
      (rows.map Prod.fst).Nodup ∧
      (∀ row recheck, (row, recheck) ∈ rows ↔
        row ∈ table.rows ∧ visible row.toStoredHeader = true ∧
          ∃ page ∈ pages, page.Lists (rowidToTid row.rowid) ∧ page.recheck = recheck) ∧
      last.lossyPages = lossyPages + lossyCount pages ∧
      last.exactPages = exactPages + exactCount pages := by
  have left : remaining visible table (.bitmap pages) (beginBitmap pages lossyPages exactPages) =
      ofPages visible table table.rows pages := rfl
  obtain ⟨last, yields⟩ := (yields_remaining (getnext_remaining (.bitmap pages))
    (beginBitmap pages lossyPages exactPages)).yieldsTo
  rw [left] at yields
  refine ⟨_, last, yields, ofPages_nodup fits formed, fun row recheck => mem_ofPages_iff fits formed, ?_⟩
  exact yieldsTo_counted yields

/-- An exact page that lists the first row, among others, and a lossy one. -/
def bothKinds : List TbmIterateResult := [⟨0#32, false, false, [3#16, 256#16]⟩, ⟨1#32, true, true, []⟩]

theorem bothKinds_formed : BitmapFormed bothKinds where
  blocks := by decide
  formed := by
    simp only [bothKinds, List.forall_mem_cons]
    exact ⟨⟨by simp, by simp, by simp⟩, ⟨by simp, by simp, by simp⟩, by simp⟩

theorem bothKinds_exact :
    ∃ rows last,
      YieldsTo (getnext (fun _ => true) acrossBlocks (.bitmap bothKinds)) (beginBitmap bothKinds 0 0)
        rows last ∧
      (rows.map Prod.fst).Nodup ∧
      (∀ row recheck, (row, recheck) ∈ rows ↔
        row ∈ acrossBlocks.rows ∧ true = true ∧
          ∃ page ∈ bothKinds, page.Lists (rowidToTid row.rowid) ∧ page.recheck = recheck) ∧
      last.lossyPages = 0 + lossyCount bothKinds ∧
      last.exactPages = 0 + exactCount bothKinds :=
  bitmapScan_exact (by simp [FitsBitmap, acrossBlocks, lastOfFirstBlock, firstOfSecondBlock,
    tidsPerBlock]) bothKinds_formed 0 0

example : (getnext (fun _ => true) acrossBlocks (.bitmap bothKinds) (beginBitmap bothKinds 0 0)).1 =
    some (lastOfFirstBlock, false) := by decide

end ScanNode

end SqliteHeap
