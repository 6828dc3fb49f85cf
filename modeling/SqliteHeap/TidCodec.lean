import Mathlib.Data.Prod.Lex
import Mathlib.Order.Hom.Basic
import SqliteHeap.Lib.MachineInt
import SqliteHeap.ScanDirection

/-! `ffi.rs`, `ffi.zig` and `shim.c` of the LLVM-IR port: the packing of rowids into TIDs on
the machine's integers. -/

set_option autoImplicit false

namespace SqliteHeap

open MachineInt (OnOverflow i64 u32 u16)

/-- The accessors of item pointers, from `pgrx::itemptr` or from `storage/itemptr.h`. A
getter whose assertion fails gives no number. -/
structure ItemPointers (Pointer : Type) where
  getBlockNumber : Pointer → Option (BitVec 32)
  getOffsetNumber : Pointer → Option (BitVec 16)
  setAll : Pointer → BitVec 32 → BitVec 16 → Pointer

namespace ItemPointers

variable {Pointer : Type}

def Holds (pointers : ItemPointers Pointer) (pointer : Pointer) (tid : Tid) : Prop :=
  pointers.getBlockNumber pointer = some tid.block ∧ pointers.getOffsetNumber pointer = some tid.offset

/-- What was set is read back, unless it is the offset of an invalid pointer. -/
def SetsAll (pointers : ItemPointers Pointer) : Prop :=
  ∀ pointer (tid : Tid), tid.offset ≠ 0#16 →
    pointers.Holds (pointers.setAll pointer tid.block tid.offset) tid

end ItemPointers

/-- The profile of a build. Rust's `as` casts wrap in all of them: with casts that trap, a
result shows that none of them lost anything. -/
structure Build where
  -- `overflow-checks`
  arithmetic : OnOverflow
  casts : OnOverflow
  debugAssertions : Bool
deriving DecidableEq

def Build.debugAssert (build : Build) (condition : Bool) : Option Unit :=
  if build.debugAssertions && !condition then none else some ()

namespace Ffi

variable {Pointer : Type} (pointers : ItemPointers Pointer) (build : Build)

def tidsPerBlock : BitVec 64 := 256

def tidToRowid (tid : Pointer) : Option (BitVec 64) := do
  let blk ← u32.cast i64 build.casts (← pointers.getBlockNumber tid)
  let off ← u16.cast i64 build.casts (← pointers.getOffsetNumber tid)
  i64.add build.arithmetic (← i64.mul build.arithmetic blk tidsPerBlock) off

def rowidToTid (rowid : BitVec 64) (tid : Pointer) : Option Pointer := do
  build.debugAssert (1 ≤ rowid.toInt)
  let blk ← i64.cast u32 build.casts
    (← i64.div (← i64.sub build.arithmetic rowid 1) tidsPerBlock)
  let off ← i64.cast u16 build.casts
    (← i64.add build.arithmetic (← i64.rem (← i64.sub build.arithmetic rowid 1) tidsPerBlock) 1)
  return pointers.setAll tid blk off

end Ffi

namespace Zig

/-- An overflow is illegal behavior, in `@intCast` too. -/
abbrev illegal : OnOverflow := .traps

structure BlockOff where
  blk : BitVec 32
  off : BitVec 16
deriving DecidableEq

def tidsPerBlock : BitVec 64 := 256

def tidToRowid {Pointer : Type} (shim : ItemPointers Pointer) (tid : Pointer) :
    Option (BitVec 64) := do
  let blk ← u32.cast i64 illegal (← shim.getBlockNumber tid)
  let off ← u16.cast i64 illegal (← shim.getOffsetNumber tid)
  i64.add illegal (← i64.mul illegal blk tidsPerBlock) off

def rowidToBlockOff (rowid : BitVec 64) : Option BlockOff := do
  let zeroBased ← i64.sub illegal rowid 1
  let blk ← i64.cast u32 illegal (← i64.divFloor zeroBased tidsPerBlock)
  let off ← i64.cast u16 illegal (← i64.add illegal (← i64.modFloor zeroBased tidsPerBlock) 1)
  return ⟨blk, off⟩

end Zig

namespace Llvm

variable {Pointer : Type} (macros : ItemPointers Pointer)

/-- In C signed overflow is undefined, and casts to unsigned types wrap. -/
def shimBuild : Build := ⟨.traps, .wraps, false⟩

def shimTidToRowid (tid : Pointer) : Option (BitVec 64) := Ffi.tidToRowid macros shimBuild tid

def rowidToTid (rowid : BitVec 64) (tid : Pointer) : Option Pointer :=
  Ffi.rowidToTid macros shimBuild rowid tid

end Llvm

namespace Ffi

open MachineInt.IntType

section Index

/-! The steps of the packing, on the index `rowid - 1`. -/

variable {index : Int} (first : 0 ≤ index) (last : index < 2 ^ 63 - 1)

include first last

theorem value_index : i64.value (BitVec.ofInt 64 index) = index :=
  value_ofInt (fits_i64.mpr ⟨by omega, by omega⟩)

theorem divide_index {quotient result : Int → Int → Int} {exact : Int}
    (divides : quotient index 256 = index / 256) (gives : result index 256 = exact)
    (low : 0 ≤ exact) (high : exact ≤ index) :
    i64.divide quotient result (BitVec.ofInt 64 index) 256 = some (BitVec.ofInt 64 exact) := by
  have divisor : i64.value 256 = 256 := rfl
  have fits : i64.Fits (quotient index 256) := by
    rw [divides, fits_i64]
    omega
  have fits' : i64.Fits (result index 256) := by
    rw [gives, fits_i64]
    omega
  have divided := divide_eq (value_index first last) divisor (by decide) fits fits'
  rw [gives] at divided
  exact divided

theorem div_index : i64.div (BitVec.ofInt 64 index) 256 = some (BitVec.ofInt 64 (index / 256)) := by
  have same := Int.tdiv_eq_ediv_of_nonneg (b := 256) first
  exact divide_index first last same same (by omega) (by omega)

theorem rem_index : i64.rem (BitVec.ofInt 64 index) 256 = some (BitVec.ofInt 64 (index % 256)) := by
  have same := Int.tmod_eq_emod_of_nonneg (b := 256) first
  exact divide_index first last (Int.tdiv_eq_ediv_of_nonneg first) same (by omega) (by omega)

theorem divFloor_index :
    i64.divFloor (BitVec.ofInt 64 index) 256 = some (BitVec.ofInt 64 (index / 256)) := by
  have same := Int.fdiv_eq_ediv_of_nonneg (b := 256) index (by decide)
  exact divide_index first last same same (by omega) (by omega)

theorem modFloor_index :
    i64.modFloor (BitVec.ofInt 64 index) 256 = some (BitVec.ofInt 64 (index % 256)) := by
  have same := Int.fmod_eq_emod_of_nonneg (b := 256) index (by decide)
  exact divide_index first last (Int.fdiv_eq_ediv_of_nonneg index (by decide)) same (by omega)
    (by omega)

theorem cast_block {overflow : OnOverflow} (holds : overflow = .wraps ∨ index < maxTidRowid) :
    i64.cast u32 overflow (BitVec.ofInt 64 (index / 256)) = some (BitVec.ofInt 32 (index / 256)) := by
  have same : i64.value (BitVec.ofInt 64 (index / 256)) = index / 256 :=
    value_index (by omega) (by omega)
  apply cast_eq same
  -- a block beyond 32 bits is cut off where casts wrap
  cases holds with
  | inl wraps => exact .inl wraps
  | inr fits =>
      simp only [maxTidRowid, SqliteHeap.tidsPerBlock] at fits
      exact .inr (fits_u32.mpr ⟨by omega, by omega⟩)

end Index

theorem add_remainder (index : Int) (overflow : OnOverflow) :
    i64.add overflow (BitVec.ofInt 64 (index % 256)) 1 =
      some (BitVec.ofInt 64 (index % 256 + 1)) := by
  have remainder : i64.value (BitVec.ofInt 64 (index % 256)) = index % 256 :=
    value_ofInt (fits_i64.mpr ⟨by omega, by omega⟩)
  have one : i64.value 1 = 1 := rfl
  exact add_eq remainder one (fits_i64.mpr ⟨by omega, by omega⟩)

theorem cast_offset (index : Int) (overflow : OnOverflow) :
    i64.cast u16 overflow (BitVec.ofInt 64 (index % 256 + 1)) =
      some (BitVec.ofInt 16 (index % 256 + 1)) := by
  have same : i64.value (BitVec.ofInt 64 (index % 256 + 1)) = index % 256 + 1 :=
    value_ofInt (fits_i64.mpr ⟨by omega, by omega⟩)
  exact cast_eq same (.inr (fits_u16.mpr ⟨by omega, by omega⟩))

variable {Pointer : Type} {pointers : ItemPointers Pointer} {build : Build} {rowid : BitVec 64}

theorem index_eq (positive : 1 ≤ rowid.toInt) (overflow : OnOverflow) :
    i64.sub overflow rowid 1 = some (BitVec.ofInt 64 (rowid.toInt - 1)) := by
  have below : rowid.toInt < 2 ^ 63 := BitVec.toInt_lt
  have value : i64.value rowid = rowid.toInt := rfl
  have one : i64.value 1 = 1 := rfl
  exact sub_eq value one (fits_i64.mpr ⟨by omega, by omega⟩)

theorem block_eq (positive : 1 ≤ rowid.toInt) :
    (SqliteHeap.rowidToTid rowid.toInt).block = BitVec.ofInt 32 ((rowid.toInt - 1) / 256) := by
  rw [SqliteHeap.rowidToTid, SqliteHeap.tidsPerBlock, Int.tdiv_eq_ediv_of_nonneg (by omega)]

theorem offset_eq (positive : 1 ≤ rowid.toInt) :
    (SqliteHeap.rowidToTid rowid.toInt).offset =
      BitVec.ofInt 16 ((rowid.toInt - 1) % 256 + 1) := by
  rw [SqliteHeap.rowidToTid, SqliteHeap.tidsPerBlock, Int.tmod_eq_emod_of_nonneg (by omega)]

/-- `rowid_to_tid` on machine integers is the packing on unbounded ones. -/
theorem rowidToTid_eq (positive : 1 ≤ rowid.toInt)
    (holds : build.casts = .wraps ∨ rowid.toInt ≤ maxTidRowid) (pointer : Pointer) :
    rowidToTid pointers build rowid pointer =
      some (pointers.setAll pointer (SqliteHeap.rowidToTid rowid.toInt).block
        (SqliteHeap.rowidToTid rowid.toInt).offset) := by
  have below : rowid.toInt < 2 ^ 63 := BitVec.toInt_lt
  have first : 0 ≤ rowid.toInt - 1 := by omega
  have last : rowid.toInt - 1 < 2 ^ 63 - 1 := by omega
  have asserted : build.debugAssert (1 ≤ rowid.toInt) = some () := by
    simp [Build.debugAssert, positive]
  have block := cast_block first last (holds.imp_right fun fits => by omega)
  have offset := cast_offset (rowid.toInt - 1) build.casts
  rw [block_eq positive, offset_eq positive]
  simp only [rowidToTid, tidsPerBlock, asserted, index_eq positive, div_index first last,
    rem_index first last, add_remainder, block, offset, Option.bind_eq_bind, Option.bind_some]
  rfl

/-- No TID overflows on the way back. -/
theorem tidToRowid_eq {tid : Tid} {pointer : Pointer} (holds : pointers.Holds pointer tid) :
    tidToRowid pointers build pointer = some (BitVec.ofInt 64 (SqliteHeap.tidToRowid tid)) := by
  obtain ⟨blockRead, offsetRead⟩ := holds
  have blockBound := tid.block.isLt
  have offsetBound := tid.offset.isLt
  have block : u32.cast i64 build.casts tid.block = some (BitVec.ofInt 64 tid.block.toNat) :=
    cast_eq rfl (.inr (fits_i64.mpr ⟨by omega, by omega⟩))
  have offset : u16.cast i64 build.casts tid.offset = some (BitVec.ofInt 64 tid.offset.toNat) :=
    cast_eq rfl (.inr (fits_i64.mpr ⟨by omega, by omega⟩))
  have rows : i64.value tidsPerBlock = 256 := rfl
  have product : i64.mul build.arithmetic (BitVec.ofInt 64 tid.block.toNat) tidsPerBlock =
      some (BitVec.ofInt 64 (tid.block.toNat * 256)) :=
    mul_eq (value_index (by omega) (by omega)) rows (fits_i64.mpr ⟨by omega, by omega⟩)
  have sum : i64.add build.arithmetic (BitVec.ofInt 64 (tid.block.toNat * 256))
      (BitVec.ofInt 64 tid.offset.toNat) =
        some (BitVec.ofInt 64 (tid.block.toNat * 256 + tid.offset.toNat)) :=
    add_eq (value_index (by omega) (by omega)) (value_index (by omega) (by omega))
      (fits_i64.mpr ⟨by omega, by omega⟩)
  simp only [tidToRowid, blockRead, offsetRead, block, offset, product, Option.bind_eq_bind,
    Option.bind_some]
  exact sum

end Ffi

namespace Zig

open Ffi MachineInt.IntType

variable {rowid : BitVec 64}

theorem rowidToBlockOff_eq (positive : 1 ≤ rowid.toInt) (fits : rowid.toInt ≤ maxTidRowid) :
    rowidToBlockOff rowid =
      some ⟨(SqliteHeap.rowidToTid rowid.toInt).block, (SqliteHeap.rowidToTid rowid.toInt).offset⟩ := by
  have below : rowid.toInt < 2 ^ 63 := BitVec.toInt_lt
  have first : 0 ≤ rowid.toInt - 1 := by omega
  have last : rowid.toInt - 1 < 2 ^ 63 - 1 := by omega
  have block := @cast_block _ first last illegal (.inr (by omega))
  have offset := cast_offset (rowid.toInt - 1) illegal
  rw [block_eq positive, offset_eq positive]
  simp only [rowidToBlockOff, tidsPerBlock, index_eq positive, divFloor_index first last,
    modFloor_index first last, add_remainder, block, offset, Option.bind_eq_bind, Option.bind_some]
  rfl

/-- The rowids outside a TID's reach are illegal behavior, where Rust's casts wrap. -/
theorem rowidToBlockOff_isSome_iff :
    (rowidToBlockOff rowid).isSome = true ↔ 1 ≤ rowid.toInt ∧ rowid.toInt ≤ maxTidRowid := by
  constructor
  · intro packed
    obtain ⟨result, packed⟩ := Option.isSome_iff_exists.mp packed
    simp only [rowidToBlockOff, Option.bind_eq_bind, Option.bind_eq_some_iff] at packed
    obtain ⟨zeroBased, subtracted, quotient, divided, block, cast, _⟩ := packed
    obtain ⟨fits, rfl⟩ := represent_traps_eq_some_iff.mp subtracted
    obtain ⟨fits', rfl⟩ := eq_some_of_divide divided
    have reach := (represent_traps_eq_some_iff.mp cast).1
    rw [value_ofInt fits', value_ofInt fits] at reach
    -- rowids below 1 have negative blocks, because the division rounds down
    change u32.Fits ((rowid.toInt - 1).fdiv 256) at reach
    rw [Int.fdiv_eq_ediv_of_nonneg _ (by decide), fits_u32] at reach
    simp only [maxTidRowid, SqliteHeap.tidsPerBlock]
    omega
  · intro bounds
    rw [rowidToBlockOff_eq bounds.1 bounds.2]
    rfl

example : rowidToBlockOff 1099511627776 = some ⟨0xFFFFFFFF, 256⟩ := by decide
example : rowidToBlockOff 1099511627777 = none := by decide

theorem tidToRowid_eq {Pointer : Type} {shim : ItemPointers Pointer} {pointer : Pointer} {tid : Tid}
    (holds : shim.Holds pointer tid) :
    tidToRowid shim pointer = some (BitVec.ofInt 64 (SqliteHeap.tidToRowid tid)) :=
  @Ffi.tidToRowid_eq _ _ ⟨illegal, illegal, false⟩ _ _ holds

end Zig

/-- The rowids whose blocks are valid. -/
structure Rowid where
  value : BitVec 64
  positive : 1 ≤ value.toInt
  fits : value.toInt ≤ tidsPerBlock * (2 ^ 32 - 1)

def invalidBlockNumber : BitVec 32 := 0xFFFFFFFF

/-- The TIDs of rows. -/
structure RowTid extends Tid where
  valid : block < invalidBlockNumber
  first : 1 ≤ offset.toNat
  last : offset.toNat ≤ 256

theorem Rowid.eq_of_value {rowid other : Rowid} (same : rowid.value = other.value) :
    rowid = other := by
  cases rowid
  cases other
  cases same
  rfl

theorem RowTid.eq_of_toTid {tid other : RowTid} (same : tid.toTid = other.toTid) : tid = other := by
  cases tid
  cases other
  cases same
  rfl

instance : LinearOrder Rowid :=
  LinearOrder.lift' (fun rowid => rowid.value.toInt)
    fun _ _ same => Rowid.eq_of_value (BitVec.eq_of_toInt_eq same)

/-- Blocks first, then offsets. -/
instance : LinearOrder RowTid :=
  LinearOrder.lift' (fun tid => toLex (tid.block.toNat, tid.offset.toNat)) (by
    intro tid other same
    have numbers := Prod.mk.inj (toLex_inj.mp same)
    apply RowTid.eq_of_toTid
    rw [Tid.mk.injEq]
    exact ⟨BitVec.eq_of_toNat_eq numbers.1, BitVec.eq_of_toNat_eq numbers.2⟩)

theorem RowTid.le_iff {tid other : RowTid} : tid ≤ other ↔ tid.toTid.le other.toTid = true := by
  change toLex (tid.block.toNat, tid.offset.toNat) ≤ toLex (other.block.toNat, other.offset.toNat) ↔ _
  rw [Prod.Lex.toLex_le_toLex]
  simp [Tid.le]

namespace Rowid

variable (rowid other : Rowid)

theorem le_maxTidRowid : rowid.value.toInt ≤ maxTidRowid := by
  have fits := rowid.fits
  simp only [maxTidRowid, tidsPerBlock] at fits ⊢
  omega

theorem rowidToTid_valid : (rowidToTid rowid.value.toInt).block < invalidBlockNumber := by
  obtain ⟨block, index, _, _, blockOf, _, stands⟩ := Tid.rowidToTid_parts rowid.positive
  rw [Tid.wrapped_of_fits rowid.positive rowid.le_maxTidRowid] at stands
  have fits := rowid.fits
  simp only [tidsPerBlock] at fits
  rw [BitVec.lt_def, blockOf]
  change block < 2 ^ 32 - 1
  omega

def tid : RowTid :=
  ⟨rowidToTid rowid.value.toInt, rowid.rowidToTid_valid, (Tid.rowidToTid_offset rowid.positive).1,
    (Tid.rowidToTid_offset rowid.positive).2⟩

theorem tid_le_iff : rowid.tid ≤ other.tid ↔ rowid ≤ other := by
  rw [RowTid.le_iff]
  simp only [tid]
  rw [Tid.le_iff_wrapped rowid.positive other.positive,
    Tid.wrapped_of_fits rowid.positive rowid.le_maxTidRowid,
    Tid.wrapped_of_fits other.positive other.le_maxTidRowid]
  exact Iff.rfl

end Rowid

namespace RowTid

variable (tid : RowTid)

theorem tidToRowid_bounds :
    1 ≤ tidToRowid tid.toTid ∧ tidToRowid tid.toTid ≤ tidsPerBlock * (2 ^ 32 - 1) := by
  have valid : tid.block.toNat < 2 ^ 32 - 1 := BitVec.lt_def.mp tid.valid
  have first := tid.first
  have last := tid.last
  simp only [tidToRowid, tidsPerBlock]
  omega

theorem toInt_ofInt_tidToRowid : (BitVec.ofInt 64 (tidToRowid tid.toTid)).toInt = tidToRowid tid.toTid := by
  obtain ⟨positive, fits⟩ := tid.tidToRowid_bounds
  simp only [tidsPerBlock] at fits
  exact BitVec.toInt_ofInt_eq_self (by decide) (by omega) (by omega)

def rowid : Rowid where
  value := BitVec.ofInt 64 (tidToRowid tid.toTid)
  positive := by
    rw [tid.toInt_ofInt_tidToRowid]
    exact tid.tidToRowid_bounds.1
  fits := by
    rw [tid.toInt_ofInt_tidToRowid]
    exact tid.tidToRowid_bounds.2

end RowTid

/-- The packing between the rowids and the TIDs of rows. -/
def codec : Rowid ≃o RowTid where
  toFun := Rowid.tid
  invFun := RowTid.rowid
  left_inv := by
    intro rowid
    apply Rowid.eq_of_value
    have back : tidToRowid (rowidToTid rowid.value.toInt) = rowid.value.toInt :=
      tidToRowid_rowidToTid rowid.positive rowid.le_maxTidRowid
    change BitVec.ofInt 64 (tidToRowid (rowidToTid rowid.value.toInt)) = rowid.value
    rw [back, BitVec.ofInt_toInt]
  right_inv := by
    intro tid
    apply RowTid.eq_of_toTid
    change rowidToTid (BitVec.ofInt 64 (tidToRowid tid.toTid)).toInt = tid.toTid
    rw [tid.toInt_ofInt_tidToRowid]
    exact rowidToTid_tidToRowid tid.first tid.last
  map_rel_iff' := Rowid.tid_le_iff _ _

example : (Rowid.tid ⟨256, by decide, by decide⟩).toTid = ⟨0, 256⟩ := by decide
example : (Rowid.tid ⟨257, by decide, by decide⟩).toTid = ⟨1, 1⟩ := by decide

namespace Ffi

variable {Pointer : Type} {pointers : ItemPointers Pointer} (build : Build)

theorem rowidToTid_codec (sets : pointers.SetsAll) (rowid : Rowid) (pointer : Pointer) :
    ∃ written, rowidToTid pointers build rowid.value pointer = some written ∧
      pointers.Holds written (codec rowid).toTid := by
  have nonzero : rowid.tid.offset ≠ 0#16 := by
    intro zero
    have first := rowid.tid.first
    rw [zero] at first
    exact absurd first (by decide)
  exact ⟨_, rowidToTid_eq rowid.positive (.inr rowid.le_maxTidRowid) pointer,
    sets pointer rowid.tid.toTid nonzero⟩

theorem tidToRowid_codec {tid : RowTid} {pointer : Pointer}
    (holds : pointers.Holds pointer tid.toTid) :
    tidToRowid pointers build pointer = some (codec.symm tid).value :=
  tidToRowid_eq holds

end Ffi

namespace Llvm

variable {Pointer : Type} {macros : ItemPointers Pointer}

theorem rowidToTid_codec (sets : macros.SetsAll) (rowid : Rowid) (pointer : Pointer) :
    ∃ written, rowidToTid macros rowid.value pointer = some written ∧
      macros.Holds written (codec rowid).toTid :=
  Ffi.rowidToTid_codec shimBuild sets rowid pointer

theorem shimTidToRowid_codec {tid : RowTid} {pointer : Pointer}
    (holds : macros.Holds pointer tid.toTid) :
    shimTidToRowid macros pointer = some (codec.symm tid).value :=
  Ffi.tidToRowid_codec shimBuild holds

end Llvm

/-- Packing rowids into TIDs is an order isomorphism. `rowid_to_tid` and `tid_to_rowid` compute
it in every build, so no step overflows, and the functions of the Zig port compute it too. -/
theorem codec_orderIso {Pointer : Type} {pgrx shim : ItemPointers Pointer} (sets : pgrx.SetsAll) :
    ∃ codec : Rowid ≃o RowTid,
      (∀ (build : Build) (rowid : Rowid) (pointer : Pointer), ∃ written,
        Ffi.rowidToTid pgrx build rowid.value pointer = some written ∧
          pgrx.Holds written (codec rowid).toTid) ∧
      (∀ (build : Build) (tid : RowTid) (pointer : Pointer), pgrx.Holds pointer tid.toTid →
        Ffi.tidToRowid pgrx build pointer = some (codec.symm tid).value) ∧
      (∀ rowid : Rowid,
        Zig.rowidToBlockOff rowid.value = some ⟨(codec rowid).block, (codec rowid).offset⟩) ∧
      ∀ (tid : RowTid) (pointer : Pointer), shim.Holds pointer tid.toTid →
        Zig.tidToRowid shim pointer = some (codec.symm tid).value := by
  refine ⟨codec, ?_, ?_, ?_, ?_⟩
  · intro build rowid pointer
    exact Ffi.rowidToTid_codec build sets rowid pointer
  · intro build tid pointer holds
    exact Ffi.tidToRowid_codec build holds
  · intro rowid
    exact Zig.rowidToBlockOff_eq rowid.positive rowid.le_maxTidRowid
  · intro tid pointer holds
    exact Zig.tidToRowid_eq holds

/-- The block number in two halves, before the offset. -/
structure ItemPointerData where
  biHi : BitVec 16
  biLo : BitVec 16
  ipPosid : BitVec 16

namespace ItemPointerData

def blockNumber (pointer : ItemPointerData) : BitVec 32 := pointer.biHi ++ pointer.biLo

def set (block : BitVec 32) (offset : BitVec 16) : ItemPointerData :=
  ⟨block.extractLsb' 16 16, block.extractLsb' 0 16, offset⟩

/-- The getters assert that the pointer is valid. -/
def checked : ItemPointers ItemPointerData where
  getBlockNumber pointer := if pointer.ipPosid = 0 then none else some pointer.blockNumber
  getOffsetNumber pointer := if pointer.ipPosid = 0 then none else some pointer.ipPosid
  setAll _ := set

/-- `ItemPointerGetBlockNumberNoCheck` and `ItemPointerGetOffsetNumberNoCheck`. -/
def noCheck : ItemPointers ItemPointerData where
  getBlockNumber pointer := some pointer.blockNumber
  getOffsetNumber pointer := some pointer.ipPosid
  setAll _ := set

theorem checked_setsAll : checked.SetsAll := by
  intro pointer tid nonzero
  constructor
  · exact (if_neg nonzero).trans (congrArg some BitVec.extractLsb'_append_extractLsb')
  · exact if_neg nonzero

/-- On every pointer the packing of `ffi.rs` is that of its TID, the panic included. -/
theorem tidToRowid_checked (build : Build) (pointer : ItemPointerData) :
    Ffi.tidToRowid checked build pointer =
      (checkedTidToRowid ⟨pointer.blockNumber, pointer.ipPosid⟩).map (BitVec.ofInt 64) := by
  by_cases zero : pointer.ipPosid = 0#16
  · simp [Ffi.tidToRowid, checked, checkedTidToRowid, zero]
  · have holds : checked.Holds pointer ⟨pointer.blockNumber, pointer.ipPosid⟩ := ⟨if_neg zero, if_neg zero⟩
    rw [Ffi.tidToRowid_eq holds, checkedTidToRowid, if_neg zero, Option.map_some]

end ItemPointerData

/-- Block numbers stored in halves, with checks in one port and none in the other. -/
theorem itemPointerData_orderIso :
    ∃ codec : Rowid ≃o RowTid,
      (∀ (build : Build) (rowid : Rowid) (pointer : ItemPointerData), ∃ written,
        Ffi.rowidToTid ItemPointerData.checked build rowid.value pointer = some written ∧
          ItemPointerData.checked.Holds written (codec rowid).toTid) ∧
      (∀ (build : Build) (tid : RowTid) (pointer : ItemPointerData),
        ItemPointerData.checked.Holds pointer tid.toTid →
          Ffi.tidToRowid ItemPointerData.checked build pointer = some (codec.symm tid).value) ∧
      (∀ rowid : Rowid,
        Zig.rowidToBlockOff rowid.value = some ⟨(codec rowid).block, (codec rowid).offset⟩) ∧
      ∀ (tid : RowTid) (pointer : ItemPointerData), ItemPointerData.noCheck.Holds pointer tid.toTid →
        Zig.tidToRowid ItemPointerData.noCheck pointer = some (codec.symm tid).value :=
  codec_orderIso ItemPointerData.checked_setsAll

end SqliteHeap
