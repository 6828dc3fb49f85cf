import Mathlib.Algebra.Group.Int.Defs
import Mathlib.Algebra.Group.Nat.Defs
import SqliteHeap.Storage

/-! `ffi.rs`: packing a SQLite rowid into a Postgres tuple id. -/

set_option autoImplicit false

namespace SqliteHeap

/-- `ItemPointerData`: a block number and an offset in the block. -/
structure Tid where
  block : BitVec 32
  offset : BitVec 16
deriving DecidableEq

def tidsPerBlock : Int := 256

/-- What `tid_to_rowid` computes for the TID of a row. -/
def tidToRowid (tid : Tid) : Int := tid.block.toNat * tidsPerBlock + tid.offset.toNat

/-- `tid_to_rowid` for any TID: the getters of `pgrx` assert that the offset is not 0. -/
def checkedTidToRowid (tid : Tid) : Option Int :=
  if tid.offset = 0#16 then none else some (tidToRowid tid)

/-- `rowid_to_tid`: the division truncates and the casts wrap. -/
def rowidToTid (rowid : Int) : Tid :=
  ⟨BitVec.ofInt 32 ((rowid - 1).tdiv tidsPerBlock), BitVec.ofInt 16 ((rowid - 1).tmod tidsPerBlock + 1)⟩

/-- Rowids beyond this one no longer fit a block number. -/
def maxTidRowid : Int := 2 ^ 32 * tidsPerBlock

/-- A positive rowid divides as a natural number. -/
theorem rowidToTid_succ (index : Nat) :
    rowidToTid (index + 1) = ⟨BitVec.ofNat 32 (index / 256), BitVec.ofNat 16 (index % 256 + 1)⟩ := by
  have block : ((index : Int) + 1 - 1).tdiv tidsPerBlock = (index / 256 : Nat) := by
    simp [tidsPerBlock, Int.tdiv_eq_ediv]
  have offset : ((index : Int) + 1 - 1).tmod tidsPerBlock + 1 = (index % 256 + 1 : Nat) := by
    simp [tidsPerBlock, Int.tmod_eq_emod]
  rw [rowidToTid, block, offset, BitVec.ofInt_natCast, BitVec.ofInt_natCast]

theorem tidToRowid_rowidToTid {rowid : Int} (positive : 1 ≤ rowid) (fits : rowid ≤ maxTidRowid) :
    tidToRowid (rowidToTid rowid) = rowid := by
  obtain ⟨index, rfl⟩ : ∃ index : Nat, rowid = index + 1 := ⟨(rowid - 1).toNat, by omega⟩
  have bound : index < 2 ^ 32 * 256 := by
    simp only [maxTidRowid, tidsPerBlock] at fits
    omega
  have block : index / 256 < 2 ^ 32 := by omega
  have offset : index % 256 + 1 < 2 ^ 16 := by omega
  simp only [rowidToTid_succ, tidToRowid, tidsPerBlock, BitVec.toNat_ofNat, Nat.mod_eq_of_lt block,
    Nat.mod_eq_of_lt offset]
  omega

/-- Offsets of rows are 1 to 256; their TIDs come back too. -/
theorem rowidToTid_tidToRowid {tid : Tid} (first : 1 ≤ tid.offset.toNat)
    (last : tid.offset.toNat ≤ 256) : rowidToTid (tidToRowid tid) = tid := by
  obtain ⟨block, offset⟩ := tid
  dsimp only at first last
  have index : tidToRowid ⟨block, offset⟩ = (block.toNat * 256 + (offset.toNat - 1) : Nat) + 1 := by
    simp only [tidToRowid, tidsPerBlock]
    omega
  have blockOf : (block.toNat * 256 + (offset.toNat - 1)) / 256 = block.toNat := by omega
  have offsetOf : (block.toNat * 256 + (offset.toNat - 1)) % 256 + 1 = offset.toNat := by omega
  rw [index, rowidToTid_succ, blockOf, offsetOf, BitVec.ofNat_toNat, BitVec.ofNat_toNat,
    BitVec.setWidth_eq, BitVec.setWidth_eq]

end SqliteHeap
