import Mathlib.Data.Nat.ModEq
import Mathlib.Tactic.Common
import Mathlib.Tactic.SplitIfs

/-! Circular order on fixed-width counters. An identifier is a `BitVec w` that
wraps around; one identifier precedes another when their wrapped difference is
negative as a signed number. The order is not transitive on the whole circle,
so every law below states the half window in which it holds. -/

set_option autoImplicit false

namespace SqliteHeap.Circular

variable {w : Nat}

/-- `a` comes before `b`: the wrapped difference `a - b` has its sign bit set. -/
def precedes (a b : BitVec w) : Bool := (a - b).msb

/-- Forward distance from `a` to `b` around the circle. -/
def distance (a b : BitVec w) : Nat := (b - a).toNat

@[simp] theorem distance_self (a : BitVec w) : distance a a = 0 := by
  simp [distance]

/-- Signed comparison of the difference is a bound on the forward distance. -/
theorem precedes_iff {a b : BitVec w} (wide : 0 < w) :
    precedes a b = true ↔ 0 < distance a b ∧ 2 * distance a b ≤ 2 ^ w := by
  obtain ⟨v, rfl⟩ : ∃ v, w = v + 1 := ⟨w - 1, by omega⟩
  have aBound := a.isLt
  have bBound := b.isLt
  have power : 2 ^ (v + 1) = 2 * 2 ^ v := by rw [Nat.pow_succ, Nat.mul_comm]
  rw [precedes, BitVec.msb_eq_decide, decide_eq_true_eq, distance, BitVec.toNat_sub,
    BitVec.toNat_sub, Nat.add_sub_cancel]
  rcases Nat.lt_trichotomy a.toNat b.toNat with before | same | after
  · rw [Nat.mod_eq_of_lt (a := 2 ^ (v + 1) - b.toNat + a.toNat) (by omega)]
    rw [Nat.mod_eq_sub_mod (by omega), Nat.mod_eq_of_lt (by omega)]
    omega
  · rw [same, Nat.sub_add_cancel bBound.le, Nat.mod_self]
    have positive : 0 < 2 ^ v := Nat.two_pow_pos v
    omega
  · rw [Nat.mod_eq_sub_mod (a := 2 ^ (v + 1) - b.toNat + a.toNat) (by omega),
      Nat.mod_eq_of_lt (by omega),
      Nat.mod_eq_of_lt (a := 2 ^ (v + 1) - a.toNat + b.toNat) (by omega)]
    omega

@[simp] theorem precedes_self (a : BitVec w) : precedes a a = false := by
  simp [precedes]

theorem distance_add {a b c : BitVec w} (fits : distance a b + distance b c < 2 ^ w) :
    distance a c = distance a b + distance b c := by
  have whole : c - a = (b - a) + (c - b) := by
    rw [BitVec.sub_eq_add_neg, BitVec.sub_eq_add_neg, BitVec.sub_eq_add_neg]
    calc c + -a = c + (-b + b) + -a := by rw [BitVec.add_comm (-b) b, BitVec.add_right_neg,
          BitVec.add_zero]
      _ = b + -a + (c + -b) := by ac_rfl
  rw [distance, whole, BitVec.toNat_add]
  exact Nat.mod_eq_of_lt fits

theorem precedes_trans {a b c : BitVec w} (wide : 0 < w)
    (first : precedes a b = true) (window : 2 * (distance a b + distance b c) ≤ 2 ^ w) :
    precedes a c = true := by
  have positive := (precedes_iff wide).mp first
  have bounded : distance a b + distance b c < 2 ^ w := by
    have circle := Nat.two_pow_pos w
    omega
  rw [precedes_iff wide, distance_add bounded]
  omega

/-- Wrapping a counter that only grows turns its differences into distances. -/
theorem distance_ofNat {x y : Nat} (ordered : x ≤ y) (near : y - x < 2 ^ w) :
    distance (BitVec.ofNat w x) (BitVec.ofNat w y) = y - x := by
  have whole : BitVec.ofNat w y = BitVec.ofNat w x + BitVec.ofNat w (y - x) := by
    rw [← BitVec.ofNat_add, Nat.add_sub_cancel' ordered]
  rw [distance, whole, BitVec.add_comm, BitVec.add_sub_cancel, BitVec.toNat_ofNat]
  exact Nat.mod_eq_of_lt near

theorem distance_ofNat_eq_emod (x y : Nat) :
    (distance (BitVec.ofNat w x) (BitVec.ofNat w y) : Int) = ((y : Int) - x) % 2 ^ w := by
  have circle := Nat.two_pow_pos w
  have below := (Nat.mod_lt x circle).le
  have spread : ((2 ^ w - x % 2 ^ w + y % 2 ^ w : Nat) : Int) =
      (y : Int) % 2 ^ w - (x : Int) % 2 ^ w + 2 ^ w := by
    rw [Int.natCast_add, Int.natCast_sub below]
    push_cast
    omega
  rw [distance, BitVec.toNat_sub, BitVec.toNat_ofNat, BitVec.toNat_ofNat, Int.natCast_emod, spread]
  push_cast
  rw [Int.add_emod_right, ← Int.sub_emod]

theorem precedes_ofNat_iff_emod {x y : Nat} (wide : 0 < w) :
    precedes (BitVec.ofNat w x) (BitVec.ofNat w y) = true ↔
      0 < ((y : Int) - x) % 2 ^ w ∧ 2 * (((y : Int) - x) % 2 ^ w) ≤ 2 ^ w := by
  rw [precedes_iff wide, ← distance_ofNat_eq_emod]
  norm_cast

/-- In a half window the circular order on wrapped counters is the order on the
counters themselves. -/
theorem precedes_ofNat_iff {x y : Nat} (wide : 0 < w)
    (ahead : 2 * (y - x) ≤ 2 ^ w) (behind : 2 * (x - y) < 2 ^ w) :
    precedes (BitVec.ofNat w x) (BitVec.ofNat w y) = true ↔ x < y := by
  have circle := Nat.two_pow_pos w
  rw [precedes_iff wide]
  rcases Nat.lt_or_ge x y with less | greater
  · rw [distance_ofNat less.le (by omega)]
    omega
  · have backward : distance (BitVec.ofNat w y) (BitVec.ofNat w x) = x - y :=
      distance_ofNat greater (by omega)
    constructor
    · rintro ⟨positive, half⟩
      have turn : distance (BitVec.ofNat w y) (BitVec.ofNat w x) +
          distance (BitVec.ofNat w x) (BitVec.ofNat w y) < 2 ^ w := by omega
      have zero := distance_add turn
      rw [distance_self] at zero
      omega
    · intro less
      omega

/-- Comparing two identifiers as signed numbers agrees with the circular order
exactly when they are at most half the circle apart. -/
theorem precedes_of_toInt_lt {a b : BitVec w} (wide : 0 < w) (below : a.toInt < b.toInt) :
    precedes a b = true ↔ 2 * (b.toInt - a.toInt) ≤ 2 ^ w := by
  have forward : (distance a b : Int) = b.toInt - a.toInt := by
    have aBound := a.isLt
    have bBound := b.isLt
    rw [distance, BitVec.toNat_sub]
    rw [BitVec.toInt_eq_toNat_cond, BitVec.toInt_eq_toNat_cond] at below ⊢
    by_cases wraps : a.toNat ≤ b.toNat
    · rw [Nat.mod_eq_sub_mod (by omega), Nat.mod_eq_of_lt (by omega)]
      split_ifs at below ⊢ <;> omega
    · rw [Nat.mod_eq_of_lt (by omega)]
      split_ifs at below ⊢ <;> omega
  rw [precedes_iff wide, ← forward]
  constructor
  · rintro ⟨_, half⟩
    exact_mod_cast half
  · intro half
    exact ⟨by omega, by exact_mod_cast half⟩

/-! ## Half windows -/

/-- The identifiers lie within half the circle from some point on. -/
def HalfWindow (ids : List (BitVec w)) : Prop := ∃ low, ∀ id ∈ ids, 2 * distance low id < 2 ^ w

/-- The forward distance between two identifiers, from their distances to a third. -/
theorem distance_eq_mod (low a b : BitVec w) :
    distance a b = (2 ^ w - distance low a + distance low b) % 2 ^ w := by
  have whole : b - a = (b - low) - (a - low) := by
    simp only [BitVec.sub_eq_add_neg, BitVec.neg_add, BitVec.neg_neg]
    calc b + -a = b + -a + (low + -low) := by rw [BitVec.add_right_neg, BitVec.add_zero]
      _ = b + -low + (-a + low) := by ac_rfl
  rw [distance, whole, BitVec.toNat_sub]
  rfl

/-- In a half window the circular order is linear. -/
theorem precedes_iff_of_window {low a b : BitVec w} (wide : 0 < w)
    (first : 2 * distance low a < 2 ^ w) (second : 2 * distance low b < 2 ^ w) :
    precedes a b = true ↔ distance low a < distance low b := by
  rw [precedes_iff wide, distance_eq_mod low]
  rcases Nat.lt_or_ge (distance low a) (distance low b) with before | after
  · rw [Nat.mod_eq_sub_mod (by omega), Nat.mod_eq_of_lt (by omega)]
    omega
  · rcases Nat.eq_or_lt_of_le after with same | greater
    · rw [same, Nat.sub_add_cancel (by omega), Nat.mod_self]
      omega
    · rw [Nat.mod_eq_of_lt (by omega)]
      omega

/-- An identifier that does not precede another is less than half the circle after it. -/
theorem distance_lt_of_not_precedes {a b : BitVec w} (wide : 0 < w) (ordered : precedes a b = false) :
    2 * distance b a < 2 ^ w := by
  have circle := Nat.two_pow_pos w
  have bound : distance a b < 2 ^ w := (b - a).isLt
  have turn : distance b a = (2 ^ w - distance a b + distance a a) % 2 ^ w := distance_eq_mod a b a
  have far : ¬ (0 < distance a b ∧ 2 * distance a b ≤ 2 ^ w) := fun near => by
    rw [(precedes_iff wide).mpr near] at ordered
    cases ordered
  rw [distance_self, Nat.add_zero] at turn
  rcases Nat.eq_zero_or_pos (distance a b) with zero | positive
  · rw [turn, zero, Nat.sub_zero, Nat.mod_self]
    omega
  · rw [turn, Nat.mod_eq_of_lt (by omega)]
    omega

/-! ## The newest of several identifiers -/

/-- `a` comes after `b`: the wrapped difference is positive as a signed number. -/
def follows (a b : BitVec w) : Bool := 0 < (a - b).toInt

/-- Among identifiers that precede a bound the one nearer to it follows. -/
theorem follows_iff_of_precedes {a b bound : BitVec w} (wide : 0 < w)
    (first : precedes a bound = true) (second : precedes b bound = true) :
    follows a b = true ↔ distance a bound < distance b bound := by
  obtain ⟨positive, near⟩ := (precedes_iff wide).mp first
  obtain ⟨positive', near'⟩ := (precedes_iff wide).mp second
  have whole : (a - b).toNat = (2 ^ w - distance a bound + distance b bound) % 2 ^ w := by
    have difference : a - b = (bound - b) - (bound - a) := by
      simp only [BitVec.sub_eq_add_neg, BitVec.neg_add, BitVec.neg_neg]
      calc a + -b = a + -b + (bound + -bound) := by rw [BitVec.add_right_neg, BitVec.add_zero]
        _ = bound + -b + (-bound + a) := by ac_rfl
    rw [difference, BitVec.toNat_sub]
    rfl
  rw [follows, decide_eq_true_iff, BitVec.toInt_eq_toNat_cond, whole]
  rcases Nat.lt_or_ge (distance a bound) (distance b bound) with nearer | further
  · rw [Nat.mod_eq_sub_mod (by omega), Nat.mod_eq_of_lt (by omega)]
    split_ifs <;> omega
  · rcases Nat.eq_or_lt_of_le further with same | farther
    · rw [same, Nat.sub_add_cancel (by omega), Nat.mod_self]
      split_ifs <;> omega
    · rw [Nat.mod_eq_of_lt (by omega)]
      split_ifs <;> omega

/-- The newest so far, after a look at each identifier in turn. -/
def newest (first : BitVec w) (rest : List (BitVec w)) : BitVec w :=
  rest.foldl (fun best id => if follows id best then id else best) first

theorem newest_mem (first : BitVec w) (rest : List (BitVec w)) : newest first rest ∈ first :: rest := by
  induction rest generalizing first with
  | nil => exact List.mem_singleton_self first
  | cons id rest ih =>
      rw [newest, List.foldl_cons]
      split
      · exact List.mem_cons_of_mem first (ih id)
      · rcases List.mem_cons.mp (ih first) with same | later
        · exact List.mem_cons.mpr (.inl same)
        · exact List.mem_cons_of_mem first (List.mem_cons_of_mem id later)

/-- The order is not transitive on the circle, but it is before a bound: there nothing
follows the newest. -/
theorem not_follows_newest {bound first : BitVec w} {rest : List (BitVec w)} (wide : 0 < w)
    (before : ∀ id ∈ first :: rest, precedes id bound = true) :
    ∀ id ∈ first :: rest, follows id (newest first rest) = false := by
  have nearest : ∀ id ∈ first :: rest, distance (newest first rest) bound ≤ distance id bound := by
    induction rest generalizing first with
    | nil =>
        intro id member
        rw [List.mem_singleton.mp member]
        exact Nat.le_refl _
    | cons next rest ih =>
        have first' := before first (by simp)
        have next' := before next (by simp)
        have rest' : ∀ id ∈ rest, precedes id bound = true := fun id member => before id (by simp [member])
        rw [newest, List.foldl_cons]
        intro id member
        split
        · next nearer =>
            have step := (follows_iff_of_precedes wide next' first').mp nearer
            have best := ih (List.forall_mem_cons.mpr ⟨next', rest'⟩)
            rcases List.mem_cons.mp member with rfl | later
            · exact Nat.le_of_lt (Nat.lt_of_le_of_lt (best next (by simp)) step)
            · exact best id later
        · next further =>
            have step := mt (follows_iff_of_precedes wide next' first').mpr further
            have best := ih (List.forall_mem_cons.mpr ⟨first', rest'⟩)
            rcases List.mem_cons.mp member with rfl | later
            · exact best id (by simp)
            · rcases List.mem_cons.mp later with rfl | later
              · exact Nat.le_trans (best first (by simp)) (Nat.le_of_not_lt step)
              · exact best id (by simp [later])
  intro id member
  have closest := before _ (newest_mem first rest)
  rw [← Bool.not_eq_true, follows_iff_of_precedes wide (before id member) closest]
  exact Nat.not_lt_of_le (nearest id member)

end SqliteHeap.Circular
