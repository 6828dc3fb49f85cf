import Mathlib.Algebra.Group.Int.Defs
import Mathlib.Algebra.Group.Nat.Defs
import Mathlib.Tactic.Common

/-! Fixed-width integers. An operation has an exact result, and its type may not be able to
hold it: then the result wraps around or the program stops. -/

set_option autoImplicit false

namespace SqliteHeap.MachineInt

structure IntType where
  signed : Bool
  bits : Nat
  nonempty : 0 < bits := by decide
deriving DecidableEq

abbrev i64 : IntType := { signed := true, bits := 64 }
abbrev u32 : IntType := { signed := false, bits := 32 }
abbrev u16 : IntType := { signed := false, bits := 16 }

/-- What becomes of a result that its type cannot hold. -/
inductive OnOverflow where
  | wraps
  | traps
deriving DecidableEq

namespace IntType

abbrev Word (type : IntType) := BitVec type.bits

def value (type : IntType) (word : type.Word) : Int :=
  if type.signed then word.toInt else word.toNat

def Fits (type : IntType) (exact : Int) : Prop :=
  if type.signed then -2 ^ (type.bits - 1) ≤ exact ∧ exact < 2 ^ (type.bits - 1)
  else 0 ≤ exact ∧ exact < 2 ^ type.bits

instance (type : IntType) (exact : Int) : Decidable (type.Fits exact) := by
  unfold Fits
  infer_instance

/-- The word for an exact result. No word means that the program stops. -/
def represent (type : IntType) (overflow : OnOverflow) (exact : Int) : Option type.Word :=
  match overflow with
  | .wraps => some (BitVec.ofInt type.bits exact)
  | .traps => if type.Fits exact then some (BitVec.ofInt type.bits exact) else none

def add (type : IntType) (overflow : OnOverflow) (left right : type.Word) : Option type.Word :=
  type.represent overflow (type.value left + type.value right)

def sub (type : IntType) (overflow : OnOverflow) (left right : type.Word) : Option type.Word :=
  type.represent overflow (type.value left - type.value right)

def mul (type : IntType) (overflow : OnOverflow) (left right : type.Word) : Option type.Word :=
  type.represent overflow (type.value left * type.value right)

/-- Division and its remainder. A zero divisor and a quotient that does not fit stop every
program. -/
def divide (type : IntType) (quotient result : Int → Int → Int) (left right : type.Word) :
    Option type.Word :=
  if type.value right ≠ 0 ∧ type.Fits (quotient (type.value left) (type.value right)) then
    type.represent .traps (result (type.value left) (type.value right))
  else none

/-- `/` and `%`, which truncate. -/
def div (type : IntType) : type.Word → type.Word → Option type.Word := type.divide Int.tdiv Int.tdiv
def rem (type : IntType) : type.Word → type.Word → Option type.Word := type.divide Int.tdiv Int.tmod

def divFloor (type : IntType) : type.Word → type.Word → Option type.Word :=
  type.divide Int.fdiv Int.fdiv
def modFloor (type : IntType) : type.Word → type.Word → Option type.Word :=
  type.divide Int.fdiv Int.fmod

def cast (source target : IntType) (overflow : OnOverflow) (word : source.Word) :
    Option target.Word :=
  target.represent overflow (source.value word)

variable {type : IntType} {overflow : OnOverflow} {exact : Int}

@[simp] theorem fits_i64 : i64.Fits exact ↔ -2 ^ 63 ≤ exact ∧ exact < 2 ^ 63 := Iff.rfl
@[simp] theorem fits_u32 : u32.Fits exact ↔ 0 ≤ exact ∧ exact < 2 ^ 32 := Iff.rfl
@[simp] theorem fits_u16 : u16.Fits exact ↔ 0 ≤ exact ∧ exact < 2 ^ 16 := Iff.rfl

theorem value_ofInt (fits : type.Fits exact) : type.value (BitVec.ofInt type.bits exact) = exact := by
  unfold Fits at fits
  unfold value
  cases sign : type.signed with
  | true =>
      simp only [sign, ↓reduceIte] at fits ⊢
      exact BitVec.toInt_ofInt_eq_self type.nonempty fits.1 fits.2
  | false =>
      simp only [sign, Bool.false_eq_true, ↓reduceIte] at fits ⊢
      have circle : ((2 ^ type.bits : Nat) : Int) = 2 ^ type.bits := by push_cast; rfl
      rw [BitVec.toNat_ofInt, circle, Int.emod_eq_of_lt fits.1 fits.2, Int.toNat_of_nonneg fits.1]

theorem represent_eq (holds : overflow = .wraps ∨ type.Fits exact) :
    type.represent overflow exact = some (BitVec.ofInt type.bits exact) := by
  cases overflow with
  | wraps => rfl
  | traps =>
      cases holds with
      | inl wraps => cases wraps
      | inr fits => exact if_pos fits

theorem represent_traps_eq_some_iff {word : type.Word} :
    type.represent .traps exact = some word ↔ type.Fits exact ∧ word = BitVec.ofInt type.bits exact := by
  constructor
  · intro represented
    by_cases fits : type.Fits exact
    · rw [represent, if_pos fits] at represented
      cases represented
      exact ⟨fits, rfl⟩
    · rw [represent, if_neg fits] at represented
      cases represented
  · intro represented
    obtain ⟨fits, rfl⟩ := represented
    exact represent_eq (.inr fits)

variable {left right : type.Word} {x y : Int}

theorem add_eq (first : type.value left = x) (second : type.value right = y)
    (fits : type.Fits (x + y)) : type.add overflow left right = some (BitVec.ofInt type.bits (x + y)) := by
  rw [add, first, second]
  exact represent_eq (.inr fits)

theorem sub_eq (first : type.value left = x) (second : type.value right = y)
    (fits : type.Fits (x - y)) : type.sub overflow left right = some (BitVec.ofInt type.bits (x - y)) := by
  rw [sub, first, second]
  exact represent_eq (.inr fits)

theorem mul_eq (first : type.value left = x) (second : type.value right = y)
    (fits : type.Fits (x * y)) : type.mul overflow left right = some (BitVec.ofInt type.bits (x * y)) := by
  rw [mul, first, second]
  exact represent_eq (.inr fits)

theorem divide_eq {quotient result : Int → Int → Int} (first : type.value left = x)
    (second : type.value right = y) (nonzero : y ≠ 0) (fits : type.Fits (quotient x y))
    (fits' : type.Fits (result x y)) :
    type.divide quotient result left right = some (BitVec.ofInt type.bits (result x y)) := by
  rw [divide, first, second, if_pos ⟨nonzero, fits⟩]
  exact represent_eq (.inr fits')

theorem eq_some_of_divide {quotient result : Int → Int → Int} {word : type.Word}
    (divided : type.divide quotient result left right = some word) :
    type.Fits (result (type.value left) (type.value right)) ∧
      word = BitVec.ofInt type.bits (result (type.value left) (type.value right)) := by
  unfold divide at divided
  split at divided
  · exact represent_traps_eq_some_iff.mp divided
  · cases divided

theorem cast_eq {source target : IntType} {word : source.Word} (same : source.value word = x)
    (holds : overflow = .wraps ∨ target.Fits x) :
    source.cast target overflow word = some (BitVec.ofInt target.bits x) := by
  rw [cast, same]
  exact represent_eq holds

end IntType

end SqliteHeap.MachineInt
