import Mathlib.Tactic.Common

/-! Pull iterators. `next state` returns an item or none, and the state that it leaves.
Calling it until it returns none yields a list of items. -/

set_option autoImplicit false

namespace SqliteHeap.Pull

universe u v
variable {State : Type u} {Item : Type v}

/-- Calls from `state` on return these items and then none. -/
inductive Yields (next : State → Option Item × State) : State → List Item → Prop where
  | done {state after : State} (ended : next state = (none, after)) : Yields next state []
  | more {state after : State} {item : Item} {items : List Item}
      (found : next state = (some item, after)) (rest : Yields next after items) :
      Yields next state (item :: items)

variable {next : State → Option Item × State} {state : State}

/-- What is left to return: a step returns its first item and leaves the others. -/
def Remaining (next : State → Option Item × State) (remaining : State → List Item) : Prop :=
  ∀ state, match next state with
    | (none, _) => remaining state = []
    | (some item, after) => remaining state = item :: remaining after

/-- An iterator yields what is left to return, if that is left by every step. -/
theorem yields_remaining {remaining : State → List Item} (spec : Remaining next remaining)
    (state : State) : Yields next state (remaining state) := by
  induction length : (remaining state).length generalizing state with
  | zero =>
      have left := spec state
      have none : remaining state = [] := List.length_eq_zero_iff.mp length
      cases step : next state with
      | mk found after =>
          cases found with
          | none => exact none ▸ .done step
          | some item => simp [step, none] at left
  | succ count ih =>
      have left := spec state
      cases step : next state with
      | mk found after =>
          cases found with
          | none => simp [step] at left; simp [left] at length
          | some item =>
              simp only [step] at left
              rw [left] at length ⊢
              exact .more step (ih after (by simpa using length))

/-- Calls from `state` on return these items and then none, and leave the last state. -/
inductive YieldsTo (next : State → Option Item × State) : State → List Item → State → Prop where
  | done {state after : State} (ended : next state = (none, after)) : YieldsTo next state [] after
  | more {state after last : State} {item : Item} {items : List Item}
      (found : next state = (some item, after)) (rest : YieldsTo next after items last) :
      YieldsTo next state (item :: items) last

theorem Yields.yieldsTo {items : List Item} (yields : Yields next state items) :
    ∃ last, YieldsTo next state items last := by
  induction yields with
  | done ended => exact ⟨_, .done ended⟩
  | more found _ ih =>
      obtain ⟨last, rest⟩ := ih
      exact ⟨last, .more found rest⟩

/-- What every step keeps holds of the last state, with what the last step adds. -/
theorem YieldsTo.last (Kept Ended : State → Prop) {items : List Item} {last : State}
    (yields : YieldsTo next state items last) (kept : Kept state)
    (step : ∀ state, Kept state → Kept (next state).2)
    (ends : ∀ {state after}, Kept state → next state = (none, after) → Ended after) : Ended last := by
  induction yields with
  | done ended => exact ends kept ended
  | more found _ ih =>
      have stepped := step _ kept
      rw [found] at stepped
      exact ih stepped

end SqliteHeap.Pull
