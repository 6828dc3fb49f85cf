import Mathlib.Tactic.Common

/-! A value under nested undo. `start` remembers the current value, `abort`
returns to the value remembered by the innermost `start`, and `commit` forgets
it. This is what a transaction with nested subtransactions promises about any
value that its writes change. -/

set_option autoImplicit false

namespace SqliteHeap

universe u

structure Nested (α : Type u) where
  current : α
  /-- Values at the open starts, innermost first. -/
  saved : List α

namespace Nested

variable {α : Type u}

/-- No start is open. -/
def fresh (value : α) : Nested α := ⟨value, []⟩

def update (change : α → α) (nested : Nested α) : Nested α :=
  { nested with current := change nested.current }

def start (nested : Nested α) : Nested α :=
  { nested with saved := nested.current :: nested.saved }

def commit (nested : Nested α) : Nested α :=
  { nested with saved := nested.saved.tail }

/-- Without an open start there is nothing to return to. -/
def abort (nested : Nested α) : Nested α :=
  match nested.saved with
  | [] => nested
  | value :: rest => ⟨value, rest⟩

@[simp] theorem update_current (change : α → α) (nested : Nested α) :
    (nested.update change).current = change nested.current := rfl

@[simp] theorem update_saved (change : α → α) (nested : Nested α) :
    (nested.update change).saved = nested.saved := rfl

@[simp] theorem start_current (nested : Nested α) : nested.start.current = nested.current := rfl

@[simp] theorem start_saved (nested : Nested α) :
    nested.start.saved = nested.current :: nested.saved := rfl

@[simp] theorem commit_current (nested : Nested α) : nested.commit.current = nested.current := rfl

@[simp] theorem commit_saved (nested : Nested α) : nested.commit.saved = nested.saved.tail := rfl

@[simp] theorem abort_saved (nested : Nested α) : nested.abort.saved = nested.saved.tail := by
  rcases nested with ⟨current, _ | ⟨value, rest⟩⟩ <;> rfl

/-- Every remembered value is below the values remembered or made after it. -/
def Growing (le : α → α → Prop) (nested : Nested α) : Prop :=
  (nested.current :: nested.saved).Pairwise fun newer older => le older newer

section Growing

variable {le : α → α → Prop} {nested : Nested α}

theorem Growing.fresh (value : α) : (Nested.fresh value).Growing le := by
  simp [Growing, Nested.fresh]

theorem Growing.update {change : α → α} (growing : nested.Growing le)
    (trans : ∀ first second third, le first second → le second third → le first third)
    (grows : le nested.current (change nested.current)) : (nested.update change).Growing le := by
  obtain ⟨top, below⟩ := List.pairwise_cons.mp growing
  exact List.pairwise_cons.mpr
    ⟨fun older member => trans _ _ _ (top older member) grows, below⟩

theorem Growing.start (growing : nested.Growing le) (refl : ∀ value, le value value) :
    nested.start.Growing le := by
  obtain ⟨top, below⟩ := List.pairwise_cons.mp growing
  refine List.pairwise_cons.mpr ⟨fun older member => ?_, growing⟩
  rcases List.mem_cons.mp member with rfl | deeper
  · exact refl _
  · exact top older deeper

theorem Growing.commit (growing : nested.Growing le) : nested.commit.Growing le := by
  obtain ⟨top, below⟩ := List.pairwise_cons.mp growing
  exact List.pairwise_cons.mpr ⟨fun older member => top older (List.mem_of_mem_tail member),
    below.sublist (List.tail_sublist _)⟩

theorem Growing.abort (growing : nested.Growing le) : nested.abort.Growing le := by
  rcases nested with ⟨current, _ | ⟨value, rest⟩⟩
  · exact growing
  · exact (List.pairwise_cons.mp growing).2

theorem Growing.abort_le (growing : nested.Growing le) (refl : ∀ value, le value value) :
    le nested.abort.current nested.current := by
  rcases nested with ⟨current, _ | ⟨value, rest⟩⟩
  · exact refl current
  · exact (List.pairwise_cons.mp growing).1 value List.mem_cons_self

theorem Growing.le_current (growing : nested.Growing le) {value : α}
    (member : value ∈ nested.saved) : le value nested.current :=
  (List.pairwise_cons.mp growing).1 value member

end Growing

end Nested

end SqliteHeap
