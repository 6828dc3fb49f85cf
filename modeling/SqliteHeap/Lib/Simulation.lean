import Mathlib.Data.Option.Defs
import SqliteHeap.Lib.Transition

/-! Two machines compared step by step. In a forward simulation every allowed step of the
one is answered by the actions that it means for the other, possibly none. In lock step
both take the same events, and one gets stuck exactly when the other does. -/

set_option autoImplicit false

namespace SqliteHeap.Transition

universe u v w x

section Simulation

variable {State : Type u} {Event : Type v} {Spec : Type w} {Action : Type x}

/-- The actions that a run means, as far as it can be taken. -/
def trace (step : State → Event → Option State) (meaning : State → Event → List Action) :
    State → List Event → List Action
  | _, [] => []
  | state, event :: rest =>
      meaning state event ++
        match step state event with
        | none => []
        | some next => trace step meaning next rest

/-- An allowed step from related states is answered by the actions that it means. -/
def Simulates (step : State → Event → Option State) (allowed : State → Event → Prop)
    (specStep : Spec → Action → Option Spec) (meaning : State → Event → List Action)
    (related : State → Spec → Prop) : Prop :=
  ∀ state spec event next, related state spec → allowed state event →
    step state event = some next →
      ∃ after, run specStep spec (meaning state event) = some after ∧ related next after

variable {step : State → Event → Option State} {allowed : State → Event → Prop}
  {specStep : Spec → Action → Option Spec} {meaning : State → Event → List Action}
  {related : State → Spec → Prop}

theorem Simulates.run (simulates : Simulates step allowed specStep meaning related)
    {state final : State} {spec : Spec} {events : List Event} (start : related state spec)
    (allowedRun : Meets step allowed state events)
    (reached : Transition.run step state events = some final) :
    ∃ after, Transition.run specStep spec (trace step meaning state events) = some after ∧
      related final after := by
  induction events generalizing state spec with
  | nil =>
      cases reached
      exact ⟨spec, rfl, start⟩
  | cons event rest ih =>
      obtain ⟨next, stepped, reached⟩ := run_cons_iff.mp reached
      obtain ⟨middle, answered, kept⟩ := simulates state spec event next start allowedRun.1 stepped
      obtain ⟨after, finished, ends⟩ := ih kept (allowedRun.2 next stepped) reached
      refine ⟨after, ?_, ends⟩
      simp only [trace, stepped]
      exact run_append_iff.mpr ⟨middle, answered, finished⟩

end Simulation

section LockStep

variable {State : Type u} {Other : Type v} {Event : Type w}

theorem rel_guarded {related : State → Other → Prop} {guard otherGuard : Prop} [Decidable guard]
    [Decidable otherGuard] (same : guard ↔ otherGuard) {next : State} {after : Other}
    (taken : otherGuard → related next after) :
    Option.Rel related (if guard then some next else none) (if otherGuard then some after else none) := by
  by_cases holds : otherGuard
  · rw [if_pos (same.mpr holds), if_pos holds]
    exact .some (taken holds)
  · rw [if_neg fun first => holds (same.mp first), if_neg holds]
    exact .none

/-- From related states an allowed event is taken by both machines or by neither. -/
def LockStep (step : State → Event → Option State) (allowed : State → Event → Prop)
    (otherStep : Other → Event → Option Other) (related : State → Other → Prop) : Prop :=
  ∀ state other event, related state other → allowed state event →
    Option.Rel related (step state event) (otherStep other event)

variable {step : State → Event → Option State} {allowed : State → Event → Prop}
  {otherStep : Other → Event → Option Other} {related : State → Other → Prop}

theorem LockStep.run (lockStep : LockStep step allowed otherStep related) {state : State}
    {other : Other} {events : List Event} (start : related state other)
    (allowedRun : Meets step allowed state events) :
    Option.Rel related (Transition.run step state events) (Transition.run otherStep other events) := by
  induction events generalizing state other with
  | nil => exact .some start
  | cons event rest ih =>
      have both := lockStep state other event start allowedRun.1
      simp only [Transition.run]
      cases first : step state event with
      | none =>
          rw [first] at both
          cases second : otherStep other event with
          | none => exact .none
          | some after =>
              rw [second] at both
              cases both
      | some next =>
          rw [first] at both
          cases second : otherStep other event with
          | none =>
              rw [second] at both
              cases both
          | some after =>
              rw [second] at both
              cases both with
              | some kept => exact ih kept (allowedRun.2 next first)

end LockStep

end SqliteHeap.Transition
