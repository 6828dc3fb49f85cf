import Mathlib.Tactic.Common

/-! Runs of a partial step function. `step state event = none` means that the
environment cannot issue `event` in `state`. A condition `allowed` is asked of
every step of a run, and an invariant is proved once for all runs. -/

set_option autoImplicit false

namespace SqliteHeap.Transition

universe u v
variable {State : Type u} {Event : Type v}

/-- The state reached by taking the events in order. -/
def run (step : State → Event → Option State) : State → List Event → Option State
  | state, [] => some state
  | state, event :: rest => (step state event).bind fun next => run step next rest

/-- Every step of the run starting in `state` meets `allowed`. -/
def Meets (step : State → Event → Option State) (allowed : State → Event → Prop) :
    State → List Event → Prop
  | _, [] => True
  | state, event :: rest =>
      allowed state event ∧ ∀ next, step state event = some next → Meets step allowed next rest

instance Meets.decidable (step : State → Event → Option State) (allowed : State → Event → Prop)
    [∀ state event, Decidable (allowed state event)] :
    ∀ state events, Decidable (Meets step allowed state events)
  | _, [] => isTrue trivial
  | state, event :: rest =>
      match stepped : step state event with
      | none =>
          decidable_of_iff (allowed state event)
            ⟨fun first => ⟨first, fun _ taken => by rw [stepped] at taken; cases taken⟩, And.left⟩
      | some next =>
          have := Meets.decidable step allowed next rest
          decidable_of_iff (allowed state event ∧ Meets step allowed next rest)
            ⟨fun both => ⟨both.1, fun other taken => by
                rw [stepped] at taken
                cases taken
                exact both.2⟩,
              fun both => ⟨both.1, both.2 next stepped⟩⟩

variable {step : State → Event → Option State} {allowed : State → Event → Prop}

@[simp] theorem run_nil (state : State) : run step state [] = some state := rfl

theorem run_cons_iff {state final : State} {event : Event} {rest : List Event} :
    run step state (event :: rest) = some final ↔
      ∃ next, step state event = some next ∧ run step next rest = some final := by
  simp only [run, Option.bind_eq_some_iff]

theorem run_append_iff {state final : State} {before after : List Event} :
    run step state (before ++ after) = some final ↔
      ∃ middle, run step state before = some middle ∧ run step middle after = some final := by
  induction before generalizing state with
  | nil => simp
  | cons event rest ih =>
      simp only [List.cons_append, run_cons_iff, ih]
      constructor
      · rintro ⟨next, stepped, middle, reached, finished⟩
        exact ⟨middle, ⟨next, stepped, reached⟩, finished⟩
      · rintro ⟨middle, ⟨next, stepped, reached⟩, finished⟩
        exact ⟨next, stepped, middle, reached, finished⟩

theorem meets_append_iff {state middle : State} {before after : List Event}
    (reached : run step state before = some middle) :
    Meets step allowed state (before ++ after) ↔
      Meets step allowed state before ∧ Meets step allowed middle after := by
  induction before generalizing state with
  | nil =>
      cases reached
      simp [Meets]
  | cons event rest ih =>
      obtain ⟨next, stepped, reached⟩ := run_cons_iff.mp reached
      have unique : ∀ other, step state event = some other → other = next := by
        intro other taken
        rw [stepped] at taken
        exact (Option.some.inj taken).symm
      simp only [List.cons_append, Meets, and_assoc]
      constructor
      · rintro ⟨first, later⟩
        obtain ⟨front, back⟩ := (ih reached).mp (later next stepped)
        exact ⟨first, fun other taken => unique other taken ▸ front, back⟩
      · rintro ⟨first, front, back⟩
        refine ⟨first, fun other taken => ?_⟩
        rw [unique other taken]
        exact (ih reached).mpr ⟨front next stepped, back⟩

theorem meets_trivial (state : State) (events : List Event) :
    Meets step (fun _ _ => True) state events := by
  induction events generalizing state with
  | nil => trivial
  | cons event rest ih => exact ⟨trivial, fun next _ => ih next⟩

/-- What every allowed step preserves holds at the end of every allowed run. -/
theorem run_invariant {invariant : State → Prop}
    (preserved : ∀ state event next, invariant state → allowed state event →
      step state event = some next → invariant next)
    {state final : State} {events : List Event} (start : invariant state)
    (allowedRun : Meets step allowed state events)
    (reached : run step state events = some final) : invariant final := by
  induction events generalizing state with
  | nil =>
      cases reached
      exact start
  | cons event rest ih =>
      obtain ⟨next, stepped, reached⟩ := run_cons_iff.mp reached
      exact ih (preserved state event next start allowedRun.1 stepped)
        (allowedRun.2 next stepped) reached

theorem meets_and_iff {other : State → Event → Prop} {state : State} {events : List Event} :
    Meets step (fun state event => allowed state event ∧ other state event) state events ↔
      Meets step allowed state events ∧ Meets step other state events := by
  induction events generalizing state with
  | nil => exact ⟨fun _ => ⟨trivial, trivial⟩, fun _ => trivial⟩
  | cons event rest ih =>
      constructor
      · rintro ⟨⟨first, first'⟩, later⟩
        exact ⟨⟨first, fun next taken => (ih.mp (later next taken)).1⟩, first',
          fun next taken => (ih.mp (later next taken)).2⟩
      · rintro ⟨⟨first, later⟩, first', later'⟩
        exact ⟨⟨first, first'⟩, fun next taken => ih.mpr ⟨later next taken, later' next taken⟩⟩

/-- Two conditions that agree where an invariant holds allow the same runs, if steps that
they allow keep it. -/
theorem meets_congr {other : State → Event → Prop} {invariant : State → Prop}
    (preserved : ∀ state event next, invariant state → allowed state event →
      step state event = some next → invariant next)
    (agree : ∀ state event, invariant state → (other state event ↔ allowed state event))
    {state : State} (start : invariant state) (events : List Event) :
    Meets step other state events ↔ Meets step allowed state events := by
  induction events generalizing state with
  | nil => exact Iff.rfl
  | cons event rest ih =>
      rw [Meets, Meets, agree state event start]
      refine and_congr_right fun first => forall_congr' fun next => forall_congr' fun taken => ?_
      exact ih (preserved state event next start first taken)

/-- A run of assumed events meets what an invariant allows of them. -/
theorem meets_of_reached {assumed : Event → Prop} {invariant : State → Prop}
    (preserved : ∀ state event next, invariant state → assumed event →
      step state event = some next → invariant next)
    (met : ∀ state event next, invariant state → assumed event →
      step state event = some next → allowed state event)
    {state final : State} {events : List Event} (start : invariant state)
    (assumedEvents : ∀ event ∈ events, assumed event)
    (reached : run step state events = some final) : Meets step allowed state events := by
  induction events generalizing state with
  | nil => trivial
  | cons event rest ih =>
      obtain ⟨next, stepped, reached⟩ := run_cons_iff.mp reached
      obtain ⟨first, later⟩ := List.forall_mem_cons.mp assumedEvents
      refine ⟨met state event next start first stepped, fun other taken => ?_⟩
      obtain rfl : next = other := Option.some.inj (stepped.symm.trans taken)
      exact ih (preserved state event next start first stepped) later reached

/-- Allowed steps keep an invariant that makes states good, and a step to a good state was
allowed: then the runs that reach good states only are the allowed ones. -/
theorem good_iff_meets {assumed : State → Event → Prop} {invariant good : State → Prop}
    (preserved : ∀ state event next, invariant state → assumed state event → allowed state event →
      step state event = some next → invariant next)
    (sound : ∀ state, invariant state → good state)
    (complete : ∀ state event next, invariant state → assumed state event →
      step state event = some next → good next → allowed state event)
    {state final : State} {events : List Event} (start : invariant state)
    (assumedRun : Meets step assumed state events) (reached : run step state events = some final) :
    (∀ before, before <+: events → ∀ middle, run step state before = some middle → good middle) ↔
      Meets step allowed state events := by
  constructor
  · intro goods
    induction events generalizing state with
    | nil => trivial
    | cons event rest ih =>
        obtain ⟨next, stepped, reached⟩ := run_cons_iff.mp reached
        obtain ⟨first, later⟩ := assumedRun
        have goodNext : good next :=
          goods [event] (by simp) next (run_cons_iff.mpr ⟨next, stepped, rfl⟩)
        have allowedFirst := complete state event next start first stepped goodNext
        refine ⟨allowedFirst, fun other taken => ?_⟩
        obtain rfl : next = other := Option.some.inj (stepped.symm.trans taken)
        refine ih (preserved state event next start first allowedFirst stepped) (later next stepped)
          reached fun before front middle ran => ?_
        exact goods (event :: before) (List.cons_prefix_cons.mpr ⟨rfl, front⟩) middle
          (run_cons_iff.mpr ⟨next, stepped, ran⟩)
  · rintro allowedRun before ⟨rest, rfl⟩ middle ran
    have both := ((meets_append_iff ran).mp (meets_and_iff.mpr ⟨assumedRun, allowedRun⟩)).1
    exact sound middle (run_invariant
      (fun state event next kept both stepped => preserved state event next kept both.1 both.2 stepped)
      start both ran)

end SqliteHeap.Transition
