import Mathlib.Tactic.Common

/-! Computations on a state that may fail. A failure leaves the state as it found it, and
what follows it is not run. -/

set_option autoImplicit false

namespace SqliteHeap

universe u v w

/-- No value is a failure. -/
def Failing (State : Type u) (Value : Type v) := State → Option Value × State

namespace Failing

variable {State : Type u} {Other : Type u} {Item : Type v} {Value : Type v} {Result : Type v}

def andThen (first : Failing State Item) (next : Item → Failing State Value) : Failing State Value :=
  fun state =>
    match first state with
    | (none, after) => (none, after)
    | (some value, after) => next value after

instance : Monad (Failing State) where
  pure value := fun state => (some value, state)
  bind := andThen

instance : LawfulMonad (Failing State) :=
  LawfulMonad.mk' (Failing State)
    (fun computation => by
      funext state
      change andThen computation _ state = computation state
      unfold andThen
      rcases computation state with ⟨_ | value, after⟩ <;> rfl)
    (fun _ _ => rfl)
    (fun computation first second => by
      funext state
      change andThen (andThen computation first) second state =
        andThen computation (fun value => andThen (first value) second) state
      unfold andThen
      rcases computation state with ⟨_ | value, after⟩ <;> rfl)

def fail : Failing State Value := fun state => (none, state)

def get : Failing State State := fun state => (some state, state)

def read (value : State → Value) : Failing State Value := fun state => (some (value state), state)

def modify (change : State → State) : Failing State PUnit := fun state => (some ⟨⟩, change state)

/-- The loop that collects the values of its body. -/
def each (body : Item → Failing State Value) : List Item → Failing State (List Value)
  | [] => pure []
  | item :: rest => do
      let value ← body item
      let values ← each body rest
      pure (value :: values)

variable {state : State} {other : Other}

@[simp] theorem pure_apply (value : Value) : (pure value : Failing State Value) state = (some value, state) :=
  rfl

@[simp] theorem fail_apply : (fail : Failing State Value) state = (none, state) := rfl

@[simp] theorem get_apply : (get : Failing State State) state = (some state, state) := rfl

@[simp] theorem read_apply (value : State → Value) : read value state = (some (value state), state) := rfl

@[simp] theorem modify_apply (change : State → State) : modify change state = (some ⟨⟩, change state) :=
  rfl

theorem bind_apply (first : Failing State Item) (next : Item → Failing State Value) (state : State) :
    (first >>= next) state =
      match first state with
      | (none, after) => (none, after)
      | (some value, after) => next value after := rfl

theorem bind_of_some {first : Failing State Item} {next : Item → Failing State Value} {value : Item}
    {after : State} (ran : first state = (some value, after)) :
    (first >>= next) state = next value after := by
  change (match first state with | (none, after) => _ | (some value, after) => _) = _
  rw [ran]

theorem bind_of_none {first : Failing State Item} {next : Item → Failing State Value} {after : State}
    (ran : first state = (none, after)) : (first >>= next) state = (none, after) := by
  change andThen first next state = (none, after)
  rw [andThen, ran]

/-- Two outcomes with the same value. Their states are related by `Going` after a success
and by `Failed` after a failure. -/
inductive Alike (Going Failed : State → Other → Prop) :
    Option Value × State → Option Value × Other → Prop where
  | some {value : Value} {state : State} {other : Other} (going : Going state other) :
      Alike Going Failed (some value, state) (some value, other)
  | none {state : State} {other : Other} (failed : Failed state other) :
      Alike Going Failed (none, state) (none, other)

theorem each_cons (body : Item → Failing State Value) (item : Item) (rest : List Item) :
    each body (item :: rest) = body item >>= fun value => each body rest >>= fun values =>
      pure (value :: values) := rfl

/-- A loop may collect first and combine its items with the values afterwards. -/
theorem each_zipWith {Source : Type v} (input : Source → Item) (body : Item → Failing State Value)
    (combine : Source → Value → Result) (sources : List Source) :
    (do
      let values ← each body (sources.map input)
      pure (List.zipWith combine sources values)) =
      each (fun source => do
        let value ← body (input source)
        pure (combine source value)) sources := by
  induction sources with
  | nil => rfl
  | cons source rest ih =>
      rw [each_cons, ← ih]
      simp [each_cons]

variable {Going Going' Failed : State → Other → Prop}

theorem Alike.mono {Failed' : State → Other → Prop} {outcome : Option Value × State}
    {outcome' : Option Value × Other} (alike : Alike Going Failed outcome outcome')
    (going : ∀ {state other}, Going state other → Going' state other)
    (failed : ∀ {state other}, Failed state other → Failed' state other) :
    Alike Going' Failed' outcome outcome' := by
  cases alike with
  | some goes => exact .some (going goes)
  | none fails => exact .none (failed fails)

theorem Alike.bind {first : Failing State Item} {first' : Failing Other Item}
    {next : Item → Failing State Value} {next' : Item → Failing Other Value}
    (firsts : Alike Going Failed (first state) (first' other))
    (nexts : ∀ value {state other}, Going state other →
      Alike Going' Failed (next value state) (next' value other)) :
    Alike Going' Failed ((first >>= next) state) ((first' >>= next') other) := by
  cases ran : first state with
  | mk found after =>
      cases ran' : first' other with
      | mk found' after' =>
          rw [ran, ran'] at firsts
          cases firsts with
          | some going =>
              rw [bind_of_some ran, bind_of_some ran']
              exact nexts _ going
          | none failed =>
              rw [bind_of_none ran, bind_of_none ran']
              exact .none failed

/-- Loops are alike if their bodies are, from related states to related states. -/
theorem Alike.each {body : Item → Failing State Value} {body' : Item → Failing Other Value}
    (bodies : ∀ item {state other}, Going state other →
      Alike Going Failed (body item state) (body' item other))
    (items : List Item) (going : Going state other) :
    Alike Going Failed (each body items state) (Failing.each body' items other) := by
  induction items generalizing state other with
  | nil => exact .some going
  | cons item rest ih =>
      exact (bodies item going).bind fun value _ _ going =>
        (ih going).bind fun values _ _ going => .some going

end Failing

end SqliteHeap
