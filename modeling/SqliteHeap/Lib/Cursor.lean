import Mathlib.Data.List.Nodup
import Mathlib.Tactic.Common

/-! Cursors that move in both directions. A cursor on a list stands on one of its items,
before the first one or after the last one. It is compared with one that knows only the
forward direction. -/

set_option autoImplicit false

namespace SqliteHeap.Cursor

universe u v
variable {State : Type u} {Item : Type v}

inductive Direction where
  | forward
  | backward
deriving DecidableEq

/-- What requests return, one after the other. -/
def results (next : Direction → State → Option Item × State) :
    State → List Direction → List (Option Item)
  | _, [] => []
  | state, request :: rest => (next request state).1 :: results next (next request state).2 rest

def finish (next : Direction → State → Option Item × State) (state : State)
    (requests : List Direction) : State :=
  requests.foldl (fun state request => (next request state).2) state

/-- The item of a position. The first one has position 1. -/
def itemAt (items : List Item) : Nat → Option Item
  | 0 => none
  | pos + 1 => items[pos]?

/-- A request moves by one position, but not past the ends. -/
def move (items : List Item) (request : Direction) (pos : Nat) : Option Item × Nat :=
  let after := match request with
    | .forward => min (pos + 1) (items.length + 1)
    | .backward => pos - 1
  (itemAt items after, after)

/-- Whatever is requested, the next item is taken. -/
def takeNext (_ : Direction) (items : List Item) : Option Item × List Item := (items.head?, items.tail)

section Runs

variable {next : Direction → State → Option Item × State}

theorem results_append (state : State) (first second : List Direction) :
    results next state (first ++ second) =
      results next state first ++ results next (finish next state first) second := by
  induction first generalizing state with
  | nil => rfl
  | cons request first ih => simp [results, finish, ih]

@[simp] theorem length_results (state : State) (requests : List Direction) :
    (results next state requests).length = requests.length := by
  induction requests generalizing state with
  | nil => rfl
  | cons request requests ih => simp [results, ih]

/-- A state that has some items left, of which every request takes the next one. -/
theorem results_eq_takeNext (Left : State → List Item → Prop)
    (step : ∀ {state items} request, Left state items →
      (next request state).1 = items.head? ∧ Left (next request state).2 items.tail)
    {state : State} {items : List Item} (left : Left state items) (requests : List Direction) :
    results next state requests = results takeNext items requests := by
  induction requests generalizing state items with
  | nil => rfl
  | cons request requests ih =>
      obtain ⟨found, later⟩ := step request left
      rw [results, results, found, ih later]
      rfl

/-- Requests that each find a result of another cursor find what that one finds. -/
theorem results_map_some {outer : Direction → State → Option (Option Item) × State}
    (Kept : State → Prop)
    (step : ∀ {state} request, Kept state →
      outer request state = (some (next request state).1, (next request state).2) ∧
        Kept (next request state).2)
    {state : State} (kept : Kept state) (requests : List Direction) :
    results outer state requests = (results next state requests).map some := by
  induction requests generalizing state with
  | nil => rfl
  | cons request requests ih =>
      obtain ⟨found, later⟩ := step request kept
      rw [results, results, found, ih later]
      rfl

theorem results_stuck {state : State} (stuck : ∀ request, next request state = (none, state))
    (requests : List Direction) : results next state requests = requests.map fun _ => none := by
  induction requests with
  | nil => rfl
  | cons request requests ih => rw [results, stuck request, ih, List.map_cons]

end Runs

/-- Requests are forward ones, up to a first backward one. -/
theorem exists_forwards (requests : List Direction) :
    (∀ request ∈ requests, request = .forward) ∨
      ∃ count rest, requests = List.replicate count .forward ++ .backward :: rest := by
  induction requests with
  | nil => simp
  | cons request requests ih =>
      cases request with
      | backward => exact .inr ⟨0, requests, rfl⟩
      | forward =>
          rcases ih with forwards | ⟨count, rest, rfl⟩
          · exact .inl (by simpa using forwards)
          · exact .inr ⟨count + 1, rest, rfl⟩

section Forwards

variable {items returned : List Item}

theorem finish_move {pos count : Nat} (inside : pos ≤ items.length + 1) :
    finish (move items) pos (List.replicate count .forward) =
      min (pos + count) (items.length + 1) := by
  induction count generalizing pos with
  | zero => simp [finish, inside]
  | succ count ih =>
      have step := ih (Nat.min_le_right (pos + 1) (items.length + 1))
      simp only [finish, List.replicate_succ, List.foldl_cons, move] at step ⊢
      rw [step]
      omega

theorem finish_takeNext {count : Nat} :
    finish takeNext items (List.replicate count .forward) = items.drop count := by
  induction count generalizing items with
  | zero => rfl
  | succ count ih =>
      simp only [finish, List.replicate_succ, List.foldl_cons, takeNext] at ih ⊢
      rw [ih, List.drop_tail]

theorem results_move_forwards {pos count : Nat} (inside : pos ≤ items.length + 1) :
    results (move items) pos (List.replicate count .forward) =
      results takeNext (items.drop pos) (List.replicate count .forward) := by
  induction count generalizing pos with
  | zero => rfl
  | succ count ih =>
      simp only [List.replicate_succ, results, move, takeNext, List.tail_drop, List.head?_drop]
      rw [ih (Nat.min_le_right _ _)]
      rcases Nat.lt_or_eq_of_le inside with before | after
      · rw [Nat.min_eq_left (by omega)]
        rfl
      · subst after
        rw [Nat.min_eq_right (by omega), List.drop_of_length_le (by omega),
          List.drop_of_length_le (by omega)]
        simp [itemAt]

theorem results_takeNext_eq_iff {count : Nat} :
    results takeNext returned (List.replicate count .forward) =
        results takeNext items (List.replicate count .forward) ↔
      returned.take count = items.take count := by
  induction count generalizing returned items with
  | zero => simp [results]
  | succ count ih =>
      simp only [List.replicate_succ, results, takeNext, List.cons.injEq, ih]
      cases returned <;> cases items <;> simp

theorem results_move_nil (pos : Nat) (requests : List Direction) :
    results (move ([] : List Item)) pos requests = results takeNext [] requests := by
  induction requests generalizing pos with
  | nil => rfl
  | cons request requests ih =>
      have none (pos : Nat) : itemAt ([] : List Item) pos = none := by cases pos <;> rfl
      simp [results, move, takeNext, ih, none]

/-- Before the first item a cursor finds nothing if there is none or nothing is
requested forward. -/
theorem results_nil_eq_move_iff {requests : List Direction} :
    results takeNext [] requests = results (move items) 0 requests ↔
      items = [] ∨ ∀ request ∈ requests, request = .backward := by
  induction requests with
  | nil => simp [results]
  | cons request requests ih =>
      cases request with
      | backward => simpa [results, move, takeNext, itemAt] using ih
      | forward =>
          cases items with
          | nil => simp [results_move_nil]
          | cons item items => simp [results, move, takeNext, itemAt]

end Forwards

def forwards (requests : List Direction) : List Direction := List.replicate requests.length .forward

theorem results_takeNext_forwards (items : List Item) (requests : List Direction) :
    results takeNext items requests = results (move items) 0 (forwards requests) := by
  rw [forwards, results_move_forwards (Nat.zero_le _), List.drop_zero]
  induction requests generalizing items with
  | nil => rfl
  | cons request requests ih => simp [results, takeNext, List.replicate_succ, ih]

/-- The requests for which taking the items that are returned is moving over the items. -/
def Agree (returned items : List Item) (requests : List Direction) : Prop :=
  ((∀ request ∈ requests, request = .forward) ∧
      returned.take requests.length = items.take requests.length) ∨
    (returned = [] ∧ (items = [] ∨ ∀ request ∈ requests, request = .backward)) ∨
    ∃ item rest, returned = [item] ∧ items.head? = some item ∧ requests = .forward :: rest ∧
      ∀ request ∈ rest, request = .backward

section Agree

variable {items returned : List Item} {requests : List Direction}

theorem results_eq_of_agree (agree : Agree returned items requests) :
    results takeNext returned requests = results (move items) 0 requests := by
  rcases agree with ⟨forwards, same⟩ | ⟨rfl, exhausted⟩ | ⟨item, rest, rfl, first, rfl, backwards⟩
  · rw [List.eq_replicate_of_mem forwards, results_move_forwards (Nat.zero_le _)]
    exact results_takeNext_eq_iff.mpr same
  · exact results_nil_eq_move_iff.mpr exhausted
  · have head : items[0]? = some item := by rw [← List.head?_eq_getElem?, first]
    cases rest with
    | nil => simp [results, takeNext, move, itemAt, head]
    | cons request rest =>
        simp only [List.forall_mem_cons] at backwards
        obtain ⟨rfl, backwards⟩ := backwards
        have later : results takeNext [] rest = results (move items) 0 rest :=
          results_nil_eq_move_iff.mpr (.inr backwards)
        simp [results, takeNext, move, itemAt, head] at later ⊢
        exact later

/-- After forward requests that agree, a backward one finds an item a second time, unless
both have come to an end. -/
theorem ended_of_backward {count : Nat} (nodup : returned.Nodup)
    (taken : returned.take count = items.take count)
    (found : returned[count]? = itemAt items (min count (items.length + 1) - 1)) :
    returned.length ≤ count ∧ min count (items.length + 1) - 1 = 0 := by
  cases pos : min count (items.length + 1) - 1 with
  | zero =>
      rw [pos, itemAt] at found
      exact ⟨List.getElem?_eq_none_iff.mp found, rfl⟩
  | succ index =>
      exfalso
      have inside : index < items.length := by omega
      have again : returned[index]? = returned[count]? := by
        calc returned[index]? = (returned.take count)[index]? :=
              (List.getElem?_take_of_lt (by omega)).symm
          _ = (items.take count)[index]? := by rw [taken]
          _ = items[index]? := List.getElem?_take_of_lt (by omega)
          _ = returned[count]? := by rw [found, pos, itemAt]
      rw [pos, itemAt, List.getElem?_eq_getElem inside] at found
      obtain ⟨bound, _⟩ := List.getElem?_eq_some_iff.mp found
      have position := (List.getElem?_inj (by omega) nodup).mp again
      omega

theorem agree_of_results_eq (nodup : returned.Nodup)
    (same : results takeNext returned requests = results (move items) 0 requests) :
    Agree returned items requests := by
  rcases exists_forwards requests with forwards | ⟨count, rest, rfl⟩
  · rw [List.eq_replicate_of_mem forwards, results_move_forwards (Nat.zero_le _)] at same
    exact .inl ⟨forwards, results_takeNext_eq_iff.mp same⟩
  · rw [results_append, results_append, finish_takeNext, finish_move (Nat.zero_le _),
      results_move_forwards (Nat.zero_le _)] at same
    obtain ⟨before, after⟩ := List.append_inj same (by simp)
    have taken : returned.take count = items.take count := results_takeNext_eq_iff.mp before
    simp only [results, takeNext, move, List.cons.injEq, Nat.zero_add] at after
    obtain ⟨found, later⟩ := after
    rw [List.head?_drop] at found
    obtain ⟨ended, start⟩ := ended_of_backward nodup taken found
    rw [List.drop_of_length_le ended, start] at later
    have exhausted := results_nil_eq_move_iff.mp later
    cases count with
    | zero =>
        have empty : returned = [] := List.length_eq_zero_iff.mp (Nat.le_zero.mp ended)
        exact .inr (.inl ⟨empty, by simpa using exhausted⟩)
    | succ count =>
        rw [List.take_of_length_le ended] at taken
        cases items with
        | nil => exact .inr (.inl ⟨by simpa using taken, .inl rfl⟩)
        | cons item items =>
            obtain rfl : count = 0 := by
              simp only [List.length_cons] at start
              omega
            have backwards := exhausted.resolve_left (List.cons_ne_nil _ _)
            exact .inr (.inr ⟨item, _, by simpa using taken, rfl, rfl, by simpa using backwards⟩)

/-- Taking the next item for every request is moving over the items, for these requests. -/
theorem results_eq_iff (nodup : returned.Nodup) :
    results takeNext returned requests = results (move items) 0 requests ↔
      Agree returned items requests :=
  ⟨agree_of_results_eq nodup, results_eq_of_agree⟩

end Agree

end SqliteHeap.Cursor
