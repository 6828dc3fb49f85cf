import Mathlib.Data.List.Perm.Basic
import SqliteHeap.Lib.Pull
import SqliteHeap.Lib.Transition

/-! Pull iterators called in any order, each until it returns none. -/

set_option autoImplicit false

namespace SqliteHeap.Pull

universe u v
variable {State : Type u} {Item : Type v}

/-- An iterator and whether it has returned none. -/
structure Source (State : Type u) where
  state : State
  ended : Bool

/-- The iterators and what they returned together, in the order of the calls. -/
structure Pool (State : Type u) (Item : Type v) where
  sources : List (Source State)
  returned : List Item

namespace Pool

def start (states : List State) : Pool State Item := ⟨states.map fun state => ⟨state, false⟩, []⟩

/-- Call one of the iterators that have not ended. -/
def pull (next : State → Option Item × State) (pool : Pool State Item) (index : Nat) :
    Option (Pool State Item) :=
  match pool.sources[index]? with
  | none | some ⟨_, true⟩ => none
  | some ⟨state, false⟩ =>
      match next state with
      | (none, after) => some ⟨pool.sources.set index ⟨after, true⟩, pool.returned⟩
      | (some item, after) => some ⟨pool.sources.set index ⟨after, false⟩, pool.returned ++ [item]⟩

def run (next : State → Option Item × State) : Pool State Item → List Nat → Option (Pool State Item) :=
  Transition.run (pull next)

def Done (pool : Pool State Item) : Prop := ∀ source ∈ pool.sources, source.ended = true

instance (pool : Pool State Item) : Decidable pool.Done := inferInstanceAs (Decidable (∀ _ ∈ _, _))

/-- What a source has left to return. -/
def left (remaining : State → List Item) (source : Source State) : List Item :=
  if source.ended then [] else remaining source.state

theorem flatMap_set_perm {α : Type u} {β : Type v} {items : List α} {index : Nat} {item : α}
    (found : items[index]? = some item) (f : α → List β) :
    ∃ rest, (items.flatMap f).Perm (f item ++ rest) ∧
      ∀ other, ((items.set index other).flatMap f).Perm (f other ++ rest) := by
  induction items generalizing index with
  | nil => simp at found
  | cons first items ih =>
      cases index with
      | zero =>
          obtain rfl : first = item := by simpa using found
          exact ⟨items.flatMap f, .refl _, fun other => .refl _⟩
      | succ index =>
          obtain ⟨rest, before, after⟩ := ih (by simpa using found)
          have swap (other : α) : (f first ++ (f other ++ rest)).Perm (f other ++ (f first ++ rest)) := by
            rw [← List.append_assoc, ← List.append_assoc]
            exact List.perm_append_comm.append_right rest
          refine ⟨f first ++ rest, ?_, fun other => ?_⟩
          · exact (before.append_left (f first)).trans (swap item)
          · exact ((after other).append_left (f first)).trans (swap other)

variable {next : State → Option Item × State} {remaining : State → List Item}
  {pool after : Pool State Item}

/-- A call returns the first item that its iterator has left, or ends it. -/
theorem pull_spec (spec : Remaining next remaining) {index : Nat}
    (pulled : pull next pool index = some after) :
    (after.returned ++ after.sources.flatMap (left remaining)).Perm
      (pool.returned ++ pool.sources.flatMap (left remaining)) := by
  unfold pull at pulled
  split at pulled
  · cases pulled
  · cases pulled
  · next state found =>
      obtain ⟨rest, before, later⟩ := flatMap_set_perm found (left remaining)
      have step := spec state
      cases stepped : next state with
      | mk first following =>
          simp only [stepped] at pulled step
          cases first with
          | none =>
              cases pulled
              have nothing : left remaining ⟨state, false⟩ = [] := step
              rw [nothing] at before
              exact ((later ⟨following, true⟩).trans before.symm).append_left _
          | some item =>
              cases pulled
              have first : left remaining ⟨state, false⟩ =
                item :: left remaining ⟨following, false⟩ := step
              rw [first] at before
              rw [List.append_assoc]
              exact (((later ⟨following, false⟩).append_left [item]).trans before.symm).append_left _

theorem run_perm (spec : Remaining next remaining) {calls : List Nat}
    (reached : run next pool calls = some after) :
    (after.returned ++ after.sources.flatMap (left remaining)).Perm
      (pool.returned ++ pool.sources.flatMap (left remaining)) := by
  induction calls generalizing pool with
  | nil =>
      cases reached
      exact .refl _
  | cons index calls ih =>
      obtain ⟨middle, pulled, reached⟩ := Transition.run_cons_iff.mp reached
      exact (ih reached).trans (pull_spec spec pulled)

/-- Iterators of several kinds, each beside its kind. -/
def ofKind {Kind : Type*} (next : Kind → State → Option Item × State) (source : Kind × State) :
    Option Item × (Kind × State) :=
  let (found, after) := next source.1 source.2
  (found, (source.1, after))

theorem ofKind_remaining {Kind : Type*} {next : Kind → State → Option Item × State}
    {remaining : Kind → State → List Item} (spec : ∀ kind, Remaining (next kind) (remaining kind)) :
    Remaining (ofKind next) fun source => remaining source.1 source.2 := by
  rintro ⟨kind, state⟩
  have step := spec kind state
  unfold ofKind
  cases stepped : next kind state with
  | mk found after =>
      simp only [stepped] at step ⊢
      cases found with
      | none => exact step
      | some item => exact step

/-- When all iterators have ended, they have returned everything that they had at the
start, in some order. -/
theorem returned_perm (spec : Remaining next remaining) {states : List State} {calls : List Nat}
    (reached : run next (start states) calls = some after) (done : Done after) :
    after.returned.Perm (states.flatMap remaining) := by
  have ended : after.sources.flatMap (left remaining) = [] := by
    refine List.flatMap_eq_nil_iff.mpr fun source member => ?_
    simp [left, done source member]
  have same := run_perm spec reached
  rw [ended, List.append_nil] at same
  refine same.trans (.of_eq ?_)
  simp [start, List.flatMap_map, left]

theorem replicate_eq_nil_iff (remaining : State → List Item) (count : Nat) (state : State) :
    (List.replicate count state).flatMap remaining = [] ↔ count = 0 ∨ remaining state = [] := by
  rw [List.flatMap_eq_nil_iff]
  cases count <;> simp

theorem append_perm_self_iff {items rest : List Item} : (items ++ rest).Perm items ↔ rest = [] := by
  constructor
  · intro same
    simpa using same.length_eq
  · rintro rfl
    rw [List.append_nil]

/-- Copies of an iterator together return distinct items only if there is one that returns
them, or there is nothing to return. -/
theorem replicate_perm_iff {count : Nat} {state : State} {items : List Item} (distinct : items.Nodup) :
    ((List.replicate count state).flatMap remaining).Perm items ↔
      count = 1 ∧ (remaining state).Perm items ∨ items = [] ∧ (count = 0 ∨ remaining state = []) := by
  match count with
  | 0 => simp
  | 1 =>
      have single : (List.replicate 1 state).flatMap remaining = remaining state := by simp
      rw [single]
      constructor
      · exact fun same => .inl ⟨rfl, same⟩
      · rintro (⟨_, same⟩ | ⟨rfl, none⟩)
        · exact same
        · rw [none.resolve_left Nat.one_ne_zero]
  | count + 2 =>
      constructor
      · intro same
        have twice := same.nodup_iff.mpr distinct
        rw [List.replicate_succ, List.replicate_succ, List.flatMap_cons, List.flatMap_cons] at twice
        have none : remaining state = [] := by
          refine List.eq_nil_iff_forall_not_mem.mpr fun item member => ?_
          exact (List.nodup_append.mp twice).2.2 item member item (List.mem_append_left _ member) rfl
        rw [(replicate_eq_nil_iff _ _ _).mpr (.inr none)] at same
        exact .inr ⟨List.nil_perm.mp same, .inr none⟩
      · rintro (⟨one, _⟩ | ⟨rfl, none⟩)
        · omega
        · simp [none.resolve_left (Nat.succ_ne_zero _)]

/-- The calls that a source still takes. -/
def pending (remaining : State → List Item) (source : Source State) : List Unit :=
  if source.ended then [] else List.replicate ((remaining source.state).length + 1) ()

theorem pull_enabled (spec : Remaining next remaining) {source : Source State}
    (member : source ∈ pool.sources) (going : source.ended = false) :
    ∃ index after, pull next pool index = some after ∧
      (after.sources.flatMap (pending remaining)).length <
        (pool.sources.flatMap (pending remaining)).length := by
  obtain ⟨index, found⟩ := List.mem_iff_getElem?.mp member
  obtain ⟨state, ended⟩ := source
  obtain rfl : ended = false := going
  obtain ⟨rest, before, later⟩ := flatMap_set_perm found (pending remaining)
  have step := spec state
  have start := before.length_eq
  cases stepped : next state with
  | mk first following =>
      simp only [stepped] at step
      cases first with
      | none =>
          refine ⟨index, ⟨pool.sources.set index ⟨following, true⟩, pool.returned⟩,
            by simp [pull, found, stepped], ?_⟩
          have same := (later ⟨following, true⟩).length_eq
          simp only [pending, step, Bool.false_eq_true, ↓reduceIte, List.length_append,
            List.length_replicate, List.length_nil] at start same ⊢
          omega
      | some item =>
          refine ⟨index, ⟨pool.sources.set index ⟨following, false⟩, pool.returned ++ [item]⟩,
            by simp [pull, found, stepped], ?_⟩
          have same := (later ⟨following, false⟩).length_eq
          simp only [pending, step, Bool.false_eq_true, ↓reduceIte, List.length_append,
            List.length_replicate, List.length_cons] at start same ⊢
          omega

/-- Whatever has been called, the calls can go on until all iterators have ended. -/
theorem exists_done (spec : Remaining next remaining) (pool : Pool State Item) :
    ∃ calls after, run next pool calls = some after ∧ Done after := by
  induction count : (pool.sources.flatMap (pending remaining)).length using Nat.strongRecOn
    generalizing pool with
  | ind count ih =>
      by_cases done : Done pool
      · exact ⟨[], pool, rfl, done⟩
      · unfold Done at done
        push Not at done
        obtain ⟨source, member, going⟩ := done
        obtain ⟨index, middle, pulled, fewer⟩ := pull_enabled spec member (by simpa using going)
        obtain ⟨calls, after, reached, ended⟩ := ih _ (count ▸ fewer) middle rfl
        exact ⟨index :: calls, after, Transition.run_cons_iff.mpr ⟨middle, pulled, reached⟩, ended⟩

end Pool

end SqliteHeap.Pull
