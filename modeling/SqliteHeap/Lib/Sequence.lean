import Mathlib.Data.List.Nodup
import Mathlib.Data.List.Range
import Mathlib.Tactic.Common

/-! A sequence whose numbers are drawn in transactions. A rollback gives back the numbers drawn
since the last commit, and later draws give them out again. -/

set_option autoImplicit false

namespace SqliteHeap

structure Sequence where
  /-- How many numbers were drawn and committed. -/
  kept : Nat
  /-- How many were drawn since. -/
  drawn : Nat

namespace Sequence

inductive Use where
  | draw | commit | rollback
deriving DecidableEq

variable (sequence : Sequence)

def next : Nat := sequence.kept + sequence.drawn + 1

def apply : Use → Sequence
  | .draw => ⟨sequence.kept, sequence.drawn + 1⟩
  | .commit => ⟨sequence.kept + sequence.drawn, 0⟩
  | .rollback => ⟨sequence.kept, 0⟩

def given : Use → List Nat
  | .draw => [sequence.next]
  | .commit | .rollback => []

/-- The numbers that draws give out. -/
def numbers : Sequence → List Use → List Nat
  | _, [] => []
  | sequence, use :: rest => sequence.given use ++ numbers (sequence.apply use) rest

/-- Before the next commit there is a rollback, and after it a draw. -/
def Redraws (uses : List Use) : Prop :=
  ∃ before after, uses = before ++ .rollback :: after ∧ .commit ∉ before ∧ .draw ∈ after

/-- Once a draw was rolled back there is no other one. -/
def Fresh (uses : List Use) : Prop :=
  ∀ before after, uses = before ++ .draw :: after → ¬ Redraws after

variable {sequence} {use : Use} {uses : List Use}

theorem redraws_draw : Redraws (.draw :: uses) ↔ Redraws uses := by
  constructor
  · rintro ⟨_ | ⟨first, before⟩, after, split, uncommitted, draws⟩
    · cases split
    · obtain ⟨rfl, rfl⟩ := List.cons.inj split
      exact ⟨before, after, rfl, fun member => uncommitted (List.mem_cons_of_mem _ member), draws⟩
  · rintro ⟨before, after, rfl, uncommitted, draws⟩
    exact ⟨.draw :: before, after, rfl, by simp [uncommitted], draws⟩

theorem not_redraws_commit : ¬ Redraws (.commit :: uses) := by
  rintro ⟨_ | ⟨first, before⟩, after, split, uncommitted, _⟩
  · cases split
  · obtain ⟨rfl, _⟩ := List.cons.inj split
    exact uncommitted List.mem_cons_self

theorem redraws_rollback : Redraws (.rollback :: uses) ↔ .draw ∈ uses := by
  constructor
  · rintro ⟨_ | ⟨first, before⟩, after, split, _, draws⟩
    · obtain ⟨_, rfl⟩ := List.cons.inj split
      exact draws
    · obtain ⟨_, rfl⟩ := List.cons.inj split
      exact List.mem_append_right _ (List.mem_cons_of_mem _ draws)
  · exact fun draws => ⟨[], uses, rfl, List.not_mem_nil, draws⟩

theorem fresh_cons : Fresh (use :: uses) ↔ (use = .draw → ¬ Redraws uses) ∧ Fresh uses := by
  constructor
  · intro fresh
    refine ⟨?_, fun before after split => fresh (use :: before) after (congrArg _ split)⟩
    rintro rfl
    exact fresh [] uses rfl
  · rintro ⟨first, later⟩ (_ | ⟨other, before⟩) after split
    · obtain ⟨same, rfl⟩ := List.cons.inj split
      exact first same
    · exact later before after (List.cons.inj split).2

theorem numbers_of_no_draw (none : .draw ∉ uses) : sequence.numbers uses = [] := by
  induction uses generalizing sequence with
  | nil => rfl
  | cons use rest ih =>
      obtain ⟨other, none⟩ := not_or.mp (List.mem_cons.not.mp none)
      rw [numbers, ih none, List.append_nil]
      cases use with
      | draw => exact absurd rfl other
      | commit | rollback => rfl

/-- As long as nothing is given back the numbers follow each other. -/
theorem numbers_of_fresh (fresh : Fresh uses) (open' : 0 < sequence.drawn → ¬ Redraws uses) :
    sequence.numbers uses = List.range' sequence.next (uses.count .draw) := by
  induction uses generalizing sequence with
  | nil => rfl
  | cons use rest ih =>
      obtain ⟨first, later⟩ := fresh_cons.mp fresh
      cases use with
      | draw =>
          have follow : (sequence.apply .draw).numbers rest = _ := ih later fun _ => first rfl
          rw [numbers, follow, List.count_cons_self, List.range'_succ]
          rfl
      | commit =>
          have follow : (sequence.apply .commit).numbers rest = _ :=
            ih later fun none => absurd none (Nat.lt_irrefl 0)
          exact follow
      | rollback =>
          rw [List.count_cons_of_ne (by decide)]
          cases drawn : sequence.drawn with
          | zero =>
              have same : sequence.apply .rollback = sequence := by
                obtain ⟨kept, pending⟩ := sequence
                cases drawn
                rfl
              rw [numbers, same]
              exact ih later fun some => absurd drawn (Nat.ne_of_gt some)
          | succ count =>
              have none : .draw ∉ rest :=
                redraws_rollback.not.mp (open' (drawn ▸ Nat.succ_pos count))
              rw [numbers, numbers_of_no_draw none, List.count_eq_zero_of_not_mem none]
              rfl

/-- With nothing open a draw gives the number after the committed ones, whatever is before it. -/
theorem first_mem_numbers (draws : .draw ∈ uses) (kept : Nat) : kept + 1 ∈ numbers ⟨kept, 0⟩ uses := by
  induction uses with
  | nil => cases draws
  | cons use rest ih =>
      cases use with
      | draw => exact List.mem_cons_self
      | commit | rollback => exact ih (by simpa using draws)

/-- What was drawn first since the last commit is given out again. -/
theorem first_mem_of_redraws (redraws : Redraws uses) : sequence.kept + 1 ∈ sequence.numbers uses := by
  induction uses generalizing sequence with
  | nil =>
      obtain ⟨before, after, split, _⟩ := redraws
      simp at split
  | cons use rest ih =>
      cases use with
      | draw =>
          have again : (sequence.apply .draw).kept + 1 ∈ (sequence.apply .draw).numbers rest :=
            ih (redraws_draw.mp redraws)
          exact List.mem_append_right _ again
      | commit => exact absurd redraws not_redraws_commit
      | rollback => exact first_mem_numbers (redraws_rollback.mp redraws) sequence.kept

theorem not_fresh (stale : ¬ Fresh uses) :
    ¬ (sequence.numbers uses).Nodup ∨ 0 < sequence.drawn ∧ sequence.kept + 1 ∈ sequence.numbers uses := by
  induction uses generalizing sequence with
  | nil =>
      refine absurd (fun before after split => ?_) stale
      simp at split
  | cons use rest ih =>
      rw [fresh_cons, not_and_or] at stale
      cases use with
      | draw =>
          have again : ¬ ((sequence.apply .draw).numbers rest).Nodup ∨
              sequence.kept + 1 ∈ (sequence.apply .draw).numbers rest := by
            rcases stale with redraws | stale
            · exact .inr (first_mem_of_redraws (by simpa using redraws))
            · exact (ih stale).imp_right And.right
          rcases again with twice | again
          · exact .inl fun distinct => twice (List.nodup_cons.mp distinct).2
          · cases drawn : sequence.drawn with
            | zero =>
                have first : sequence.next = sequence.kept + 1 := by rw [next, drawn, Nat.add_zero]
                exact .inl fun distinct => (List.nodup_cons.mp distinct).1 (first ▸ again)
            | succ count => exact .inr ⟨Nat.succ_pos count, List.mem_append_right _ again⟩
      | commit | rollback =>
          refine .inl ?_
          rcases ih (stale.resolve_left (by simp)) with twice | ⟨none, _⟩
          · exact twice
          · exact absurd none (Nat.lt_irrefl 0)

/-- Numbers are given out twice if and only if a draw follows one that was rolled back. -/
theorem nodup_numbers_iff (kept : Nat) (uses : List Use) :
    (numbers ⟨kept, 0⟩ uses).Nodup ↔ Fresh uses := by
  constructor
  · intro distinct
    by_contra stale
    cases not_fresh stale with
    | inl twice => exact twice distinct
    | inr first => exact absurd first.1 (Nat.lt_irrefl 0)
  · intro fresh
    rw [numbers_of_fresh fresh fun none => absurd none (Nat.lt_irrefl 0)]
    exact List.nodup_range'

end Sequence

end SqliteHeap
