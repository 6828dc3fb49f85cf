import Mathlib.Data.List.TakeWhile
import Mathlib.Tactic.Common

/-! SQLite's transaction statements over contents of any type. A connection
holds at most one open transaction; inside it is a stack of named savepoints.
A statement that fails returns `none` and changes nothing. -/

set_option autoImplicit false

namespace SqliteHeap.SavepointStack

universe u v

structure Savepoint (Name : Type u) (Contents : Type v) where
  name : Name
  /-- Contents when the savepoint was set. -/
  contents : Contents
deriving DecidableEq

structure Txn (Name : Type u) (Contents : Type v) where
  /-- What the connection reads: the contents it started from and its writes. -/
  work : Contents
  /-- Innermost first. -/
  saves : List (Savepoint Name Contents)
  /-- Opened by BEGIN, as opposed to by an outermost SAVEPOINT. -/
  begun : Bool
deriving DecidableEq

/-- One connection and the committed contents of its file. -/
structure Db (Name : Type u) (Contents : Type v) where
  file : Contents
  txn : Option (Txn Name Contents)
deriving DecidableEq

variable {Name : Type u} {Contents : Type v}

namespace Db

/-- Contents that a statement of this connection reads. -/
def view (db : Db Name Contents) : Contents :=
  match db.txn with
  | none => db.file
  | some txn => txn.work

/-- `BEGIN` fails inside a transaction. -/
def begin (db : Db Name Contents) : Option (Db Name Contents) :=
  match db.txn with
  | none => some { db with txn := some ⟨db.file, [], true⟩ }
  | some _ => none

/-- `COMMIT` fails outside a transaction. -/
def commit (db : Db Name Contents) : Option (Db Name Contents) :=
  match db.txn with
  | none => none
  | some txn => some ⟨txn.work, none⟩

/-- `ROLLBACK` fails outside a transaction. -/
def rollback (db : Db Name Contents) : Option (Db Name Contents) :=
  match db.txn with
  | none => none
  | some _ => some { db with txn := none }

/-- SQLite gives the transaction up by itself, as it may when a statement fails. -/
def abandon (db : Db Name Contents) : Db Name Contents := { db with txn := none }

/-- A data statement; outside a transaction it commits by itself. -/
def write (change : Contents → Contents) (db : Db Name Contents) : Db Name Contents :=
  match db.txn with
  | none => { db with file := change db.file }
  | some txn => { db with txn := some { txn with work := change txn.work } }

@[simp] theorem view_write (change : Contents → Contents) (db : Db Name Contents) :
    (db.write change).view = change db.view := by
  unfold write view
  cases db.txn <;> rfl

@[simp] theorem write_write (first second : Contents → Contents) (db : Db Name Contents) :
    (db.write first).write second = db.write fun contents => second (first contents) := by
  unfold write
  cases db.txn <;> rfl

@[simp] theorem write_self (db : Db Name Contents) : (db.write fun contents => contents) = db := by
  obtain ⟨file, txn⟩ := db
  cases txn <;> rfl

/-- `SAVEPOINT name` opens a transaction when none is open. -/
def savepoint (name : Name) (db : Db Name Contents) : Db Name Contents :=
  match db.txn with
  | none => { db with txn := some ⟨db.file, [⟨name, db.file⟩], false⟩ }
  | some txn => { db with txn := some { txn with saves := ⟨name, txn.work⟩ :: txn.saves } }

variable [DecidableEq Name]

/-- The stack from the innermost savepoint of that name down. -/
def upTo (name : Name) (saves : List (Savepoint Name Contents)) : List (Savepoint Name Contents) :=
  saves.dropWhile fun save => save.name ≠ name

/-- `RELEASE SAVEPOINT name` forgets the savepoint and those above it. Releasing
the outermost savepoint of a transaction it opened commits. -/
def release (name : Name) (db : Db Name Contents) : Option (Db Name Contents) :=
  match db.txn with
  | none => none
  | some txn =>
      match upTo name txn.saves with
      | [] => none
      | _ :: below =>
          if below = [] ∧ txn.begun = false then some ⟨txn.work, none⟩
          else some { db with txn := some { txn with saves := below } }

/-- `ROLLBACK TO SAVEPOINT name` restores the contents and keeps the savepoint. -/
def rollbackTo (name : Name) (db : Db Name Contents) : Option (Db Name Contents) :=
  match db.txn with
  | none => none
  | some txn =>
      match upTo name txn.saves with
      | [] => none
      | save :: below =>
          some { db with txn := some { txn with work := save.contents, saves := save :: below } }

theorem upTo_eq_nil_iff {name : Name} {saves : List (Savepoint Name Contents)} :
    upTo name saves = [] ↔ ∀ save ∈ saves, save.name ≠ name := by
  simp [upTo, List.dropWhile_eq_nil_iff]

theorem mem_of_upTo {name : Name} {saves below : List (Savepoint Name Contents)}
    {save : Savepoint Name Contents} (found : upTo name saves = save :: below) :
    save ∈ saves ∧ ∀ other ∈ below, other ∈ saves := by
  have within : (save :: below).Sublist saves := by
    rw [← found]
    exact List.dropWhile_sublist _
  exact ⟨within.subset List.mem_cons_self,
    fun other member => within.subset (List.mem_cons_of_mem _ member)⟩

theorem upTo_append_cons {name : Name} {above below : List (Savepoint Name Contents)}
    {save : Savepoint Name Contents} (others : ∀ other ∈ above, other.name ≠ name)
    (named : save.name = name) : upTo name (above ++ save :: below) = save :: below := by
  induction above with
  | nil => simp [upTo, named]
  | cons other rest ih =>
      have skipped := others other List.mem_cons_self
      simpa [upTo, skipped] using ih fun later member => others later (List.mem_cons_of_mem _ member)

end Db

end SqliteHeap.SavepointStack

namespace SqliteHeap.SavepointStack

universe u v w

variable {Name : Type u} {Contents : Type v} {Value : Type w}

/-- A savepoint stack guards the remembered values of a nested undo. `names` are
the open starts and `values` what each of them remembered, innermost first.
`Kept value contents` says that contents still hold a value, `Vacant value` that
there is nothing to hold, and `Bare name` that a start may lack its savepoint. -/
inductive Guards (Kept : Value → Contents → Prop) (Vacant : Value → Prop) (Bare : Name → Prop) :
    List Name → List Value → List (Savepoint Name Contents) → Prop where
  | top {saves} : Guards Kept Vacant Bare [] [] saves
  | vacant {names values saves} (lengths : names.length = values.length)
      (empty : ∀ value ∈ values, Vacant value) : Guards Kept Vacant Bare names values saves
  | saved {name names value values above contents below}
      (others : ∀ save ∈ above, save.name ≠ name ∧ save.name ∉ names)
      (kept : Kept value contents) (outer : Guards Kept Vacant Bare names values below) :
      Guards Kept Vacant Bare (name :: names) (value :: values)
        (above ++ ⟨name, contents⟩ :: below)
  | absent {name names value values saves} (bare : Bare name)
      (missing : ∀ save ∈ saves, save.name ≠ name)
      (outer : Guards Kept Vacant Bare names values saves) :
      Guards Kept Vacant Bare (name :: names) (value :: values) saves

namespace Guards

variable {Kept : Value → Contents → Prop} {Vacant : Value → Prop} {Bare : Name → Prop}
variable {name : Name} {names : List Name} {value : Value} {values : List Value}
variable {saves : List (Savepoint Name Contents)}

theorem weaken (guarded : Guards Kept Vacant Bare names values saves)
    {above : List (Savepoint Name Contents)} (others : ∀ save ∈ above, save.name ∉ names) :
    Guards Kept Vacant Bare names values (above ++ saves) := by
  induction guarded with
  | top => exact .top
  | vacant lengths empty => exact .vacant lengths empty
  | @saved name names value values front contents below skipped kept outer _ =>
      rw [← List.append_assoc]
      refine .saved ?_ kept outer
      intro save member
      rcases List.mem_append.mp member with added | old
      · have foreign := others save added
        exact ⟨fun same => foreign (by simp [same]), fun inner => foreign (by simp [inner])⟩
      · exact skipped save old
  | @absent name names value values saves bare missing outer ih =>
      refine .absent bare ?_ (ih fun save member inner => others save member (by simp [inner]))
      intro save member
      rcases List.mem_append.mp member with added | old
      · exact fun same => others save added (by simp [same])
      · exact missing save old

theorem mono {Other : Name → Prop} (guarded : Guards Kept Vacant Bare names values saves)
    (bare : ∀ name ∈ names, Bare name → Other name) :
    Guards Kept Vacant Other names values saves := by
  induction guarded with
  | top => exact .top
  | vacant lengths empty => exact .vacant lengths empty
  | saved others kept _ ih =>
      exact .saved others kept (ih fun name member => bare name (List.mem_cons_of_mem _ member))
  | absent none missing _ ih =>
      exact .absent (bare _ List.mem_cons_self none) missing
        (ih fun name member => bare name (List.mem_cons_of_mem _ member))

/-- Contents replaced under the savepoints, which keep their names. -/
theorem map {Other : Value → Contents → Prop}
    (guarded : Guards Kept Vacant Bare names values saves) (change : Contents → Contents)
    (kept : ∀ value ∈ values, ∀ contents, Kept value contents → Other value (change contents)) :
    Guards Other Vacant Bare names values
      (saves.map fun save => { save with contents := change save.contents }) := by
  induction guarded with
  | top => exact .top
  | vacant lengths empty => exact .vacant lengths empty
  | @saved name names value values above contents below others same _ ih =>
      rw [List.map_append, List.map_cons]
      refine .saved ?_ (kept value List.mem_cons_self contents same)
        (ih fun older member => kept older (List.mem_cons_of_mem _ member))
      intro save member
      obtain ⟨old, inAbove, rfl⟩ := List.mem_map.mp member
      exact others old inAbove
  | absent bare missing _ ih =>
      refine .absent bare ?_ (ih fun older member => kept older (List.mem_cons_of_mem _ member))
      intro save member
      obtain ⟨old, inSaves, rfl⟩ := List.mem_map.mp member
      exact missing old inSaves

/-- A transaction that starts after the starts has none of their savepoints. -/
theorem late (lengths : names.length = values.length) (bare : ∀ name ∈ names, Bare name) :
    Guards Kept Vacant Bare names values [] := by
  induction names generalizing values with
  | nil =>
      rw [List.length_eq_zero_iff.mp lengths.symm]
      exact .top
  | cons name names ih =>
      cases values with
      | nil => cases lengths
      | cons value values =>
          exact .absent (bare name List.mem_cons_self) nofun
            (ih (Nat.succ.inj lengths) fun other member => bare other (List.mem_cons_of_mem _ member))

theorem push (guarded : Guards Kept Vacant Bare names values saves) {contents : Contents}
    (kept : Kept value contents) :
    Guards Kept Vacant Bare (name :: names) (value :: values) (⟨name, contents⟩ :: saves) := by
  have stacked : Guards Kept Vacant Bare (name :: names) (value :: values)
      ([] ++ ⟨name, contents⟩ :: saves) := .saved (by simp) kept guarded
  exact stacked

theorem pop (guarded : Guards Kept Vacant Bare (name :: names) (value :: values) saves)
    (fresh : name ∉ names) : Guards Kept Vacant Bare names values saves := by
  cases guarded with
  | vacant lengths empty =>
      exact .vacant (by simpa using lengths) fun other member => empty other (by simp [member])
  | @saved _ _ _ _ above contents below others _ outer =>
      rw [show above ++ ⟨name, contents⟩ :: below = (above ++ [⟨name, contents⟩]) ++ below by simp]
      refine outer.weaken ?_
      intro save member
      rcases List.mem_append.mp member with skipped | last
      · exact (others save skipped).2
      · rw [List.mem_singleton.mp last]
        exact fresh
  | absent _ _ outer => exact outer

variable [DecidableEq Name]

theorem found (guarded : Guards Kept Vacant Bare (name :: names) (value :: values) saves)
    (held : ¬ Vacant value) (needed : ¬ Bare name) : Db.upTo name saves ≠ [] := by
  cases guarded with
  | vacant _ empty => exact absurd (empty value List.mem_cons_self) held
  | @saved _ _ _ _ above contents below others _ _ =>
      rw [Db.upTo_append_cons (fun other member => (others other member).1) rfl]
      exact List.cons_ne_nil _ _
  | absent bare _ _ => exact absurd bare needed

/-- The stack that RELEASE leaves, whether or not it finds its savepoint. -/
theorem release (guarded : Guards Kept Vacant Bare (name :: names) (value :: values) saves)
    {save : Savepoint Name Contents} {below : List (Savepoint Name Contents)}
    (found : Db.upTo name saves = save :: below) : Guards Kept Vacant Bare names values below := by
  cases guarded with
  | vacant lengths empty =>
      exact .vacant (by simpa using lengths) fun other member => empty other (by simp [member])
  | saved others _ outer =>
      rw [Db.upTo_append_cons (fun other member => (others other member).1) rfl] at found
      cases found
      exact outer
  | absent _ missing _ =>
      rw [Db.upTo_eq_nil_iff.mpr missing] at found
      cases found

/-- ROLLBACK TO either meets the savepoint that kept the value, or there was
nothing to keep. The savepoint stays on the stack. -/
theorem rollbackTo (guarded : Guards Kept Vacant Bare (name :: names) (value :: values) saves)
    (fresh : name ∉ names) {save : Savepoint Name Contents}
    {below : List (Savepoint Name Contents)} (found : Db.upTo name saves = save :: below) :
    (Kept value save.contents ∨ Vacant value) ∧
      Guards Kept Vacant Bare names values (save :: below) := by
  have named : save.name = name := by
    have tested := List.head?_dropWhile_not (fun other => decide (other.name ≠ name)) saves
    rw [show saves.dropWhile (fun other => decide (other.name ≠ name)) = save :: below from found]
      at tested
    simpa using tested
  cases guarded with
  | vacant lengths empty =>
      exact ⟨.inr (empty value (by simp)),
        .vacant (by simpa using lengths) fun other member => empty other (by simp [member])⟩
  | saved others kept outer =>
      rw [Db.upTo_append_cons (fun other member => (others other member).1) rfl] at found
      cases found
      refine ⟨.inl kept, ?_⟩
      rw [← List.singleton_append]
      exact outer.weaken (by simpa using fresh)
  | absent _ missing _ =>
      rw [Db.upTo_eq_nil_iff.mpr missing] at found
      cases found

end Guards

end SqliteHeap.SavepointStack
