import Mathlib.Data.List.Basic
import Mathlib.Data.List.Induction
import Mathlib.Data.List.Nodup
import Mathlib.Tactic.Common

/-! Multi-version stores. Transactions log commands that set or delete the value of
a key. Replaying the log keeps every version with the command that created it and the
command that ended it; a reader who sees some of the commands reads the versions whose
creator it sees and whose ender it does not. When no command is seen without the
earlier ones on its key, that is the store that the seen commands make. -/

set_option autoImplicit false

namespace SqliteHeap.Versions

universe u v w
variable {Txn : Type u} {Key : Type v} {Value : Type w}

/-- A command on one key: a new value, or none for a deletion. -/
structure Op (Txn : Type u) (Key : Type v) (Value : Type w) where
  txn : Txn
  cid : Nat
  key : Key
  value : Option Value

structure Version (Txn : Type u) (Key : Type v) (Value : Type w) where
  creator : Op Txn Key Value
  value : Value
  deleter : Option (Op Txn Key Value)

namespace Version

def entry (version : Version Txn Key Value) : Key × Value := (version.creator.key, version.value)

def live (version : Version Txn Key Value) : Bool := version.deleter.isNone

/-- The reader sees the version's creator and not its deleter. -/
def visible (sees : Op Txn Key Value → Bool) (version : Version Txn Key Value) : Bool :=
  sees version.creator && !version.deleter.any sees

end Version

section Replay

variable [DecidableEq Key]

/-- Set or remove a key; the last change is the last entry. -/
def put (store : List (Key × Value)) (op : Op Txn Key Value) : List (Key × Value) :=
  store.filter (fun entry => entry.1 ≠ op.key) ++ (op.value.map fun value => (op.key, value)).toList

/-- The store that a log of commands makes. -/
def store (log : List (Op Txn Key Value)) : List (Key × Value) := log.foldl put []

/-- End the live version of the command's key. -/
def supersede (op : Op Txn Key Value) (version : Version Txn Key Value) : Version Txn Key Value :=
  if version.creator.key = op.key ∧ version.live = true then { version with deleter := some op }
  else version

def extend (versions : List (Version Txn Key Value)) (op : Op Txn Key Value) :
    List (Version Txn Key Value) :=
  versions.map (supersede op) ++ (op.value.map fun value => ⟨op, value, none⟩).toList

/-- Every version that a log of commands makes, oldest first. -/
def versions (log : List (Op Txn Key Value)) : List (Version Txn Key Value) := log.foldl extend []

@[simp] theorem store_append (log : List (Op Txn Key Value)) (op : Op Txn Key Value) :
    store (log ++ [op]) = put (store log) op := by
  simp [store, List.foldl_append]

@[simp] theorem versions_append (log : List (Op Txn Key Value)) (op : Op Txn Key Value) :
    versions (log ++ [op]) = extend (versions log) op := by
  simp [versions, List.foldl_append]

@[simp] theorem supersede_creator (op : Op Txn Key Value) (version : Version Txn Key Value) :
    (supersede op version).creator = version.creator := by
  unfold supersede
  split <;> rfl

@[simp] theorem supersede_entry (op : Op Txn Key Value) (version : Version Txn Key Value) :
    (supersede op version).entry = version.entry := by
  unfold supersede
  split <;> rfl

theorem store_keys_nodup (log : List (Op Txn Key Value)) : ((store log).map Prod.fst).Nodup := by
  induction log using List.reverseRecOn with
  | nil => exact List.nodup_nil
  | append_singleton log op ih =>
      rw [store_append, put, List.map_append, List.nodup_append']
      refine ⟨(List.filter_sublist.map _).nodup ih, ?_, ?_⟩
      · cases op.value <;> simp
      · intro key old new
        obtain ⟨entry, kept, rfl⟩ := List.mem_map.mp old
        have different := (List.mem_filter.mp kept).2
        cases value : op.value with
        | none => simp [value] at new
        | some value => simp_all

theorem mem_log {log : List (Op Txn Key Value)} {version : Version Txn Key Value}
    (member : version ∈ versions log) :
    version.creator ∈ log ∧
      ∀ deleter, version.deleter = some deleter → deleter ∈ log ∧
        deleter.key = version.creator.key := by
  induction log using List.reverseRecOn generalizing version with
  | nil => cases member
  | append_singleton log op ih =>
      rw [versions_append, extend] at member
      rcases List.mem_append.mp member with old | new
      · obtain ⟨before, inLog, rfl⟩ := List.mem_map.mp old
        obtain ⟨creator, deleter⟩ := ih inLog
        refine ⟨by simp [creator], fun found deleted => ?_⟩
        rw [supersede] at deleted ⊢
        split at deleted
        · next ends =>
            cases deleted
            rw [if_pos ends]
            exact ⟨by simp, ends.1.symm⟩
        · next stays =>
            rw [if_neg stays]
            exact ⟨List.mem_append_left _ (deleter found deleted).1, (deleter found deleted).2⟩
      · cases value : op.value with
        | none => simp [value] at new
        | some value =>
            simp only [value, Option.map_some, Option.toList_some, List.mem_singleton] at new
            subst new
            exact ⟨by simp, fun _ deleted => nomatch deleted⟩

end Replay

/-! ## Readers -/

/-- Whoever sees a command sees the earlier ones on its key. -/
def ClosedFor (sees : Op Txn Key Value → Bool) (log : List (Op Txn Key Value)) : Prop :=
  log.Pairwise fun earlier later => earlier.key = later.key → sees later = true → sees earlier = true

theorem closedFor_append_iff {sees : Op Txn Key Value → Bool} {log : List (Op Txn Key Value)}
    {op : Op Txn Key Value} :
    ClosedFor sees (log ++ [op]) ↔
      ClosedFor sees log ∧
        ∀ earlier ∈ log, earlier.key = op.key → sees op = true → sees earlier = true := by
  simp [ClosedFor, List.pairwise_append]

variable [DecidableEq Key] {sees : Op Txn Key Value → Bool} {log : List (Op Txn Key Value)}

/-- A command that is not seen changes nothing for the reader. -/
theorem filter_extend_of_unseen {op : Op Txn Key Value} (unseen : sees op = false)
    (versions : List (Version Txn Key Value)) :
    ((extend versions op).filter (Version.visible sees)).map Version.entry =
      (versions.filter (Version.visible sees)).map Version.entry := by
  have same : ∀ version : Version Txn Key Value,
      (supersede op version).visible sees = version.visible sees := by
    intro version
    unfold supersede
    split
    · next ends =>
        have live : version.deleter = none := by simpa [Version.live] using ends.2
        simp [Version.visible, live, unseen]
    · rfl
  have none : ((op.value.map fun value => (⟨op, value, none⟩ : Version Txn Key Value)).toList).filter
      (Version.visible sees) = [] := by
    cases op.value <;> simp [Version.visible, unseen]
  rw [extend, List.filter_append, none, List.append_nil, List.filter_map, List.map_map]
  have visible : Version.visible sees ∘ supersede op = Version.visible sees := funext same
  rw [visible]
  exact List.map_congr_left fun version _ => supersede_entry op version

/-- A command that is seen, as all earlier ones on its key are, replaces the entry of
its key. -/
theorem filter_extend_of_seen {op : Op Txn Key Value} (seen : sees op = true)
    {versions : List (Version Txn Key Value)}
    (earlier : ∀ version ∈ versions, version.creator.key = op.key →
      sees version.creator = true ∧ ∀ deleter, version.deleter = some deleter → sees deleter = true) :
    ((extend versions op).filter (Version.visible sees)).map Version.entry =
      put ((versions.filter (Version.visible sees)).map Version.entry) op := by
  have visible : ∀ version ∈ versions, (supersede op version).visible sees =
      (version.visible sees && version.entry.1 ≠ op.key) := by
    intro version member
    by_cases onKey : version.creator.key = op.key
    · obtain ⟨created, deleted⟩ := earlier version member onKey
      cases ended : version.deleter with
      | none => simp [supersede, Version.live, Version.visible, Version.entry, onKey, ended, seen]
      | some deleter =>
          simp [supersede, Version.live, Version.visible, Version.entry, onKey, ended,
            deleted deleter ended]
    · simp [supersede, onKey, Version.entry]
  have new : (((op.value.map fun value => (⟨op, value, none⟩ : Version Txn Key Value)).toList).filter
      (Version.visible sees)).map Version.entry =
      (op.value.map fun value => (op.key, value)).toList := by
    cases op.value <;> simp [Version.visible, seen, Version.entry]
  rw [extend, List.filter_append, List.map_append, new, put, List.filter_map, List.map_map,
    List.filter_map, List.filter_filter]
  congr 1
  have same : Version.entry ∘ supersede op = Version.entry := funext (supersede_entry op)
  rw [same]
  congr 1
  refine List.filter_congr fun version member => ?_
  rw [Function.comp_apply, visible version member, Bool.and_comm]
  rfl

/-- The versions that a reader sees are the store that the commands it sees make. -/
theorem visible_eq_store (closed : ClosedFor sees log) :
    ((versions log).filter (Version.visible sees)).map Version.entry = store (log.filter sees) := by
  induction log using List.reverseRecOn with
  | nil => rfl
  | append_singleton log op ih =>
      obtain ⟨closed, last⟩ := closedFor_append_iff.mp closed
      cases seen : sees op with
      | false =>
          rw [versions_append, filter_extend_of_unseen seen, ih closed, List.filter_append]
          simp [seen]
      | true =>
          rw [versions_append, filter_extend_of_seen seen, ih closed, List.filter_append,
            List.filter_singleton, seen]
          · exact (store_append _ _).symm
          · intro version member onKey
            obtain ⟨creator, deleter⟩ := mem_log member
            refine ⟨last _ creator onKey seen, fun found deleted => ?_⟩
            obtain ⟨inLog, key⟩ := deleter found deleted
            exact last _ inLog (key.trans onKey) seen

/-- The live versions are the store that the whole log makes. -/
theorem live_eq_store (log : List (Op Txn Key Value)) :
    ((versions log).filter Version.live).map Version.entry = store log := by
  have everything := @visible_eq_store _ _ _ _ (fun _ => true) log
    (List.pairwise_of_forall fun _ _ _ _ => rfl)
  rw [List.filter_true] at everything
  rw [← everything]
  congr 1
  refine List.filter_congr fun version _ => ?_
  cases ended : version.deleter <;> simp [Version.visible, Version.live, ended]

/-- The commands on the key of a live version are seen by whoever sees its creator. -/
theorem sees_of_live (closed : ClosedFor sees log) {version : Version Txn Key Value}
    (member : version ∈ versions log) (live : version.live = true)
    (created : sees version.creator = true) {op : Op Txn Key Value} (inLog : op ∈ log)
    (onKey : op.key = version.creator.key) : sees op = true := by
  induction log using List.reverseRecOn generalizing version with
  | nil => cases member
  | append_singleton log last ih =>
      obtain ⟨closed, earlier⟩ := closedFor_append_iff.mp closed
      rw [versions_append, extend] at member
      rcases List.mem_append.mp member with old | new
      · obtain ⟨before, inVersions, rfl⟩ := List.mem_map.mp old
        by_cases ends : before.creator.key = last.key ∧ before.live = true
        · rw [supersede, if_pos ends] at live
          cases live
        · rw [supersede, if_neg ends] at live created onKey
          rcases List.mem_append.mp inLog with inLog | isLast
          · exact ih closed inVersions live created inLog onKey
          · rw [List.mem_singleton.mp isLast] at onKey
            exact absurd ⟨onKey.symm, live⟩ ends
      · cases value : last.value with
        | none => simp [value] at new
        | some value =>
            simp only [value, Option.map_some, Option.toList_some, List.mem_singleton] at new
            subst new
            rcases List.mem_append.mp inLog with inLog | isLast
            · exact earlier op inLog onKey created
            · rw [List.mem_singleton.mp isLast]
              exact created

end SqliteHeap.Versions
