import Mathlib.Logic.Function.Basic
import SqliteHeap.Lib.Nested

/-! A transactional store: values under keys, changed by one transaction at a time that may
nest subtransactions. A key can be dropped, which takes effect with the commit. The changes
and what they do to a value are parameters. -/

set_option autoImplicit false

namespace SqliteHeap

universe u v w

/-- What a transaction has made of the store. -/
structure StoreWork (Key : Type u) (Value : Type v) where
  values : Key → Value
  dropped : List Key

structure NestedStore (Key : Type u) (Value : Type v) where
  committed : Key → Value
  /-- The transaction that is running. -/
  running : Option (Nested (StoreWork Key Value))

inductive StoreAction (Key : Type u) (Change : Type w) where
  | begin
  | change (key : Key) (change : Change)
  | drop (key : Key)
  | startSub
  | commitSub
  | abortSub
  | commit
  | abort

namespace StoreWork

variable {Key : Type u} {Value : Type v} [DecidableEq Key]

def set (key : Key) (value : Value) (work : StoreWork Key Value) : StoreWork Key Value :=
  { work with values := Function.update work.values key value }

def drop (key : Key) (work : StoreWork Key Value) : StoreWork Key Value :=
  { work with dropped := work.dropped ++ [key] }

/-- The values at the commit, without the dropped keys. -/
def outcome (absent : Value) (work : StoreWork Key Value) (key : Key) : Value :=
  if key ∈ work.dropped then absent else work.values key

end StoreWork

namespace NestedStore

variable {Key : Type u} {Value : Type v} {Change : Type w}

def start (values : Key → Value) : NestedStore Key Value := ⟨values, none⟩

/-- What the running transaction reads, or a new one would. -/
def read (store : NestedStore Key Value) (key : Key) : Value :=
  match store.running with
  | none => store.committed key
  | some work => work.current.values key

section Step

variable [DecidableEq Key] (apply : Change → Value → Value) (absent : Value)

/-- The action as the running transaction takes it; `none` where it has no place. -/
def step (store : NestedStore Key Value) (action : StoreAction Key Change) :
    Option (NestedStore Key Value) :=
  match store.running, action with
  | none, .begin => some { store with running := some (Nested.fresh ⟨store.committed, []⟩) }
  | some work, .change key change =>
      some { store with
        running := some (work.update fun now => now.set key (apply change (now.values key))) }
  | some work, .drop key => some { store with running := some (work.update (StoreWork.drop key)) }
  | some work, .startSub => some { store with running := some work.start }
  | some work, .commitSub =>
      if work.saved = [] then none else some { store with running := some work.commit }
  | some work, .abortSub =>
      if work.saved = [] then none else some { store with running := some work.abort }
  | some work, .commit =>
      if work.saved = [] then some ⟨work.current.outcome absent, none⟩ else none
  | some work, .abort => if work.saved = [] then some { store with running := none } else none
  | _, _ => none

end Step

end NestedStore

end SqliteHeap
