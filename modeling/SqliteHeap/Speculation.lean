import SqliteHeap.UniqueIndexRun

/-! `INSERT ... ON CONFLICT` on a unique index. `tuple_insert_speculative` writes the row before
btree checks its key, btree adds the entry whatever the check finds, and
`tuple_complete_speculative` takes the row of a lost check out of the storage. -/

set_option autoImplicit false

namespace SqliteHeap

/-- `physical_delete` of the row that the transaction has just inserted. -/
def Relation.physicalDelete (rowid : Int) (rel : Relation) : Relation :=
  { rel with table := (rel.table.physicalDelete rowid).1, log := rel.log.dropLast }

/-- The transaction whose next statement an event is, or whose `PreCommit`. -/
def BackendsEvent.statement : BackendsEvent → Option TxnId
  | .doTupleInsert txn _ | .multiInsert txn _ | .tupleDelete txn _ _ | .tupleUpdate txn _ _ _
  | .relationVacuum txn _ | .reset txn | .preCommit txn => some txn
  | .begin _ _ | .assign _ | .commandCounterIncrement _ | .takeSnapshot _ _ | .releaseSnapshot _
  | .commit _ | .abort _ | .scanBegin _ _ | .scanGetnext _ | .scanRescan _ => none

/-- `physical_delete` of a pending row, whose index entries stay. -/
def UniqueIndex.retract {Key : Type} (txn : TxnId) (rowid : Int) (index : UniqueIndex Key) :
    UniqueIndex Key :=
  { index with
    lineage :=
      ⟨{ index.lineage.backends with
          writer := some (txn, (index.lineage.backends.view txn).physicalDelete rowid) },
        index.lineage.file, index.lineage.view txn⟩
    pending := []
    checked := 0 }

/-- A row that `tuple_insert_speculative` has written. -/
structure Speculation where
  txn : TxnId
  tuple : Bytes
  rowid : Int
  /-- The storage that the insertion found. -/
  found : Table
  /-- Whether the key was free, once the check is over. -/
  outcome : Option Bool

/-- The unique index with the speculative insertion of the writer. -/
structure OnConflict (Key : Type) where
  index : UniqueIndex Key
  speculation : Option Speculation

inductive OnConflictEvent where
  | plain (event : UniqueEvent)
  | tupleInsertSpeculative (txn : TxnId) (tuple : Bytes)
  /-- One step of `_bt_doinsert` with `UNIQUE_CHECK_PARTIAL`. -/
  | checkSpeculative (txn : TxnId)
  | tupleCompleteSpeculative (txn : TxnId)

namespace OnConflict

variable {Key : Type}

def start : OnConflict Key := ⟨UniqueIndex.start, none⟩

/-- What a transaction's statements read. -/
def view (txn : TxnId) (state : OnConflict Key) : Table :=
  (state.index.lineage.backends.view txn).table

/-- The statement does nothing else until its insertion is complete. -/
def ready (state : OnConflict Key) : UniqueEvent → Bool
  | .backends event => state.speculation.all fun spec => event.statement ≠ some spec.txn
  | .indexInsert _ => state.speculation.isNone

/-- The abort of the writer is the end of its insertion. -/
def frees (state : OnConflict Key) : UniqueEvent → Bool
  | .backends event => state.index.lineage.backends.frees event
  | .indexInsert _ => false

/-- `tuple_complete_speculative`. -/
def tupleCompleteSpeculative (spec : Speculation) (succeeded : Bool) (state : OnConflict Key) :
    OnConflict Key :=
  if succeeded then { state with speculation := none }
  else ⟨state.index.retract spec.txn (tidToRowid (rowidToTid spec.rowid)), none⟩

/-- The entry that btree adds for the speculative row. -/
def entry (key : Bytes → Key) (spec : Speculation) : IndexEntry Key :=
  ⟨key spec.tuple, rowidToTid spec.rowid⟩

section Step

variable [DecidableEq Key] (key : Bytes → Key)

/-- The check of the next entry with the key. It does not wait: a row of a transaction in
progress is a conflict. -/
def checkSpeculative (spec : Speculation) (state : OnConflict Key) : OnConflict Key :=
  match (state.index.equal key spec.tuple)[state.index.checked]? with
  | none =>
      ⟨{ state.index with
          entries := state.index.entries ++ [entry key spec]
          pending := []
          checked := 0 }, some { spec with outcome := some true }⟩
  | some other =>
      match checkUnique (state.index.lineage.backends.history.xacts spec.txn) (state.view spec.txn)
          other.tid with
      | .passes => ⟨{ state.index with checked := state.index.checked + 1 }, some spec⟩
      | .waits | .conflicts =>
          -- the row stays pending until it is retracted
          ⟨{ state.index with
              entries := state.index.entries ++ [entry key spec]
              checked := 0 }, some { spec with outcome := some false }⟩

def step (state : OnConflict Key) : OnConflictEvent → Option (OnConflict Key)
  | .plain event =>
      if state.ready event then
        (state.index.step key event).map fun index =>
          ⟨index, if state.frees event then none else state.speculation⟩
      else none
  | .tupleInsertSpeculative txn tuple =>
      if state.speculation.isNone && state.index.pending.isEmpty then
        (state.index.step key (.backends (.doTupleInsert txn tuple))).map fun index =>
          ⟨index, some ⟨txn, tuple, (state.view txn).nextRowid, state.view txn, none⟩⟩
      else none
  | .checkSpeculative txn =>
      match state.speculation with
      | none => none
      | some spec =>
          if spec.txn = txn && spec.outcome.isNone then some (state.checkSpeculative key spec) else none
  | .tupleCompleteSpeculative txn =>
      match state.speculation with
      | none => none
      | some spec =>
          if spec.txn = txn then spec.outcome.map fun succeeded => state.tupleCompleteSpeculative spec succeeded
          else none

def run : OnConflict Key → List OnConflictEvent → Option (OnConflict Key) := Transition.run (step key)

end Step

end OnConflict

end SqliteHeap
