import SqliteHeap.Ffi
import SqliteHeap.Lib.Failing
import SqliteHeap.Lib.SavepointStack

/-! `insert` and `insert_batch` of `sqlite.rs` on the cached statement that they share, and
the callbacks `tuple_insert` and `multi_insert` of `tam.rs` over them. Every call into
SQLite may fail, and a panic leaves the statement as it is. An INSERT whose step fails
leaves no row; with `SQLITE_FULL`, `SQLITE_IOERR` or `SQLITE_NOMEM` SQLite may also roll
the whole transaction back, of which `in_txn` learns nothing. Without a transaction every
INSERT commits by itself. -/

set_option autoImplicit false

namespace SqliteHeap.BatchInsert

open SavepointStack

inductive Value where
  | int (value : Int)
  | blob (bytes : Bytes)

/-- A prepared statement. An index without a value is bound to NULL. -/
structure Stmt where
  bindings : Nat → Option Value
  /-- Stepped and not reset since. -/
  stepped : Bool

namespace Stmt

/-- `sqlite3_prepare_v2`. -/
def prepared : Stmt := ⟨fun _ => none, false⟩

def reset (stmt : Stmt) : Stmt := { stmt with stepped := false }

def clearBindings (stmt : Stmt) : Stmt := { stmt with bindings := fun _ => none }

/-- Binding a statement that is not reset is a misuse, and binds nothing. -/
def bind (idx : Nat) (value : Value) (stmt : Stmt) : Stmt :=
  if stmt.stepped then stmt
  else { stmt with bindings := fun other => if other = idx then some value else stmt.bindings other }

/-- The row of an INSERT. The code binds integers to the first two indices and a blob to the
third; a NULL column fails. -/
def row (stmt : Stmt) : Option (TransactionId × CommandId × Bytes) :=
  match stmt.bindings 1, stmt.bindings 2, stmt.bindings 3 with
  | some (.int xmin), some (.int cmin), some (.blob tuple) => some (colU32 xmin, colU32 cmin, tuple)
  | _, _, _ => none

end Stmt

abbrev StorageDb := Db Nat Table

/-- `RelConn`, with the file and the transaction that SQLite has open on it. -/
structure Conn where
  cache : String → Option Stmt
  inTxn : Bool
  db : StorageDb
  lastInsertRowid : Int
  steps : Nat

/-- What SQLite answers. The blob of an INSERT and its step are asked for by their number. -/
structure Answers where
  openConn : Option Conn
  beginFails : Bool
  prepareFails : String → Bool
  bindBlobFails : Nat → Bool
  stepFails : Nat → Bool
  /-- Whether the error of that step is one that SQLite answers with a rollback. -/
  rollsBack : Nat → Bool

def afterError (rollsBack : Bool) (db : StorageDb) : StorageDb :=
  if rollsBack then db.abandon else db

def insertSql : String := "INSERT INTO storage (xmin, cmin, tuple) VALUES (?1, ?2, ?3)"

namespace Conn

/-- The statement of this text, as `prepare_cached` returns it. -/
def stmt (conn : Conn) (sql : String) : Stmt := (conn.cache sql).getD .prepared

def setStmt (conn : Conn) (sql : String) (stmt : Stmt) : Conn :=
  { conn with cache := fun other => if other = sql then some stmt else conn.cache other }

def onStmt (sql : String) (change : Stmt → Stmt) (conn : Conn) : Conn :=
  conn.setStmt sql (change (conn.stmt sql))

section

variable (conn : Conn) (sql : String) (stmt : Stmt) (change : Stmt → Stmt)

@[simp] theorem stmt_setStmt : (conn.setStmt sql stmt).stmt sql = stmt := by simp [Conn.stmt, setStmt]

@[simp] theorem cache_setStmt : (conn.setStmt sql stmt).cache sql = some stmt := by simp [setStmt]

@[simp] theorem setStmt_db : (conn.setStmt sql stmt).db = conn.db := rfl

@[simp] theorem setStmt_inTxn : (conn.setStmt sql stmt).inTxn = conn.inTxn := rfl

@[simp] theorem setStmt_steps : (conn.setStmt sql stmt).steps = conn.steps := rfl

@[simp] theorem setStmt_lastInsertRowid :
    (conn.setStmt sql stmt).lastInsertRowid = conn.lastInsertRowid := rfl

@[simp] theorem stmt_onStmt : (conn.onStmt sql change).stmt sql = change (conn.stmt sql) := by
  simp [onStmt]

@[simp] theorem onStmt_db : (conn.onStmt sql change).db = conn.db := rfl

@[simp] theorem onStmt_inTxn : (conn.onStmt sql change).inTxn = conn.inTxn := rfl

@[simp] theorem onStmt_steps : (conn.onStmt sql change).steps = conn.steps := rfl

@[simp] theorem onStmt_lastInsertRowid :
    (conn.onStmt sql change).lastInsertRowid = conn.lastInsertRowid := rfl

end

def stepped (conn : Conn) : Conn :=
  { conn.onStmt insertSql fun stmt => { stmt with stepped := true } with steps := conn.steps + 1 }

/-- An INSERT that fails leaves no row, and `in_txn` as it was. -/
def failed (rollsBack : Bool) (conn : Conn) : Conn :=
  { conn.stepped with db := afterError rollsBack conn.db }

def inserted (xmin : TransactionId) (cmin : CommandId) (tuple : Bytes) (conn : Conn) : Conn :=
  { conn.stepped with
    db := conn.db.write fun table => table.insertRow xmin cmin tuple
    lastInsertRowid := conn.db.view.nextRowid }

section

variable (conn : Conn) (xmin : TransactionId) (cmin : CommandId) (tuple : Bytes)

@[simp] theorem stmt_stepped :
    conn.stepped.stmt insertSql = { conn.stmt insertSql with stepped := true } :=
  conn.stmt_onStmt insertSql fun stmt => { stmt with stepped := true }

@[simp] theorem stmt_inserted :
    (conn.inserted xmin cmin tuple).stmt insertSql = { conn.stmt insertSql with stepped := true } :=
  conn.stmt_stepped

@[simp] theorem cache_inserted :
    (conn.inserted xmin cmin tuple).cache insertSql =
      some { conn.stmt insertSql with stepped := true } :=
  conn.cache_setStmt insertSql _

@[simp] theorem inserted_lastInsertRowid :
    (conn.inserted xmin cmin tuple).lastInsertRowid = conn.db.view.nextRowid := rfl

@[simp] theorem inserted_db :
    (conn.inserted xmin cmin tuple).db =
      conn.db.write fun table => table.insertRow xmin cmin tuple := rfl

@[simp] theorem inserted_inTxn : (conn.inserted xmin cmin tuple).inTxn = conn.inTxn := rfl

@[simp] theorem inserted_steps : (conn.inserted xmin cmin tuple).steps = conn.steps + 1 := rfl

end

end Conn

section Calls

variable (answers : Answers)

def prepareCached (sql : String) : Failing Conn Unit := do
  let conn ← Failing.get
  match conn.cache sql with
  | some _ => Failing.modify (Conn.onStmt sql fun stmt => stmt.reset.clearBindings)
  | none =>
      if answers.prepareFails sql then Failing.fail
      else Failing.modify fun conn => conn.setStmt sql .prepared

def beginIfNeeded : Failing Conn Unit := do
  let conn ← Failing.get
  if conn.inTxn then pure ()
  else if answers.beginFails then Failing.fail
  else match conn.db.begin with
    | some db => Failing.modify fun conn => { conn with db := db, inTxn := true }
    | none => Failing.fail

/-- `bind_u32`, whose return code nobody looks at. -/
def bindU32 (idx : Nat) (v : BitVec 32) : Failing Conn Unit :=
  Failing.modify (Conn.onStmt insertSql (Stmt.bind idx (.int (SqliteHeap.bindU32 v))))

def bindBlob (idx : Nat) (bytes : Bytes) : Failing Conn Unit := do
  let conn ← Failing.get
  if (conn.stmt insertSql).stepped || answers.bindBlobFails conn.steps then Failing.fail
  else Failing.modify (Conn.onStmt insertSql (Stmt.bind idx (.blob bytes)))

/-- `step_done` on the INSERT. -/
def stepDone : Failing Conn Unit := do
  let conn ← Failing.get
  match (conn.stmt insertSql).row with
  | some (xmin, cmin, tuple) =>
      if answers.stepFails conn.steps then do
        Failing.modify (Conn.failed (answers.rollsBack conn.steps))
        Failing.fail
      else Failing.modify (Conn.inserted xmin cmin tuple)
  | none => do
      -- The NOT NULL constraint of a column aborts the statement alone.
      Failing.modify (Conn.failed false)
      Failing.fail

def lastInsertRowid : Failing Conn Int := Failing.read Conn.lastInsertRowid

def setUp : Failing Conn Unit := do
  beginIfNeeded answers
  prepareCached answers insertSql

def insert (xmin : TransactionId) (cmin : CommandId) (bytes : Bytes) : Failing Conn Int := do
  setUp answers
  bindU32 1 xmin
  bindU32 2 cmin
  bindBlob answers 3 bytes
  stepDone answers
  lastInsertRowid

/-- The body of the loop of `insert_batch`. -/
def insertNext (bytes : Bytes) : Failing Conn Int := do
  bindBlob answers 3 bytes
  stepDone answers
  let rowid ← lastInsertRowid
  Failing.modify (Conn.onStmt insertSql Stmt.reset)
  pure rowid

def insertBatch (xmin : TransactionId) (cmin : CommandId) (tuples : List Bytes) :
    Failing Conn (List Int) := do
  setUp answers
  bindU32 1 xmin
  bindU32 2 cmin
  Failing.each (insertNext answers) tuples

end Calls

/-- What a backend keeps for one relation: whether it is in `TX_RELS`, and its entry in
`CONNS`. -/
structure Backend where
  touched : Bool
  conn : Option Conn

/-- A tuple table slot: the bytes of its heap tuple and the TID that is stamped on it. -/
structure Slot where
  tuple : Bytes
  tid : Tid

def Slot.setInsertedTid (slot : Slot) (rowid : Int) : Slot := { slot with tid := rowidToTid rowid }

section Callbacks

variable (answers : Answers)

def ensureInXact : Failing Backend Unit := do
  let backend ← Failing.get
  if backend.touched then pure ()
  else do
    Failing.modify fun backend => { backend with touched := true }
    match backend.conn, answers.openConn with
    | some _, _ => pure ()
    | none, some conn => Failing.modify fun backend => { backend with conn := some conn }
    | none, none => Failing.fail

def onConn {α : Type} (f : Failing Conn α) : Failing Backend α := fun backend =>
  match backend.conn with
  | none => (none, backend) -- expect("connection should be cached")
  | some conn => ((f conn).1, { backend with conn := some (f conn).2 })

def withConn {α : Type} (f : Failing Conn α) : Failing Backend α := do
  ensureInXact answers
  onConn f

def doTupleInsert (xid : TransactionId) (cid : CommandId) (slot : Slot) : Failing Backend Slot := do
  let rowid ← withConn answers (insert answers xid cid slot.tuple)
  pure (slot.setInsertedTid rowid)

/-- `tuple_insert` on each slot in turn. -/
def insertSlots (xid : TransactionId) (cid : CommandId) (slots : List Slot) :
    Failing Backend (List Slot) :=
  Failing.each (doTupleInsert answers xid cid) slots

def multiInsert (xid : TransactionId) (cid : CommandId) (slots : List Slot) :
    Failing Backend (List Slot) :=
  if slots.isEmpty then pure []
  else do
    let rowids ← withConn answers (insertBatch answers xid cid (slots.map Slot.tuple))
    pure (List.zipWith Slot.setInsertedTid slots rowids)

end Callbacks

/-- What INSERTs leave, without the statement: the database, and how many were stepped. -/
structure Rows where
  db : StorageDb
  steps : Nat

/-- One INSERT: its blob is bound, it is stepped, and either can fail. -/
def attempt (answers : Answers) (xmin : TransactionId) (cmin : CommandId) (tuple : Bytes) :
    Failing Rows Int := fun rows =>
  if answers.bindBlobFails rows.steps then (none, rows)
  else if answers.stepFails rows.steps then
    (none, ⟨afterError (answers.rollsBack rows.steps) rows.db, rows.steps + 1⟩)
  else (some rows.db.view.nextRowid,
    ⟨rows.db.write fun table => table.insertRow xmin cmin tuple, rows.steps + 1⟩)

structure Shows (conn : Conn) (rows : Rows) : Prop where
  inTxn : conn.inTxn = true
  db : conn.db = rows.db
  steps : conn.steps = rows.steps

structure Headers (xmin : TransactionId) (cmin : CommandId) (stmt : Stmt) : Prop where
  xmin : stmt.bindings 1 = some (.int (SqliteHeap.bindU32 xmin))
  cmin : stmt.bindings 2 = some (.int (SqliteHeap.bindU32 cmin))

/-- It is in the cache, and nothing that was stepped holds its bindings. -/
structure Clean (conn : Conn) : Prop where
  cached : (conn.cache insertSql).isSome = true
  stepped : (conn.stmt insertSql).stepped = false

section Specs

variable {answers : Answers} {xmin : TransactionId} {cmin : CommandId} {tuple : Bytes}
  {conn : Conn} {rows : Rows}

/-- With its headers bound, the statement inserts the row of the blob. -/
theorem row_bind_blob {stmt : Stmt} (tuple : Bytes) (headers : Headers xmin cmin stmt)
    (reset : stmt.stepped = false) :
    (stmt.bind 3 (.blob tuple)).row = some (xmin, cmin, tuple) := by
  simp [Stmt.bind, reset, Stmt.row, headers.xmin, headers.cmin]

theorem headers_bind_blob {stmt : Stmt} (tuple : Bytes) (headers : Headers xmin cmin stmt) :
    Headers xmin cmin (stmt.bind 3 (.blob tuple)) := by
  unfold Stmt.bind
  split
  · exact headers
  · exact ⟨headers.xmin, headers.cmin⟩

/-- What `insert` and the loop of `insert_batch` do with one blob. -/
def stepBlob (answers : Answers) (bytes : Bytes) : Failing Conn Int := do
  bindBlob answers 3 bytes
  stepDone answers
  lastInsertRowid

theorem stepBlob_alike (headers : Headers xmin cmin (conn.stmt insertSql)) (clean : Clean conn)
    (shows : Shows conn rows) :
    Failing.Alike
      (fun conn rows => (Headers xmin cmin (conn.stmt insertSql) ∧
        (conn.cache insertSql).isSome = true) ∧ Shows conn rows) Shows
      (stepBlob answers tuple conn) (attempt answers xmin cmin tuple rows) := by
  obtain ⟨inTxn, db, steps⟩ := shows
  unfold attempt
  cases bind : answers.bindBlobFails rows.steps with
  | true =>
      simp only [stepBlob, bindBlob, Failing.bind_apply, Failing.get_apply, steps, bind, Bool.or_true,
        ↓reduceIte, Failing.fail_apply]
      exact .none ⟨inTxn, db, steps⟩
  | false =>
      have row := row_bind_blob tuple headers clean.stepped
      cases step : answers.stepFails rows.steps with
      | true =>
          simp [stepBlob, bindBlob, stepDone, Failing.bind_apply, steps, bind, clean.stepped, row, step]
          exact .none ⟨inTxn, by simp [Conn.failed, db], by simp [Conn.failed, Conn.stepped, steps]⟩
      | false =>
          simp [stepBlob, bindBlob, stepDone, lastInsertRowid, Failing.bind_apply, steps, bind,
            clean.stepped, row, step, db]
          refine .some ⟨⟨?_, by simp⟩, inTxn, by simp [db], by simp [steps]⟩
          have bound := headers_bind_blob tuple headers
          simp only [Conn.stmt_inserted, Conn.stmt_onStmt]
          exact ⟨bound.xmin, bound.cmin⟩

theorem insertNext_eq (bytes : Bytes) :
    insertNext answers bytes = (do
      let rowid ← stepBlob answers bytes
      Failing.modify (Conn.onStmt insertSql Stmt.reset)
      pure rowid) := by
  simp [insertNext, stepBlob]

/-- The reset at its end keeps the headers for the next blob. -/
theorem insertNext_alike (headers : Headers xmin cmin (conn.stmt insertSql)) (clean : Clean conn)
    (shows : Shows conn rows) :
    Failing.Alike
      (fun conn rows => (Headers xmin cmin (conn.stmt insertSql) ∧ Clean conn) ∧ Shows conn rows) Shows
      (insertNext answers tuple conn) (attempt answers xmin cmin tuple rows) := by
  rw [insertNext_eq, ← bind_pure (attempt answers xmin cmin tuple)]
  refine (stepBlob_alike headers clean shows).bind ?_
  rintro rowid conn rows ⟨⟨headers, cached⟩, inTxn, db, steps⟩
  refine .some ⟨⟨?_, ?_, ?_⟩, inTxn, db, steps⟩
  · rw [Conn.stmt_onStmt]
    exact ⟨headers.xmin, headers.cmin⟩
  · simp [Conn.onStmt]
  · rw [Conn.stmt_onStmt]
    rfl

def bindHeaders (xmin : TransactionId) (cmin : CommandId) : Failing Conn Unit := do
  bindU32 1 xmin
  bindU32 2 cmin

theorem bindHeaders_spec (xmin : TransactionId) (cmin : CommandId) (clean : Clean conn)
    (shows : Shows conn rows) :
    ∃ bound, bindHeaders xmin cmin conn = (some (), bound) ∧
      Headers xmin cmin (bound.stmt insertSql) ∧ Clean bound ∧ Shows bound rows := by
  refine ⟨_, rfl, ?_, ⟨?_, ?_⟩, shows.inTxn, shows.db, shows.steps⟩
  · constructor <;> simp [Stmt.bind, clean.stepped]
  · simp [Conn.onStmt]
  · simp [Stmt.bind, clean.stepped]

/-- `insert` after its set-up. -/
def insertTail (answers : Answers) (xmin : TransactionId) (cmin : CommandId) (bytes : Bytes) :
    Failing Conn Int := do
  bindHeaders xmin cmin
  stepBlob answers bytes

/-- `insert_batch` after its set-up. -/
def batchTail (answers : Answers) (xmin : TransactionId) (cmin : CommandId) (tuples : List Bytes) :
    Failing Conn (List Int) := do
  bindHeaders xmin cmin
  Failing.each (insertNext answers) tuples

theorem insert_eq (bytes : Bytes) :
    insert answers xmin cmin bytes = (do
      setUp answers
      insertTail answers xmin cmin bytes) := by
  simp [insert, insertTail, bindHeaders, stepBlob]

theorem insertBatch_eq (tuples : List Bytes) :
    insertBatch answers xmin cmin tuples = (do
      setUp answers
      batchTail answers xmin cmin tuples) := by
  simp [insertBatch, batchTail, bindHeaders]

theorem insertTail_alike (clean : Clean conn) (shows : Shows conn rows) :
    Failing.Alike (fun conn rows => (conn.cache insertSql).isSome = true ∧ Shows conn rows) Shows
      (insertTail answers xmin cmin tuple conn) (attempt answers xmin cmin tuple rows) := by
  obtain ⟨bound, bind, headers, clean, shows⟩ := bindHeaders_spec xmin cmin clean shows
  rw [insertTail, Failing.bind_of_some bind]
  exact (stepBlob_alike headers clean shows).mono (fun going => ⟨going.1.2, going.2⟩) id

theorem batchTail_alike (tuples : List Bytes) (clean : Clean conn) (shows : Shows conn rows) :
    Failing.Alike Shows Shows (batchTail answers xmin cmin tuples conn)
      (Failing.each (attempt answers xmin cmin) tuples rows) := by
  obtain ⟨bound, bind, headers, clean, shows⟩ := bindHeaders_spec xmin cmin clean shows
  rw [batchTail, Failing.bind_of_some bind]
  have bodies (tuple : Bytes) {conn : Conn} {rows : Rows}
      (going : (Headers xmin cmin (conn.stmt insertSql) ∧ Clean conn) ∧ Shows conn rows) :
      Failing.Alike _ Shows (insertNext answers tuple conn) (attempt answers xmin cmin tuple rows) :=
    insertNext_alike going.1.1 going.1.2 going.2
  exact (Failing.Alike.each bodies tuples ⟨⟨headers, clean⟩, shows⟩).mono And.right id

/-- In a transaction, the set-up only resets the cached statement. -/
theorem setUp_of_cached (cached : (conn.cache insertSql).isSome = true) (inTxn : conn.inTxn = true) :
    setUp answers conn = (some (), conn.onStmt insertSql fun stmt => stmt.reset.clearBindings) := by
  obtain ⟨stmt, found⟩ := Option.isSome_iff_exists.mp cached
  simp [setUp, beginIfNeeded, prepareCached, Failing.bind_apply, inTxn, found]

theorem insert_alike (cached : (conn.cache insertSql).isSome = true) (shows : Shows conn rows) :
    Failing.Alike (fun conn rows => (conn.cache insertSql).isSome = true ∧ Shows conn rows) Shows
      (insert answers xmin cmin tuple conn) (attempt answers xmin cmin tuple rows) := by
  rw [insert_eq, Failing.bind_of_some (setUp_of_cached cached shows.inTxn)]
  refine insertTail_alike ⟨by simp [Conn.onStmt], ?_⟩ ⟨shows.inTxn, shows.db, shows.steps⟩
  rw [Conn.stmt_onStmt]
  rfl

theorem beginIfNeeded_spec {after : Conn} (ran : beginIfNeeded answers conn = (some (), after)) :
    after.inTxn = true := by
  simp only [beginIfNeeded, Failing.bind_apply, Failing.get_apply] at ran
  split at ran
  · next inTxn =>
      cases ran
      exact inTxn
  · split at ran
    · cases ran
    · cases begun : conn.db.begin with
      | none =>
          simp only [begun] at ran
          cases ran
      | some db =>
          simp only [begun] at ran
          cases ran
          rfl

/-- Whatever is in the cache, the set-up leaves a clean statement in a transaction. -/
theorem setUp_spec {after : Conn} (ran : setUp answers conn = (some (), after)) :
    Clean after ∧ after.inTxn = true := by
  rw [setUp] at ran
  cases begun : beginIfNeeded answers conn with
  | mk found middle =>
      cases found with
      | none =>
          rw [Failing.bind_of_none begun] at ran
          cases ran
      | some =>
          have inTxn := beginIfNeeded_spec begun
          rw [Failing.bind_of_some begun] at ran
          cases found : middle.cache insertSql with
          | some stmt =>
              simp only [prepareCached, Failing.bind_apply, Failing.get_apply, found,
                Failing.modify_apply, Prod.mk.injEq, true_and] at ran
              obtain rfl := ran
              exact ⟨⟨by simp [Conn.onStmt], by rw [Conn.stmt_onStmt]; rfl⟩, inTxn⟩
          | none =>
              simp only [prepareCached, Failing.bind_apply, Failing.get_apply, found] at ran
              split at ran
              · cases ran
              · simp only [Failing.modify_apply, Prod.mk.injEq, true_and] at ran
                obtain rfl := ran
                exact ⟨⟨by simp, by rw [Conn.stmt_setStmt]; rfl⟩, inTxn⟩

end Specs

section Callbacks

variable {answers : Answers} {xid : TransactionId} {cid : CommandId} {backend after : Backend}
  {rows : Rows} {α β : Type}

/-- The rows of the storage, in the file and in the open transaction, and the `in_txn` flag. -/
def stored (backend : Backend) : Option (StorageDb × Bool) :=
  backend.conn.map fun conn => (conn.db, conn.inTxn)

/-- The relation is registered and its connection is related to the rows. -/
def OnConn (Going : Conn → Rows → Prop) (backend : Backend) (rows : Rows) : Prop :=
  backend.touched = true ∧ ∃ conn, backend.conn = some conn ∧ Going conn rows

theorem OnConn.stored (shows : OnConn Shows backend rows) : stored backend = some (rows.db, true) := by
  obtain ⟨_, conn, found, shows⟩ := shows
  rw [BatchInsert.stored, found, Option.map_some, shows.db, shows.inTxn]

theorem onConn_alike {Going Failed : Conn → Rows → Prop} {f : Failing Conn α} {g : Failing Rows α}
    {conn : Conn} (touched : backend.touched = true) (found : backend.conn = some conn)
    (alike : Failing.Alike Going Failed (f conn) (g rows)) :
    Failing.Alike (OnConn Going) (OnConn Failed) (onConn f backend) (g rows) := by
  simp only [onConn, found]
  cases ran : f conn with
  | mk value last =>
      rw [ran] at alike
      generalize g rows = outcome at alike ⊢
      cases alike with
      | some going => exact .some ⟨touched, _, rfl, going⟩
      | none failed => exact .none ⟨touched, _, rfl, failed⟩

theorem onConn_bind (first : Failing Conn α) (next : α → Failing Conn β) :
    onConn (do let value ← first; next value) = (do let value ← onConn first; onConn (next value)) := by
  funext ⟨touched, conn⟩
  cases conn with
  | none => rfl
  | some conn =>
      cases ran : first conn with
      | mk value last =>
          cases value with
          | none => simp [onConn, ran, Failing.bind_apply]
          | some value => simp [onConn, ran, Failing.bind_apply]

theorem ensureInXact_of_touched (touched : backend.touched = true) :
    ensureInXact answers backend = (some (), backend) := by
  simp [ensureInXact, Failing.bind_apply, touched]

theorem ensureInXact_touched (ran : ensureInXact answers backend = (some (), after)) :
    after.touched = true := by
  cases registered : backend.touched with
  | true =>
      rw [ensureInXact_of_touched registered] at ran
      cases ran
      exact registered
  | false =>
      cases cached : backend.conn with
      | some conn =>
          simp [ensureInXact, Failing.bind_apply, registered, cached] at ran
          rw [← ran]
      | none =>
          cases opened : answers.openConn with
          | some conn =>
              simp [ensureInXact, Failing.bind_apply, registered, cached, opened] at ran
              rw [← ran]
          | none => simp [ensureInXact, Failing.bind_apply, registered, cached, opened] at ran

def begun (answers : Answers) : Failing Backend Unit := withConn answers (setUp answers)

theorem withConn_setUp (tail : Failing Conn α) :
    withConn answers (do setUp answers; tail) = (do begun answers; onConn tail) := by
  simp [withConn, begun, onConn_bind]

theorem begun_spec (ran : begun answers backend = (some (), after)) :
    after.touched = true ∧ ∃ conn, after.conn = some conn ∧ Clean conn ∧ conn.inTxn = true := by
  rw [begun, withConn] at ran
  cases ensured : ensureInXact answers backend with
  | mk found middle =>
      cases found with
      | none =>
          rw [Failing.bind_of_none ensured] at ran
          cases ran
      | some =>
          rw [Failing.bind_of_some ensured, onConn] at ran
          cases opened : middle.conn with
          | none => simp [opened] at ran
          | some conn =>
              simp only [opened, Prod.mk.injEq] at ran
              obtain ⟨done, rfl⟩ := ran
              have touched : middle.touched = true := ensureInXact_touched ensured
              exact ⟨touched, _, rfl, setUp_spec (Prod.ext done rfl)⟩

/-- The slots of a batch, as the rows see it. -/
def attemptSlots (answers : Answers) (xid : TransactionId) (cid : CommandId) (slots : List Slot) :
    Failing Rows (List Slot) :=
  Failing.each (fun slot => do
    let rowid ← attempt answers xid cid slot.tuple
    pure (slot.setInsertedTid rowid)) slots

theorem multiInsert_eq {slots : List Slot} (some : slots ≠ []) :
    multiInsert answers xid cid slots = (do
      begun answers
      let rowids ← onConn (batchTail answers xid cid (slots.map Slot.tuple))
      pure (List.zipWith Slot.setInsertedTid slots rowids)) := by
  have nonempty : slots.isEmpty = false := by simpa using some
  rw [multiInsert, nonempty, if_neg Bool.false_ne_true, insertBatch_eq, withConn_setUp]
  simp

theorem doTupleInsert_eq (slot : Slot) :
    doTupleInsert answers xid cid slot = (do
      begun answers
      let rowid ← onConn (insertTail answers xid cid slot.tuple)
      pure (slot.setInsertedTid rowid)) := by
  rw [doTupleInsert, insert_eq, withConn_setUp]
  simp

/-- A relation whose statement is cached, in a transaction. -/
abbrev Going : Backend → Rows → Prop :=
  OnConn fun conn rows => (conn.cache insertSql).isSome = true ∧ Shows conn rows

theorem batch_alike (xid : TransactionId) (cid : CommandId) (slots : List Slot) {conn : Conn}
    (touched : backend.touched = true) (found : backend.conn = some conn) (clean : Clean conn)
    (shows : Shows conn rows) :
    Failing.Alike (OnConn Shows) (OnConn Shows)
      ((do
        let rowids ← onConn (batchTail answers xid cid (slots.map Slot.tuple))
        pure (List.zipWith Slot.setInsertedTid slots rowids) : Failing Backend (List Slot)) backend)
      (attemptSlots answers xid cid slots rows) := by
  rw [attemptSlots, ← Failing.each_zipWith]
  exact (onConn_alike touched found (batchTail_alike _ clean shows)).bind
    fun rowids _ _ going => .some going

theorem doTupleInsert_alike (slot : Slot) (going : Going backend rows) :
    Failing.Alike Going (OnConn Shows) (doTupleInsert answers xid cid slot backend)
      ((do
        let rowid ← attempt answers xid cid slot.tuple
        pure (slot.setInsertedTid rowid) : Failing Rows Slot) rows) := by
  obtain ⟨touched, conn, found, cached, shows⟩ := going
  rw [doTupleInsert, withConn, bind_assoc, Failing.bind_of_some (ensureInXact_of_touched touched)]
  exact (onConn_alike touched found (insert_alike cached shows)).bind
    fun rowid _ _ going => .some going

/-- From the set-up on, the loop does what the rows see. -/
theorem loop_alike (xid : TransactionId) (cid : CommandId) (slot : Slot) (rest : List Slot)
    {conn : Conn} (touched : backend.touched = true) (found : backend.conn = some conn)
    (clean : Clean conn) (shows : Shows conn rows) :
    Failing.Alike (OnConn Shows) (OnConn Shows)
      ((do
        let rowid ← onConn (insertTail answers xid cid slot.tuple)
        let slots ← insertSlots answers xid cid rest
        pure (slot.setInsertedTid rowid :: slots) : Failing Backend (List Slot)) backend)
      (attemptSlots answers xid cid (slot :: rest) rows) := by
  rw [attemptSlots, Failing.each_cons, bind_assoc]
  refine (onConn_alike touched found (insertTail_alike clean shows)).bind
    fun rowid backend rows going => ?_
  rw [pure_bind]
  have loop : Failing.Alike Going (OnConn Shows) (insertSlots answers xid cid rest backend)
      (attemptSlots answers xid cid rest rows) :=
    Failing.Alike.each (fun slot _ _ => doTupleInsert_alike slot) rest going
  refine loop.bind fun slots _ _ going => .some ?_
  obtain ⟨touched, conn, found, _, shows⟩ := going
  exact ⟨touched, conn, found, shows⟩

/-- How many of the next INSERTs succeed, up to the first whose blob or step fails. -/
def survivors (answers : Answers) (steps : Nat) : Nat → Nat
  | 0 => 0
  | count + 1 =>
      if answers.bindBlobFails steps || answers.stepFails steps then 0
      else survivors answers (steps + 1) count + 1

/-- Whether the first of the next INSERTs that fails does so in a step that SQLite answers
with a rollback. -/
def gaveUp (answers : Answers) (steps : Nat) : Nat → Bool
  | 0 => false
  | count + 1 =>
      if answers.bindBlobFails steps then false
      else if answers.stepFails steps then answers.rollsBack steps
      else gaveUp answers (steps + 1) count

theorem attempt_of_fails
    (fails : (answers.bindBlobFails rows.steps || answers.stepFails rows.steps) = true)
    (xmin : TransactionId) (cmin : CommandId) (tuple : Bytes) (count : Nat) :
    ∃ after : Rows, attempt answers xmin cmin tuple rows = (none, after) ∧
      after.db = afterError (gaveUp answers rows.steps (count + 1)) rows.db := by
  unfold attempt gaveUp
  cases bind : answers.bindBlobFails rows.steps with
  | true => exact ⟨rows, rfl, rfl⟩
  | false =>
      have step : answers.stepFails rows.steps = true := by simpa [bind] using fails
      simp only [step]
      exact ⟨_, rfl, rfl⟩

theorem attempt_of_succeeds
    (succeeds : (answers.bindBlobFails rows.steps || answers.stepFails rows.steps) = false)
    (xmin : TransactionId) (cmin : CommandId) (tuple : Bytes) :
    attempt answers xmin cmin tuple rows =
      (some rows.db.view.nextRowid,
        ⟨rows.db.write fun table => table.insertRow xmin cmin tuple, rows.steps + 1⟩) := by
  obtain ⟨bind, step⟩ := Bool.or_eq_false_iff.mp succeeds
  simp [attempt, bind, step]

theorem gaveUp_of_succeeds {steps : Nat}
    (succeeds : (answers.bindBlobFails steps || answers.stepFails steps) = false) (count : Nat) :
    gaveUp answers steps (count + 1) = gaveUp answers (steps + 1) count := by
  obtain ⟨bind, step⟩ := Bool.or_eq_false_iff.mp succeeds
  simp [gaveUp, bind, step]

/-- The tuples before the first failure are written, and there are rowids for all if there
is none. Then the failure may cost the transaction. -/
theorem each_attempt (answers : Answers) (xmin : TransactionId) (cmin : CommandId)
    (tuples : List Bytes) (rows : Rows) :
    (Failing.each (attempt answers xmin cmin) tuples rows).1 =
        (if survivors answers rows.steps tuples.length = tuples.length then
          some (rows.db.view.insertBatch xmin cmin tuples).2 else none) ∧
      (Failing.each (attempt answers xmin cmin) tuples rows).2.db =
        afterError (gaveUp answers rows.steps tuples.length) (rows.db.write fun table =>
          (table.insertBatch xmin cmin
            (tuples.take (survivors answers rows.steps tuples.length))).1) := by
  induction tuples generalizing rows with
  | nil => exact ⟨rfl, rows.db.write_self.symm⟩
  | cons tuple rest ih =>
      rw [Failing.each_cons, List.length_cons, survivors]
      cases fails : answers.bindBlobFails rows.steps || answers.stepFails rows.steps with
      | true =>
          obtain ⟨after, ran, db⟩ := attempt_of_fails fails xmin cmin tuple rest.length
          rw [Failing.bind_of_none ran]
          simp [Table.insertBatch, db]
      | false =>
          rw [Failing.bind_of_some (attempt_of_succeeds fails xmin cmin tuple),
            gaveUp_of_succeeds fails]
          have later := ih ⟨rows.db.write fun table => table.insertRow xmin cmin tuple, rows.steps + 1⟩
          cases ran : Failing.each (attempt answers xmin cmin) rest
              ⟨rows.db.write fun table => table.insertRow xmin cmin tuple, rows.steps + 1⟩ with
          | mk found after =>
              rw [ran] at later
              obtain ⟨values, db⟩ := later
              simp only [Db.view_write, Db.write_write] at values db
              cases found with
              | none =>
                  rw [Failing.bind_of_none ran]
                  have short : survivors answers (rows.steps + 1) rest.length ≠ rest.length :=
                    fun all => by simp [all] at values
                  simp [Table.insertBatch, Table.insert, short, db]
              | some rowids =>
                  rw [Failing.bind_of_some ran]
                  have all : survivors answers (rows.steps + 1) rest.length = rest.length := by
                    by_contra short
                    simp [short] at values
                  rw [if_pos all] at values
                  simp [Table.insertBatch, Table.insert, all, db, Option.some.inj values]

theorem attemptSlots_eq (answers : Answers) (xid : TransactionId) (cid : CommandId)
    (slots : List Slot) (rows : Rows) :
    (attemptSlots answers xid cid slots rows).1 =
        (if survivors answers rows.steps slots.length = slots.length then
          some (List.zipWith Slot.setInsertedTid slots
            (rows.db.view.insertBatch xid cid (slots.map Slot.tuple)).2) else none) ∧
      (attemptSlots answers xid cid slots rows).2.db =
        afterError (gaveUp answers rows.steps slots.length) (rows.db.write fun table =>
          (table.insertBatch xid cid
            ((slots.map Slot.tuple).take (survivors answers rows.steps slots.length))).1) := by
  have loop := each_attempt answers xid cid (slots.map Slot.tuple) rows
  rw [attemptSlots, ← Failing.each_zipWith]
  rw [List.length_map] at loop
  obtain ⟨values, db⟩ := loop
  cases ran : Failing.each (attempt answers xid cid) (slots.map Slot.tuple) rows with
  | mk found after =>
      rw [ran] at values db
      dsimp only at values db
      cases found with
      | none =>
          rw [Failing.bind_of_none ran]
          refine ⟨?_, db⟩
          split
          · next all => simp [all] at values
          · rfl
      | some rowids =>
          rw [Failing.bind_of_some ran]
          refine ⟨?_, db⟩
          split
          · next all =>
              rw [if_pos all] at values
              rw [Failing.pure_apply, Option.some.inj values]
          · next short => simp [short] at values

theorem stored_of_alike {Values : Type} {outcome : Option Values × Backend}
    {outcome' : Option Values × Rows}
    (alike : Failing.Alike (OnConn Shows) (OnConn Shows) outcome outcome') :
    outcome.1 = outcome'.1 ∧ stored outcome.2 = some (outcome'.2.db, true) := by
  cases alike with
  | some going => exact ⟨rfl, going.stored⟩
  | none failed => exact ⟨rfl, failed.stored⟩

theorem insertSlots_cons (slot : Slot) (rest : List Slot) :
    insertSlots answers xid cid (slot :: rest) = (do
      begun answers
      let rowid ← onConn (insertTail answers xid cid slot.tuple)
      let slots ← insertSlots answers xid cid rest
      pure (slot.setInsertedTid rowid :: slots)) := by
  rw [insertSlots, Failing.each_cons, doTupleInsert_eq]
  simp [insertSlots]

/-- A batch and one insert after the other return the same slots and leave the same rows and
flag, from any state of the statement cache. Once the statement is set up, the rows of the
INSERTs before the first failure are written, SQLite rolls them back with the transaction if
it answers that failure so, and all slots are stamped if there is none. -/
theorem multiInsert_eq_insertSlots (answers : Answers) (xid : TransactionId) (cid : CommandId)
    (slots : List Slot) (backend : Backend) :
    (multiInsert answers xid cid slots backend).1 = (insertSlots answers xid cid slots backend).1 ∧
      stored (multiInsert answers xid cid slots backend).2 =
        stored (insertSlots answers xid cid slots backend).2 ∧
      ∀ ready conn, begun answers backend = (some (), ready) → ready.conn = some conn → slots ≠ [] →
        stored (multiInsert answers xid cid slots backend).2 =
            some (afterError (gaveUp answers conn.steps slots.length) (conn.db.write fun table =>
              (table.insertBatch xid cid
                ((slots.map Slot.tuple).take (survivors answers conn.steps slots.length))).1), true) ∧
          (multiInsert answers xid cid slots backend).1 =
            if survivors answers conn.steps slots.length = slots.length then
              some (List.zipWith Slot.setInsertedTid slots
                (conn.db.view.insertBatch xid cid (slots.map Slot.tuple)).2)
            else none := by
  cases slots with
  | nil => exact ⟨rfl, rfl, fun _ _ _ _ some => absurd rfl some⟩
  | cons slot rest =>
      rw [multiInsert_eq (List.cons_ne_nil slot rest), insertSlots_cons]
      cases ran : begun answers backend with
      | mk found after =>
          cases found with
          | none =>
              rw [Failing.bind_of_none ran, Failing.bind_of_none ran]
              exact ⟨rfl, rfl, nofun⟩
          | some =>
              obtain ⟨touched, conn, cached, clean, inTxn⟩ := begun_spec ran
              have shows : Shows conn ⟨conn.db, conn.steps⟩ := ⟨inTxn, rfl, rfl⟩
              rw [Failing.bind_of_some ran, Failing.bind_of_some ran]
              obtain ⟨values, rows⟩ := stored_of_alike
                (batch_alike xid cid (slot :: rest) touched cached clean shows)
              obtain ⟨values', rows'⟩ := stored_of_alike
                (loop_alike xid cid slot rest touched cached clean shows)
              refine ⟨values.trans values'.symm, rows.trans rows'.symm, ?_⟩
              rintro _ _ ⟨⟩ found _
              obtain rfl := Option.some.inj (cached.symm.trans found)
              obtain ⟨slots, db⟩ := attemptSlots_eq answers xid cid (slot :: rest)
                ⟨conn.db, conn.steps⟩
              rw [rows, values, slots, db]
              exact ⟨rfl, rfl⟩

/-- The disk is full at the second INSERT. -/
def diskFull : Answers where
  openConn := none
  beginFails := false
  prepareFails := fun _ => false
  bindBlobFails := fun _ => false
  stepFails := fun step => step == 1
  rollsBack := fun _ => true

def emptyFile : Conn := ⟨fun _ => none, false, ⟨Table.empty, none⟩, 0, 0⟩

/-- The first row of a batch is in no transaction once the step of the second has failed, and
`in_txn` stays set. -/
theorem diskFull_losesBatch :
    survivors diskFull 0 2 = 1 ∧
      stored (multiInsert diskFull 700#32 0#32 [⟨[1], ⟨0#32, 0#16⟩⟩, ⟨[2], ⟨0#32, 0#16⟩⟩]
        ⟨true, some emptyFile⟩).2 = some (⟨Table.empty, none⟩, true) ∧
      stored (insertSlots diskFull 700#32 0#32 [⟨[1], ⟨0#32, 0#16⟩⟩, ⟨[2], ⟨0#32, 0#16⟩⟩]
        ⟨true, some emptyFile⟩).2 = some (⟨Table.empty, none⟩, true) :=
  ⟨rfl, rfl, rfl⟩

end Callbacks

end SqliteHeap.BatchInsert
