import SqliteHeap.Session

/-! `main.ll` of the LLVM-IR port: one connection for all relations, and a flag and a
callback for the transaction on it. SQLite's calls succeed, and a file is the statements
that were committed in it. -/

set_option autoImplicit false

namespace SqliteHeap.Llvm

/-- The statements of the three write callbacks, and of
`ll_relation_nontransactional_truncate`. -/
inductive Write where
  | insert (tuple : Bytes)
  | delete (rowid : Int)
  | update (rowid : Int) (tuple : Bytes)
  | truncate
deriving DecidableEq

/-- `cur_db` and `cur_rel_oid`, with the statements of the open SQLite transaction. -/
structure Conn where
  rel : RelId
  pending : Option (List Write)
deriving DecidableEq

/-- The files and the thread-local globals of one backend. -/
structure Backend where
  files : RelId → List Write
  conn : Option Conn
  xactOpen : Bool
  xactCbRegistered : Bool

/-- A callback on the rows of a relation. Reads are those that look for the connection. -/
inductive Operation where
  | write (rel : RelId) (write : Write)
  | read (rel : RelId)
deriving DecidableEq

def Operation.rel : Operation → RelId
  | .write rel _ | .read rel => rel

def Operation.writes : Operation → Bool
  | .write _ _ => true
  | .read _ => false

/-- `XactEvent`. -/
inductive XactEvent where
  | commit | parallelCommit | abort | parallelAbort | prepare | preCommit | parallelPreCommit
  | prePrepare

namespace Backend

def start (files : RelId → List Write) : Backend := ⟨files, none, false, false⟩

def store (rel : RelId) (writes : List Write) (backend : Backend) : Backend :=
  { backend with
    files := fun other => if other = rel then backend.files rel ++ writes else backend.files other }

/-- `sqlite3_close` rolls back what was open. -/
def dropConn (backend : Backend) : Backend :=
  match backend.conn with
  | none => backend
  | some _ => { backend with conn := none, xactOpen := false }

def ensureConn (rel : RelId) (backend : Backend) : Backend :=
  match backend.conn with
  | some conn =>
      if conn.rel = rel then backend
      else { backend.dropConn with conn := some ⟨rel, none⟩ }
  | none => { backend.dropConn with conn := some ⟨rel, none⟩ }

def ensureXact (backend : Backend) : Backend :=
  let backend := { backend with xactCbRegistered := true }
  if backend.xactOpen then backend
  else
    { backend with
      conn := backend.conn.map fun conn => { conn with pending := some [] }
      xactOpen := true }

/-- Step a statement on `cur_db`. Outside a transaction SQLite commits it at once. -/
def stepStmt (write : Write) (backend : Backend) : Backend :=
  match backend.conn with
  | none => backend
  | some ⟨rel, some pending⟩ => { backend with conn := some ⟨rel, some (pending ++ [write])⟩ }
  | some ⟨rel, none⟩ => backend.store rel [write]

def call (backend : Backend) : Operation → Backend
  | .write rel write => (backend.ensureConn rel).ensureXact.stepStmt write
  | .read rel => backend.ensureConn rel

def calls (backend : Backend) (operations : List Operation) : Backend := operations.foldl call backend

/-- `COMMIT` on `cur_db`. -/
def execCommit (backend : Backend) : Backend :=
  match backend.conn with
  | some ⟨rel, some pending⟩ =>
      { backend.store rel pending with conn := some ⟨rel, none⟩ }
  | _ => backend

/-- `ROLLBACK` on `cur_db`. -/
def execRollback (backend : Backend) : Backend :=
  { backend with conn := backend.conn.map fun conn => { conn with pending := none } }

def llOnXactEvent (event : XactEvent) (backend : Backend) : Backend :=
  if backend.xactOpen then
    match event with
    | .preCommit => { backend.execCommit with xactOpen := false }
    | .abort => { backend.execRollback with xactOpen := false }
    | _ => backend
  else backend

/-- Postgres calls the callback if it was registered. -/
def deliver (event : XactEvent) (backend : Backend) : Backend :=
  if backend.xactCbRegistered then backend.llOnXactEvent event else backend

end Backend

structure Transaction where
  operations : List Operation
  commits : Bool

def Transaction.run (backend : Backend) (txn : Transaction) : Backend :=
  let ran := backend.calls txn.operations
  if txn.commits then (ran.deliver .preCommit).deliver .commit else ran.deliver .abort

def Backend.after (files : RelId → List Write) (earlier : List Transaction) : Backend :=
  earlier.foldl Transaction.run (.start files)

def writesOn (rel : RelId) (operations : List Operation) : List Write :=
  operations.filterMap fun
    | .write other write => if other = rel then some write else none
    | .read _ => none

/-- No operation after a write touches another relation. -/
def Undisturbed (operations : List Operation) : Prop :=
  operations.Pairwise fun operation later => operation.writes = true → later.rel = operation.rel

instance (operations : List Operation) : Decidable (Undisturbed operations) :=
  inferInstanceAs (Decidable (List.Pairwise _ _))

/-- The relation and the statements of the open SQLite transaction. -/
abbrev Open := Option (RelId × List Write)

def Backend.opened (backend : Backend) : Open :=
  backend.conn.bind fun conn => conn.pending.map fun pending => (conn.rel, pending)

namespace Open

/-- Looking for the connection of a relation loses the transaction of another one. -/
def touch (rel : RelId) (opened : Open) : Open := opened.filter fun entry => entry.1 = rel

/-- The statements that would be committed in the file of a relation. -/
def pendingOn (rel : RelId) (opened : Open) : List Write :=
  ((opened.touch rel).map Prod.snd).getD []

/-- What an operation makes of the open transaction. -/
def call (opened : Open) : Operation → Open
  | .write rel write => some (rel, opened.pendingOn rel ++ [write])
  | .read rel => opened.touch rel

def calls (opened : Open) (operations : List Operation) : Open := operations.foldl call opened

theorem touch_some (rel other : RelId) (pending : List Write) :
    touch rel (some (other, pending)) = if other = rel then some (other, pending) else none := by
  simp [touch, Option.filter]

theorem pendingOn_some (rel other : RelId) (pending : List Write) :
    pendingOn rel (some (other, pending)) = if other = rel then pending else [] := by
  rw [pendingOn, touch_some]
  split <;> rfl

end Open

namespace Backend

variable {backend : Backend}

/-- The flag says whether a SQLite transaction is open, and then the callback is registered. -/
structure Tracked (backend : Backend) : Prop where
  opened : backend.xactOpen = backend.opened.isSome
  registered : backend.xactOpen = true → backend.xactCbRegistered = true

theorem tracked_start (files : RelId → List Write) : (start files).Tracked := ⟨rfl, nofun⟩

theorem ensureConn_spec (tracked : backend.Tracked) (rel : RelId) :
    (backend.ensureConn rel).Tracked ∧ (backend.ensureConn rel).files = backend.files ∧
      (backend.ensureConn rel).opened = backend.opened.touch rel ∧
      ∃ pending, (backend.ensureConn rel).conn = some ⟨rel, pending⟩ := by
  obtain ⟨files, conn, xactOpen, registered⟩ := backend
  cases conn with
  | none =>
      have closed : xactOpen = false := tracked.opened
      subst closed
      exact ⟨⟨rfl, nofun⟩, rfl, rfl, none, rfl⟩
  | some conn =>
      obtain ⟨other, pending⟩ := conn
      by_cases same : other = rel
      · subst same
        have kept : ensureConn other ⟨files, some ⟨other, pending⟩, xactOpen, registered⟩ =
            ⟨files, some ⟨other, pending⟩, xactOpen, registered⟩ := by simp [ensureConn]
        rw [kept]
        refine ⟨tracked, rfl, ?_, pending, rfl⟩
        cases pending <;> simp [opened, Open.touch, Option.filter]
      · have switched : ensureConn rel ⟨files, some ⟨other, pending⟩, xactOpen, registered⟩ =
            ⟨files, some ⟨rel, none⟩, false, registered⟩ := by simp [ensureConn, dropConn, same]
        rw [switched]
        refine ⟨⟨rfl, nofun⟩, rfl, ?_, none, rfl⟩
        cases pending <;> simp [opened, Open.touch, Option.filter, same]

theorem call_spec (tracked : backend.Tracked) (operation : Operation) :
    (backend.call operation).Tracked ∧ (backend.call operation).files = backend.files ∧
      (backend.call operation).opened = backend.opened.call operation := by
  cases operation with
  | read rel =>
      obtain ⟨tracked, files, opened, _⟩ := ensureConn_spec tracked rel
      exact ⟨tracked, files, opened⟩
  | write rel write =>
      obtain ⟨tracked, files, opened, pending, conn⟩ := ensureConn_spec tracked rel
      rw [call, Open.call, ← files, Open.pendingOn, ← opened]
      generalize backend.ensureConn rel = entered at tracked conn ⊢
      obtain ⟨files, current, xactOpen, registered⟩ := entered
      dsimp only at conn
      subst conn
      cases pending with
      | none =>
          have closed : xactOpen = false := tracked.opened
          subst closed
          exact ⟨⟨rfl, fun _ => rfl⟩, rfl, rfl⟩
      | some pending =>
          have isOpen : xactOpen = true := tracked.opened
          subst isOpen
          exact ⟨⟨rfl, fun _ => rfl⟩, rfl, rfl⟩

theorem calls_spec (tracked : backend.Tracked) (operations : List Operation) :
    (backend.calls operations).Tracked ∧ (backend.calls operations).files = backend.files ∧
      (backend.calls operations).opened = backend.opened.calls operations := by
  induction operations generalizing backend with
  | nil => exact ⟨tracked, rfl, rfl⟩
  | cons operation rest ih =>
      obtain ⟨tracked, files, opened⟩ := call_spec tracked operation
      obtain ⟨later, kept, left⟩ := ih tracked
      exact ⟨later, kept.trans files, left.trans (by rw [opened]; rfl)⟩

theorem Tracked.opened_eq_none (tracked : backend.Tracked) (closed : backend.xactOpen = false) :
    backend.opened = none := by
  have none := tracked.opened
  rw [closed] at none
  simpa using none.symm

theorem Tracked.cases (tracked : backend.Tracked) :
    (backend.xactOpen = false ∧ backend.opened = none) ∨
      ∃ files rel pending, backend = ⟨files, some ⟨rel, some pending⟩, true, true⟩ := by
  cases isOpen : backend.xactOpen with
  | false => exact .inl ⟨rfl, tracked.opened_eq_none isOpen⟩
  | true =>
      have registered := tracked.registered isOpen
      have opened := tracked.opened
      obtain ⟨files, conn, xactOpen, registered⟩ := backend
      dsimp only at isOpen registered
      subst isOpen registered
      rcases conn with _ | ⟨rel, _ | pending⟩
      · cases opened
      · cases opened
      · exact .inr ⟨files, rel, pending, rfl⟩

theorem deliver_of_closed (closed : backend.xactOpen = false) (event : XactEvent) :
    backend.deliver event = backend := by
  simp [deliver, llOnXactEvent, closed]

theorem deliver_preCommit (tracked : backend.Tracked) :
    (backend.deliver .preCommit).Tracked ∧ (backend.deliver .preCommit).xactOpen = false ∧
      ∀ rel, (backend.deliver .preCommit).files rel =
        backend.files rel ++ backend.opened.pendingOn rel := by
  rcases tracked.cases with ⟨closed, none⟩ | ⟨files, rel, pending, rfl⟩
  · rw [deliver_of_closed closed, none]
    exact ⟨tracked, closed, fun rel => (List.append_nil _).symm⟩
  · refine ⟨⟨rfl, nofun⟩, rfl, fun other => ?_⟩
    change (if other = rel then files rel ++ pending else files other) =
      files other ++ Open.pendingOn other (some (rel, pending))
    rw [Open.pendingOn_some]
    by_cases same : other = rel
    · simp [same]
    · simp [same, Ne.symm same]

theorem deliver_abort (tracked : backend.Tracked) :
    (backend.deliver .abort).Tracked ∧ (backend.deliver .abort).xactOpen = false ∧
      (backend.deliver .abort).files = backend.files := by
  rcases tracked.cases with ⟨closed, none⟩ | ⟨files, rel, pending, rfl⟩
  · rw [deliver_of_closed closed]
    exact ⟨tracked, closed, rfl⟩
  · exact ⟨⟨rfl, nofun⟩, rfl, rfl⟩

/-- Between transactions nothing is open. -/
theorem after_spec (files : RelId → List Write) (earlier : List Transaction) :
    (after files earlier).Tracked ∧ (after files earlier).opened = none := by
  suffices kept : ∀ backend : Backend, backend.Tracked → backend.xactOpen = false →
      (earlier.foldl Transaction.run backend).Tracked ∧
        (earlier.foldl Transaction.run backend).xactOpen = false by
    obtain ⟨tracked, closed⟩ := kept (start files) (tracked_start files) rfl
    exact ⟨tracked, tracked.opened_eq_none closed⟩
  induction earlier with
  | nil => exact fun _ tracked closed => ⟨tracked, closed⟩
  | cons txn rest ih =>
      intro backend tracked _
      have ran := (calls_spec tracked txn.operations).1
      rw [List.foldl_cons, Transaction.run]
      split
      · obtain ⟨committed, closed, _⟩ := deliver_preCommit ran
        rw [deliver_of_closed closed]
        exact ih _ committed closed
      · obtain ⟨aborted, closed, _⟩ := deliver_abort ran
        exact ih _ aborted closed

end Backend

namespace Open

@[simp] theorem calls_cons (opened : Open) (operation : Operation) (rest : List Operation) :
    opened.calls (operation :: rest) = (opened.call operation).calls rest := rfl

@[simp] theorem pendingOn_none (rel : RelId) : pendingOn rel none = [] := rfl

theorem pendingOn_touch (rel other : RelId) (opened : Open) :
    (opened.touch rel).pendingOn other = if other = rel then opened.pendingOn other else [] := by
  cases opened with
  | none => simp [touch, pendingOn]
  | some entry =>
      obtain ⟨owner, pending⟩ := entry
      rw [touch_some]
      by_cases own : owner = rel
      · subst own
        rw [if_pos rfl, pendingOn_some]
        by_cases same : other = owner
        · rw [if_pos same]
        · rw [if_neg same, if_neg (Ne.symm same)]
      · by_cases same : other = rel
        · subst same
          simp [own, pendingOn_some]
        · simp [own, same]

theorem pendingOn_call (rel : RelId) (opened : Open) (operation : Operation) :
    (opened.call operation).pendingOn rel =
      if operation.rel = rel then opened.pendingOn rel ++ writesOn rel [operation] else [] := by
  cases operation with
  | read other =>
      rw [call, pendingOn_touch]
      simp [Operation.rel, writesOn, eq_comm]
  | write other write =>
      rw [call, pendingOn_some]
      by_cases same : other = rel
      · subst same
        simp [Operation.rel, writesOn]
      · simp [Operation.rel, same]

theorem writesOn_cons (rel : RelId) (operation : Operation) (rest : List Operation) :
    writesOn rel (operation :: rest) = writesOn rel [operation] ++ writesOn rel rest :=
  List.filterMap_append (l := [operation])

theorem writesOn_of_ne {rel : RelId} {operation : Operation} (other : operation.rel ≠ rel) :
    writesOn rel [operation] = [] := by
  cases operation with
  | read => rfl
  | write owner write => simpa [writesOn, Operation.rel] using other

theorem writesOn_eq_nil_iff {operation : Operation} :
    writesOn operation.rel [operation] = [] ↔ operation.writes = false := by
  cases operation <;> simp [writesOn, Operation.rel, Operation.writes]

theorem length_pendingOn_calls (rel : RelId) (opened : Open) (operations : List Operation) :
    ((opened.calls operations).pendingOn rel).length ≤
      (opened.pendingOn rel).length + (writesOn rel operations).length := by
  induction operations generalizing opened with
  | nil => simp [calls]
  | cons operation rest ih =>
      have later := ih (opened.call operation)
      rw [calls_cons, writesOn_cons, List.length_append]
      rw [pendingOn_call] at later
      split at later
      · rw [List.length_append] at later
        omega
      · simp only [List.length_nil] at later
        omega

/-- No operation on another relation comes after a write on this one. -/
def UndisturbedOn (rel : RelId) (operations : List Operation) : Prop :=
  operations.Pairwise fun operation later =>
    operation.writes = true → operation.rel = rel → later.rel = rel

/-- The statements that are open stay open, with the writes of further operations, unless one
of these is on another relation. -/
theorem pendingOn_calls_iff (rel : RelId) (opened : Open) (operations : List Operation) :
    (opened.calls operations).pendingOn rel = opened.pendingOn rel ++ writesOn rel operations ↔
      (opened.pendingOn rel = [] ∨ ∀ operation ∈ operations, operation.rel = rel) ∧
        UndisturbedOn rel operations := by
  induction operations generalizing opened with
  | nil => simp [calls, writesOn, UndisturbedOn]
  | cons operation rest ih =>
      have later := ih (opened.call operation)
      rw [pendingOn_call] at later
      rw [calls_cons, writesOn_cons, UndisturbedOn, List.pairwise_cons, List.forall_mem_cons]
      by_cases same : operation.rel = rel
      · subst same
        rw [if_pos rfl, List.append_assoc, List.append_eq_nil_iff, writesOn_eq_nil_iff] at later
        rw [later]
        cases writes : operation.writes <;> simp [UndisturbedOn]
        tauto
      · rw [if_neg same, List.nil_append] at later
        rw [writesOn_of_ne same, List.nil_append]
        constructor
        · intro kept
          -- the transaction is lost, and later writes are too few to make up for it
          have bound := length_pendingOn_calls rel (opened.call operation) rest
          rw [kept, pendingOn_call, if_neg same, List.length_append, List.length_nil] at bound
          have empty : opened.pendingOn rel = [] := List.length_eq_zero_iff.mp (by omega)
          rw [empty, List.nil_append] at kept
          exact ⟨.inl empty, fun _ _ _ own => absurd own same, (later.mp kept).2⟩
        · rintro ⟨empty | ⟨own, _⟩, _, undisturbed⟩
          · rw [empty, List.nil_append]
            exact later.mpr ⟨.inl rfl, undisturbed⟩
          · exact absurd own same

theorem undisturbedOn_iff {operations : List Operation} :
    (∀ rel, UndisturbedOn rel operations) ↔ Undisturbed operations := by
  simp only [UndisturbedOn, Undisturbed, List.pairwise_iff_getElem]
  constructor
  · exact fun each index later first second order writes =>
      each _ index later first second order writes rfl
  · rintro all rel index later first second order writes rfl
    exact all index later first second order writes

end Open

/-- At PRE_COMMIT a transaction commits all its writes, and at ABORT none, if and only if none
of them is followed by an operation on another relation. -/
theorem commits_all_iff (files : RelId → List Write) (earlier : List Transaction)
    (operations : List Operation) :
    ((∀ rel, (((Backend.after files earlier).calls operations).deliver .preCommit).files rel =
          (Backend.after files earlier).files rel ++ writesOn rel operations) ∧
        ∀ rel, (((Backend.after files earlier).calls operations).deliver .abort).files rel =
          (Backend.after files earlier).files rel) ↔
      Undisturbed operations := by
  obtain ⟨tracked, none⟩ := Backend.after_spec files earlier
  obtain ⟨ran, kept, opened⟩ := Backend.calls_spec tracked operations
  obtain ⟨_, _, committed⟩ := Backend.deliver_preCommit ran
  obtain ⟨_, _, aborted⟩ := Backend.deliver_abort ran
  rw [none] at opened
  simp only [committed, aborted, kept, opened, implies_true, and_true, List.append_cancel_left_eq]
  rw [← Open.undisturbedOn_iff]
  refine forall_congr' fun rel => ?_
  have exact := Open.pendingOn_calls_iff rel .none operations
  simpa using exact

/-- An insert into one relation, and a read of another one before the commit. -/
theorem insert_lost :
    ¬ (∀ rel, (((Backend.after (fun _ => []) []).calls [.write 1 (.insert [7]), .read 2]).deliver
          .preCommit).files rel =
        (Backend.after (fun _ => []) []).files rel ++
          writesOn rel [.write 1 (.insert [7]), .read 2]) := by
  intro all
  exact absurd (all 1) (by decide)

end SqliteHeap.Llvm
