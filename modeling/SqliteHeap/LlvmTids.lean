import SqliteHeap.Lib.Sequence
import SqliteHeap.LlvmBackend

/-! The rowids that the LLVM-IR port hands out. Its `storage` has an AUTOINCREMENT key, so that
no row gets the TID that an index still has for a deleted one, and the sequence is a row of the
same file: a rollback takes it back, and a new file starts a new one. -/

set_option autoImplicit false

namespace SqliteHeap.Llvm

/-- `storage`, with its row of `sqlite_sequence`. -/
structure Storage where
  rows : List (Int × Bytes)
  seq : Int
deriving DecidableEq

namespace Storage

def empty : Storage := ⟨[], 0⟩

def maxRowid (storage : Storage) : Int := storage.rows.foldr (fun row largest => max row.1 largest) 0

/-- AUTOINCREMENT. -/
def nextRowid (storage : Storage) : Int := max storage.seq storage.maxRowid + 1

def exec (storage : Storage) : Write → Storage
  | .insert tuple => ⟨storage.rows ++ [(storage.nextRowid, tuple)], storage.nextRowid⟩
  | .delete rowid => { storage with rows := storage.rows.filter fun row => row.1 ≠ rowid }
  | .update rowid tuple =>
      { storage with rows := storage.rows.map fun row => if row.1 = rowid then (rowid, tuple) else row }
  | .truncate => { storage with rows := [] }

def after (writes : List Write) : Storage := writes.foldl exec empty

end Storage

def Write.inserts : Write → Bool
  | .insert _ => true
  | .delete _ | .update _ _ | .truncate => false

def inserts (writes : List Write) : Nat := writes.countP Write.inserts

namespace Backend

/-- What statements on `cur_db` read. -/
def shown (backend : Backend) : List Write :=
  match backend.conn with
  | none => []
  | some conn => backend.files conn.rel ++ conn.pending.getD []

/-- `ll_tuple_insert`, with the `sqlite3_last_insert_rowid` that it stamps on the slot. -/
def llTupleInsert (rel : RelId) (tuple : Bytes) (backend : Backend) : Backend × Int :=
  let backend := (backend.ensureConn rel).ensureXact
  (backend.stepStmt (.insert tuple), (Storage.after backend.shown).nextRowid)

/-- `shim_unlink_path` removes the file at once, whatever becomes of the transaction. -/
def unlinkPath (rel : RelId) (backend : Backend) : Backend :=
  { backend with files := fun other => if other = rel then [] else backend.files other }

/-- `ll_relation_set_new_filelocator`, of CREATE TABLE and TRUNCATE. -/
def llRelationSetNewFilelocator (rel : RelId) (backend : Backend) : Backend :=
  (backend.dropConn.unlinkPath rel).ensureConn rel

end Backend

/-- A run of the backend: callbacks, and the ends of its transactions. -/
inductive Step where
  | call (operation : Operation)
  | setNewFilelocator (rel : RelId)
  | finish (commits : Bool)
deriving DecidableEq

namespace Backend

def take (backend : Backend) : Step → Backend
  | .call (.write rel (.insert tuple)) => (backend.llTupleInsert rel tuple).1
  | .call operation => backend.call operation
  | .setNewFilelocator rel => backend.llRelationSetNewFilelocator rel
  | .finish true => (backend.deliver .preCommit).deliver .commit
  | .finish false => backend.deliver .abort

/-- The rowid that a step stamps on a row of the relation. -/
def stamp (rel : RelId) (backend : Backend) : Step → List Int
  | .call (.write other (.insert tuple)) =>
      if other = rel then [(backend.llTupleInsert other tuple).2] else []
  | .call (.write _ (.delete _)) | .call (.write _ (.update _ _)) | .call (.write _ .truncate)
  | .call (.read _) | .setNewFilelocator _ | .finish _ => []

/-- The rowids that the steps stamp, one for each insert into the relation. -/
def stamps (rel : RelId) : Backend → List Step → List Int
  | _, [] => []
  | backend, step :: rest => backend.stamp rel step ++ stamps rel (backend.take step) rest

end Backend

/-- What a step does to the sequence of a relation that keeps its file. Looking for the
connection of another relation rolls the open transaction back. -/
def Step.use (rel : RelId) : Step → Option Sequence.Use
  | .call operation =>
      if operation.rel ≠ rel then some .rollback
      else
        match operation with
        | .write _ (.insert _) => some .draw
        | .write _ (.delete _) | .write _ (.update _ _) | .write _ .truncate | .read _ => none
  | .setNewFilelocator _ => some .rollback
  | .finish true => some .commit
  | .finish false => some .rollback

/-! ## The file's sequence -/

namespace Storage

theorem maxRowid_le {storage : Storage} {bound : Int} (nonneg : 0 ≤ bound)
    (below : ∀ row ∈ storage.rows, row.1 ≤ bound) : storage.maxRowid ≤ bound := by
  obtain ⟨rows, seq⟩ := storage
  induction rows with
  | nil => exact nonneg
  | cons row rest ih =>
      obtain ⟨first, later⟩ := List.forall_mem_cons.mp below
      exact Int.max_le.mpr ⟨first, ih later⟩

/-- No row is beyond the sequence, which has counted the inserts. -/
structure Counted (writes : List Write) (storage : Storage) : Prop where
  seq : storage.seq = inserts writes
  below : ∀ row ∈ storage.rows, row.1 ≤ storage.seq

theorem Counted.nextRowid {writes : List Write} {storage : Storage} (counted : Counted writes storage) :
    storage.nextRowid = inserts writes + 1 := by
  have nonneg : 0 ≤ storage.seq := counted.seq ▸ Int.natCast_nonneg _
  rw [Storage.nextRowid, Int.max_eq_left (maxRowid_le nonneg counted.below), counted.seq]

theorem Counted.exec {writes : List Write} {storage : Storage} (counted : Counted writes storage)
    (write : Write) : Counted (writes ++ [write]) (storage.exec write) := by
  have next := counted.nextRowid
  cases write with
  | insert tuple =>
      constructor
      · change storage.nextRowid = _
        rw [next, inserts, inserts, List.countP_append]
        simp [Write.inserts]
      · intro row member
        change row.1 ≤ storage.nextRowid
        rcases List.mem_append.mp member with old | new
        · have below := counted.below row old
          have seq := counted.seq
          omega
        · rw [List.mem_singleton.mp new]
  | delete rowid =>
      refine ⟨?_, fun row member => counted.below row (List.mem_filter.mp member).1⟩
      rw [inserts, List.countP_append]
      exact counted.seq
  | update rowid tuple =>
      refine ⟨?_, fun row member => ?_⟩
      · rw [inserts, List.countP_append]
        exact counted.seq
      · obtain ⟨old, inOld, rfl⟩ := List.mem_map.mp member
        have below := counted.below old inOld
        change (if old.1 = rowid then (rowid, tuple) else old).1 ≤ storage.seq
        split
        · next same => exact same ▸ below
        · exact below
  | truncate =>
      refine ⟨?_, nofun⟩
      rw [inserts, List.countP_append]
      exact counted.seq

theorem counted_after (writes : List Write) : Counted writes (after writes) := by
  induction writes using List.reverseRecOn with
  | nil => exact ⟨rfl, nofun⟩
  | append_singleton writes write ih =>
      rw [after, List.foldl_append]
      exact ih.exec write

end Storage

/-! ## The backend draws from it -/

namespace Backend

variable {backend : Backend} {rel : RelId}

/-- The inserts that a relation's file has, and those of the open transaction. -/
def sequence (rel : RelId) (backend : Backend) : Sequence :=
  ⟨inserts (backend.files rel), inserts (backend.opened.pendingOn rel)⟩

theorem inserts_append (earlier later : List Write) :
    inserts (earlier ++ later) = inserts earlier + inserts later := List.countP_append

theorem take_call (operation : Operation) : backend.take (.call operation) = backend.call operation := by
  cases operation with
  | read => rfl
  | write rel write => cases write <;> rfl

theorem shown_ensureXact (tracked : backend.Tracked) {pending : Option (List Write)}
    (conn : backend.conn = some ⟨rel, pending⟩) :
    backend.ensureXact.shown = backend.files rel ++ backend.opened.pendingOn rel := by
  have opened : backend.opened = pending.map fun pending => (rel, pending) := by rw [Backend.opened, conn]; rfl
  obtain ⟨files, current, xactOpen, registered⟩ := backend
  dsimp only at conn
  subst conn
  cases pending with
  | none =>
      have closed : xactOpen = false := tracked.opened
      subst closed
      rw [opened]
      rfl
  | some pending =>
      have isOpen : xactOpen = true := tracked.opened
      subst isOpen
      rw [opened]
      change files rel ++ pending = files rel ++ Open.pendingOn rel (some (rel, pending))
      rw [Open.pendingOn_some, if_pos rfl]

/-- The slot gets the next number of the relation's sequence. -/
theorem llTupleInsert_rowid (tracked : backend.Tracked) (rel : RelId) (tuple : Bytes) :
    (backend.llTupleInsert rel tuple).2 = (backend.sequence rel).next := by
  obtain ⟨entered, files, opened, pending, conn⟩ := ensureConn_spec tracked rel
  have shown := shown_ensureXact entered conn
  rw [files, opened] at shown
  have touched : (backend.opened.touch rel).pendingOn rel = backend.opened.pendingOn rel := by
    rw [Open.pendingOn_touch, if_pos rfl]
  change (Storage.after (backend.ensureConn rel).ensureXact.shown).nextRowid = _
  rw [(Storage.counted_after _).nextRowid, shown, touched, inserts_append]
  rfl

theorem sequence_call (tracked : backend.Tracked) (operation : Operation) :
    (backend.call operation).sequence rel =
      ⟨inserts (backend.files rel),
        if operation.rel = rel then
          inserts (backend.opened.pendingOn rel) + inserts (writesOn rel [operation])
        else 0⟩ := by
  obtain ⟨_, files, opened⟩ := call_spec tracked operation
  rw [sequence, files, opened, Open.pendingOn_call]
  split
  · rw [inserts_append]
  · rfl

theorem dropConn_spec (tracked : backend.Tracked) :
    backend.dropConn.Tracked ∧ backend.dropConn.files = backend.files ∧ backend.dropConn.opened = none := by
  obtain ⟨files, conn, xactOpen, registered⟩ := backend
  cases conn with
  | none =>
      have closed : xactOpen = false := tracked.opened
      subst closed
      exact ⟨⟨rfl, nofun⟩, rfl, rfl⟩
  | some conn => exact ⟨⟨rfl, nofun⟩, rfl, rfl⟩

/-- Whatever was open is lost, and the relation has an empty file. -/
theorem llRelationSetNewFilelocator_spec (tracked : backend.Tracked) (other rel : RelId) :
    (backend.llRelationSetNewFilelocator other).Tracked ∧
      (backend.llRelationSetNewFilelocator other).sequence rel =
        if other = rel then ⟨0, 0⟩ else (backend.sequence rel).apply .rollback := by
  obtain ⟨dropped, files, opened⟩ := dropConn_spec tracked
  have unlinked : (backend.dropConn.unlinkPath other).Tracked := ⟨dropped.opened, dropped.registered⟩
  obtain ⟨entered, kept, touched, _⟩ := ensureConn_spec unlinked other
  refine ⟨entered, ?_⟩
  have lost : (backend.llRelationSetNewFilelocator other).opened = none := by
    change _ = backend.dropConn.opened.touch other at touched
    rw [opened] at touched
    exact touched
  have left : (backend.llRelationSetNewFilelocator other).files rel =
      if rel = other then [] else backend.files rel := by
    rw [llRelationSetNewFilelocator, kept, unlinkPath, files]
  rw [sequence, lost, left]
  by_cases same : other = rel
  · rw [if_pos same.symm, if_pos same]
    rfl
  · rw [if_neg (Ne.symm same), if_neg same]
    rfl

/-- What a step stamps and leaves is the use that it makes of the sequence, unless it replaces
the file. -/
theorem take_spec (tracked : backend.Tracked) (rel : RelId) (step : Step) :
    (backend.take step).Tracked ∧
      (backend.take step).sequence rel =
        (if step = .setNewFilelocator rel then ⟨0, 0⟩
        else ((step.use rel).elim id fun use sequence => sequence.apply use) (backend.sequence rel)) ∧
      backend.stamp rel step =
        ((step.use rel).elim [] (backend.sequence rel).given).map fun number : Nat => (number : Int) := by
  cases step with
  | call operation =>
      rw [take_call]
      refine ⟨(call_spec tracked operation).1, ?_⟩
      have keeps : Step.call operation ≠ .setNewFilelocator rel := by
        intro same
        cases same
      rw [sequence_call tracked, if_neg keeps]
      by_cases same : operation.rel = rel
      · subst same
        rw [if_pos rfl]
        cases operation with
        | read other => simp [Step.use, stamp, writesOn, sequence, inserts]
        | write other write =>
            cases write with
            | insert tuple =>
                have rowid := llTupleInsert_rowid tracked other tuple
                simp [Step.use, stamp, writesOn, sequence, inserts, Write.inserts, Operation.rel,
                  Sequence.apply, Sequence.given, rowid]
            | delete | update | truncate =>
                simp [Step.use, stamp, writesOn, sequence, inserts, Write.inserts, Operation.rel]
      · rw [if_neg same]
        have use : (Step.call operation).use rel = some .rollback := if_pos same
        rw [use]
        refine ⟨rfl, ?_⟩
        cases operation with
        | read other => rfl
        | write other write =>
            cases write with
            | insert tuple => exact if_neg same
            | delete | update | truncate => rfl
  | setNewFilelocator other =>
      obtain ⟨renewed, sequence⟩ := llRelationSetNewFilelocator_spec tracked other rel
      refine ⟨renewed, ?_, rfl⟩
      change (backend.llRelationSetNewFilelocator other).sequence rel = _
      rw [sequence]
      simp [Step.use]
  | finish commits =>
      have keeps : Step.finish commits ≠ .setNewFilelocator rel := by
        intro same
        cases same
      rw [if_neg keeps]
      cases commits with
      | true =>
          obtain ⟨committed, closed, files⟩ := deliver_preCommit tracked
          have ended : backend.take (.finish true) = backend.deliver .preCommit := deliver_of_closed closed _
          rw [ended]
          refine ⟨committed, ?_, rfl⟩
          rw [sequence, files, committed.opened_eq_none closed, inserts_append]
          rfl
      | false =>
          obtain ⟨aborted, closed, files⟩ := deliver_abort tracked
          refine ⟨aborted, ?_, rfl⟩
          change (backend.deliver .abort).sequence rel = _
          rw [sequence, files, aborted.opened_eq_none closed]
          rfl

theorem stamps_eq_numbers (tracked : backend.Tracked) (rel : RelId) (steps : List Step)
    (kept : ∀ step ∈ steps, step ≠ .setNewFilelocator rel) :
    backend.stamps rel steps =
      ((backend.sequence rel).numbers (steps.filterMap (Step.use rel))).map fun number : Nat => (number : Int) := by
  induction steps generalizing backend with
  | nil => rfl
  | cons step rest ih =>
      obtain ⟨first, others⟩ := List.forall_mem_cons.mp kept
      obtain ⟨later, sequence, stamped⟩ := take_spec tracked rel step
      rw [if_neg first] at sequence
      rw [stamps, ih later others, sequence, stamped]
      cases use : step.use rel with
      | none => rw [List.filterMap_cons_none use]; rfl
      | some use =>
          rw [List.filterMap_cons_some ‹_›, Sequence.numbers, List.map_append]
          rfl

/-- The stamps depend on nothing but the sequence. -/
theorem stamps_congr {other : Backend} (tracked : backend.Tracked) (tracked' : other.Tracked)
    (same : backend.sequence rel = other.sequence rel) (steps : List Step) :
    backend.stamps rel steps = other.stamps rel steps := by
  induction steps generalizing backend other with
  | nil => rfl
  | cons step rest ih =>
      obtain ⟨later, sequence, stamped⟩ := take_spec tracked rel step
      obtain ⟨later', sequence', stamped'⟩ := take_spec tracked' rel step
      rw [stamps, stamps, stamped, stamped', same]
      rw [same] at sequence
      rw [ih later later' (sequence.trans sequence'.symm)]

/-- After a new file the relation is numbered as if nothing had been before. -/
theorem stamps_renewed (tracked : backend.Tracked) (rel : RelId) (before rest : List Step) :
    backend.stamps rel (before ++ .setNewFilelocator rel :: rest) =
      backend.stamps rel before ++ (start fun _ => []).stamps rel rest := by
  induction before generalizing backend with
  | nil =>
      obtain ⟨renewed, sequence, _⟩ := take_spec tracked rel (.setNewFilelocator rel)
      rw [if_pos rfl] at sequence
      exact stamps_congr renewed (tracked_start _) sequence rest
  | cons step before ih =>
      have later := (take_spec tracked rel step).1
      rw [List.cons_append, stamps, stamps, ih later, List.append_assoc]

end Backend

/-- In every run on any relations, `ll_relation_set_new_filelocator` makes the rowids of its
relation start again. Between two such steps no rowid is stamped twice if and only if no insert
comes after a lost one, whose transaction was rolled back or went on to another relation.
Deletes never free a rowid. -/
theorem stamps_nodup_iff (rel : RelId) (files : RelId → List Write) (steps : List Step) :
    ((∀ step ∈ steps, step ≠ .setNewFilelocator rel) →
        (((Backend.start files).stamps rel steps).Nodup ↔
          Sequence.Fresh (steps.filterMap (Step.use rel)))) ∧
      ∀ before rest, steps = before ++ .setNewFilelocator rel :: rest →
        (Backend.start files).stamps rel steps =
          (Backend.start files).stamps rel before ++ (Backend.start fun _ => []).stamps rel rest := by
  have tracked := Backend.tracked_start files
  constructor
  · intro kept
    have injective : Function.Injective fun number : Nat => (number : Int) := fun _ _ => Int.ofNat.inj
    rw [Backend.stamps_eq_numbers tracked rel steps kept, List.nodup_map_iff injective]
    exact Sequence.nodup_numbers_iff _ _
  · rintro before rest rfl
    exact Backend.stamps_renewed tracked rel before rest

/-- A committed row and a deleted one keep their rowids, and a new file starts with 1. -/
theorem renewed_stamps :
    (((Backend.start fun _ => []).stamps 1
          [.call (.write 1 (.insert [7])), .finish true, .call (.write 1 (.delete 1)),
            .call (.write 1 (.insert [8]))]).Nodup ↔
        Sequence.Fresh [.draw, .commit, .draw]) ∧
      (Backend.start fun _ => []).stamps 1
          [.call (.write 1 (.insert [7])), .finish true, .setNewFilelocator 1,
            .call (.write 1 (.insert [8]))] = [1, 1] :=
  ⟨(stamps_nodup_iff 1 _ _).1 (by decide), (stamps_nodup_iff 1 _ _).2 [_, _] [_] rfl⟩

example : (Backend.start fun _ => []).stamps 1
    [.call (.write 1 (.insert [7])), .finish true, .call (.write 1 (.delete 1)), .finish true,
      .call (.write 1 (.insert [8])), .finish false, .call (.write 1 (.insert [9]))] = [1, 2, 2] := by
  decide

end SqliteHeap.Llvm
