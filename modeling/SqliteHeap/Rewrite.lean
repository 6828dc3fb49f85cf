import SqliteHeap.IndexBuild
import SqliteHeap.SessionContents

/-! Table rewrites. Postgres fills a transient relation, swaps the relfilenumbers of the two
relations and drops the transient one. The files are named after the OIDs, which stay. -/

set_option autoImplicit false

namespace SqliteHeap

/-! ## `tam.rs`: the callbacks of a rewrite -/

/-- `relation_set_new_filelocator`; it ignores the new locator and reports no freeze xid. -/
def relationSetNewFilelocator : Write := .reset

/-- The loop of `relation_copy_for_cluster`: the inserts into the new relation, with
`num_tuples` and `tups_vacuumed`. -/
def relationCopyForCluster (xid : TransactionId) (cid : CommandId) :
    List StoredRow → List Write × Nat × Nat
  | [] => ([], 0, 0)
  | row :: rest =>
      let (writes, live, dead) := relationCopyForCluster xid cid rest
      if row.xmax ≠ 0#32 then (writes, live, dead + 1)
      else (.insert xid cid row.tuple :: writes, live + 1, dead)

/-- CLUSTER copies the rows that an index build would take, in rowid order. -/
theorem relationCopyForCluster_tuples (xid : TransactionId) (cid : CommandId) (rows : List StoredRow)
    (table : Table) :
    ((relationCopyForCluster xid cid rows).1.foldl (fun table write => write.apply table)
        table).rows.map StoredRow.tuple =
      table.rows.map StoredRow.tuple ++
        (rows.filter fun row => row.xmax = 0#32).map StoredRow.tuple := by
  induction rows generalizing table with
  | nil => simp [relationCopyForCluster]
  | cons row rows ih =>
      by_cases stamped : row.xmax = 0#32
      · simp only [relationCopyForCluster, stamped, ne_eq, not_true_eq_false, ↓reduceIte,
          List.foldl_cons, decide_true, List.filter_cons_of_pos, List.map_cons]
        rw [show (Write.insert xid cid row.tuple).apply table = table.insertRow xid cid row.tuple
          from rfl, ih]
        simp [Table.insertRow]
      · simp [relationCopyForCluster, stamped, ih]

theorem relationCopyForCluster_counts (xid : TransactionId) (cid : CommandId) (rows : List StoredRow) :
    (relationCopyForCluster xid cid rows).2 =
      ((rows.filter fun row => row.xmax = 0#32).length,
        (rows.filter fun row => row.xmax ≠ 0#32).length) := by
  induction rows with
  | nil => rfl
  | cons row rows ih => by_cases stamped : row.xmax = 0#32 <;> simp [relationCopyForCluster, stamped, ih]

/-- A backend and the relfilenumbers of the catalog. -/
structure Catalogued where
  session : Session
  relfilenumber : RelId → Nat

inductive CatalogEvent where
  | session (event : Event)
  /-- `swap_relation_files`. -/
  | swap (first second : RelId)

namespace Catalogued

/-- `path_for`: the name of the file comes from the OID. -/
def pathFor (rel : RelId) : RelId := rel

def swapRelfilenumbers (first second : RelId) (state : Catalogued) : Catalogued :=
  { state with
    relfilenumber := fun rel =>
      if rel = first then state.relfilenumber second
      else if rel = second then state.relfilenumber first
      else state.relfilenumber rel }

def step (state : Catalogued) : CatalogEvent → Option Catalogued
  | .session event => (state.session.step event).map fun session => { state with session := session }
  | .swap first second =>
      if state.session.phase = .running ∧ state.session.failed = false then
        some (state.swapRelfilenumbers first second)
      else none

def run : Catalogued → List CatalogEvent → Option Catalogued := Transition.run step

/-- What the backend finds in the file of a relation. -/
def table (state : Catalogued) (rel : RelId) : Table := (state.session.view (pathFor rel)).table

/-- The tuples that a scan of a relation returns. -/
def scan (visible : StoredHeader → Bool) (state : Catalogued) (rel : RelId) : List Bytes :=
  (fullScan visible (state.table rel)).map StoredRow.tuple

/-- The tuples that another backend finds, in the committed file. -/
def fileScan (visible : StoredHeader → Bool) (state : Catalogued) (rel : RelId) : List Bytes :=
  (fullScan visible (state.session.fileContents (pathFor rel)).table).map StoredRow.tuple

/-- What a rewrite of `original` may do before its commit: not write the relation, not
drop it and not abort, nor lose its transaction to an error that only warns. -/
def Spares (original : RelId) : CatalogEvent → Prop
  | .session (.call rel _ _) | .session (.drop rel) => rel ≠ original
  | .session (.abortSub _) | .session (.abort _) | .session .commit => False
  | .session (.startSub _ fails) => fails original .savepoint = true → fails original .rollsBack = false
  | .session (.commitSub fails) => fails original .release = true → fails original .rollsBack = false
  | .session .begin | .session (.read _ _) | .session (.preCommit _ _) | .swap _ _ => True

end Catalogued

namespace Catalogued

variable {state next : Catalogued} {event : CatalogEvent} {events : List CatalogEvent}
  {original : RelId}

/-- If no error was raised the relation is read as before, and its unlink is pending
just if it was. Nothing here catches an error. -/
structure Spared (original : RelId) (state next : Catalogued) : Prop where
  sane : next.session.failed = false → state.session.failed = false
  view : next.session.failed = false →
    next.session.view original = state.session.view original
  reaches : ∀ contents, (next.session.conn original).Reaches contents →
    (state.session.conn original).Reaches contents
  drops : original ∈ next.session.backend.drops ↔ original ∈ state.session.backend.drops

theorem sane_of_step {session after : Session} {taken : Event}
    (spares : Spares original (.session taken)) (stepped : session.step taken = some after)
    (sane : after.failed = false) : session.failed = false := by
  cases Session.steps_of_step stepped with
  | begin => exact sane
  | call _ alive | read _ alive | drop _ alive | startSub _ alive | commitSub _ _ alive
  | preCommit _ alive => exact alive
  | abortSub | commit | abort => cases spares

theorem view_of_step {session after : Session} {taken : Event}
    (spares : Spares original (.session taken)) (stepped : session.step taken = some after)
    (sane : after.failed = false) : after.view original = session.view original := by
  cases Session.view_of_step stepped original with
  | same unchanged => exact unchanged
  | unlinked | undone | aborted => cases spares
  | unset back =>
      obtain ⟨⟨_, failing, lossy⟩, _⟩ := List.mem_ite_nil_right.mp back
      rw [spares failing] at lossy
      cases lossy
  | unreleased back =>
      obtain ⟨⟨_, failing, lossy⟩, _⟩ := List.mem_ite_nil_right.mp back
      rw [spares failing] at lossy
      cases lossy
  | wrote => exact absurd rfl spares
  | returned panicked =>
      rw [sane] at panicked
      cases panicked

theorem drops_of_step {session after : Session} {taken : Event}
    (spares : Spares original (.session taken)) (stepped : session.step taken = some after) :
    original ∈ after.backend.drops ↔ original ∈ session.backend.drops := by
  cases Session.steps_of_step stepped with
  | begin => exact Iff.rfl
  | @drop rel =>
      have other : original ≠ rel := Ne.symm spares
      simp [Backend.dropRelation, other]
  | @call rel write fails => rw [(Session.runCall_cases session rel write fails).1.drops]
  | @read rel fails => rw [(Session.runRead_cases session rel fails).1.drops]
  | @startSub order fails _ _ distinct => rw [(Session.runStartSub_kept session distinct fails).2.2]
  | @commitSub fails sub rest =>
      exact iff_of_eq (congrArg (original ∈ ·) (Session.onSubEnd_kept session
        fun rel conn => conn.warnExec (fails rel) .release (SavepointStack.Db.release sub.id)).2.2)
  | @preCommit order fails _ _ _ distinct =>
      rw [(Session.runPreCommit_kept session distinct fails).2.2.2]
  | abortSub | commit | abort => cases spares

theorem spared_of_step (spares : Spares original event) (stepped : state.step event = some next) :
    Spared original state next := by
  cases event with
  | swap first second =>
      obtain ⟨_, same⟩ := Option.ite_none_right_eq_some.mp stepped
      cases same
      exact ⟨id, fun _ => rfl, fun _ reaches => reaches, Iff.rfl⟩
  | session event =>
      obtain ⟨session, taken, rfl⟩ := Option.map_eq_some_iff.mp stepped
      refine ⟨sane_of_step spares taken, view_of_step spares taken, fun contents reaches => ?_,
        drops_of_step spares taken⟩
      rcases Session.reaches_of_step taken reaches with
        old | ⟨rfl, _⟩ | ⟨write, fails, ran, rfl, _⟩
      · exact old
      · cases spares
      · exact absurd rfl spares

theorem spared_of_run (spares : ∀ event ∈ events, Spares original event)
    (reached : run state events = some next) : Spared original state next := by
  induction events generalizing state with
  | nil =>
      cases reached
      exact ⟨id, fun _ => rfl, fun _ reaches => reaches, Iff.rfl⟩
  | cons event events ih =>
      obtain ⟨middle, stepped, reached⟩ := Transition.run_cons_iff.mp reached
      have first := spared_of_step (spares event (by simp)) stepped
      have rest := ih (fun later member => spares later (by simp [member])) reached
      exact ⟨fun sane => first.sane (rest.sane sane),
        fun sane => (rest.view sane).trans (first.view (rest.sane sane)),
        fun contents reaches => first.reaches contents (rest.reaches contents reaches),
        rest.drops.trans first.drops⟩

theorem rels_of_commit (committed : state.step (.session .commit) = some next) (rel : RelId) :
    next.session.backend.rels rel =
      if rel ∈ state.session.backend.drops then .closed none else state.session.backend.rels rel := by
  obtain ⟨session, taken, rfl⟩ := Option.map_eq_some_iff.mp committed
  cases Session.steps_of_step taken with
  | commit => exact Session.runCommit_rel _ _

/-- Postgres does not commit after an error. -/
theorem sane_of_commit (committed : state.step (.session .commit) = some next) :
    state.session.failed = false := by
  obtain ⟨session, taken, rfl⟩ := Option.map_eq_some_iff.mp committed
  cases Session.steps_of_step taken with
  | commit _ sane => exact sane

/-- The rows that the original shows if its contents stay: none if the commit unlinks it,
after a DROP that a subtransaction rolled back. -/
def shown (visible : StoredHeader → Bool) (state : Catalogued) (rel : RelId) : List Bytes :=
  if rel ∈ state.session.backend.drops then [] else state.scan visible rel

/-- The tuples in the file of a relation. -/
def written (state : Catalogued) (rel : RelId) : List Bytes :=
  (state.table rel).rows.map StoredRow.tuple

/-- The events of a rewrite after the transient relation is filled. -/
def finishing (original transient : RelId) (rest : List CatalogEvent) : List CatalogEvent :=
  .swap original transient :: .session (.drop transient) :: (rest ++ [.session .commit])

section Rewritten

variable {visible : StoredHeader → Bool} {filled final : Catalogued} {transient : RelId}
  {fill rest : List CatalogEvent} (filling : run state fill = some filled)
  (finished : run filled (finishing original transient rest) = some final)
  (new : transient ≠ original) (spares : ∀ event ∈ fill ++ rest, Spares original event)

include filling finished new spares

theorem spared_of_rewrite :
    ∃ last, last.session.failed = false ∧ Spared original state last ∧
      final.session.backend.rels original =
      if original ∈ state.session.backend.drops then .closed none
      else last.session.backend.rels original := by
  have before : Spared original state filled :=
    spared_of_run (fun event member => spares event (by simp [member])) filling
  have split : finishing original transient rest =
      (.swap original transient :: .session (.drop transient) :: rest) ++ [.session .commit] := rfl
  rw [split] at finished
  obtain ⟨last, closing, committing⟩ := Transition.run_append_iff.mp finished
  obtain ⟨_, committed, ended⟩ := Transition.run_cons_iff.mp committing
  cases ended
  have after : Spared original filled last := by
    refine spared_of_run (fun event member => ?_) closing
    rcases List.mem_cons.mp member with rfl | member
    · trivial
    · rcases List.mem_cons.mp member with rfl | member
      · exact new
      · exact spares event (by simp [member])
  have rels := rels_of_commit committed original
  have drops := after.drops.trans before.drops
  refine ⟨last, sane_of_commit committed, ⟨fun sane => before.sane (after.sane sane),
    fun sane => (after.view sane).trans (before.view (after.sane sane)),
    fun contents reaches => before.reaches contents (after.reaches contents reaches), drops⟩, ?_⟩
  simpa only [drops] using rels

theorem scan_of_rewrite : final.scan visible original = state.shown visible original := by
  obtain ⟨last, sane, spared, rels⟩ := spared_of_rewrite filling finished new spares
  unfold scan shown table pathFor
  rw [Session.view, rels]
  split
  · rfl
  · exact congrArg (fun contents => (fullScan visible contents.table).map StoredRow.tuple)
      (spared.view sane)

theorem fileScan_of_rewrite (quiet : (state.session.conn original).db.txn = none) :
    final.fileScan visible original = state.shown visible original := by
  obtain ⟨last, sane, spared, rels⟩ := spared_of_rewrite filling finished new spares
  unfold fileScan shown scan table pathFor
  rw [Session.fileContents, rels]
  split
  · rfl
  · have file := spared.reaches _ (RelConn.reaches_file (last.session.conn original))
    rw [RelConn.reaches_of_txn_none quiet, ← Session.fileContents_eq] at file
    have view : state.session.view original = (state.session.conn original).db.file := by
      rw [Session.view_eq, RelConn.view, SavepointStack.Db.view, quiet]
    rw [view, ← file]
    rfl

end Rewritten

/-- From whatever state a rewrite starts, a scan of the original returns after it the rows
that were written to the transient relation if and only if these are the rows that it showed
before. The same goes for other backends, if the transaction had not written the original. -/
theorem rewrite_effective_iff (visible : StoredHeader → Bool) {fill rest : List CatalogEvent}
    {state filled final : Catalogued} {original transient : RelId}
    (filling : run state fill = some filled)
    (finished : run filled (finishing original transient rest) = some final)
    (new : transient ≠ original) (spares : ∀ event ∈ fill ++ rest, Spares original event) :
    ((final.scan visible original).Perm (filled.written transient) ↔
        (state.shown visible original).Perm (filled.written transient)) ∧
      ((state.session.conn original).db.txn = none →
        ((final.fileScan visible original).Perm (filled.written transient) ↔
          (state.shown visible original).Perm (filled.written transient))) := by
  refine ⟨?_, fun quiet => ?_⟩
  · rw [scan_of_rewrite filling finished new spares]
  · rw [fileScan_of_rewrite filling finished new spares quiet]

def oneRelation : Catalogued :=
  ⟨Session.start fun rel => if rel = 1 then some (Table.empty.insertRow 3#32 0#32 [1]) else none, id⟩

/-- Relation 2 is created and filled from relation 1 or with another tuple. -/
def filling (writes : List Write) : List CatalogEvent :=
  .session .begin :: .session (.read 1 Session.noFaults) ::
    (relationSetNewFilelocator :: writes).map fun write =>
      .session (.call 2 write Session.noFaults)

def preCommitBoth : List CatalogEvent := [.session (.preCommit [1, 2] Session.noFaults)]

def clusterWrites : List Write := (relationCopyForCluster 7#32 0#32 (oneRelation.table 1).rows).1
def alterWrites : List Write := [.insert 7#32 0#32 [2]]

def filledBy (writes : List Write) : Catalogued := (run oneRelation (filling writes)).getD oneRelation

def rewrittenBy (writes : List Write) : Catalogued :=
  (run (filledBy writes) (finishing 1 2 preCommitBoth)).getD oneRelation

theorem filling_spares (writes : List Write) :
    ∀ event ∈ filling writes ++ preCommitBoth, Spares 1 event := by
  intro event member
  simp only [filling, preCommitBoth, List.mem_append, List.mem_cons, List.mem_map,
    List.not_mem_nil, or_false] at member
  rcases member with (rfl | rfl | ⟨write, _, rfl⟩) | rfl
  · trivial
  · trivial
  · exact Nat.succ_ne_self 1
  · trivial

theorem cluster_effective :
    (((rewrittenBy clusterWrites).scan (fun _ => true) 1).Perm ((filledBy clusterWrites).written 2) ↔
        (oneRelation.shown (fun _ => true) 1).Perm ((filledBy clusterWrites).written 2)) ∧
      ((oneRelation.session.conn 1).db.txn = none →
        (((rewrittenBy clusterWrites).fileScan (fun _ => true) 1).Perm
            ((filledBy clusterWrites).written 2) ↔
          (oneRelation.shown (fun _ => true) 1).Perm ((filledBy clusterWrites).written 2))) :=
  @rewrite_effective_iff (fun _ => true) (filling clusterWrites) preCommitBoth oneRelation
    (filledBy clusterWrites) (rewrittenBy clusterWrites) 1 2 rfl rfl (by decide)
    (filling_spares clusterWrites)

/-- ALTER TABLE ... TYPE wrote one new row, and the table keeps the old one. -/
theorem alter_ineffective :
    run oneRelation (filling alterWrites) = some (filledBy alterWrites) ∧
      run (filledBy alterWrites) (finishing 1 2 preCommitBoth) = some (rewrittenBy alterWrites) ∧
      (filledBy alterWrites).written 2 = [[2]] ∧
      (rewrittenBy alterWrites).scan (fun _ => true) 1 = [[1]] ∧
      (rewrittenBy alterWrites).fileScan (fun _ => true) 1 = [[1]] := by
  refine ⟨rfl, rfl, ?_, ?_, ?_⟩ <;> decide

end Catalogued

end SqliteHeap
