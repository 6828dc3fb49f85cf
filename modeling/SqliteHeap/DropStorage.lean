import SqliteHeap.SessionInvariant

/-! Dropping a relation. `drop_relation` defers the unlink to the commit of the
whole transaction, so it is not undone with a subtransaction. -/

set_option autoImplicit false

namespace SqliteHeap.Session

/-- The commit unlinks the relations whose drop was not undone and no others:
every relation that is still there keeps its file and its connection. -/
def DropsExactly (session next : Session) : Prop :=
  (∀ rel, rel ∈ session.backend.drops ↔ rel ∈ session.dropLedger.current) ∧
    (∀ rel ∈ session.dropLedger.current, next.backend.rels rel = .closed none) ∧
    ∀ rel, rel ∉ session.dropLedger.current → next.backend.rels rel = session.backend.rels rel

/-- Whatever an aborted subtransaction dropped was dropped by another call too. -/
def UndoneDroppedAgain (session : Session) : Prop :=
  ∀ rel ∈ session.undoneDrops, rel ∈ session.dropLedger.current

/-- The registered callbacks are those of all drops, undone or not. -/
def Deferred (session : Session) : Prop :=
  ∀ rel, rel ∈ session.backend.drops ↔
    rel ∈ session.dropLedger.current ∨ rel ∈ session.undoneDrops

namespace Deferred

variable {session next : Session} {event : Event}

theorem congr (deferred : session.Deferred) (drops : next.backend.drops = session.backend.drops)
    (ledger : next.dropLedger.current = session.dropLedger.current)
    (undone : next.undoneDrops = session.undoneDrops) : next.Deferred := by
  rw [Deferred, drops, ledger, undone]
  exact deferred

theorem abortSub (deferred : session.Deferred) (formed : session.WellFormed) (sub : SubFrame)
    (rest : List SubFrame) (fails : Faults) : (session.runAbortSub sub rest fails).Deferred := by
  obtain ⟨_, _, drops⟩ := onSubEnd_kept session
    fun rel conn => conn.warnExec (fails rel) .rollbackTo (SavepointStack.Db.rollbackTo sub.id)
  obtain ⟨inside, split⟩ := formed.dropGrowing.abort_le List.prefix_refl
  intro rel
  rw [show (session.runAbortSub sub rest fails).backend.drops = session.backend.drops from drops,
    deferred rel]
  simp only [runAbortSub, ← split, List.drop_left, List.mem_append]
  tauto

theorem step (deferred : session.Deferred) (formed : session.WellFormed)
    (stepped : session.step event = some next) : next.Deferred := by
  cases steps_of_step stepped with
  | begin => exact deferred
  | @call rel write fails =>
      exact deferred.congr (runCall_cases session rel write fails).1.drops rfl rfl
  | @read rel fails => exact deferred.congr (runRead_cases session rel fails).1.drops rfl rfl
  | @drop dropped =>
      intro rel
      simp only [Backend.dropRelation, Nested.update_current, List.mem_append, deferred rel]
      tauto
  | @startSub order fails _ _ distinct _ =>
      exact deferred.congr (runStartSub_kept session distinct fails).2.2 rfl rfl
  | @commitSub fails sub rest =>
      have kept := onSubEnd_kept session
        fun rel conn => conn.warnExec (fails rel) .release (SavepointStack.Db.release sub.id)
      exact deferred.congr kept.2.2 rfl rfl
  | abortSub => exact deferred.abortSub formed _ _ _
  | @preCommit order fails _ _ _ distinct _ =>
      exact deferred.congr (runPreCommit_kept session distinct fails).2.2.2 rfl rfl
  | commit => simp [Deferred, runCommit, endXact, Nested.fresh]
  | abort => simp [Deferred, runAbort, endXact, Nested.fresh]

theorem run {files : RelId → Option Table} {events : List Event}
    (reached : Session.run (Session.start files) events = some session) : session.Deferred := by
  have both := @Transition.run_invariant _ _ Session.step _
    (fun session => session.WellFormed ∧ session.Deferred)
    (fun _ _ _ kept _ stepped => ⟨kept.1.step stepped, kept.2.step kept.1 stepped⟩) _ _ _
    ⟨WellFormed.start files, by simp [Deferred, Session.start, Nested.fresh]⟩
    (Transition.meets_trivial _ _) reached
  exact both.2

end Deferred

/-- At the commit of any transaction of any run, the right files are unlinked if
and only if every drop that was undone was made again; an abort unlinks nothing. -/
theorem commit_drops_iff {files : RelId → Option Table} {events : List Event} {session : Session}
    (reached : Session.run (Session.start files) events = some session) :
    (∀ next, session.step .commit = some next →
      (session.DropsExactly next ↔ session.UndoneDroppedAgain)) ∧
    ∀ fails next, session.step (.abort fails) = some next → ∀ rel,
      (next.backend.rels rel).file = (session.backend.rels rel).file ∧
        (next.backend.rels rel).cached = (session.backend.rels rel).cached := by
  have deferred := Deferred.run reached
  constructor
  · intro next stepped
    cases steps_of_step stepped with
    | commit =>
        constructor
        · intro exactly rel undone
          exact (exactly.1 rel).mp ((deferred rel).mpr (.inr undone))
        · intro again
          have same : ∀ rel, rel ∈ session.backend.drops ↔ rel ∈ session.dropLedger.current :=
            fun rel => ⟨fun dropped => ((deferred rel).mp dropped).elim id (again rel),
              fun survives => (deferred rel).mpr (.inl survives)⟩
          refine ⟨same, fun rel survives => ?_, fun rel kept => ?_⟩
          · rw [runCommit_rel, if_pos ((same rel).mpr survives)]
          · rw [runCommit_rel, if_neg fun dropped => kept ((same rel).mp dropped)]
  · intro fails next stepped rel
    cases steps_of_step stepped with
    | abort =>
        rcases runAbort_rel session fails rel with ⟨unchanged, _⟩ | ⟨_, opened, _, effect⟩
        · rw [unchanged]
          exact ⟨rfl, rfl⟩
        · rw [opened, effect]
          exact ⟨congrArg some (RelConn.rollback_file _ _), rfl⟩

/-- One drop is undone and made again, another survives its subtransaction. -/
def dropsTwice : List Event :=
  [.begin, .startSub [] noFaults, .drop 1, .abortSub noFaults, .startSub [] noFaults, .drop 2,
    .commitSub noFaults, .drop 1, .preCommit [] noFaults]

theorem dropsTwice_exactly :
    ∃ session next, Session.run (Session.start noFiles) dropsTwice = some session ∧
      session.backend.drops = [1, 2, 1] ∧ session.step .commit = some next ∧
      session.DropsExactly next := by
  have ends : ∃ session, Session.run (Session.start noFiles) dropsTwice = some session ∧
      session.backend.drops = [1, 2, 1] ∧ session.undoneDrops = [1] ∧
      session.dropLedger.current = [2, 1] ∧ (session.step .commit).isSome = true :=
    ⟨_, rfl, by decide, by decide, by decide, by decide⟩
  obtain ⟨session, reached, drops, undone, ledger, commits⟩ := ends
  obtain ⟨next, stepped⟩ := Option.isSome_iff_exists.mp commits
  refine ⟨session, next, reached, drops, stepped, ?_⟩
  exact ((commit_drops_iff reached).1 next stepped).mpr (by simp [UndoneDroppedAgain, undone, ledger])

/-- A table with one row is dropped in a subtransaction that aborts. -/
def dropUndone : List Event :=
  [.begin, .call 1 insertOne noFaults, .preCommit [1] noFaults, .commit,
    .begin, .startSub [] noFaults, .drop 1, .abortSub noFaults, .preCommit [] noFaults]

/-- The commit unlinks the file of a table whose drop was rolled back. -/
theorem dropUndone_unlinks :
    ∃ session next, Session.run (Session.start noFiles) dropUndone = some session ∧
      session.step .commit = some next ∧ session.dropLedger.current = [] ∧
      (session.fileContents 1).table.countRows = 1 ∧ (next.backend.rels 1).file = none ∧
      ¬ session.DropsExactly next := by
  refine ⟨_, _, rfl, rfl, by decide, by decide, by decide, fun exactly => ?_⟩
  have kept := (exactly.1 1).mp (by decide)
  revert kept
  decide

end SqliteHeap.Session
