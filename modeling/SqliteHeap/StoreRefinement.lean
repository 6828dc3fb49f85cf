import SqliteHeap.DropStorage
import SqliteHeap.AbortCleanup
import SqliteHeap.Lib.NestedStore
import SqliteHeap.Lib.Simulation
import SqliteHeap.SubtransactionAtomicity

/-! One backend as a transactional store. Whatever number of transactions it runs, with
nested subtransactions, failing statements and drops, the tables that it reads and those
that it has committed are the ones of a store in which every action is atomic. -/

set_option autoImplicit false

namespace SqliteHeap.Session

open SavepointStack

/-- The store of tables under relation OIDs. Its changes are statements. -/
abbrev TableStore := NestedStore RelId Table

namespace TableStore

abbrev Action := StoreAction RelId (List Table.Stmt)

def apply (stmts : List Table.Stmt) (table : Table) : Table :=
  stmts.foldl (fun table stmt => table.exec stmt) table

def step : TableStore → Action → Option TableStore := NestedStore.step apply Table.empty

def start (files : RelId → Option Table) : TableStore :=
  NestedStore.start fun rel => (files rel).getD Table.empty

end TableStore

/-- What an event means for the store. A call means the statements that it executed, and
`PreCommit` nothing: until Postgres has committed, so has the store. -/
def meaning (session : Session) : Event → List TableStore.Action
  | .begin => [.begin]
  | .call rel write fails =>
      [.change rel ((session.executed rel write fails).map fun executed => executed.2.stmt)]
  | .read _ _ => []
  | .drop rel => [.drop rel]
  | .startSub _ _ => [.startSub]
  | .commitSub _ => [.commitSub]
  | .abortSub _ => [.abortSub]
  | .preCommit _ _ => []
  | .commit => [.commit]
  | .abort _ => [.abort]

/-- The steps that the store can follow. Tables are touched before `PreCommit` only, the
first open of a transaction succeeds, and no error is one that SQLite answers with a
rollback. Savepoints are set, and a subtransaction that aborts has written only relations
touched before it. COMMIT and ROLLBACK succeed, Postgres commits after `PreCommit`, and what
an aborted subtransaction dropped was dropped again. -/
def KeepsStore (session : Session) : Event → Prop
  | .begin | .drop _ => True
  | .call rel _ fails | .read rel fails =>
      session.phase = .running ∧ ¬ Backend.FirstOpenFails fails rel session.backend ∧
        fails rel .rollsBack = false
  | .startSub _ fails => session.SetsSavepoints fails
  | .commitSub fails => session.Lossless (.commitSub fails)
  | .abortSub fails => session.UndoesWrites fails ∧ session.Lossless (.abortSub fails)
  | .preCommit _ fails => session.Succeeds .commit fails
  | .commit => session.UndoneDroppedAgain
  | .abort fails => session.phase = .running ∧ session.Succeeds .rollback fails

instance (session : Session) : Decidable session.UndoneDroppedAgain :=
  inferInstanceAs (Decidable (∀ rel ∈ session.undoneDrops, _))

instance (session : Session) : ∀ event, Decidable (session.KeepsStore event)
  | .begin | .drop _ => isTrue trivial
  | .call _ _ _ | .read _ _ => inferInstanceAs (Decidable (_ ∧ ¬ _ ∧ _))
  | .startSub _ fails => inferInstanceAs (Decidable (session.SetsSavepoints fails))
  | .commitSub fails => inferInstanceAs (Decidable (session.Lossless (.commitSub fails)))
  | .abortSub fails =>
      inferInstanceAs (Decidable (session.UndoesWrites fails ∧ session.Lossless (.abortSub fails)))
  | .preCommit _ fails => inferInstanceAs (Decidable (session.Succeeds .commit fails))
  | .commit => inferInstanceAs (Decidable session.UndoneDroppedAgain)
  | .abort _ => inferInstanceAs (Decidable (_ ∧ _))

/-! ## What the ledgers stand for -/

/-- The working state of the store that a ledger and the drops stand for. -/
def work (base : RelId → Contents) (ledger : List Executed) (drops : List RelId) :
    StoreWork RelId Table where
  values rel := ((base rel).append (statementsOn rel ledger)).table
  dropped := drops

/-- Both ledgers of the running transaction as the store holds them. -/
def nestedWork (base : RelId → Contents) (session : Session) : Nested (StoreWork RelId Table) where
  current := work base session.ledger.current session.dropLedger.current
  saved := List.zipWith (work base) session.ledger.saved session.dropLedger.saved

section Work

variable {base : RelId → Contents} {session next : Session}

theorem apply_append (contents : Contents) (ran : List Entry) :
    (contents.append ran).table = TableStore.apply (ran.map Entry.stmt) contents.table := by
  rw [Contents.append_table, TableStore.apply, List.foldl_map]

theorem work_set (base : RelId → Contents) (ledger : List Executed) (drops : List RelId) (rel : RelId)
    (ran : List Entry) :
    (work base ledger drops).set rel
        (TableStore.apply (ran.map Entry.stmt) ((work base ledger drops).values rel)) =
      work base (ledger ++ ran.map (Prod.mk rel)) drops := by
  have values : Function.update (work base ledger drops).values rel
      (TableStore.apply (ran.map Entry.stmt) ((work base ledger drops).values rel)) =
      (work base (ledger ++ ran.map (Prod.mk rel)) drops).values := by
    funext other
    by_cases same : other = rel
    · subst same
      rw [Function.update_self]
      simp only [work, statementsOn_append, statementsOn_map_self, ← apply_append,
        Contents.append_append]
    · rw [Function.update_of_ne same]
      simp only [work, statementsOn_append, statementsOn_map_other same, List.append_nil]
  rw [StoreWork.set, values]
  rfl

theorem nestedWork_congr (ledger : next.ledger = session.ledger)
    (drops : next.dropLedger = session.dropLedger) :
    nestedWork base next = nestedWork base session := by
  rw [nestedWork, nestedWork, ledger, drops]

/-- Both ledgers remember as many starts as there are open subtransactions. -/
theorem nestedWork_saved_eq_nil_iff (base : RelId → Contents) (formed : session.WellFormed) :
    (nestedWork base session).saved = [] ↔ session.subs = [] := by
  have depth := formed.depth
  have dropDepth := formed.dropDepth
  rw [nestedWork, List.zipWith_eq_nil_iff]
  constructor
  · rintro (none | none)
    · rw [none] at depth
      exact List.length_eq_zero_iff.mp depth.symm
    · rw [none] at dropDepth
      exact List.length_eq_zero_iff.mp dropDepth.symm
  · intro none
    rw [none] at depth
    exact .inl (List.length_eq_zero_iff.mp depth)

theorem executed_map (session : Session) (rel : RelId) (write : Write) (fails : Faults) :
    ∃ ran : List Entry, session.executed rel write fails = ran.map (Prod.mk rel) := by
  unfold executed
  split
  · exact ⟨[], rfl⟩
  · exact ⟨_, rfl⟩

/-- A call that returned has executed all its statements. -/
theorem executed_of_returned {rel : RelId} {write : Write} {fails : Faults}
    (returned : (session.runCall rel write fails).failed = false) :
    (session.executed rel write fails).map (fun executed => executed.2.stmt) = write.stmts := by
  obtain ⟨_, ran, ledger, _, _, extended, _⟩ := runCall_cases session rel write fails
  have appended : session.ledger.current ++ session.executed rel write fails =
      session.ledger.current ++ ran.map (Prod.mk rel) := congrArg Nested.current ledger
  rw [List.append_cancel_left appended, ← extended.2 returned]
  simp

end Work

/-! ## The simulation -/

/-- The store has what the session reads and what it has committed. -/
structure Refines (session : Session) (store : TableStore) : Prop where
  entered : session.Entered
  deferred : session.Deferred
  idle : session.phase = .idle →
    store.running = none ∧ ∀ rel, store.committed rel = (session.fileContents rel).table
  running : session.phase = .running → ∃ base, session.Synced base ∧
    (∀ rel, store.committed rel = (base rel).table) ∧ store.running = some (nestedWork base session)
  preCommitted : session.phase = .preCommitted → session.backend.txRels = ∅ ∧ ∃ values,
    store.running = some (Nested.fresh ⟨values, session.dropLedger.current⟩) ∧
      ∀ rel, values rel = (session.fileContents rel).table

namespace Refines

variable {session next : Session} {store : TableStore} {event : Event}

theorem start (files : RelId → Option Table) :
    (Session.start files).Refines (TableStore.start files) where
  entered := Entered.start files
  deferred := by simp [Deferred, Session.start, Nested.fresh]
  idle _ := by
    refine ⟨rfl, fun rel => ?_⟩
    change (files rel).getD Table.empty = (((files rel).map fun table => ⟨table, []⟩).getD
      Contents.fresh).table
    cases files rel <;> rfl
  running := nofun
  preCommitted := nofun

theorem atRest (refines : session.Refines store) (idle : session.phase = .idle) : session.AtRest :=
  ⟨refines.entered.formed, idle, refines.entered.quiet (refines.entered.idle idle),
    refines.entered.idle idle⟩

/-- The relation at a state inside a transaction. -/
theorem of_synced {base : RelId → Contents} (entered : next.Entered) (deferred : next.Deferred)
    (synced : next.Synced base) (committed : ∀ rel, store.committed rel = (base rel).table) :
    next.Refines { store with running := some (nestedWork base next) } where
  entered := entered
  deferred := deferred
  idle idle := by
    rw [synced.running] at idle
    cases idle
  running _ := ⟨base, synced, committed, rfl⟩
  preCommitted ready := by
    rw [synced.running] at ready
    cases ready

/-- An event inside a transaction that changes the nested work as the store does. -/
theorem step_running {base : RelId → Contents} (refines : session.Refines store)
    (synced : session.Synced base) (committed : ∀ rel, store.committed rel = (base rel).table)
    (held : store.running = some (nestedWork base session)) (allowed : session.KeepsSavepoints event)
    (cleanly : session.AbortsCleanly event) (lossless : session.Lossless event)
    (stepped : session.step event = some next)
    (answered : Transition.run TableStore.step ⟨store.committed, some (nestedWork base session)⟩
      (session.meaning event) = some ⟨store.committed, some (nestedWork base next)⟩) :
    ∃ after, Transition.run TableStore.step store (session.meaning event) = some after ∧
      next.Refines after := by
  have same : store = ⟨store.committed, some (nestedWork base session)⟩ := by rw [← held]
  refine ⟨⟨store.committed, some (nestedWork base next)⟩, ?_, ?_⟩
  · rw [same]
    exact answered
  · exact of_synced (refines.entered.step cleanly stepped)
      (refines.deferred.step refines.entered.formed stepped) (synced.step allowed lossless stepped)
      committed

/-- What the store makes of an event inside a transaction. -/
theorem answered {base : RelId → Contents} (formed : session.WellFormed)
    (committed : RelId → Table) (inside : session.KeepsSavepoints event) (begun : event ≠ .begin)
    (stepped : session.step event = some next) :
    Transition.run TableStore.step ⟨committed, some (nestedWork base session)⟩ (session.meaning event) =
      some ⟨committed, some (nestedWork base next)⟩ := by
  have depth := nestedWork_saved_eq_nil_iff base formed
  cases steps_of_step stepped with
  | begin => exact absurd rfl begun
  | @call rel write fails =>
      obtain ⟨ran, executed⟩ := executed_map session rel write fails
      have stmts : (session.executed rel write fails).map (fun executed => executed.2.stmt) =
          ran.map Entry.stmt := by
        rw [executed, List.map_map]
        rfl
      have current : nestedWork base (session.runCall rel write fails) =
          (nestedWork base session).update fun now =>
            now.set rel (TableStore.apply (ran.map Entry.stmt) (now.values rel)) := by
        have appended := work_set base session.ledger.current session.dropLedger.current rel ran
        rw [← executed] at appended
        simp only [nestedWork, Nested.update, appended, runCall]
      rw [meaning, stmts, current]
      rfl
  | read => rw [nestedWork_congr rfl rfl]; rfl
  | drop => rfl
  | startSub => rfl
  | @commitSub fails sub rest subs =>
      have opened : (nestedWork base session).saved ≠ [] := by simp [depth, subs]
      have closed : nestedWork base (session.runCommitSub sub rest fails) =
          (nestedWork base session).commit := by
        simp only [nestedWork, Nested.commit, runCommitSub, List.tail_zipWith]
      rw [closed]
      simp [meaning, Transition.run, TableStore.step, NestedStore.step, opened]
  | @abortSub fails sub rest subs =>
      have opened : (nestedWork base session).saved ≠ [] := by simp [depth, subs]
      have closed : nestedWork base (session.runAbortSub sub rest fails) =
          (nestedWork base session).abort := by
        obtain ⟨value, values, saved⟩ : ∃ value values, session.ledger.saved = value :: values := by
          cases saved : session.ledger.saved with
          | nil => simp [nestedWork, saved] at opened
          | cons value values => exact ⟨value, values, rfl⟩
        obtain ⟨drop, drops, dropSaved⟩ : ∃ drop drops, session.dropLedger.saved = drop :: drops := by
          cases saved : session.dropLedger.saved with
          | nil => simp [nestedWork, saved] at opened
          | cons drop drops => exact ⟨drop, drops, rfl⟩
        simp only [nestedWork, runAbortSub, Nested.abort, saved, dropSaved, List.zipWith_cons_cons]
      rw [closed]
      simp [meaning, Transition.run, TableStore.step, NestedStore.step, opened]
  | preCommit => exact inside.elim
  | commit => exact inside.elim
  | abort => exact inside.elim

theorem begin (refines : session.Refines store) (stepped : session.step .begin = some next) :
    ∃ after, Transition.run TableStore.step store (session.meaning .begin) = some after ∧
      next.Refines after := by
  have cleanly : session.AbortsCleanly .begin := trivial
  have entered := refines.entered.step cleanly stepped
  have deferred := refines.deferred.step refines.entered.formed stepped
  cases steps_of_step stepped with
  | begin idle =>
      have synced := Synced.begin (refines.atRest idle) stepped
      obtain ⟨closed, committed⟩ := refines.idle idle
      obtain ⟨_, _, ledger, drops, _⟩ := refines.entered.formed.rest idle
      have current : nestedWork session.fileContents { session with phase := .running, nextSub := 2 } =
          Nested.fresh ⟨store.committed, []⟩ := by
        have values : store.committed = fun rel => (session.fileContents rel).table := funext committed
        simp [nestedWork, work, ledger, drops, Nested.fresh, statementsOn, values]
      refine ⟨⟨store.committed, some (nestedWork session.fileContents _)⟩, ?_,
        of_synced entered deferred synced committed⟩
      rw [current]
      simp [meaning, Transition.run, TableStore.step, NestedStore.step, closed]

theorem preCommit_completes (entered : session.Entered) (whole : session.Whole)
    {order : List RelId} (distinct : order.Nodup)
    (complete : order.toFinset = session.backend.txRels) {fails : Faults}
    (succeeds : session.Succeeds .commit fails) :
    (session.runPreCommit order fails).failed = false := by
  cases hooked : session.backend.registered with
  | false => simp [runPreCommit, hooked, Outcome.completed]
  | true =>
      by_contra panicked
      obtain ⟨rel, member, conn, opened, failed⟩ := Backend.onPrecommit_panicked distinct
        (by simpa [runPreCommit, hooked] using panicked)
      rw [← conn_of_opened opened] at failed
      obtain ⟨held, fault⟩ := RelConn.commit_failed (entered.whole whole rel) failed
      have touched : rel ∈ session.backend.txRels := by
        rw [← complete]
        exact List.mem_toFinset.mpr member
      rw [succeeds rel touched held] at fault
      cases fault

theorem preCommit_untouched (entered : session.Entered) {order : List RelId} (distinct : order.Nodup)
    (fails : Faults) : (session.runPreCommit order fails).backend.txRels = ∅ := by
  obtain ⟨fewer, taken, _, _⟩ := runPreCommit_kept session distinct fails
  cases hooked : session.backend.registered with
  | true => exact taken hooked
  | false =>
      have none : session.backend.txRels = ∅ := by
        by_contra touched
        rw [entered.registered touched] at hooked
        cases hooked
      exact Finset.subset_empty.mp (none ▸ fewer)

theorem preCommit (refines : session.Refines store) {order : List RelId} {fails : Faults}
    (succeeds : session.Succeeds .commit fails)
    (stepped : session.step (.preCommit order fails) = some next) : next.Refines store := by
  have deferred := refines.deferred.step refines.entered.formed stepped
  cases steps_of_step stepped with
  | preCommit running _ closed distinct complete =>
      obtain ⟨base, synced, _, held⟩ := refines.running running
      have whole := synced.sound.whole
      have entered := refines.entered.preCommit running closed distinct complete succeeds whole
      have sane := preCommit_completes refines.entered whole distinct complete succeeds
      have ready : (session.runPreCommit order fails).phase = .preCommitted := by
        rcases runPreCommit_phase session order fails with ⟨_, ready⟩ | ⟨failed, _⟩
        · exact ready
        · rw [sane] at failed
          cases failed
      have untouched := preCommit_untouched refines.entered distinct fails
      refine ⟨entered, deferred, fun idle => ?_, fun still => ?_, fun _ => ⟨untouched, ?_⟩⟩
      · rw [ready] at idle
        cases idle
      · rw [ready] at still
        cases still
      · refine ⟨(nestedWork base session).current.values, ?_, fun rel => ?_⟩
        · have flat := (nestedWork_saved_eq_nil_iff base refines.entered.formed).mpr closed
          rw [held, Nested.fresh, ← flat]
          rfl
        · rw [synced.preCommit_file distinct complete sane rel]
          rfl

theorem commit (refines : session.Refines store) (again : session.UndoneDroppedAgain)
    (stepped : session.step .commit = some next) :
    ∃ after, Transition.run TableStore.step store (session.meaning .commit) = some after ∧
      next.Refines after := by
  have deferred := refines.deferred.step refines.entered.formed stepped
  cases steps_of_step stepped with
  | commit ready =>
      obtain ⟨untouched, values, held, files⟩ := refines.preCommitted ready
      have entered := refines.entered.commit ready untouched
      have dropped : ∀ rel, rel ∈ session.backend.drops ↔ rel ∈ session.dropLedger.current := by
        intro rel
        rw [refines.deferred rel]
        exact ⟨fun either => either.elim id (again rel), .inl⟩
      refine ⟨⟨StoreWork.outcome Table.empty ⟨values, session.dropLedger.current⟩, none⟩, ?_,
        entered, deferred, fun _ => ⟨rfl, fun rel => ?_⟩, nofun, nofun⟩
      · simp [meaning, Transition.run, TableStore.step, NestedStore.step, held, Nested.fresh]
      · rw [fileContents, runCommit_rel]
        simp only [StoreWork.outcome]
        by_cases gone : rel ∈ session.dropLedger.current
        · rw [if_pos gone, if_pos ((dropped rel).mpr gone)]
          rfl
        · rw [if_neg gone, if_neg fun member => gone ((dropped rel).mp member)]
          exact files rel

theorem abort (refines : session.Refines store) {fails : Faults} (running : session.phase = .running)
    (succeeds : session.Succeeds .rollback fails)
    (stepped : session.step (.abort fails) = some next) :
    ∃ after, Transition.run TableStore.step store (session.meaning (.abort fails)) = some after ∧
      next.Refines after := by
  have cleanly : session.AbortsCleanly (.abort fails) := succeeds
  have entered := refines.entered.step cleanly stepped
  have deferred := refines.deferred.step refines.entered.formed stepped
  have unchanged := fun rel => refines.entered.file_of_step cleanly stepped rel
  cases steps_of_step stepped with
  | abort _ closed =>
      obtain ⟨base, synced, committed, held⟩ := refines.running running
      have flat := (nestedWork_saved_eq_nil_iff base refines.entered.formed).mpr closed
      refine ⟨⟨store.committed, none⟩, ?_, entered, deferred, fun _ => ⟨rfl, fun rel => ?_⟩, nofun,
        nofun⟩
      · simp [meaning, Transition.run, TableStore.step, NestedStore.step, held, flat]
      · rw [committed rel, fileContents_eq]
        rcases unchanged rel with same | ran | ended
        · rw [same, (synced.follows rel).file]
        · cases ran
        · cases ended

end Refines

/-- Every step that the store can follow is answered by what it means. -/
theorem simulates :
    Transition.Simulates Session.step KeepsStore TableStore.step meaning Refines := by
  intro session store event next refines allowed stepped
  have inside : session.phase = .running → event ≠ .begin → session.KeepsSavepoints event →
      (session.Sound → session.AbortsCleanly event) → session.Lossless event → ∃ after,
        Transition.run TableStore.step store (session.meaning event) = some after ∧
          next.Refines after := by
    intro running begun keeps cleanly lossless
    obtain ⟨base, synced, committed, held⟩ := refines.running running
    exact refines.step_running synced committed held keeps (cleanly synced.sound) lossless stepped
      (Refines.answered refines.entered.formed store.committed keeps begun stepped)
  cases event with
  | begin => exact refines.begin stepped
  | call rel =>
      obtain ⟨running, opens, lossless⟩ := allowed
      exact inside running nofun ⟨opens, fun _ => lossless⟩
        (fun sound => ⟨opens, (sound rel).whole⟩) lossless
  | read =>
      obtain ⟨running, opens, lossless⟩ := allowed
      exact inside running nofun ⟨opens, fun _ => lossless⟩ (fun _ => opens) lossless
  | drop =>
      cases steps_of_step stepped with
      | drop running => exact inside running nofun trivial (fun _ => trivial) trivial
  | startSub =>
      cases steps_of_step stepped with
      | startSub running =>
          exact inside running nofun allowed (fun sound => sound.whole)
            (lossless_of_setsSavepoints allowed)
  | commitSub =>
      cases steps_of_step stepped with
      | commitSub _ running => exact inside running nofun allowed (fun _ => trivial) allowed
  | abortSub =>
      cases steps_of_step stepped with
      | abortSub _ running => exact inside running nofun allowed (fun _ => trivial) allowed.2
  | preCommit => exact ⟨store, rfl, refines.preCommit allowed stepped⟩
  | commit => exact refines.commit allowed stepped
  | abort => exact refines.abort allowed.1 allowed.2 stepped

theorem Refines.read {session : Session} {store : TableStore} (refines : session.Refines store)
    (rel : RelId) : store.read rel = (session.view rel).table := by
  have settled : session.backend.txRels = ∅ → session.view rel = session.fileContents rel := by
    intro untouched
    obtain ⟨none, _⟩ := refines.entered.quiet untouched rel
    rw [view_eq, fileContents_eq, RelConn.view, Db.view, none]
  rw [NestedStore.read]
  cases phase : session.phase with
  | idle =>
      obtain ⟨none, committed⟩ := refines.idle phase
      rw [none, settled (refines.entered.idle phase)]
      exact committed rel
  | running =>
      obtain ⟨base, synced, _, held⟩ := refines.running phase
      rw [held, view_eq, (synced.follows rel).view]
      rfl
  | preCommitted =>
      obtain ⟨untouched, values, held, files⟩ := refines.preCommitted phase
      rw [held, settled untouched]
      exact files rel

theorem Refines.committed {session : Session} {store : TableStore} (refines : session.Refines store)
    (before : session.phase ≠ .preCommitted) (rel : RelId) :
    store.committed rel = (session.fileContents rel).table := by
  cases phase : session.phase with
  | idle => exact (refines.idle phase).2 rel
  | running =>
      obtain ⟨base, synced, committed, _⟩ := refines.running phase
      rw [committed rel, fileContents_eq, (synced.follows rel).file]
  | preCommitted => exact absurd phase before

/-- In every run whose steps the store can follow, the store takes what the events mean, and then
it has for every relation the table that the backend reads, and outside the window between
`PreCommit` and the commit record also the committed one. A call that returns means all its
statements. -/
theorem refines_store {files : RelId → Option Table} {events : List Event} {session : Session}
    (reached : Session.run (Session.start files) events = some session)
    (allowed : Transition.Meets Session.step KeepsStore (Session.start files) events) :
    (∃ store, Transition.run TableStore.step (TableStore.start files)
        (Transition.trace Session.step meaning (Session.start files) events) = some store ∧
      (∀ rel, store.read rel = (session.view rel).table) ∧
      (session.phase ≠ .preCommitted →
        ∀ rel, store.committed rel = (session.fileContents rel).table)) ∧
    ∀ rel write fails next, session.step (.call rel write fails) = some next →
      next.failed = false → session.meaning (.call rel write fails) = [.change rel write.stmts] := by
  obtain ⟨store, answered, refines⟩ := simulates.run (Refines.start files) allowed reached
  refine ⟨⟨store, answered, refines.read, refines.committed⟩,
    fun rel write fails next stepped returned => ?_⟩
  cases steps_of_step stepped with
  | call => rw [meaning, executed_of_returned returned]

/-- A write is undone with its subtransaction, and a later transaction drops the table. -/
def writeThenDrop : List Event :=
  [.begin, .call 1 insertOne noFaults, .startSub [1] noFaults, .call 1 insertOne noFaults,
    .abortSub noFaults, .preCommit [1] noFaults, .commit, .begin, .call 2 insertOne noFaults,
    .startSub [2] noFaults, .drop 1, .commitSub noFaults, .preCommit [2] noFaults, .commit]

theorem writeThenDrop_refines :
    ∃ session store, Session.run (Session.start noFiles) writeThenDrop = some session ∧
      Transition.run TableStore.step (TableStore.start noFiles)
        (Transition.trace Session.step meaning (Session.start noFiles) writeThenDrop) = some store ∧
      store.committed 1 = Table.empty ∧ (store.committed 2).countRows = 1 := by
  obtain ⟨session, reached, idle, dropped, kept⟩ : ∃ session,
      Session.run (Session.start noFiles) writeThenDrop = some session ∧
        session.phase ≠ .preCommitted ∧ (session.fileContents 1).table = Table.empty ∧
        (session.fileContents 2).table.countRows = 1 :=
    ⟨_, rfl, by decide, by decide, by decide⟩
  obtain ⟨⟨store, answered, _, committed⟩, _⟩ := refines_store reached (by decide)
  refine ⟨session, store, reached, answered, ?_, ?_⟩
  · rw [committed idle 1, dropped]
  · rw [committed idle 2, kept]

end SqliteHeap.Session
