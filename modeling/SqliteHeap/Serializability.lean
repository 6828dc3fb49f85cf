import SqliteHeap.Server

/-! Writes are serializable. Backends that run any number of transactions side by side leave
the files that a store has which runs the same transactions one after the other, in the
order of their `PreCommit`. -/

set_option autoImplicit false

namespace SqliteHeap

open SavepointStack

/-- A loop over connections gets through some of them, in order. -/
theorem Backend.forConns_sublist (body : RelId → RelConn → Option RelConn)
    (left : RelId → RelConn → RelConn) (reason : Panic) (order : List RelId) (backend : Backend) :
    (forConns body left reason order backend).1.Sublist order := by
  induction order generalizing backend with
  | nil => exact List.Sublist.refl _
  | cons rel rest ih =>
      simp only [forConns]
      cases backend.rels rel with
      | closed file => exact (ih backend).cons _
      | opened conn =>
          dsimp only
          cases body rel conn with
          | none => exact List.nil_sublist _
          | some changed => exact (ih _).cons_cons _

namespace Session

/-! ## The serial store -/

def transaction (ran : List Executed) : List TableStore.Action :=
  .begin :: (ran.map fun executed => .change executed.1 [executed.2.stmt]) ++ [.commit]

section Store

variable {base : RelId → Contents}

theorem run_changes (committed : RelId → Table) (ledger ran : List Executed) :
    Transition.run TableStore.step ⟨committed, some (Nested.fresh (work base ledger []))⟩
        (ran.map fun executed => .change executed.1 [executed.2.stmt]) =
      some ⟨committed, some (Nested.fresh (work base (ledger ++ ran) []))⟩ := by
  induction ran generalizing ledger with
  | nil => simp
  | cons executed rest ih =>
      have changed := work_set base ledger [] executed.1 [executed.2]
      have later := ih (ledger ++ [executed])
      rw [List.append_assoc] at later
      refine Transition.run_cons_iff.mpr ⟨_, ?_, later⟩
      simp only [TableStore.step, NestedStore.step, Nested.update, Nested.fresh]
      exact congrArg (fun now : StoreWork RelId Table =>
        some (⟨committed, some ⟨now, []⟩⟩ : TableStore)) changed

theorem run_transaction (base : RelId → Contents) (ran : List Executed) :
    Transition.run TableStore.step ⟨fun rel => (base rel).table, none⟩ (transaction ran) =
      some ⟨fun rel => ((base rel).append (statementsOn rel ran)).table, none⟩ := by
  have begun : TableStore.step ⟨fun rel => (base rel).table, none⟩ .begin =
      some ⟨fun rel => (base rel).table, some (Nested.fresh (work base [] []))⟩ := by
    simp [TableStore.step, NestedStore.step, work, statementsOn]
  refine Transition.run_cons_iff.mpr ⟨_, begun, Transition.run_append_iff.mpr
    ⟨_, run_changes _ [] ran, ?_⟩⟩
  simp [Transition.run, TableStore.step, NestedStore.step, Nested.fresh, work]
  rfl

theorem run_serial (base : RelId → Contents) (serial : List (List Executed)) :
    Transition.run TableStore.step ⟨fun rel => (base rel).table, none⟩ (serial.flatMap transaction) =
      some ⟨fun rel => ((base rel).append (statementsOn rel serial.flatten)).table, none⟩ := by
  induction serial generalizing base with
  | nil => simp [statementsOn]
  | cons ran rest ih =>
      have later := ih fun rel => (base rel).append (statementsOn rel ran)
      simp only [Contents.append_append, ← statementsOn_append] at later
      exact Transition.run_append_iff.mpr ⟨_, run_transaction base ran, later⟩

end Store

theorem append_eq_self {contents : Contents} {entries : List Entry}
    (same : contents.append entries = contents) : entries = [] := by
  have logs := congrArg Contents.log same
  rw [Contents.append_log] at logs
  simpa using logs

theorem statementsOn_of_not_mem {rel : RelId} {ran : List Executed} (untouched : rel ∉ ran.map Prod.fst) :
    statementsOn rel ran = [] := by
  refine List.filterMap_eq_nil_iff.mpr fun executed member => if_neg fun same => ?_
  exact untouched (same ▸ List.mem_map_of_mem member)

theorem runPreCommit_nodup (session : Session) {order : List RelId} (distinct : order.Nodup)
    (fails : Faults) : (session.runPreCommit order fails).commitRan.Nodup := by
  unfold runPreCommit
  cases session.backend.registered with
  | false => exact List.nodup_nil
  | true => exact distinct.sublist (Backend.forConns_sublist _ _ _ _ _)

/-- A relation that a step does not write stays unwritten. -/
theorem unwritten_step {session next : Session} {event : Event} {rel : RelId}
    (formed : session.WellFormed) (stepped : session.step event = some next)
    (running : next.phase = .running) (untouched : rel ∉ (session.ran event).map Prod.fst)
    (unwritten : session.phase = .running → statementsOn rel session.ledger.current = []) :
    statementsOn rel next.ledger.current = [] := by
  cases steps_of_step stepped with
  | begin idle =>
      obtain ⟨_, _, ledger, _⟩ := formed.rest idle
      simp [ledger, Nested.fresh, statementsOn]
  | @call other write fails =>
      have appended : (session.runCall other write fails).ledger.current =
          session.ledger.current ++ session.ran (.call other write fails) := rfl
      rw [appended, statementsOn_append, unwritten running, statementsOn_of_not_mem untouched]
      rfl
  | read => exact unwritten running
  | drop => exact unwritten running
  | startSub => exact unwritten running
  | commitSub => exact unwritten running
  | abortSub _ phase =>
      have shorter := formed.growing.abort_le fun _ => List.prefix_refl _
      exact statementsOn_of_le shorter (unwritten phase)
  | preCommit => rfl
  | commit => cases running
  | abort => cases running

end Session

open Session

namespace Passed

variable {backend : BackendId} {stage : Stage} {committing : BackendId → List RelId} {passed : Passed}

theorem finish_of_not (other : ¬ (passed.backend = backend ∧ passed.stage = .pending)) :
    passed.finish backend stage = passed := if_neg other

@[simp] theorem finish_backend (backend : BackendId) (stage : Stage) (passed : Passed) :
    (passed.finish backend stage).backend = passed.backend := by
  unfold finish
  split <;> rfl

@[simp] theorem finish_ran (backend : BackendId) (stage : Stage) (passed : Passed) :
    (passed.finish backend stage).ran = passed.ran := by
  unfold finish
  split <;> rfl

/-- A backend that has nothing to commit loses nothing of what it ran. -/
theorem survives_finish (idle : committing backend = []) (ended : stage ≠ .pending) (passed : Passed) :
    (passed.finish backend stage).survives committing = passed.survives committing := by
  by_cases own : passed.backend = backend ∧ passed.stage = .pending
  · obtain ⟨same, still⟩ := own
    have whole : passed.survives committing = passed.ran := by
      rw [survives, if_pos still, same, idle]
      simp
    rw [whole, finish, if_pos ⟨same, still⟩, survives, if_neg ended]
  · rw [finish_of_not own]

theorem finish_pending (ended : stage ≠ .pending) (still : (passed.finish backend stage).stage = .pending) :
    passed.stage = .pending ∧ passed.backend ≠ backend := by
  unfold finish at still
  split at still
  · exact absurd still ended
  · next other => exact ⟨still, fun same => other ⟨same, still⟩⟩

theorem statementsOn_survives (rel : RelId) (passed : Passed) :
    statementsOn rel (passed.survives committing) =
      if passed.stage = .pending ∧ rel ∈ committing passed.backend then [] else statementsOn rel passed.ran := by
  unfold survives
  by_cases still : passed.stage = .pending
  · simp only [still, if_true, true_and]
    unfold statementsOn
    rw [List.filterMap_filter]
    split
    · next queued =>
        refine List.filterMap_eq_nil_iff.mpr fun executed _ => ?_
        by_cases same : executed.1 = rel
        · simp [same, queued]
        · simp [same]
    · next unqueued =>
        refine List.filterMap_congr fun executed _ => ?_
        by_cases same : executed.1 = rel
        · simp [same, unqueued]
        · simp [same]
  · rw [if_neg still, if_neg fun both => still both.1]

end Passed

theorem statementsOn_flatMap (rel : RelId) (part : Passed → List Executed) (serial : List Passed) :
    statementsOn rel (serial.flatMap part) = serial.flatMap fun passed => statementsOn rel (part passed) :=
  List.filterMap_flatMap

namespace Server

/-- The contents that the serial run gives. -/
def expected (initial : RelId → Contents) (server : Server) (rel : RelId) : Contents :=
  (initial rel).append (statementsOn rel (server.serial.flatMap Passed.ran))

/-- The contents of the file after a crash. -/
def survived (initial : RelId → Contents) (server : Server) (rel : RelId) : Contents :=
  (initial rel).append (statementsOn rel (server.serial.flatMap (Passed.survives server.committing)))

/-- A file is the one of the serial run, or its COMMIT is still to come. A running transaction
alone has changed what it holds. -/
structure Serial (initial : RelId → Contents) (server : Server) : Prop where
  entered : ∀ backend, (server.sessions backend).Entered
  taken : ∀ backend, (server.sessions backend).phase = .preCommitted →
    (server.sessions backend).backend.txRels = ∅
  synced : ∀ backend, (server.sessions backend).phase = .running →
    ∃ base, (server.sessions backend).Synced base ∧
      ∀ rel, server.writer rel = some backend → base rel = server.files rel
  unwritten : ∀ backend, (server.sessions backend).phase = .running →
    ∀ rel, server.writer rel ≠ some backend →
      statementsOn rel (server.sessions backend).ledger.current = []
  holding : ∀ backend rel, server.writer rel = some backend →
    (server.sessions backend).phase = .running ∨ rel ∈ server.committing backend
  queued : ∀ backend, ∀ rel ∈ server.committing backend,
    server.writer rel = some backend ∧ (server.sessions backend).phase ≠ .running
  distinct : ∀ backend, (server.committing backend).Nodup
  settled : ∀ rel, (∀ backend, rel ∉ server.committing backend) →
    server.files rel = server.expected initial rel
  pending : ∀ backend, ∀ rel ∈ server.committing backend,
    (server.sessions backend).fileContents rel = server.expected initial rel
  kept : ∀ rel, server.files rel = server.survived initial rel
  opened : ∀ passed ∈ server.serial, passed.stage = .pending →
    (server.sessions passed.backend).phase = .preCommitted ∧
      passed.ran = (server.sessions passed.backend).precommitted
  present : ∀ backend, (server.sessions backend).phase = .preCommitted →
    ∃ passed ∈ server.serial, passed.backend = backend ∧ passed.stage = .pending

/-- What becomes of the transactions when the backend gets to `next`, with `queue` to commit:
its pending one ends, or there is a new one that ran `new`. -/
structure Records (server : Server) (backend : BackendId) (next : Session) (queue : List RelId)
    (new : List Executed) (after : List Passed) : Prop where
  grown : ∀ rel, statementsOn rel (after.flatMap Passed.ran) =
    statementsOn rel (server.serial.flatMap Passed.ran) ++ statementsOn rel new
  kept : ∀ rel, statementsOn rel
      (after.flatMap (Passed.survives (Function.update server.committing backend queue))) =
    statementsOn rel (server.serial.flatMap (Passed.survives server.committing))
  own : ∀ passed ∈ after, passed.stage = .pending → passed.backend = backend →
    next.phase = .preCommitted ∧ passed.ran = next.precommitted
  others : ∀ passed : Passed, passed.backend ≠ backend → (passed ∈ after ↔ passed ∈ server.serial)
  present : next.phase = .preCommitted →
    ∃ passed ∈ after, passed.backend = backend ∧ passed.stage = .pending

namespace Records

variable {server : Server} {backend : BackendId} {next : Session}

/-- The pending transaction of the backend, if there is one, has ended. -/
theorem finish (idle : server.committing backend = []) {stage : Stage} (ended : stage ≠ .pending)
    (phase : next.phase ≠ .preCommitted) :
    server.Records backend next [] [] (server.serial.map (Passed.finish backend stage)) where
  grown rel := by simp [List.flatMap_map, statementsOn]
  kept rel := by
    have unchanged : Function.update server.committing backend [] = server.committing := by
      rw [← idle, Function.update_eq_self]
    simp only [unchanged, List.flatMap_map, Passed.survives_finish idle ended]
  own passed member still same := by
    obtain ⟨old, _, rfl⟩ := List.mem_map.mp member
    have other := (Passed.finish_pending ended still).2
    rw [Passed.finish_backend] at same
    exact absurd same other
  others passed different := by
    constructor
    · intro member
      obtain ⟨old, inSerial, rfl⟩ := List.mem_map.mp member
      rw [Passed.finish_backend] at different
      rw [Passed.finish_of_not fun both => different both.1]
      exact inSerial
    · intro member
      exact List.mem_map.mpr ⟨passed, member, Passed.finish_of_not fun both => different both.1⟩
  present ready := absurd ready phase

theorem none (idle : server.committing backend = []) (phase : next.phase ≠ .preCommitted)
    (closed : ∀ passed ∈ server.serial, passed.backend = backend → passed.stage ≠ .pending) :
    server.Records backend next [] [] server.serial := by
  have unchanged : server.serial.map (Passed.finish backend .committed) = server.serial := by
    refine (List.map_congr_left fun passed member => ?_).trans (List.map_id _)
    exact Passed.finish_of_not fun both => closed passed member both.1 both.2
  have records : server.Records backend next [] [] (server.serial.map (Passed.finish backend .committed)) :=
    .finish idle (by decide) phase
  rwa [unchanged] at records

/-- The backend has a new transaction, and its statements are in files that it has yet to
commit. -/
theorem pass (closed : ∀ passed ∈ server.serial, passed.backend = backend → passed.stage ≠ .pending)
    {queue : List RelId} {ran : List Executed} (phase : next.phase = .preCommitted)
    (precommitted : ran = next.precommitted) (waits : ∀ rel, rel ∉ queue → statementsOn rel ran = []) :
    server.Records backend next queue ran (server.serial ++ [⟨backend, ran, .pending⟩]) where
  grown rel := by
    rw [List.flatMap_append, statementsOn_append]
    simp
  kept rel := by
    have own : statementsOn rel (Passed.survives (Function.update server.committing backend queue)
        ⟨backend, ran, .pending⟩) = [] := by
      rw [Passed.statementsOn_survives, Function.update_self]
      by_cases queued : rel ∈ queue
      · exact if_pos ⟨rfl, queued⟩
      · rw [if_neg fun both => queued both.2]
        exact waits rel queued
    have others : server.serial.flatMap (fun passed => statementsOn rel
          (passed.survives (Function.update server.committing backend queue))) =
        server.serial.flatMap fun passed => statementsOn rel (passed.survives server.committing) := by
      refine List.flatMap_congr fun passed member => ?_
      rw [Passed.statementsOn_survives, Passed.statementsOn_survives]
      by_cases still : passed.stage = .pending
      · rw [Function.update_of_ne fun same => closed passed member same still]
      · rw [if_neg fun both => still both.1, if_neg fun both => still both.1]
    rw [statementsOn_flatMap, statementsOn_flatMap, List.flatMap_append, others, List.flatMap_singleton, own,
      List.append_nil]
  own passed member still same := by
    rcases List.mem_append.mp member with before | last
    · exact absurd still (closed passed before same)
    · rw [List.mem_singleton.mp last]
      exact ⟨phase, precommitted⟩
  others passed different := by
    refine ⟨fun member => ?_, List.mem_append_left _⟩
    rcases List.mem_append.mp member with before | last
    · exact before
    · rw [List.mem_singleton.mp last] at different
      exact absurd rfl different
  present _ := ⟨_, List.mem_append_right _ (List.mem_singleton_self _), rfl, rfl⟩

end Records

namespace Serial

variable {initial : RelId → Contents} {server : Server} {backend : BackendId} {event : Event}
  {next : Session}

theorem start (files : RelId → Option Table) :
    Serial (fun rel => ⟨(files rel).getD Table.empty, []⟩) (Server.start files) where
  entered _ := Entered.start files
  taken _ _ := rfl
  synced _ := nofun
  unwritten _ := nofun
  holding _ _ := nofun
  queued _ _ := nofun
  distinct _ := List.nodup_nil
  settled _ _ := (Contents.append_nil _).symm
  pending _ _ := nofun
  kept _ := (Contents.append_nil _).symm
  opened _ := nofun
  present _ := nofun

theorem seen_synced (serial : server.Serial initial)
    (running : (server.sessions backend).phase = .running) :
    (server.seen backend).Synced server.files := by
  obtain ⟨base, synced, held⟩ := serial.synced backend running
  refine synced.refresh (fun rel holds => held rel (of_decide_eq_true holds)) fun rel free => ?_
  exact serial.unwritten backend running rel (of_decide_eq_false free)

theorem seen_entered (serial : server.Serial initial) (backend : BackendId) :
    (server.seen backend).Entered :=
  (serial.entered backend).refresh _ _

theorem locks_other (free : server.free backend ((server.seen backend).ran event) = true)
    {other : BackendId} (different : other ≠ backend) (rel : RelId) :
    server.locks backend event next rel = some other ↔ server.writer rel = some other := by
  unfold locks
  split
  · next written =>
      obtain ⟨executed, member, rfl⟩ := List.mem_map.mp written
      have open_ := List.all_eq_true.mp free executed member
      rw [Bool.or_eq_true] at open_
      have mine : server.writer executed.1 = none ∨ server.writer executed.1 = some backend :=
        open_.imp of_decide_eq_true of_decide_eq_true
      constructor
      · intro same
        exact absurd (Option.some.inj same).symm different
      · intro theirs
        rcases mine with none | own
        · rw [none] at theirs
          cases theirs
        · rw [own] at theirs
          exact absurd (Option.some.inj theirs).symm different
  · split
    · next released =>
        have own : server.writer rel = some backend := of_decide_eq_true released.1
        rw [own]
        constructor
        · nofun
        · intro theirs
          exact absurd (Option.some.inj theirs).symm different
    · exact Iff.rfl

/-- A lock that the backend has after the event. -/
theorem locks_self {rel : RelId} (locked : server.locks backend event next rel = some backend) :
    rel ∈ ((server.seen backend).ran event).map Prod.fst ∨
      server.writer rel = some backend ∧
        ((next.conn rel).db.txn ≠ none ∨ rel ∈ server.toCommit backend next event) := by
  unfold locks at locked
  split at locked
  · next written => exact .inl written
  · split at locked
    · cases locked
    · next kept =>
        refine .inr ⟨locked, ?_⟩
        by_contra neither
        rw [not_or, not_not] at neither
        exact kept ⟨decide_eq_true locked, neither⟩

/-- What the other backends need of an event. -/
theorem settle (serial : server.Serial initial) (idle : server.committing backend = [])
    (free : server.free backend ((server.seen backend).ran event) = true)
    (entered : next.Entered) (taken : next.phase = .preCommitted → next.backend.txRels = ∅)
    (synced : next.phase = .running → next.Synced server.files)
    (unwritten : next.phase = .running → ∀ rel, server.locks backend event next rel ≠ some backend →
      statementsOn rel next.ledger.current = [])
    (holding : ∀ rel, server.locks backend event next rel = some backend →
      next.phase = .running ∨ rel ∈ server.toCommit backend next event)
    (queued : ∀ rel ∈ server.toCommit backend next event,
      server.locks backend event next rel = some backend ∧ next.phase ≠ .running)
    (distinct : (server.toCommit backend next event).Nodup)
    {new : List Executed} (records : server.Records backend next (server.toCommit backend next event) new
      (server.record backend next event))
    (passed : ∀ rel, rel ∉ server.toCommit backend next event → statementsOn rel new = [])
    (pending : ∀ rel ∈ server.toCommit backend next event, next.fileContents rel =
      (server.files rel).append (statementsOn rel new)) :
    (server.settle backend event next).Serial initial := by
  have grown (rel : RelId) : (server.settle backend event next).expected initial rel =
      (server.expected initial rel).append (statementsOn rel new) := by
    rw [expected, expected, Contents.append_append, ← records.grown rel]
    rfl
  have others (other : BackendId) (different : other ≠ backend) (rel : RelId) :
      (server.settle backend event next).writer rel = some other ↔ server.writer rel = some other :=
    locks_other free different rel
  have session (other : BackendId) (different : other ≠ backend) :
      (server.settle backend event next).sessions other = server.sessions other :=
    Function.update_of_ne different _ _
  have queue (other : BackendId) (different : other ≠ backend) :
      (server.settle backend event next).committing other = server.committing other :=
    Function.update_of_ne different _ _
  have ownSession : (server.settle backend event next).sessions backend = next :=
    Function.update_self _ _ _
  have ownQueue : (server.settle backend event next).committing backend =
      server.toCommit backend next event := Function.update_self _ _ _
  -- A relation is in one queue at most.
  have mine (rel : RelId) (member : rel ∈ server.toCommit backend next event) (other : BackendId) :
      rel ∉ server.committing other := by
    intro theirs
    by_cases same : other = backend
    · rw [same, idle] at theirs
      cases theirs
    · have locked := (others other same rel).mpr (serial.queued other rel theirs).1
      have own : (server.settle backend event next).writer rel = some backend := (queued rel member).1
      rw [own] at locked
      exact same (Option.some.inj locked).symm
  constructor
  case entered =>
    intro other
    by_cases same : other = backend
    · rw [same, ownSession]
      exact entered
    · rw [session other same]
      exact serial.entered other
  case taken =>
    intro other
    by_cases same : other = backend
    · rw [same, ownSession]
      exact taken
    · rw [session other same]
      exact serial.taken other
  case synced =>
    intro other running
    by_cases same : other = backend
    · rw [same, ownSession] at running ⊢
      exact ⟨server.files, synced running, fun _ _ => rfl⟩
    · rw [session other same] at running ⊢
      obtain ⟨base, follows, held⟩ := serial.synced other running
      exact ⟨base, follows, fun rel locked => held rel ((others other same rel).mp locked)⟩
  case unwritten =>
    intro other running rel locked
    by_cases same : other = backend
    · rw [same] at locked
      rw [same, ownSession] at running ⊢
      exact unwritten running rel locked
    · rw [session other same] at running ⊢
      exact serial.unwritten other running rel fun theirs => locked ((others other same rel).mpr theirs)
  case holding =>
    intro other rel locked
    by_cases same : other = backend
    · rw [same] at locked
      rw [same, ownSession, ownQueue]
      exact holding rel locked
    · rw [session other same, queue other same]
      exact serial.holding other rel ((others other same rel).mp locked)
  case queued =>
    intro other rel member
    by_cases same : other = backend
    · rw [same, ownQueue] at member
      rw [same, ownSession]
      exact queued rel member
    · rw [queue other same] at member
      rw [session other same]
      obtain ⟨locked, still⟩ := serial.queued other rel member
      exact ⟨(others other same rel).mpr locked, still⟩
  case distinct =>
    intro other
    by_cases same : other = backend
    · rw [same, ownQueue]
      exact distinct
    · rw [queue other same]
      exact serial.distinct other
  case settled =>
    intro rel free
    have before : ∀ other, rel ∉ server.committing other := by
      intro other member
      by_cases same : other = backend
      · rw [same, idle] at member
        cases member
      · exact free other (by rw [queue other same]; exact member)
    have unpassed := passed rel fun member => free backend (by rw [ownQueue]; exact member)
    rw [grown, unpassed, Contents.append_nil]
    exact serial.settled rel before
  case pending =>
    intro other rel member
    by_cases same : other = backend
    · rw [same, ownQueue] at member
      rw [same, ownSession, grown, ← serial.settled rel (mine rel member)]
      exact pending rel member
    · rw [queue other same] at member
      have unpassed := passed rel fun own => mine rel own other member
      rw [session other same, grown, unpassed, Contents.append_nil]
      exact serial.pending other rel member
  case kept =>
    intro rel
    rw [survived, Server.settle, records.kept rel]
    exact serial.kept rel
  case opened =>
    intro passed member still
    by_cases same : passed.backend = backend
    · rw [same, ownSession]
      exact records.own passed member still same
    · rw [session passed.backend same]
      exact serial.opened passed ((records.others passed same).mp member) still
  case present =>
    intro other ready
    by_cases same : other = backend
    · rw [same, ownSession] at ready
      rw [same]
      exact records.present ready
    · rw [session other same] at ready
      obtain ⟨passed, member, theirs, still⟩ := serial.present other ready
      exact ⟨passed, (records.others passed (theirs ▸ same)).mpr member, theirs, still⟩

/-- A backend that is not between `PreCommit` and the commit record has no pending transaction. -/
theorem closed (serial : server.Serial initial) (phase : (server.sessions backend).phase ≠ .preCommitted) :
    ∀ passed ∈ server.serial, passed.backend = backend → passed.stage ≠ .pending := by
  intro passed member same still
  have ready := (serial.opened passed member still).1
  rw [same] at ready
  exact phase ready

/-- An event that is no `PreCommit`. -/
theorem settle_quiet (serial : server.Serial initial) (idle : server.committing backend = [])
    (free : server.free backend ((server.seen backend).ran event) = true)
    (stepped : (server.seen backend).step event = some next)
    (nothing : server.toCommit backend next event = [])
    (records : server.Records backend next [] [] (server.record backend next event))
    (entered : next.Entered) (synced : next.phase = .running → next.Synced server.files)
    (phase : next.phase = .running ∨ next.phase = .idle ∧ (server.seen backend).ran event = []) :
    (server.settle backend event next).Serial initial := by
  refine serial.settle idle free entered ?_ synced ?_ ?_ (by simp [nothing]) (by simp [nothing])
    (nothing ▸ records) (fun _ _ => rfl) (by simp [nothing])
  · intro ready
    rcases phase with running | ⟨ended, _⟩
    · rw [running] at ready
      cases ready
    · exact entered.idle ended
  · intro running rel unlocked
    have unran : rel ∉ ((server.seen backend).ran event).map Prod.fst :=
      fun written => unlocked (if_pos written)
    by_cases own : server.writer rel = some backend
    · have released : (next.conn rel).db.txn = Option.none := by
        by_contra opened
        refine unlocked ?_
        rw [locks, if_neg unran, if_neg fun released => opened released.2.1, own]
      have follows := (synced running).follows rel
      have bare : (next.conn rel).inTxn = false := by
        refine Bool.eq_false_iff.mpr fun held => ?_
        obtain ⟨txn, opened⟩ := ((synced running).sound rel).held held
        rw [released] at opened
        cases opened
      exact (follows.closed bare).2.1
    · refine unwritten_step (serial.seen_entered backend).formed stepped running unran fun before => ?_
      exact serial.unwritten backend before rel own
  · intro rel locked
    rcases phase with running | ⟨ended, unran⟩
    · exact .inl running
    · rcases locks_self locked with written | ⟨_, opened | queued⟩
      · rw [unran] at written
        cases written
      · exact absurd (entered.quiet (entered.idle ended) rel).1 opened
      · exact .inr queued

/-- A backend between two transactions finds the files. -/
theorem seen_files (serial : server.Serial initial) (idle : server.committing backend = [])
    (rest : (server.sessions backend).phase = .idle) : (server.seen backend).fileContents = server.files := by
  funext rel
  have free : server.holds backend rel = false := by
    refine decide_eq_false fun locked => ?_
    rcases serial.holding backend rel locked with running | queued
    · rw [rest] at running
      cases running
    · rw [idle] at queued
      cases queued
  rw [fileContents_eq, seen, refresh_conn, free]
  rfl

theorem begin (serial : server.Serial initial) (idle : server.committing backend = [])
    (stepped : (server.seen backend).step .begin = some next) :
    (server.settle backend .begin next).Serial initial := by
  have entered := serial.seen_entered backend
  have cleanly : (server.seen backend).AbortsCleanly .begin := trivial
  have after := entered.step cleanly stepped
  cases steps_of_step stepped with
  | begin rest =>
      have atRest : (server.seen backend).AtRest :=
        ⟨entered.formed, rest, entered.quiet (entered.idle rest), entered.idle rest⟩
      have synced := Synced.begin atRest stepped
      rw [serial.seen_files idle rest] at synced
      have phase : (server.sessions backend).phase ≠ .preCommitted := by
        intro ready
        rw [show (server.sessions backend).phase = .idle from rest] at ready
        cases ready
      exact serial.settle_quiet idle rfl stepped rfl (.none idle Phase.noConfusion (serial.closed phase))
        after (fun _ => synced) (.inl rfl)

theorem inside (serial : server.Serial initial) (idle : server.committing backend = [])
    (free : server.free backend ((server.seen backend).ran event) = true)
    (running : (server.sessions backend).phase = .running)
    (keeps : (server.seen backend).KeepsSavepoints event)
    (lossless : (server.seen backend).Lossless event)
    (cleanly : (server.seen backend).AbortsCleanly event)
    (stepped : (server.seen backend).step event = some next)
    (nothing : server.toCommit backend next event = [])
    (unchanged : server.record backend next event = server.serial) :
    (server.settle backend event next).Serial initial := by
  have synced := (serial.seen_synced running).step keeps lossless stepped
  have entered := (serial.seen_entered backend).step cleanly stepped
  have phase : (server.sessions backend).phase ≠ .preCommitted := by
    rw [running]
    exact Phase.noConfusion
  have after : next.phase ≠ .preCommitted := by
    rw [synced.running]
    exact Phase.noConfusion
  refine serial.settle_quiet idle free stepped nothing ?_ entered (fun _ => synced) (.inl synced.running)
  rw [unchanged]
  exact .none idle after (serial.closed phase)

/-- The end of a transaction that commits nothing. -/
theorem ended (serial : server.Serial initial) (idle : server.committing backend = [])
    (cleanly : (server.seen backend).AbortsCleanly event)
    (stepped : (server.seen backend).step event = some next)
    (unran : (server.seen backend).ran event = []) (rest : next.phase = .idle)
    (nothing : server.toCommit backend next event = []) {stage : Stage} (ended : stage ≠ .pending)
    (records : server.record backend next event = server.serial.map (Passed.finish backend stage)) :
    (server.settle backend event next).Serial initial := by
  have entered := (serial.seen_entered backend).step cleanly stepped
  have phase : next.phase ≠ .preCommitted := by
    rw [rest]
    exact Phase.noConfusion
  refine serial.settle_quiet idle (by rw [unran]; rfl) stepped nothing ?_ entered (fun running => ?_)
    (.inr ⟨rest, unran⟩)
  · rw [records]
    exact .finish idle ended phase
  · rw [rest] at running
    cases running

/-- `PreCommit` leaves the COMMITs of the written files to run, and makes the transaction the
next one of the serial run. -/
theorem preCommit (serial : server.Serial initial) (idle : server.committing backend = [])
    {order : List RelId} {fails : Faults}
    (succeeds : (server.seen backend).Succeeds .commit fails)
    (stepped : (server.seen backend).step (.preCommit order fails) = some next) :
    (server.settle backend (.preCommit order fails) next).Serial initial := by
  have entered := serial.seen_entered backend
  cases steps_of_step stepped with
  | preCommit running _ _ distinct complete =>
      have synced := serial.seen_synced running
      have cleanly : (server.seen backend).AbortsCleanly (.preCommit order fails) :=
        ⟨succeeds, synced.sound.whole⟩
      have after := entered.step cleanly stepped
      have sane := Refines.preCommit_completes entered synced.sound.whole distinct complete succeeds
      have ready : ((server.seen backend).runPreCommit order fails).phase = .preCommitted := by
        rcases runPreCommit_phase (server.seen backend) order fails with ⟨_, ready⟩ | ⟨failed, _⟩
        · exact ready
        · rw [sane] at failed
          cases failed
      have untouched := Refines.preCommit_untouched entered distinct fails
      have recorded : server.record backend ((server.seen backend).runPreCommit order fails)
          (.preCommit order fails) =
            server.serial ++ [⟨backend, (server.seen backend).ledger.current, .pending⟩] := by
        rw [Server.record, sane]
        rfl
      have phase : (server.sessions backend).phase ≠ .preCommitted := by
        rw [show (server.sessions backend).phase = .running from running]
        exact Phase.noConfusion
      have files := synced.preCommit_file distinct complete sane
      have once : ((server.seen backend).runPreCommit order fails).commitRan.Nodup :=
        runPreCommit_nodup (server.seen backend) distinct fails
      have kept {rel : RelId} (unlocked : server.holds backend rel = false ∨
          rel ∉ ((server.seen backend).runPreCommit order fails).commitRan) :
          statementsOn rel (server.seen backend).ledger.current = [] := by
        rcases unlocked with unheld | missed
        · exact serial.unwritten backend running rel (of_decide_eq_false unheld)
        · rcases runPreCommit_rel (server.seen backend) distinct fails rel with
            ⟨same, _⟩ | ⟨_, _, panicked, _⟩ | ⟨_, ran, _⟩
          · have unchanged := files rel
            rw [fileContents_eq, conn_congr same, (synced.follows rel).file] at unchanged
            exact append_eq_self unchanged.symm
          · rw [sane] at panicked
            cases panicked
          · exact absurd ran missed
      have waits (rel : RelId) (unqueued : rel ∉ server.toCommit backend
          ((server.seen backend).runPreCommit order fails) (.preCommit order fails)) :
          statementsOn rel (server.seen backend).ledger.current = [] := by
        refine kept ?_
        cases held : server.holds backend rel with
        | false => exact .inl rfl
        | true => exact .inr fun ran => unqueued (List.mem_filter.mpr ⟨ran, held⟩)
      have records : server.Records backend ((server.seen backend).runPreCommit order fails)
          (server.toCommit backend ((server.seen backend).runPreCommit order fails) (.preCommit order fails))
          (server.seen backend).ledger.current
          (server.record backend ((server.seen backend).runPreCommit order fails)
            (.preCommit order fails)) := by
        rw [recorded]
        exact .pass (serial.closed phase) ready rfl waits
      refine serial.settle idle rfl after (fun _ => untouched) ?_ ?_ ?_ ?_ (once.filter _) records waits
        fun rel _ => files rel
      · intro still
        rw [ready] at still
        cases still
      · intro still
        rw [ready] at still
        cases still
      · intro rel locked
        rcases locks_self locked with written | ⟨_, opened | queued⟩
        · cases written
        · exact absurd (after.quiet untouched rel).1 opened
        · exact .inr queued
      · intro rel queued
        have locked : server.writer rel = some backend :=
          of_decide_eq_true (List.mem_filter.mp queued).2
        have unran : rel ∉ ((server.seen backend).ran (.preCommit order fails)).map Prod.fst :=
          List.not_mem_nil
        refine ⟨?_, ?_⟩
        · rw [locks, if_neg unran, if_neg fun released => released.2.2 queued, locked]
        · rw [ready]
          exact Phase.noConfusion

theorem publish (serial : server.Serial initial) {rel : RelId} {rest : List RelId}
    (queue : server.committing backend = rel :: rest) :
    (server.publish backend rel rest).Serial initial := by
  have first : rel ∈ server.committing backend := by
    rw [queue]
    exact List.mem_cons_self
  obtain ⟨locked, still⟩ := serial.queued backend rel first
  obtain ⟨once, distinct⟩ := List.nodup_cons.mp (queue ▸ serial.distinct backend)
  have writer {other : RelId} (different : other ≠ rel) :
      (server.publish backend rel rest).writer other = server.writer other :=
    Function.update_of_ne different _ _
  have unlocked : (server.publish backend rel rest).writer rel = none := Function.update_self _ _ _
  have files {other : RelId} (different : other ≠ rel) :
      (server.publish backend rel rest).files other = server.files other :=
    Function.update_of_ne different _ _
  have fewer {holder : BackendId} {other : RelId}
      (member : other ∈ (server.publish backend rel rest).committing holder) :
      other ∈ server.committing holder ∧ other ≠ rel := by
    by_cases same : holder = backend
    · have inRest : other ∈ rest := by
        rw [Server.publish, same] at member
        simpa using member
      refine ⟨by rw [same, queue]; exact List.mem_cons_of_mem _ inRest, fun equal => ?_⟩
      exact once (equal ▸ inRest)
    · have inQueue : other ∈ server.committing holder := by
        simpa [Server.publish, same] using member
      refine ⟨inQueue, fun equal => same ?_⟩
      have theirs := (serial.queued holder other inQueue).1
      rw [equal, locked] at theirs
      exact (Option.some.inj theirs).symm
  have more {holder : BackendId} {other : RelId} (member : other ∈ server.committing holder)
      (different : other ≠ rel) : other ∈ (server.publish backend rel rest).committing holder := by
    by_cases same : holder = backend
    · rw [same, queue] at member
      have inRest := (List.mem_cons.mp member).resolve_left different
      simpa [Server.publish, same] using inRest
    · simpa [Server.publish, same] using member
  constructor
  case entered => exact serial.entered
  case taken => exact serial.taken
  case synced =>
    intro holder running
    obtain ⟨base, synced, held⟩ := serial.synced holder running
    refine ⟨base, synced, fun other theirs => ?_⟩
    have different : other ≠ rel := by
      intro equal
      rw [equal, unlocked] at theirs
      cases theirs
    rw [files different]
    exact held other (writer different ▸ theirs)
  case unwritten =>
    intro holder running other theirs
    by_cases same : other = rel
    · subst same
      refine serial.unwritten holder running other fun own => ?_
      rw [locked] at own
      exact still (Option.some.inj own ▸ running)
    · exact serial.unwritten holder running other (writer same ▸ theirs)
  case holding =>
    intro holder other theirs
    have different : other ≠ rel := by
      intro equal
      rw [equal, unlocked] at theirs
      cases theirs
    rw [writer different] at theirs
    exact (serial.holding holder other theirs).imp_right fun member => more member different
  case queued =>
    intro holder other member
    obtain ⟨before, different⟩ := fewer member
    rw [writer different]
    exact serial.queued holder other before
  case distinct =>
    intro holder
    by_cases same : holder = backend
    · simpa [Server.publish, same] using distinct
    · simpa [Server.publish, same] using serial.distinct holder
  case settled =>
    intro other free
    by_cases same : other = rel
    · subst same
      exact (Function.update_self _ _ _).trans (serial.pending backend other first)
    · rw [files same]
      exact serial.settled other fun holder member => free holder (more member same)
  case pending =>
    intro holder other member
    exact serial.pending holder other (fewer member).1
  case kept =>
    intro other
    have statements (part : Passed → List Executed)
        (same : ∀ passed ∈ server.serial, statementsOn other (part passed) =
          statementsOn other (passed.survives (server.publish backend rel rest).committing)) :
        (initial other).append (statementsOn other (server.serial.flatMap part)) =
          (server.publish backend rel rest).survived initial other := by
      rw [survived, statementsOn_flatMap, statementsOn_flatMap, List.flatMap_congr same]
      rfl
    by_cases same : other = rel
    · rw [same]
      refine (Function.update_self _ _ _).trans ((serial.pending backend rel first).trans ?_)
      refine same ▸ statements Passed.ran fun passed _ => ?_
      rw [Passed.statementsOn_survives, if_neg fun both => (fewer both.2).2 same]
    · rw [files same, serial.kept other]
      refine statements _ fun passed _ => ?_
      rw [Passed.statementsOn_survives, Passed.statementsOn_survives]
      exact if_congr (and_congr_right fun _ => ⟨fun member => more member same, fun member => (fewer member).1⟩)
        rfl rfl
  case opened => exact serial.opened
  case present => exact serial.present

/-- After a crash the transactions are what survived of them. -/
theorem recover (serial : server.Serial initial) : server.recover.Serial initial := by
  have ended : ∀ passed ∈ server.recover.serial, passed.stage ≠ .pending := by
    intro passed member
    obtain ⟨old, _, rfl⟩ := List.mem_map.mp member
    unfold Passed.crash
    dsimp only
    split
    · decide
    · next other => exact other
  have files (rel : RelId) : server.recover.files rel = server.recover.expected initial rel := by
    rw [expected, Server.recover, List.flatMap_map]
    exact serial.kept rel
  constructor
  case entered => exact fun _ => Entered.start _
  case taken => exact fun _ => nofun
  case synced => exact fun _ => nofun
  case unwritten => exact fun _ => nofun
  case holding => exact fun _ _ => nofun
  case queued => exact fun _ _ => nofun
  case distinct => exact fun _ => List.nodup_nil
  case settled => exact fun rel _ => files rel
  case pending => exact fun _ _ => nofun
  case kept =>
    intro rel
    rw [files rel, expected, survived, statementsOn_flatMap, statementsOn_flatMap]
    have whole (passed : Passed) (member : passed ∈ server.recover.serial) :
        statementsOn rel (passed.survives server.recover.committing) = statementsOn rel passed.ran := by
      rw [Passed.statementsOn_survives, if_neg fun both => ended passed member both.1]
    have same := List.flatMap_congr whole
    exact congrArg (Contents.append · (initial rel)) same.symm
  case opened => exact fun passed member still => absurd still (ended passed member)
  case present => exact fun _ => nofun

theorem step (serial : server.Serial initial) {event : ServerEvent} {after : Server}
    (allowed : server.Allowed event) (stepped : server.step event = some after) :
    after.Serial initial := by
  cases event with
  | crash =>
      cases stepped
      exact serial.recover
  | commitNext backend =>
      rw [Server.step] at stepped
      cases queue : server.committing backend with
      | nil =>
          rw [queue] at stepped
          cases stepped
      | cons rel rest =>
          rw [queue] at stepped
          cases stepped
          exact serial.publish queue
  | session backend event =>
      have guarded (kept : ∀ rel, event ≠ .drop rel) :
          server.committing backend = [] ∧
            server.free backend ((server.seen backend).ran event) = true ∧
            ∃ next, (server.seen backend).step event = some next ∧
              server.settle backend event next = after := by
        cases event with
        | drop rel => exact absurd rfl (kept rel)
        | begin | call | read | startSub | commitSub | abortSub | preCommit | commit | abort =>
            obtain ⟨⟨idle, free⟩, mapped⟩ := Option.ite_none_right_eq_some.mp stepped
            exact ⟨idle, free, Option.map_eq_some_iff.mp mapped⟩
      cases event with
      | drop rel => cases stepped
      | begin =>
          obtain ⟨idle, _, next, taken, rfl⟩ := guarded nofun
          exact serial.begin idle taken
      | call rel write fails =>
          obtain ⟨idle, free, next, taken, rfl⟩ := guarded nofun
          obtain ⟨running, opens, lossless⟩ := allowed
          have sound := (serial.seen_synced running).sound rel
          exact serial.inside idle free running ⟨opens, fun _ => lossless⟩ lossless ⟨opens, sound.whole⟩
            taken rfl rfl
      | read rel fails =>
          obtain ⟨idle, free, next, taken, rfl⟩ := guarded nofun
          obtain ⟨running, opens, lossless⟩ := allowed
          exact serial.inside idle free running ⟨opens, fun _ => lossless⟩ lossless opens taken rfl rfl
      | startSub order fails =>
          obtain ⟨idle, free, next, taken, rfl⟩ := guarded nofun
          cases steps_of_step taken with
          | startSub running =>
              have whole := (serial.seen_synced running).sound.whole
              exact serial.inside idle free running allowed (lossless_of_setsSavepoints allowed)
                whole taken rfl rfl
      | commitSub fails =>
          obtain ⟨idle, free, next, taken, rfl⟩ := guarded nofun
          cases steps_of_step taken with
          | commitSub _ running =>
              exact serial.inside idle free running allowed allowed trivial taken rfl rfl
      | abortSub fails =>
          obtain ⟨idle, free, next, taken, rfl⟩ := guarded nofun
          cases steps_of_step taken with
          | abortSub _ running =>
              exact serial.inside idle free running allowed allowed.2 trivial taken rfl rfl
      | preCommit order fails =>
          obtain ⟨idle, _, next, taken, rfl⟩ := guarded nofun
          exact serial.preCommit idle allowed taken
      | commit =>
          obtain ⟨idle, _, next, taken, rfl⟩ := guarded nofun
          cases steps_of_step taken with
          | commit ready =>
              have cleanly : (server.seen backend).AbortsCleanly .commit := serial.taken backend ready
              exact serial.ended idle cleanly taken rfl rfl rfl (by decide) rfl
      | abort fails =>
          obtain ⟨idle, _, next, taken, rfl⟩ := guarded nofun
          cases steps_of_step taken with
          | abort =>
              have cleanly : (server.seen backend).AbortsCleanly (.abort fails) := allowed
              exact serial.ended idle cleanly taken rfl rfl rfl (by decide) rfl

theorem run (serial : server.Serial initial) {events : List ServerEvent} {after : Server}
    (reached : Server.run server events = some after)
    (allowed : Transition.Meets Server.step Server.Allowed server events) : after.Serial initial :=
  Transition.run_invariant (fun _ _ _ serial allowed stepped => serial.step allowed stepped)
    serial allowed reached

end Serial

/-- In every run of any number of backends, whose transactions interleave in any way, the files are
those of a store that runs the transactions one after the other, in the order of their `PreCommit`,
but for files whose COMMIT is still to come. What a transaction reads of the relations that it has
written is what it would read when it ran alone at that place. -/
theorem writers_serializable {files : RelId → Option Table} {events : List ServerEvent}
    {server : Server} (reached : Server.run (Server.start files) events = some server)
    (allowed : Transition.Meets Server.step Server.Allowed (Server.start files) events) :
    ∃ store, Transition.run TableStore.step (TableStore.start files)
        (server.serial.flatMap fun passed => transaction passed.ran) = some store ∧
      store.running = none ∧
      (∀ rel, (∀ backend, rel ∉ server.committing backend) →
        (server.files rel).table = store.committed rel) ∧
      (∀ backend, ∀ rel ∈ server.committing backend,
        ((server.sessions backend).fileContents rel).table = store.committed rel) ∧
      ∀ backend rel, server.writer rel = some backend → rel ∉ server.committing backend →
        ((server.sessions backend).view rel).table =
          TableStore.apply ((statementsOn rel (server.sessions backend).ledger.current).map Entry.stmt)
            (store.committed rel) := by
  have serial := (Serial.start files).run reached allowed
  have store := run_serial (fun rel => ⟨(files rel).getD Table.empty, []⟩) (server.serial.map Passed.ran)
  rw [List.flatMap_map, ← List.flatMap_def] at store
  refine ⟨_, store, rfl, fun rel free => ?_, fun backend rel queued => ?_, fun backend rel locked unqueued => ?_⟩
  · rw [serial.settled rel free, expected]
  · rw [serial.pending backend rel queued, expected]
  · have running := (serial.holding backend rel locked).resolve_right unqueued
    obtain ⟨base, synced, held⟩ := serial.synced backend running
    have free : ∀ other, rel ∉ server.committing other := by
      intro other queued
      have theirs := (serial.queued other rel queued).1
      rw [locked] at theirs
      exact unqueued (Option.some.inj theirs ▸ queued)
    have view : (server.sessions backend).view rel = (base rel).append
        (statementsOn rel (server.sessions backend).ledger.current) := by
      rw [view_eq]
      exact (synced.follows rel).view
    rw [view, apply_append, held rel locked, serial.settled rel free, expected]

/-- The second backend writes and commits one relation between the two COMMITs of the first. -/
def crossing : List ServerEvent :=
  [.session 1 .begin, .session 2 .begin, .session 1 (.call 7 insertOne noFaults),
    .session 1 (.call 8 insertOne noFaults), .session 1 (.preCommit [7, 8] noFaults),
    .commitNext 1, .session 2 (.call 7 insertOne noFaults), .session 2 (.preCommit [7] noFaults),
    .commitNext 2, .session 2 .commit]

theorem crossing_serializable :
    ∃ server store, Server.run (Server.start noFiles) crossing = some server ∧
      Transition.run TableStore.step (TableStore.start noFiles)
        (server.serial.flatMap fun passed => transaction passed.ran) = some store ∧
      (server.files 7).table = store.committed 7 ∧ (store.committed 7).countRows = 2 ∧
      ((server.sessions 1).fileContents 8).table = store.committed 8 := by
  obtain ⟨server, reached, none, queue, rows⟩ : ∃ server,
      Server.run (Server.start noFiles) crossing = some server ∧
        (∀ backend, 7 ∉ server.committing backend) ∧ server.committing 1 = [8] ∧
        (server.files 7).table.countRows = 2 := by
    refine ⟨_, rfl, fun backend => ?_, rfl, by decide⟩
    match backend with
    | 0 | 2 | _ + 3 => exact List.not_mem_nil
    | 1 => decide
  obtain ⟨store, serial, _, settled, pending, _⟩ := writers_serializable reached (by decide)
  refine ⟨server, store, reached, serial, settled 7 none, ?_, pending 1 8 ?_⟩
  · rw [← settled 7 none]
    exact rows
  · rw [queue]
    exact List.mem_singleton_self 8

end Server

end SqliteHeap
