import SqliteHeap.SessionContents

/-! The end of an aborted transaction. Without failing COMMITs and ROLLBACKs, no
connection stays in a SQLite transaction and nothing of the aborted transaction
reaches a file later, as long as nothing is written on a connection whose
transaction SQLite has rolled back. -/

set_option autoImplicit false

namespace SqliteHeap

open SavepointStack

namespace RelConn

variable {conn : RelConn}

/-- ROLLBACK ends the transaction, or fails because SQLite has ended it. -/
theorem rollback_ended {fails : Sql → Bool} (held : conn.inTxn = true)
    (succeeds : fails .rollback = false) :
    conn.rollback fails = ⟨⟨conn.db.file, none⟩, false⟩ := by
  obtain ⟨⟨file, txn⟩, inTxn⟩ := conn
  cases held
  cases txn <;> simp [rollback, tryExec, succeeds, Db.rollback]

theorem commit_failed {fails : Sql → Bool} (whole : ¬ conn.Stale)
    (failed : conn.commit fails = none) : conn.inTxn = true ∧ fails .commit = true := by
  unfold commit at failed
  split at failed
  · cases failed
  · next held =>
      have held : conn.inTxn = true := by simpa using held
      obtain ⟨txn, opened⟩ := (stale_or_open held).resolve_left whole
      split at failed
      · next fault => exact ⟨held, fault⟩
      · simp [Db.commit, opened] at failed

theorem Sound.whole (sound : conn.Sound) : ¬ conn.Stale := by
  rintro ⟨held, closed⟩
  obtain ⟨txn, opened⟩ := sound.held held
  rw [closed] at opened
  cases opened

/-- A statement that warns leaves no transaction or what it would leave anyway. -/
theorem warnExec_sound_or_stale {fails : Sql → Bool} {statement : Sql}
    {exec : SqliteDb → Option SqliteDb} (held : conn.inTxn = true)
    (sound : (conn.tryExec (fails statement) exec).Sound) :
    (conn.warnExec fails statement exec).Sound ∨ (conn.warnExec fails statement exec).Stale := by
  rcases warnExec_stale_or fails statement exec held with stale | ran
  · exact .inr stale
  · rw [ran]
    exact .inl sound

/-- After SQLite's own rollback, `in_txn` is wrong just if it was set. -/
theorem abandon_sound_or_stale (conn : RelConn) : conn.abandon.Sound ∨ conn.abandon.Stale := by
  cases held : conn.inTxn with
  | false => exact .inl ⟨by simp [held], by simp⟩
  | true => exact .inr ⟨held, rfl⟩

end RelConn

namespace Session

/-- No statement that an abort undid is in a file. -/
def Forgotten (session : Session) : Prop :=
  ∀ rel entry, (rel, entry) ∈ session.lost → entry ∉ (session.fileContents rel).log

/-- Every statement that `exec` stands for succeeds on the connections in a
transaction. -/
def Succeeds (session : Session) (statement : Sql) (fails : Faults) : Prop :=
  ∀ rel ∈ session.backend.txRels, (session.conn rel).inTxn = true → fails rel statement = false

instance (session : Session) (statement : Sql) (fails : Faults) :
    Decidable (session.Succeeds statement fails) :=
  inferInstanceAs (Decidable (∀ rel ∈ session.backend.txRels, _ → _))

/-- SQLite has rolled back the transaction of no touched relation. -/
def Whole (session : Session) : Prop :=
  ∀ rel ∈ session.backend.txRels, ¬ (session.conn rel).Stale

instance (session : Session) : Decidable session.Whole :=
  inferInstanceAs (Decidable (∀ rel ∈ session.backend.txRels, _))

theorem Sound.whole {session : Session} (sound : session.Sound) : session.Whole :=
  fun rel _ => (sound rel).whole

/-- The steps after which an abort reaches every connection: the first open of a
transaction, its COMMITs and its ROLLBACKs succeed, no table is touched between
`PreCommit` and the commit, and neither a write nor a SAVEPOINT runs on a
connection whose transaction SQLite has rolled back. -/
def AbortsCleanly (session : Session) : Event → Prop
  | .call rel _ fails =>
      ¬ Backend.FirstOpenFails fails rel session.backend ∧ ¬ (session.conn rel).Stale
  | .read rel fails => ¬ Backend.FirstOpenFails fails rel session.backend
  | .startSub _ _ => session.Whole
  | .preCommit _ fails => session.Succeeds .commit fails ∧ session.Whole
  | .commit => session.backend.txRels = ∅
  | .abort fails => session.Succeeds .rollback fails
  | _ => True

instance (session : Session) : ∀ event, Decidable (session.AbortsCleanly event)
  | .call rel _ fails =>
      inferInstanceAs (Decidable (¬ Backend.FirstOpenFails fails rel _ ∧ ¬ (session.conn rel).Stale))
  | .read rel fails => inferInstanceAs (Decidable (¬ Backend.FirstOpenFails fails rel _))
  | .startSub _ _ => inferInstanceAs (Decidable session.Whole)
  | .preCommit _ fails => inferInstanceAs (Decidable (session.Succeeds .commit fails ∧ session.Whole))
  | .commit => inferInstanceAs (Decidable (_ = _))
  | .abort fails => inferInstanceAs (Decidable (session.Succeeds .rollback fails))
  | .begin | .drop _ | .commitSub _ | .abortSub _ => isTrue trivial

theorem tick_of_step {session next : Session} {event : Event}
    (stepped : session.step event = some next) : session.tick ≤ next.tick := by
  cases steps_of_step stepped with
  | call => exact Nat.le_add_right _ _
  | begin | read | drop | startSub | commitSub | abortSub | preCommit | commit | abort =>
      exact Nat.le_refl _

/-- The transactions that are open are those of the touched relations. -/
structure Entered (session : Session) : Prop where
  formed : session.WellFormed
  idle : session.phase = .idle → session.backend.txRels = ∅
  registered : session.backend.txRels ≠ ∅ → session.backend.registered = true
  touched : ∀ rel, (session.conn rel).inTxn = true → rel ∈ session.backend.txRels
  closed : ∀ rel, (session.conn rel).inTxn = false → (session.conn rel).db.txn = none
  usual : ∀ rel, (session.conn rel).Sound ∨ (session.conn rel).Stale

theorem sound_of_ended {conn : RelConn} (ended : conn.inTxn = false ∧ conn.db.txn = none) :
    conn.Sound := ⟨by simp [ended.1], by simp [ended.2]⟩

namespace Entered

variable {session next : Session} {event : Event}

theorem start (files : RelId → Option Table) : (Session.start files).Entered where
  formed := WellFormed.start files
  idle _ := rfl
  registered touched := absurd rfl touched
  touched rel held := by simp [Session.start, Session.conn, RelState.conn, RelConn.openConn] at held
  closed rel _ := by simp [Session.start, Session.conn, RelState.conn, RelConn.openConn]
  usual rel := .inl (RelConn.Sound.openConn _)

/-- A connection inside a transaction is one that the callbacks reach. -/
theorem hooked (entered : session.Entered) {rel : RelId} (held : (session.conn rel).inTxn = true) :
    rel ∈ session.backend.txRels ∧ session.backend.registered = true :=
  ⟨entered.touched rel held, entered.registered (Finset.ne_empty_of_mem (entered.touched rel held))⟩

theorem quiet (entered : session.Entered) (none : session.backend.txRels = ∅) : session.Quiet := by
  intro rel
  have bare : (session.conn rel).inTxn = false := by
    by_contra held
    have touched := entered.touched rel (by simpa using held)
    simp [none] at touched
  exact ⟨entered.closed rel bare, bare⟩

/-- A connection to which SQLite has left its transaction is sound. -/
theorem sound (entered : session.Entered) {rel : RelId} (whole : ¬ (session.conn rel).Stale) :
    (session.conn rel).Sound := (entered.usual rel).resolve_right whole

theorem whole (entered : session.Entered) (whole : session.Whole) (rel : RelId) :
    ¬ (session.conn rel).Stale :=
  fun stale => whole rel (entered.touched rel stale.1) stale

theorem call (entered : session.Entered) (running : session.phase ≠ .idle) {rel : RelId}
    {write : Write} {fails : Faults}
    (opens : ¬ Backend.FirstOpenFails fails rel session.backend)
    (whole : ¬ (session.conn rel).Stale) : (session.runCall rel write fails).Entered := by
  obtain ⟨touches, ran, _, _, _, _, effect⟩ := runCall_cases session rel write fails
  have insideTxn : ∀ other, (session.runCall rel write fails).conn other = session.conn other ∨
      other = rel ∧ ((session.runCall rel write fails).conn other).inTxn = true ∧
        (((session.runCall rel write fails).conn other).Sound ∨
          ((session.runCall rel write fails).conn other).Stale) := by
    intro other
    rcases runCall_conn other effect touches with ⟨_, same⟩ | ⟨rfl, ⟨_, same⟩ | wrote⟩
    · exact .inl same
    · exact .inl same
    · obtain ⟨begun, started, written⟩ := wrote
      obtain ⟨sound, held, _⟩ := (entered.sound whole).beginIfNeeded started
      refine .inr ⟨rfl, ?_⟩
      rcases written with written | ⟨_, _, lost⟩
      · rw [written]
        exact ⟨held, .inl (sound.execute ran)⟩
      · rw [lost]
        exact ⟨held, .inr ⟨held, rfl⟩⟩
  refine ⟨entered.formed.call running rel write fails, fun idle => absurd idle running,
    fun _ => registered_of_touches touches opens entered.registered, fun other held => ?_,
    fun other bare => ?_, fun other => ?_⟩
  · rw [touches.txRels]
    rcases insideTxn other with same | ⟨rfl, _⟩
    · rw [same] at held
      exact Finset.mem_insert_of_mem (entered.touched other held)
    · exact Finset.mem_insert_self _ _
  · rcases insideTxn other with same | ⟨_, held, _⟩
    · rw [same] at bare ⊢
      exact entered.closed other bare
    · rw [held] at bare
      cases bare
  · rcases insideTxn other with same | ⟨_, _, usual⟩
    · rw [same]
      exact entered.usual other
    · exact usual

theorem read (entered : session.Entered) (running : session.phase ≠ .idle) {rel : RelId}
    {fails : Faults} (opens : ¬ Backend.FirstOpenFails fails rel session.backend) :
    (session.runRead rel fails).Entered := by
  obtain ⟨touches, _⟩ := runRead_cases session rel fails
  refine ⟨entered.formed.read running rel fails, fun idle => absurd idle running,
    fun _ => registered_of_touches touches opens entered.registered, fun other held => ?_,
    fun other bare => ?_, fun other => ?_⟩
  · rw [touches.txRels]
    refine Finset.mem_insert_of_mem (entered.touched other ?_)
    rcases runRead_conn session rel fails other with same | ⟨rfl, _, _, lost⟩
    · rwa [same] at held
    · rwa [lost] at held
  · rcases runRead_conn session rel fails other with same | ⟨rfl, _, _, lost⟩
    · rw [same] at bare ⊢
      exact entered.closed other bare
    · rw [lost]
      rfl
  · rcases runRead_conn session rel fails other with same | ⟨rfl, _, _, lost⟩
    · rw [same]
      exact entered.usual other
    · rw [lost]
      exact RelConn.abandon_sound_or_stale _

theorem startSub (entered : session.Entered) (running : session.phase = .running)
    {order : List RelId} (distinct : order.Nodup)
    (complete : order.toFinset = session.backend.txRels) (whole : session.Whole) (fails : Faults) :
    (session.runStartSub order fails).Entered := by
  obtain ⟨txRels, registered, _⟩ := runStartSub_kept session distinct fails
  refine ⟨entered.formed.startSub running distinct fails, fun idle => ?_, ?_, fun rel held => ?_,
    fun rel bare => ?_, fun rel => ?_⟩
  · simp [runStartSub, running] at idle
  · rw [txRels, registered]
    exact entered.registered
  · rw [txRels]
    rcases runStartSub_rel session distinct fails rel with ⟨same, _⟩ | ⟨member, _⟩
    · rw [conn_congr same] at held
      exact entered.touched rel held
    · rw [← complete]
      exact List.mem_toFinset.mpr member
  · rcases runStartSub_rel session distinct fails rel with
      ⟨same, _⟩ | ⟨_, begun, _, started, effect⟩
    · rw [conn_congr same] at bare ⊢
      exact entered.closed rel bare
    · have held := RelConn.beginIfNeeded_inTxn started
      rw [conn_of_opened effect, RelConn.warnExec_inTxn, held] at bare
      cases bare
  · rcases runStartSub_rel session distinct fails rel with
      ⟨same, _⟩ | ⟨_, begun, _, started, effect⟩
    · rw [conn_congr same]
      exact entered.usual rel
    · obtain ⟨sound, held, _⟩ := (entered.sound (entered.whole whole rel)).beginIfNeeded started
      rw [conn_of_opened effect]
      exact RelConn.warnExec_sound_or_stale held (sound.savepoint held _ _)

theorem subEnd (entered : session.Entered) (formed : next.WellFormed)
    (phase : next.phase = session.phase)
    (txRels : next.backend.txRels = session.backend.txRels)
    (registered : next.backend.registered = session.backend.registered)
    (conns : ∀ rel, next.conn rel = session.conn rel ∨
      (session.conn rel).inTxn = true ∧ (next.conn rel).inTxn = true ∧
        ((next.conn rel).Sound ∨ (next.conn rel).Stale)) : next.Entered := by
  refine ⟨formed, fun idle => ?_, ?_, fun rel held => ?_, fun rel bare => ?_, fun rel => ?_⟩
  · rw [txRels]
    exact entered.idle (by rw [← phase, idle])
  · rw [txRels, registered]
    exact entered.registered
  · rw [txRels]
    rcases conns rel with same | ⟨before, _⟩
    · rw [same] at held
      exact entered.touched rel held
    · exact entered.touched rel before
  · rcases conns rel with same | ⟨_, held, _⟩
    · rw [same] at bare ⊢
      exact entered.closed rel bare
    · rw [held] at bare
      cases bare
  · rcases conns rel with same | ⟨_, _, usual⟩
    · rw [same]
      exact entered.usual rel
    · exact usual

theorem preCommit (entered : session.Entered) (running : session.phase = .running)
    (closed : session.subs = []) {order : List RelId} (distinct : order.Nodup)
    (complete : order.toFinset = session.backend.txRels) {fails : Faults}
    (succeeds : session.Succeeds .commit fails) (whole : session.Whole) :
    (session.runPreCommit order fails).Entered := by
  obtain ⟨fewer, _, registered, _⟩ := runPreCommit_kept session distinct fails
  have completed : session.backend.registered = true →
      (session.runPreCommit order fails).failed = false := by
    intro hooked
    by_contra panicked
    obtain ⟨rel, member, conn, opened, failed⟩ := Backend.onPrecommit_panicked distinct
      (by simpa [runPreCommit, hooked] using panicked)
    rw [← conn_of_opened opened] at failed
    obtain ⟨held, fault⟩ := RelConn.commit_failed (entered.whole whole rel) failed
    have touched : rel ∈ session.backend.txRels := by
      rw [← complete]
      exact List.mem_toFinset.mpr member
    rw [succeeds rel touched held] at fault
    cases fault
  have ended : ∀ rel, ((session.runPreCommit order fails).conn rel).inTxn = false ∧
      ((session.runPreCommit order fails).conn rel).db.txn = none := by
    intro rel
    rcases runPreCommit_rel session distinct fails rel with
      ⟨same, _, reach⟩ | ⟨member, _, _, _, failed, _⟩ | ⟨_, _, committed, _, done, effect⟩
    · have bare : (session.conn rel).inTxn = false := by
        by_contra held
        have held : (session.conn rel).inTxn = true := by simpa using held
        obtain ⟨touched, hooked⟩ := entered.hooked held
        rw [← complete, List.mem_toFinset] at touched
        have uncached := reach hooked (completed hooked) touched
        rw [cached_of_inTxn held] at uncached
        cases uncached
      rw [conn_congr same]
      exact ⟨bare, entered.closed rel bare⟩
    · obtain ⟨held, fault⟩ := RelConn.commit_failed (entered.whole whole rel) failed
      rw [succeeds rel (entered.touched rel held) held] at fault
      cases fault
    · rw [conn_of_opened effect]
      rcases RelConn.commit_cases done with ⟨bare, rfl⟩ | ⟨txn, _, _, rfl⟩
      · exact ⟨bare, entered.closed rel bare⟩
      · exact ⟨rfl, rfl⟩
  refine ⟨entered.formed.preCommit running closed order fails,
    fun idle => absurd idle (runPreCommit_not_idle running order fails), ?_,
    fun rel held => ?_, fun rel _ => (ended rel).2, fun rel => .inl (sound_of_ended (ended rel))⟩
  · rw [registered]
    exact fun touched => entered.registered fun none => touched (Finset.subset_empty.mp (none ▸ fewer))
  · rw [(ended rel).1] at held
    cases held

theorem commit (entered : session.Entered) (ready : session.phase = .preCommitted)
    (none : session.backend.txRels = ∅) : session.runCommit.Entered := by
  have quiet := entered.quiet none
  have ended : ∀ rel, (session.runCommit.conn rel).inTxn = false ∧
      (session.runCommit.conn rel).db.txn = Option.none := by
    intro rel
    rw [Session.conn, runCommit_rel]
    split
    · exact ⟨rfl, rfl⟩
    · exact ⟨(quiet rel).2, (quiet rel).1⟩
  have taken : session.runCommit.backend.txRels = ∅ :=
    Finset.subset_empty.mp (none ▸ runCommit_txRels session)
  refine ⟨entered.formed.commit ready, fun _ => taken, fun touched => absurd taken touched,
    fun rel held => ?_, fun rel _ => (ended rel).2, fun rel => .inl (sound_of_ended (ended rel))⟩
  rw [(ended rel).1] at held
  cases held

theorem abort (entered : session.Entered) (closed : session.subs = []) {fails : Faults}
    (succeeds : session.Succeeds .rollback fails) : (session.runAbort fails).Entered := by
  have taken : (session.runAbort fails).backend.txRels = ∅ :=
    runAbort_untouched entered.registered fails
  have ended : ∀ rel, ((session.runAbort fails).conn rel).inTxn = false ∧
      ((session.runAbort fails).conn rel).db.txn = none := by
    intro rel
    rcases runAbort_rel session fails rel with ⟨same, missed⟩ | ⟨touched, _, held, effect⟩
    · have bare : (session.conn rel).inTxn = false := by
        by_contra held
        have held : (session.conn rel).inTxn = true := by simpa using held
        obtain ⟨touched, hooked⟩ := entered.hooked held
        rcases missed with unhooked | untouched | bare
        · rw [hooked] at unhooked
          cases unhooked
        · exact untouched touched
        · rw [held] at bare
          cases bare
      rw [conn_congr same]
      exact ⟨bare, entered.closed rel bare⟩
    · rw [conn_of_opened effect, RelConn.rollback_ended held (succeeds rel touched held)]
      exact ⟨rfl, rfl⟩
  refine ⟨WellFormed.abort closed fails, fun _ => taken, fun touched => absurd taken touched,
    fun rel held => ?_, fun rel _ => (ended rel).2, fun rel => .inl (sound_of_ended (ended rel))⟩
  rw [(ended rel).1] at held
  cases held

theorem step (entered : session.Entered) (allowed : session.AbortsCleanly event)
    (stepped : session.step event = some next) : next.Entered := by
  cases steps_of_step stepped with
  | begin idle =>
      exact { entered with formed := entered.formed.step stepped, idle := nofun }
  | call running _ => exact entered.call running allowed.1 allowed.2
  | read running _ => exact entered.read running allowed
  | drop running _ => exact { entered with formed := entered.formed.step stepped }
  | startSub running _ distinct complete =>
      exact entered.startSub running distinct complete allowed _
  | @commitSub fails sub rest subs running _ =>
      obtain ⟨txRels, registered, _⟩ := onSubEnd_kept session
        fun rel conn => conn.warnExec (fails rel) .release (Db.release sub.id)
      refine entered.subEnd (entered.formed.step stepped) rfl txRels registered fun rel => ?_
      rcases runCommitSub_rel session sub rest fails rel with ⟨same, _⟩ | ⟨_, _, held, effect⟩
      · exact .inl (conn_congr same)
      · refine .inr ⟨held, by rw [conn_of_opened effect, RelConn.warnExec_inTxn, held], ?_⟩
        rw [conn_of_opened effect]
        rcases entered.usual rel with sound | stale
        · exact RelConn.warnExec_sound_or_stale held (sound.release held _ _)
        · rw [stale.warnExec fun _ => by simp [Db.release, stale.2]]
          exact .inr stale
  | @abortSub fails sub rest subs running =>
      obtain ⟨txRels, registered, _⟩ := onSubEnd_kept session
        fun rel conn => conn.warnExec (fails rel) .rollbackTo (Db.rollbackTo sub.id)
      refine entered.subEnd (entered.formed.step stepped) rfl txRels registered fun rel => ?_
      rcases runAbortSub_rel session sub rest fails rel with ⟨same, _⟩ | ⟨_, _, held, effect⟩
      · exact .inl (conn_congr same)
      · refine .inr ⟨held, by rw [conn_of_opened effect, RelConn.warnExec_inTxn, held], ?_⟩
        rw [conn_of_opened effect]
        rcases entered.usual rel with sound | stale
        · exact RelConn.warnExec_sound_or_stale held (sound.rollbackTo held _ _)
        · rw [stale.warnExec fun _ => by simp [Db.rollbackTo, stale.2]]
          exact .inr stale
  | preCommit running _ closed distinct complete =>
      exact entered.preCommit running closed distinct complete allowed.1 allowed.2
  | commit ready _ => exact entered.commit ready allowed
  | abort _ closed => exact entered.abort closed allowed

/-- Before `PreCommit` no file changes. -/
theorem file_of_step (entered : session.Entered) (allowed : session.AbortsCleanly event)
    (stepped : session.step event = some next) (rel : RelId) :
    (next.conn rel).db.file = (session.conn rel).db.file ∨ rel ∈ next.commitRan ∨
      event = .commit := by
  cases steps_of_step stepped with
  | begin | drop => exact .inl rfl
  | @call target write fails _ _ =>
      obtain ⟨touches, ran, _, _, _, _, effect⟩ := runCall_cases session target write fails
      rcases runCall_conn rel effect touches with ⟨_, same⟩ | ⟨rfl, wrote⟩
      · exact .inl (by rw [same])
      · exact .inl (wrote.file (entered.sound allowed.2))
  | @read target fails =>
      rcases runRead_conn session target fails rel with same | ⟨rfl, _, _, lost⟩
      · exact .inl (by rw [same])
      · exact .inl (by rw [lost]; rfl)
  | @startSub order fails _ _ distinct _ =>
      rcases runStartSub_rel session distinct fails rel with
        ⟨same, _⟩ | ⟨_, begun, _, started, effect⟩
      · exact .inl (by rw [conn_congr same])
      · obtain ⟨_, _, txn, opened⟩ := (entered.sound (entered.whole allowed rel)).beginIfNeeded started
        rw [conn_of_opened effect, RelConn.warnExec_file, RelConn.beginIfNeeded_file started]
        · exact .inl rfl
        · rw [RelConn.savepoint_open opened]
          split <;> rfl
  | @commitSub fails sub rest _ _ _ =>
      rcases runCommitSub_rel session sub rest fails rel with ⟨same, _⟩ | ⟨_, _, held, effect⟩
      · exact .inl (by rw [conn_congr same])
      · rw [conn_of_opened effect]
        rcases entered.usual rel with sound | stale
        · obtain ⟨txn, opened⟩ := sound.held held
          refine .inl (RelConn.warnExec_file ?_)
          rcases RelConn.release_cases (fails rel .release) opened (sound.begun txn opened) with
            same | ⟨_, _, _, same⟩ <;> rw [same]
        · rw [stale.warnExec fun _ => by simp [Db.release, stale.2]]
          exact .inl rfl
  | @abortSub fails sub rest _ _ =>
      rcases runAbortSub_rel session sub rest fails rel with ⟨same, _⟩ | ⟨_, _, _, effect⟩
      · exact .inl (by rw [conn_congr same])
      · rw [conn_of_opened effect]
        exact .inl (RelConn.warnExec_file (RelConn.rollbackTo_file _ _ _))
  | @preCommit order fails _ _ _ distinct _ =>
      rcases runPreCommit_rel session distinct fails rel with
        ⟨same, _⟩ | ⟨_, _, _, _, _, effect⟩ | ⟨_, ran, _⟩
      · exact .inl (by rw [conn_congr same])
      · rw [conn_of_opened effect]
        exact .inl (RelConn.afterError_file _ _)
      · exact .inr (.inl ran)
  | commit _ _ => exact .inr (.inr rfl)
  | @abort fails _ _ =>
      rcases runAbort_rel session fails rel with ⟨same, _⟩ | ⟨_, _, _, effect⟩
      · exact .inl (by rw [conn_congr same])
      · rw [conn_of_opened effect]
        exact .inl (RelConn.rollback_file _ _)

end Entered

/-- No COMMIT has run while Postgres can still reach `PreCommit`. -/
def Uncommitted (session : Session) : Prop :=
  session.phase = .running → session.failed = false ∨ session.subs ≠ [] → session.commitRan = []

theorem Uncommitted.step {session next : Session} {event : Event} (formed : session.WellFormed)
    (early : session.Uncommitted) (stepped : session.step event = some next) :
    next.Uncommitted := by
  cases steps_of_step stepped with
  | begin idle => exact fun _ _ => (formed.rest idle).2.2.2.2.2.1
  | call _ sane => exact fun running _ => early running (.inl sane)
  | read _ sane => exact fun running _ => early running (.inl sane)
  | drop _ sane => exact fun running _ => early running (.inl sane)
  | startSub _ sane => exact fun running _ => early running (.inl sane)
  | commitSub _ _ sane => exact fun running _ => early running (.inl sane)
  | abortSub subs _ => exact fun running _ => early running (.inr (by simp [subs]))
  | @preCommit order fails running _ closed _ _ =>
      intro stays ended
      rcases runPreCommit_phase session order fails with ⟨_, ready⟩ | ⟨panicked, _⟩
      · rw [ready] at stays
        cases stays
      · rcases ended with sane | inside
        · rw [panicked] at sane
          cases sane
        · exact absurd closed inside
  | commit => exact nofun
  | abort => exact nofun

/-- Statements of an aborted transaction are nowhere, and those of the current one
are in no file before `PreCommit`. -/
structure Clean (session : Session) : Prop where
  entered : session.Entered
  early : session.Uncommitted
  bounded : ∀ rel contents, (session.conn rel).Reaches contents →
    ∀ entry ∈ contents.log, entry.tick < session.tick
  old : ∀ rel entry, (rel, entry) ∈ session.lost → entry.tick < session.tick
  forgotten : ∀ rel entry, (rel, entry) ∈ session.lost →
    ∀ contents, (session.conn rel).Reaches contents → entry ∉ contents.log
  pending : ∀ rel entry, (rel, entry) ∈ session.attempted → rel ∉ session.commitRan →
    entry ∉ (session.conn rel).db.file.log

namespace Clean

variable {session next : Session} {event : Event}

theorem start (files : RelId → Option Table) : (Session.start files).Clean where
  entered := Entered.start files
  early := nofun
  bounded rel contents reaches entry stored := by
    rw [(RelConn.reaches_of_txn_none rfl).mp reaches] at stored
    cases found : files rel <;>
      simp [Session.start, Session.conn, RelState.conn, RelConn.openConn, Contents.fresh, found]
        at stored
  old := by simp [Session.start]
  forgotten := by simp [Session.start]
  pending := by simp [Session.start]

theorem attempted_of_step (clean : session.Clean) (stepped : session.step event = some next)
    {rel : RelId} {entry : Entry} (member : (rel, entry) ∈ next.attempted)
    (missed : rel ∉ next.commitRan) :
    event ≠ .commit ∧
      ((rel, entry) ∈ session.attempted ∧ rel ∉ session.commitRan ∨
        session.tick ≤ entry.tick) := by
  cases steps_of_step stepped with
  | @call target write fails _ _ =>
      obtain ⟨_, ran, _, attempted, ticks, _⟩ := runCall_cases session target write fails
      rw [attempted] at member
      rcases mem_append_map_iff.mp member with earlier | ⟨_, inRan⟩
      · exact ⟨nofun, .inl ⟨earlier, missed⟩⟩
      · exact ⟨nofun, .inr (ticks entry inRan).1⟩
  | begin => exact ⟨nofun, .inl ⟨member, missed⟩⟩
  | read => exact ⟨nofun, .inl ⟨member, missed⟩⟩
  | drop => exact ⟨nofun, .inl ⟨member, missed⟩⟩
  | startSub => exact ⟨nofun, .inl ⟨member, missed⟩⟩
  | commitSub => exact ⟨nofun, .inl ⟨member, missed⟩⟩
  | abortSub => exact ⟨nofun, .inl ⟨member, missed⟩⟩
  | preCommit running sane =>
      exact ⟨nofun, .inl ⟨member, by simp [clean.early running (.inl sane)]⟩⟩
  | commit => simp [runCommit, endXact] at member
  | abort => simp [runAbort, endXact] at member

theorem pending_of_step (clean : session.Clean) (allowed : session.AbortsCleanly event)
    (stepped : session.step event = some next)
    {rel : RelId} {entry : Entry} (member : (rel, entry) ∈ next.attempted)
    (missed : rel ∉ next.commitRan) : entry ∉ (next.conn rel).db.file.log := by
  obtain ⟨during, origin⟩ := clean.attempted_of_step stepped member missed
  have unchanged : (next.conn rel).db.file = (session.conn rel).db.file := by
    rcases clean.entered.file_of_step allowed stepped rel with same | ran | committed
    · exact same
    · exact absurd ran missed
    · exact absurd committed during
  rw [unchanged]
  rcases origin with ⟨earlier, missed⟩ | fresh
  · exact clean.pending rel entry earlier missed
  · exact fun stored =>
      absurd (clean.bounded rel _ (RelConn.reaches_file _) entry stored) (Nat.not_lt.mpr fresh)

/-- An abort adds to the lost statements those that are in no file. -/
theorem lost_of_step (clean : session.Clean) (allowed : session.AbortsCleanly event)
    (stepped : session.step event = some next)
    {rel : RelId} {entry : Entry} (member : (rel, entry) ∈ next.lost) :
    (rel, entry) ∈ session.lost ∨
      entry.tick < session.tick ∧ next.phase = .idle ∧ entry ∉ (next.conn rel).db.file.log := by
  cases steps_of_step stepped with
  | @abort fails _ closed =>
      rcases List.mem_append.mp member with earlier | added
      · exact .inl earlier
      · obtain ⟨attempted, undone⟩ := List.mem_filter.mp added
        refine .inr ⟨clean.entered.formed.ticks _ attempted, rfl, ?_⟩
        have unchanged := clean.entered.file_of_step allowed stepped rel
        rw [unchanged.resolve_right (by simp [runAbort, endXact])]
        rcases of_decide_eq_true undone with missed | absent
        · exact clean.pending rel entry attempted missed
        · rwa [fileContents_eq] at absent
  | begin => exact .inl member
  | call => exact .inl member
  | read => exact .inl member
  | drop => exact .inl member
  | startSub => exact .inl member
  | commitSub => exact .inl member
  | abortSub => exact .inl member
  | preCommit => exact .inl member
  | commit => exact .inl member

/-- No step makes a connection reach an entry but those that it executes. -/
theorem stored_of_step (stepped : session.step event = some next)
    {rel : RelId} {contents : Contents} (reaches : (next.conn rel).Reaches contents) {entry : Entry}
    (stored : entry ∈ contents.log) :
    (∃ prior, (session.conn rel).Reaches prior ∧ entry ∈ prior.log) ∨
      session.tick ≤ entry.tick ∧ entry.tick < next.tick := by
  rcases reaches_of_step stepped reaches with
    old | ⟨_, rfl⟩ | ⟨write, fails, ran, _, rfl, extended⟩
  · exact .inl ⟨contents, old, stored⟩
  · cases stored
  · rcases List.mem_append.mp stored with before | added
    · refine .inl ⟨session.view rel, ?_, before⟩
      rw [view_eq]
      exact RelConn.reaches_view _
    · exact .inr (extended.ticks entry added)

theorem step (clean : session.Clean) (allowed : session.AbortsCleanly event)
    (stepped : session.step event = some next) : next.Clean := by
  have entered := clean.entered.step allowed stepped
  have later := tick_of_step stepped
  constructor
  case entered => exact entered
  case early => exact clean.early.step clean.entered.formed stepped
  case bounded =>
    intro rel contents reaches entry stored
    rcases stored_of_step stepped reaches stored with ⟨prior, old, inPrior⟩ | ⟨_, fresh⟩
    · exact Nat.lt_of_lt_of_le (clean.bounded rel prior old entry inPrior) later
    · exact fresh
  case old =>
    intro rel entry member
    rcases clean.lost_of_step allowed stepped member with before | ⟨tick, _⟩
    · exact Nat.lt_of_lt_of_le (clean.old rel entry before) later
    · exact Nat.lt_of_lt_of_le tick later
  case forgotten =>
    intro rel entry member contents reaches stored
    rcases clean.lost_of_step allowed stepped member with before | ⟨_, idle, absent⟩
    · rcases stored_of_step stepped reaches stored with ⟨prior, old, inPrior⟩ | ⟨fresh, _⟩
      · exact clean.forgotten rel entry before prior old inPrior
      · exact absurd (clean.old rel entry before) (Nat.not_lt.mpr fresh)
    · have closed := (entered.quiet (entered.idle idle) rel).1
      rw [(RelConn.reaches_of_txn_none closed).mp reaches] at stored
      exact absent stored
  case pending => exact fun rel entry member missed => clean.pending_of_step allowed stepped member missed

theorem run {files : RelId → Option Table} {events : List Event}
    (reached : Session.run (Session.start files) events = some session)
    (allowed : Transition.Meets Session.step AbortsCleanly (Session.start files) events) :
    session.Clean :=
  Transition.run_invariant (fun _ _ _ clean allowed stepped => clean.step allowed stepped)
    (start files) allowed reached

end Clean

/-- In every run whose steps abort cleanly, no transaction leaves a SQLite
transaction behind, and what an abort undid never reaches a file. -/
theorem aborted_transaction_gone {files : RelId → Option Table} {events : List Event}
    {session : Session} (reached : Session.run (Session.start files) events = some session)
    (allowed : Transition.Meets step AbortsCleanly (Session.start files) events) :
    (session.phase = .idle → session.Quiet) ∧ session.Forgotten := by
  have clean := Clean.run reached allowed
  refine ⟨fun idle => clean.entered.quiet (clean.entered.idle idle), fun rel entry member => ?_⟩
  rw [fileContents_eq]
  exact clean.forgotten rel entry member _ (RelConn.reaches_file _)

/-- Two relations are written, the transaction aborts, and a later one commits. -/
def abortThenCommit : List Event :=
  [.begin, .call 1 insertOne noFaults, .startSub [1] noFaults, .call 2 insertOne noFaults,
    .abortSub noFaults, .abort noFaults, .begin, .call 1 insertOne noFaults,
    .preCommit [1] noFaults, .commit]

theorem abortThenCommit_gone :
    ∃ session, Session.run (Session.start noFiles) abortThenCommit = some session ∧
      session.lost.length = 2 ∧ session.Quiet ∧ session.Forgotten := by
  have ends : ∃ session, Session.run (Session.start noFiles) abortThenCommit = some session ∧
      session.lost.length = 2 ∧ session.phase = .idle := ⟨_, rfl, by decide, by decide⟩
  obtain ⟨session, reached, length, idle⟩ := ends
  obtain ⟨quiet, forgotten⟩ := aborted_transaction_gone reached (by decide)
  exact ⟨session, reached, length, quiet idle, forgotten⟩

/-- COMMIT fails for the second of two relations. Postgres aborts, and a later
transaction writes that relation and commits. -/
def secondCommitFails : List Event :=
  [.begin, .call 1 insertOne noFaults, .call 2 insertOne noFaults,
    .preCommit [1, 2] (fun rel sql => rel = 2 ∧ sql = .commit), .abort noFaults]

/-- The connection stays in its transaction, and the write of the aborted
transaction becomes durable with the next COMMIT. -/
theorem secondCommitFails_leaks :
    ∃ session final, Session.run (Session.start noFiles) secondCommitFails = some session ∧
      session.phase = .idle ∧ ¬ session.Quiet ∧
      Session.run session [.begin, .call 2 insertOne noFaults, .preCommit [2] noFaults, .commit] =
        some final ∧ ¬ final.Forgotten := by
  refine ⟨_, _, rfl, rfl, fun quiet => ?_, rfl, fun forgotten => ?_⟩
  · have bare := (quiet 2).2
    revert bare
    decide
  · have absent := forgotten 2 ⟨1, .insertRow 100#32 0#32 [1]⟩ (by decide)
    revert absent
    decide

/-- SQLite rolls the transaction back under a subtransaction, and the next insert
commits by itself before Postgres aborts. -/
def lostThenInsert : List Event :=
  [.begin, .call 1 insertOne noFaults, .startSub [1] noFaults, .call 1 insertOne (losing (.stmt 0)),
    .abortSub noFaults, .call 1 insertOne noFaults, .abort noFaults]

example : ∃ session, Session.run (Session.start noFiles) lostThenInsert = some session ∧
    (session.fileContents 1).log = [⟨2, .insertRow 100#32 0#32 [1]⟩] :=
  ⟨_, rfl, by decide⟩

end Session

end SqliteHeap
