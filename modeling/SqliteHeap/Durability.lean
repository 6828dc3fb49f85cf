import SqliteHeap.SessionInvariant

/-! Durability. What Postgres commits is already in the SQLite files, as long as
the commit hook is registered in every transaction that writes, no savepoint of an
earlier transaction is taken for one of this transaction, and no SAVEPOINT opens a
transaction in place of one that SQLite rolled back: without it COMMIT would fail. -/

set_option autoImplicit false

namespace SqliteHeap.Session

open SavepointStack

/-- Every statement of the committing transaction is in its relation's file. -/
def Durable (session : Session) : Prop :=
  ∀ rel entry, (rel, entry) ∈ session.precommitted ++ session.ledger.current →
    entry ∈ (session.fileContents rel).log

/-- `on_precommit` is registered as soon as the transaction has written. -/
def Hooked (session : Session) : Prop :=
  session.attempted ≠ [] → session.backend.registered = true

/-- The connection still carries a savepoint of that name. -/
def CarriesSavepoint (conn : RelConn) (sub : SubId) : Prop :=
  ∃ txn ∈ conn.db.txn, ∃ save ∈ txn.saves, save.name = sub

/-- A savepoint that a failed COMMIT left behind is covered by the new one. -/
def CoversOldSavepoints (session : Session) (fails : Faults) : Prop :=
  ∀ rel ∈ session.backend.txRels, CarriesSavepoint (session.conn rel) session.nextSub →
    fails rel .savepoint = false ∧
      ∀ other ∈ session.backend.txRels, (session.backend.rels other).cached = true →
        (session.conn other).beginIfNeeded (fails other) ≠ none

/-- No SAVEPOINT runs on a relation that the transaction has written and whose
transaction SQLite has rolled back since. -/
def RevivesNone (session : Session) (fails : Faults) : Prop :=
  ∀ rel ∈ session.backend.txRels, (session.conn rel).Stale → fails rel .savepoint = false →
    ∀ executed ∈ session.ledger.current, executed.1 ≠ rel

/-- The steps that keep the commit hook in force: the first open of a transaction
does not fail, no table is touched between `PreCommit` and the commit, and a
subtransaction does not fall back on a savepoint of an earlier transaction or on
one that opens a transaction itself. -/
def KeepsCommitHook (session : Session) : Event → Prop
  | .call rel _ fails => ¬ Backend.FirstOpenFails fails rel session.backend
  | .read rel fails => ¬ Backend.FirstOpenFails fails rel session.backend
  | .startSub _ fails => session.CoversOldSavepoints fails ∧ session.RevivesNone fails
  | .commit => session.backend.txRels = ∅
  | _ => True

instance (conn : RelConn) (sub : SubId) : Decidable (CarriesSavepoint conn sub) :=
  inferInstanceAs (Decidable (∃ txn ∈ conn.db.txn, ∃ save ∈ txn.saves, save.name = sub))

instance (session : Session) (fails : Faults) : Decidable (session.CoversOldSavepoints fails) :=
  inferInstanceAs (Decidable (∀ rel ∈ session.backend.txRels, _ → _))

instance (session : Session) (fails : Faults) : Decidable (session.RevivesNone fails) :=
  inferInstanceAs (Decidable (∀ rel ∈ session.backend.txRels, _ → _ → ∀ executed ∈ _, _))

instance (session : Session) : ∀ event, Decidable (session.KeepsCommitHook event)
  | .call rel _ fails => inferInstanceAs (Decidable (¬ Backend.FirstOpenFails fails rel _))
  | .read rel fails => inferInstanceAs (Decidable (¬ Backend.FirstOpenFails fails rel _))
  | .startSub _ _ => inferInstanceAs (Decidable (_ ∧ _))
  | .commit => inferInstanceAs (Decidable (_ = _))
  | .begin | .drop _ | .commitSub _ | .abortSub _ | .preCommit _ _ | .abort _ => isTrue trivial

/-- The contents hold every statement of the ledger on this relation. -/
def Holds (rel : RelId) (ledger : List Executed) (contents : Contents) : Prop :=
  ∀ entry, (rel, entry) ∈ ledger → entry ∈ contents.log

/-- The ledger has no statement on this relation. -/
def Unwritten (rel : RelId) (ledger : List Executed) : Prop := ∀ entry, (rel, entry) ∉ ledger

/-- The relation is in a SQLite transaction that holds the ledger, and rolling
back to a savepoint returns to contents that hold what the ledger returns to. -/
def Guarded (session : Session) (rel : RelId) : Prop :=
  ∃ txn, (session.conn rel).db.txn = some txn ∧ (session.conn rel).inTxn = true ∧
    Holds rel session.ledger.current txn.work ∧
    Guards (Holds rel) (Unwritten rel) (fun _ => True) (session.subs.map SubFrame.id)
      session.ledger.saved txn.saves

/-- A COMMIT of the relation keeps the ledger: it was not written, its transaction
holds the ledger, or there is no transaction and the COMMIT fails. -/
def Committable (session : Session) (rel : RelId) : Prop :=
  Unwritten rel session.ledger.current ∨ session.Guarded rel ∨ (session.conn rel).Stale

structure HookKept (session : Session) : Prop where
  formed : session.WellFormed
  idle : session.phase = .idle → session.backend.txRels = ∅
  registered : session.backend.txRels ≠ ∅ → session.backend.registered = true
  hooked : session.Hooked
  touched : ∀ rel entry, (rel, entry) ∈ session.ledger.current → rel ∈ session.backend.txRels
  guarded : ∀ rel, session.Committable rel
  done : session.phase = .preCommitted → ∀ rel, Holds rel session.precommitted (session.conn rel).db.file

namespace HookKept

variable {session next : Session} {event : Event}

theorem start (files : RelId → Option Table) : (Session.start files).HookKept where
  formed := WellFormed.start files
  idle _ := rfl
  registered touched := absurd rfl touched
  hooked written := absurd rfl written
  touched := by simp [Session.start, Nested.fresh]
  guarded rel := .inl (by simp [Unwritten, Session.start, Nested.fresh])
  done := nofun

theorem guarded_congr {rel : RelId} (guarded : session.Guarded rel)
    (conn : next.conn rel = session.conn rel) (subs : next.subs = session.subs)
    (ledger : next.ledger = session.ledger) : next.Guarded rel := by
  rw [Guarded, conn, subs, ledger]
  exact guarded

theorem stale_congr {rel : RelId} (stale : (session.conn rel).Stale)
    (conn : next.conn rel = session.conn rel) : (next.conn rel).Stale := by
  rwa [conn]

/-- A transaction that a call opens or finds open, if there is one. -/
theorem guarded_beginIfNeeded (kept : session.HookKept) {rel : RelId} {fails : Sql → Bool}
    {begun : RelConn} (started : (session.conn rel).beginIfNeeded fails = some begun) :
    begun.Stale ∨
      ∃ txn, begun.db.txn = some txn ∧ begun.inTxn = true ∧
        Holds rel session.ledger.current txn.work ∧
        Guards (Holds rel) (Unwritten rel) (fun _ => True) (session.subs.map SubFrame.id)
          session.ledger.saved txn.saves := by
  have held := RelConn.beginIfNeeded_inTxn started
  rcases kept.guarded rel with unwritten | ⟨txn, opened, inTxn, holds, guards⟩ | stale
  · refine (RelConn.stale_or_open held).imp_right ?_
    rintro ⟨txn, opened⟩
    refine ⟨txn, opened, held, fun entry member => absurd member (unwritten entry), ?_⟩
    refine .vacant (by simp [kept.formed.depth]) fun value member entry inValue => ?_
    exact unwritten entry ((kept.formed.growing.le_current member).subset inValue)
  · rcases RelConn.beginIfNeeded_cases started with ⟨_, rfl⟩ | ⟨bare, _⟩
    · exact .inr ⟨txn, opened, held, holds, guards⟩
    · rw [inTxn] at bare
      cases bare
  · rw [stale.beginIfNeeded started]
    exact .inl stale

theorem guarded_call_self (kept : session.HookKept) {rel : RelId} {write : Write} {fails : Faults}
    {failed : Bool} {ran : List Entry}
    (ledger : (session.runCall rel write fails).ledger = session.ledger.update (· ++ ran.map (Prod.mk rel)))
    (wrote : Wrote (fails rel) failed (session.conn rel)
      ((session.runCall rel write fails).conn rel) ran) :
    (session.runCall rel write fails).Committable rel := by
  rcases wrote with ⟨rfl, same⟩ | ⟨begun, started, written⟩
  · have unchanged : (session.runCall rel write fails).ledger = session.ledger := by
      rw [ledger]
      simp [Nested.update]
    rw [Committable, unchanged]
    rcases kept.guarded rel with unwritten | guarded | stale
    · exact .inl unwritten
    · exact .inr (.inl (guarded_congr guarded same rfl unchanged))
    · exact .inr (.inr (stale_congr stale same))
  · have held := RelConn.beginIfNeeded_inTxn started
    rcases written with written | ⟨_, _, lost⟩
    · rcases kept.guarded_beginIfNeeded started with stale | ⟨txn, opened, _, holds, guards⟩
      · refine .inr (.inr ?_)
        rw [written]
        exact (stale.execute ran).1
      · rw [RelConn.execute_open opened] at written
        refine .inr (.inl ⟨{ txn with work := txn.work.append ran }, by rw [written],
          by rw [written, held], ?_, ?_⟩)
        · rw [ledger, Nested.update_current]
          intro entry member
          rw [Contents.append_log, List.mem_append]
          exact (mem_append_map_iff.mp member).imp (holds entry) And.right
        · rw [ledger, Nested.update_saved]
          exact guards
    · refine .inr (.inr ?_)
      rw [lost]
      exact ⟨held, rfl⟩

theorem guarded_call_other (kept : session.HookKept) {rel other : RelId} {write : Write} {fails : Faults}
    {ran : List Entry} (different : other ≠ rel)
    (ledger : (session.runCall rel write fails).ledger = session.ledger.update (· ++ ran.map (Prod.mk rel)))
    (same : (session.runCall rel write fails).conn other = session.conn other) :
    (session.runCall rel write fails).Committable other := by
  have earlier : ∀ entry, (other, entry) ∈ (session.runCall rel write fails).ledger.current →
      (other, entry) ∈ session.ledger.current := by
    intro entry member
    rw [ledger] at member
    exact (mem_append_map_iff.mp member).resolve_right fun own => different own.1
  rcases kept.guarded other with unwritten | ⟨txn, opened, held, holds, guards⟩ | stale
  · exact .inl fun entry member => unwritten entry (earlier entry member)
  · exact .inr (.inl ⟨txn, by rw [same, opened], by rw [same, held],
      fun entry member => holds entry (earlier entry member), by rwa [ledger]⟩)
  · exact .inr (.inr (stale_congr stale same))

/-- A call takes nothing out of the file, inside a transaction or outside it. -/
theorem file_of_wrote {fails : Sql → Bool} {failed : Bool} {conn changed : RelConn}
    {ran : List Entry} (wrote : Wrote fails failed conn changed ran) {entry : Entry}
    (stored : entry ∈ conn.db.file.log) : entry ∈ changed.db.file.log := by
  have kept : ∀ begun : RelConn, conn.beginIfNeeded fails = some begun →
      entry ∈ (begun.execute ran).db.file.log := by
    intro begun started
    have file : begun.db.file = conn.db.file := by
      rcases RelConn.beginIfNeeded_cases started with ⟨_, rfl⟩ | ⟨_, _, _, rfl⟩ <;> rfl
    rw [← file] at stored
    rcases RelConn.stale_or_open (RelConn.beginIfNeeded_inTxn started) with stale | ⟨txn, opened⟩
    · rw [(stale.execute ran).2, Contents.append_log]
      exact List.mem_append_left _ stored
    · rwa [RelConn.execute_open opened]
  rcases wrote with ⟨_, rfl⟩ | ⟨begun, started, rfl | ⟨_, _, rfl⟩⟩
  · exact stored
  · exact kept begun started
  · exact kept begun started

theorem call (kept : session.HookKept) (running : session.phase ≠ .idle) {rel : RelId}
    {write : Write} {fails : Faults}
    (opens : ¬ Backend.FirstOpenFails fails rel session.backend) :
    (session.runCall rel write fails).HookKept := by
  obtain ⟨touches, ran, ledger, attempted, _, _, effect⟩ := runCall_cases session rel write fails
  have registered := registered_of_touches touches opens kept.registered
  constructor
  case formed => exact kept.formed.call running rel write fails
  case idle => exact fun idle => absurd idle running
  case registered => exact fun _ => registered
  case hooked => exact fun _ => registered
  case touched =>
    intro other entry member
    rw [ledger] at member
    rw [touches.txRels]
    rcases mem_append_map_iff.mp member with earlier | ⟨rfl, _⟩
    · exact Finset.mem_insert_of_mem (kept.touched other entry earlier)
    · exact Finset.mem_insert_self _ _
  case guarded =>
    intro other
    rcases runCall_conn other effect touches with ⟨different, same⟩ | ⟨rfl, wrote⟩
    · exact kept.guarded_call_other different ledger same
    · exact kept.guarded_call_self ledger wrote
  case done =>
    intro ready other
    rcases runCall_conn other effect touches with ⟨_, same⟩ | ⟨rfl, wrote⟩
    · rw [same]
      exact kept.done ready other
    · exact fun entry member => file_of_wrote wrote (kept.done ready other entry member)

theorem read (kept : session.HookKept) (running : session.phase ≠ .idle) {rel : RelId}
    {fails : Faults} (opens : ¬ Backend.FirstOpenFails fails rel session.backend) :
    (session.runRead rel fails).HookKept := by
  obtain ⟨touches, _⟩ := runRead_cases session rel fails
  have registered := registered_of_touches touches opens kept.registered
  constructor
  case formed => exact kept.formed.read running rel fails
  case idle => exact fun idle => absurd idle running
  case registered => exact fun _ => registered
  case hooked => exact fun _ => registered
  case touched =>
    intro other entry member
    rw [touches.txRels]
    exact Finset.mem_insert_of_mem (kept.touched other entry member)
  case guarded =>
    intro other
    rcases kept.guarded other with unwritten | guarded | stale
    · exact .inl unwritten
    · rcases runRead_conn session rel fails other with same | ⟨rfl, _, _, lost⟩
      · exact .inr (.inl (guarded_congr guarded same rfl rfl))
      · obtain ⟨_, _, held, _⟩ := guarded
        refine .inr (.inr ?_)
        rw [lost]
        exact ⟨held, rfl⟩
    · rcases runRead_conn session rel fails other with same | ⟨rfl, _, _, lost⟩
      · exact .inr (.inr (stale_congr stale same))
      · refine .inr (.inr ?_)
        rw [lost]
        exact ⟨stale.1, rfl⟩
  case done =>
    intro ready other
    rcases runRead_conn session rel fails other with same | ⟨rfl, _, _, lost⟩
    · rw [same]
      exact kept.done ready other
    · rw [lost]
      exact kept.done ready other

/-- A relation with statements of the transaction is reached by the loops over
`TX_RELS`: it is in the set, it is open and the callbacks are registered. -/
theorem written_reached (kept : session.HookKept) {rel : RelId} {ledger : List Executed}
    (before : ledger ⊆ session.ledger.current) (written : ¬ Unwritten rel ledger) :
    rel ∈ session.backend.txRels ∧ session.backend.registered = true ∧
      (session.Guarded rel ∨ (session.conn rel).Stale) := by
  obtain ⟨entry, member⟩ : ∃ entry, (rel, entry) ∈ ledger := by simpa [Unwritten] using written
  have touched := kept.touched rel entry (before member)
  refine ⟨touched, kept.registered (Finset.ne_empty_of_mem touched), ?_⟩
  exact (kept.guarded rel).resolve_left fun unwritten => unwritten entry (before member)

/-- The savepoint of a subtransaction either is set or has no older namesake. -/
theorem guarded_startSub {order : List RelId} (distinct : order.Nodup)
    (complete : order.toFinset = session.backend.txRels) {fails : Faults}
    (covers : session.CoversOldSavepoints fails) {rel : RelId}
    (touched : rel ∈ session.backend.txRels) (registered : session.backend.registered = true)
    (guarded : session.Guarded rel) :
    (session.runStartSub order fails).Guarded rel ∨
      ((session.runStartSub order fails).conn rel).Stale := by
  obtain ⟨txn, opened, held, holds, guards⟩ := guarded
  have member : rel ∈ order := by
    rw [← complete] at touched
    exact List.mem_toFinset.mp touched
  have shadow : CarriesSavepoint (session.conn rel) session.nextSub →
      fails rel .savepoint = false ∧ (session.runStartSub order fails).failed = false := by
    intro carries
    obtain ⟨set, begins⟩ := covers rel touched carries
    refine ⟨set, ?_⟩
    by_contra panicked
    obtain ⟨other, inOrder, conn, openOther, none⟩ := Backend.onSubStart_panicked distinct
      (by simpa [runStartSub, registered] using panicked)
    refine begins other (by rw [← complete]; exact List.mem_toFinset.mpr inOrder) ?_ ?_
    · rw [openOther]
      rfl
    · rwa [conn_of_opened openOther]
  have bare : ¬ CarriesSavepoint (session.conn rel) session.nextSub →
      Guards (Holds rel) (Unwritten rel) (fun _ => True)
        (session.nextSub :: session.subs.map SubFrame.id)
        (session.ledger.current :: session.ledger.saved) txn.saves :=
    fun clean => .absent trivial
      (fun save inSaves named => clean ⟨txn, opened, save, inSaves, named⟩) guards
  rcases runStartSub_rel session distinct fails rel with
    ⟨same, reach⟩ | ⟨_, begun, _, started, effect⟩
  · have clean : ¬ CarriesSavepoint (session.conn rel) session.nextSub := by
      intro carries
      have closed := reach registered (shadow carries).2 member
      rw [cached_of_inTxn held] at closed
      cases closed
    exact .inl ⟨txn, by rw [conn_congr same, opened], by rw [conn_congr same, held], holds,
      bare clean⟩
  · rcases RelConn.beginIfNeeded_cases started with ⟨_, rfl⟩ | ⟨idle, _⟩
    · have conn := conn_of_opened effect
      rcases RelConn.warnExec_stale_or (fails rel) .savepoint
          (fun db => some (db.savepoint session.nextSub)) held with stale | ran
      · exact .inr (by rwa [conn])
      · refine .inl ?_
        rw [ran, RelConn.savepoint_open opened] at conn
        cases failing : fails rel .savepoint with
        | true =>
            have clean : ¬ CarriesSavepoint (session.conn rel) session.nextSub :=
              fun carries => by simp [(shadow carries).1] at failing
            rw [failing, if_pos rfl] at conn
            exact ⟨txn, by rw [conn, opened], by rw [conn, held], holds, bare clean⟩
        | false =>
            rw [failing, if_neg Bool.false_ne_true] at conn
            exact ⟨{ txn with saves := ⟨session.nextSub, txn.work⟩ :: txn.saves }, by rw [conn],
              by rw [conn, held], holds, guards.push holds⟩
    · rw [held] at idle
      cases idle

/-- A written relation without a transaction gets none by SAVEPOINT. -/
theorem stale_startSub {order : List RelId} (distinct : order.Nodup)
    (complete : order.toFinset = session.backend.txRels) {fails : Faults}
    (revives : session.RevivesNone fails) {rel : RelId}
    (written : ¬ Unwritten rel session.ledger.current) (stale : (session.conn rel).Stale) :
    ((session.runStartSub order fails).conn rel).Stale := by
  rcases runStartSub_rel session distinct fails rel with
    ⟨same, _⟩ | ⟨member, begun, _, started, effect⟩
  · exact stale_congr stale (conn_congr same)
  · have touched : rel ∈ session.backend.txRels := complete ▸ List.mem_toFinset.mpr member
    have failing : fails rel .savepoint = true := by
      by_contra sets
      exact written fun entry inLedger =>
        revives rel touched stale (by simpa using sets) _ inLedger rfl
    rw [conn_of_opened effect, stale.beginIfNeeded started,
      stale.warnExec fun sets => by rw [failing] at sets; cases sets]
    exact stale

theorem startSub (kept : session.HookKept) (running : session.phase = .running)
    {order : List RelId} (distinct : order.Nodup)
    (complete : order.toFinset = session.backend.txRels) {fails : Faults}
    (covers : session.CoversOldSavepoints fails) (revives : session.RevivesNone fails) :
    (session.runStartSub order fails).HookKept := by
  obtain ⟨txRels, registered, _⟩ := runStartSub_kept session distinct fails
  constructor
  case formed => exact kept.formed.startSub running distinct fails
  case idle => exact fun idle => by simp [runStartSub, running] at idle
  case registered =>
    rw [txRels, registered]
    exact kept.registered
  case hooked =>
    rw [Hooked, registered]
    exact kept.hooked
  case touched =>
    rw [txRels]
    exact kept.touched
  case guarded =>
    intro rel
    refine (Classical.em (Unwritten rel session.ledger.current)).imp_right fun written => ?_
    obtain ⟨touched, hooked, guarded | stale⟩ := kept.written_reached (List.Subset.refl _) written
    · exact guarded_startSub distinct complete covers touched hooked guarded
    · exact .inr (stale_startSub distinct complete revives written stale)
  case done => exact fun ready => by simp [runStartSub, running] at ready

theorem ids_of_subs (kept : session.HookKept) {sub : SubFrame} {rest : List SubFrame}
    (subs : session.subs = sub :: rest) :
    session.subs.map SubFrame.id = sub.id :: rest.map SubFrame.id ∧
      sub.id ∉ rest.map SubFrame.id ∧ ∃ value values, session.ledger.saved = value :: values := by
  have distinctIds := kept.formed.numbered.1
  have depth := kept.formed.depth
  rw [subs] at distinctIds depth
  refine ⟨by rw [subs, List.map_cons], (List.nodup_cons.mp distinctIds).1, ?_⟩
  cases saved : session.ledger.saved with
  | nil => simp [saved] at depth
  | cons value values => exact ⟨value, values, rfl⟩

theorem guarded_commitSub (kept : session.HookKept) {sub : SubFrame} {rest : List SubFrame}
    (subs : session.subs = sub :: rest) {fails : Faults} {rel : RelId}
    (guarded : session.Guarded rel) :
    (session.runCommitSub sub rest fails).Guarded rel ∨
      ((session.runCommitSub sub rest fails).conn rel).Stale := by
  obtain ⟨txn, opened, held, holds, guards⟩ := guarded
  obtain ⟨ids, fresh, value, values, saved⟩ := kept.ids_of_subs subs
  rw [ids, saved] at guards
  have popped : Guards (Holds rel) (Unwritten rel) (fun _ => True) (rest.map SubFrame.id)
      session.ledger.saved.tail txn.saves := by
    rw [saved]
    exact guards.pop fresh
  rcases runCommitSub_rel session sub rest fails rel with ⟨same, _⟩ | ⟨_, _, _, effect⟩
  · exact .inl ⟨txn, by rw [conn_congr same, opened], by rw [conn_congr same, held], holds, popped⟩
  · have conn := conn_of_opened effect
    rcases RelConn.warnExec_stale_or (fails rel) .release (Db.release sub.id) held with stale | ran
    · exact .inr (by rwa [conn])
    · rw [ran] at conn
      rcases RelConn.release_any (fails rel .release) opened with
        same | ⟨_, same⟩ | ⟨save, below, found, same⟩
      · rw [same] at conn
        exact .inl ⟨txn, by rw [conn, opened], by rw [conn, held], holds, popped⟩
      · rw [same] at conn
        refine .inr ?_
        rw [conn]
        exact ⟨held, rfl⟩
      · rw [same] at conn
        refine .inl ⟨{ txn with saves := below }, by rw [conn], by rw [conn, held], holds, ?_⟩
        change Guards (Holds rel) (Unwritten rel) (fun _ => True) (rest.map SubFrame.id)
          session.ledger.saved.tail below
        rw [saved]
        exact guards.release found

theorem stale_commitSub {sub : SubFrame} {rest : List SubFrame} {fails : Faults} {rel : RelId}
    (stale : (session.conn rel).Stale) :
    ((session.runCommitSub sub rest fails).conn rel).Stale := by
  rcases runCommitSub_rel session sub rest fails rel with ⟨same, _⟩ | ⟨_, _, _, effect⟩
  · exact stale_congr stale (conn_congr same)
  · rw [conn_of_opened effect, stale.warnExec fun _ => by simp [Db.release, stale.2]]
    exact stale

theorem commitSub (kept : session.HookKept) (running : session.phase = .running)
    {sub : SubFrame} {rest : List SubFrame} (subs : session.subs = sub :: rest) (fails : Faults) :
    (session.runCommitSub sub rest fails).HookKept := by
  obtain ⟨txRels, registered, _⟩ := onSubEnd_kept session
    fun rel conn => conn.warnExec (fails rel) .release (Db.release sub.id)
  have same : (session.runCommitSub sub rest fails).backend.txRels = session.backend.txRels := txRels
  have hooked : (session.runCommitSub sub rest fails).backend.registered =
      session.backend.registered := registered
  constructor
  case formed => exact kept.formed.commitSub running subs fails
  case idle => exact fun idle => by simp [runCommitSub, running] at idle
  case registered =>
    rw [same, hooked]
    exact kept.registered
  case hooked =>
    rw [Hooked, hooked]
    exact kept.hooked
  case touched =>
    rw [same]
    exact kept.touched
  case guarded =>
    exact fun rel => (kept.guarded rel).imp_right fun written =>
      written.elim (kept.guarded_commitSub subs) fun stale => .inr (stale_commitSub stale)
  case done => exact fun ready => by simp [runCommitSub, running] at ready

/-- Whatever ROLLBACK TO does, the contents hold what the ledger returns to. -/
theorem guarded_abortSub (kept : session.HookKept) {sub : SubFrame} {rest : List SubFrame}
    (subs : session.subs = sub :: rest) {fails : Faults} {rel : RelId}
    (guarded : session.Guarded rel) :
    (session.runAbortSub sub rest fails).Committable rel := by
  obtain ⟨txn, opened, held, holds, guards⟩ := guarded
  obtain ⟨ids, fresh, value, values, saved⟩ := kept.ids_of_subs subs
  rw [ids, saved] at guards
  have aborted : (session.runAbortSub sub rest fails).ledger = ⟨value, values⟩ := by
    simp [runAbortSub, Nested.abort, saved]
  have earlier : value ⊆ session.ledger.current :=
    (kept.formed.growing.le_current (by simp [saved])).subset
  have holdsValue : Holds rel value txn.work := fun entry member => holds entry (earlier member)
  rcases runAbortSub_rel session sub rest fails rel with ⟨same, _⟩ | ⟨_, _, _, effect⟩
  · exact .inr (.inl ⟨txn, by rw [conn_congr same, opened], by rw [conn_congr same, held],
      by rwa [aborted], by rw [aborted]; exact guards.pop fresh⟩)
  · have conn := conn_of_opened effect
    rcases RelConn.warnExec_stale_or (fails rel) .rollbackTo (Db.rollbackTo sub.id) held with
      stale | ran
    · exact .inr (.inr (by rwa [conn]))
    · rw [ran] at conn
      rcases RelConn.rollbackTo_cases (fails rel .rollbackTo) opened with
        same | ⟨save, below, found, same⟩
      · rw [same] at conn
        exact .inr (.inl ⟨txn, by rw [conn, opened], by rw [conn, held], by rwa [aborted],
          by rw [aborted]; exact guards.pop fresh⟩)
      · rw [same] at conn
        obtain ⟨restored, below⟩ := guards.rollbackTo fresh found
        rcases restored with holdsSave | unwritten
        · exact .inr (.inl ⟨{ txn with work := save.contents, saves := save :: _ }, by rw [conn],
            by rw [conn, held], by rwa [aborted], by rw [aborted]; exact below⟩)
        · exact .inl (by rwa [aborted])

theorem stale_abortSub {sub : SubFrame} {rest : List SubFrame} {fails : Faults} {rel : RelId}
    (stale : (session.conn rel).Stale) :
    ((session.runAbortSub sub rest fails).conn rel).Stale := by
  rcases runAbortSub_rel session sub rest fails rel with ⟨same, _⟩ | ⟨_, _, _, effect⟩
  · exact stale_congr stale (conn_congr same)
  · rw [conn_of_opened effect, stale.warnExec fun _ => by simp [Db.rollbackTo, stale.2]]
    exact stale

theorem abortSub (kept : session.HookKept) (running : session.phase = .running)
    {sub : SubFrame} {rest : List SubFrame} (subs : session.subs = sub :: rest) (fails : Faults) :
    (session.runAbortSub sub rest fails).HookKept := by
  obtain ⟨txRels, registered, _⟩ := onSubEnd_kept session
    fun rel conn => conn.warnExec (fails rel) .rollbackTo (Db.rollbackTo sub.id)
  have same : (session.runAbortSub sub rest fails).backend.txRels = session.backend.txRels := txRels
  have hooked : (session.runAbortSub sub rest fails).backend.registered =
      session.backend.registered := registered
  have earlier : (session.runAbortSub sub rest fails).ledger.current ⊆ session.ledger.current :=
    (kept.formed.growing.abort_le List.prefix_refl).subset
  constructor
  case formed => exact kept.formed.abortSub running subs fails
  case idle => exact fun idle => by simp [runAbortSub, running] at idle
  case registered =>
    rw [same, hooked]
    exact kept.registered
  case hooked =>
    rw [Hooked, hooked]
    exact kept.hooked
  case touched =>
    rw [same]
    exact fun rel entry member => kept.touched rel entry (earlier member)
  case guarded =>
    intro rel
    rcases kept.guarded rel with unwritten | guarded | stale
    · exact .inl fun entry member => unwritten entry (earlier member)
    · exact kept.guarded_abortSub subs guarded
    · exact .inr (.inr (stale_abortSub stale))
  case done => exact fun ready => by simp [runAbortSub, running] at ready

theorem preCommit (kept : session.HookKept) (running : session.phase = .running)
    (closed : session.subs = []) {order : List RelId} (distinct : order.Nodup)
    (complete : order.toFinset = session.backend.txRels) (fails : Faults) :
    (session.runPreCommit order fails).HookKept := by
  obtain ⟨fewer, _, registered, _⟩ := runPreCommit_kept session distinct fails
  have fresh : (session.runPreCommit order fails).ledger = Nested.fresh [] := rfl
  constructor
  case formed => exact kept.formed.preCommit running closed order fails
  case idle => exact fun idle => absurd idle (runPreCommit_not_idle running order fails)
  case registered =>
    rw [registered]
    exact fun touched => kept.registered fun none => touched (Finset.subset_empty.mp (none ▸ fewer))
  case hooked =>
    rw [Hooked, registered]
    exact kept.hooked
  case touched => exact fun rel entry member => by simp [fresh, Nested.fresh] at member
  case guarded => exact fun rel => .inl fun entry member => by simp [fresh, Nested.fresh] at member
  case done =>
    intro ready rel entry member
    have sane : (session.runPreCommit order fails).failed = false := by
      rcases runPreCommit_phase session order fails with ⟨sane, _⟩ | ⟨_, stays⟩
      · exact sane
      · rw [stays, running] at ready
        cases ready
    have written : ¬ Unwritten rel session.ledger.current := fun unwritten => unwritten entry member
    obtain ⟨touched, hooked, guarded⟩ := kept.written_reached (List.Subset.refl _) written
    have inOrder : rel ∈ order := by
      rw [← complete] at touched
      exact List.mem_toFinset.mp touched
    have held : (session.conn rel).inTxn = true := by
      rcases guarded with ⟨_, _, held, _⟩ | stale
      · exact held
      · exact stale.1
    rcases runPreCommit_rel session distinct fails rel with
      ⟨_, _, reach⟩ | ⟨_, _, failed, _⟩ | ⟨_, _, committed, _, done, effect⟩
    · have absent := reach hooked sane inOrder
      rw [cached_of_inTxn held] at absent
      cases absent
    · rw [sane] at failed
      cases failed
    · rcases guarded with ⟨txn, opened, _, holds, _⟩ | stale
      · rcases RelConn.commit_cases done with ⟨bare, _⟩ | ⟨found, _, openedToo, rfl⟩
        · rw [held] at bare
          cases bare
        · rw [opened] at openedToo
          cases openedToo
          rw [conn_of_opened effect]
          exact holds entry member
      · rw [stale.commit] at done
        cases done

theorem ended {session : Session} (formed : session.WellFormed) (idle : session.phase = .idle)
    (taken : session.backend.txRels = ∅) : session.HookKept := by
  obtain ⟨_, _, ledger, _, attempted, _⟩ := formed.rest idle
  constructor
  case formed => exact formed
  case idle => exact fun _ => taken
  case registered => exact fun touched => absurd taken touched
  case hooked => exact fun written => absurd attempted written
  case touched => exact fun rel entry member => by simp [ledger, Nested.fresh] at member
  case guarded => exact fun rel => .inl fun entry member => by simp [ledger, Nested.fresh] at member
  case done =>
    intro ready
    rw [idle] at ready
    cases ready

theorem step (kept : session.HookKept) (allowed : session.KeepsCommitHook event)
    (stepped : session.step event = some next) : next.HookKept := by
  cases steps_of_step stepped with
  | begin idle =>
      have ended := kept.formed.rest idle
      have formed := kept.formed.step stepped
      exact { kept with
        formed := formed
        idle := nofun
        guarded := fun rel => .inl (by simp [Unwritten, ended.2.2.1, Nested.fresh])
        done := nofun }
  | call running _ => exact kept.call running allowed
  | read running _ => exact kept.read running allowed
  | drop running _ =>
      exact { kept with formed := kept.formed.step stepped }
  | startSub running _ distinct complete =>
      exact kept.startSub running distinct complete allowed.1 allowed.2
  | commitSub subs running _ => exact kept.commitSub running subs _
  | abortSub subs running => exact kept.abortSub running subs _
  | preCommit running _ closed distinct complete =>
      exact kept.preCommit running closed distinct complete _
  | commit ready _ =>
      have none : session.backend.txRels = ∅ := allowed
      refine ended (kept.formed.commit ready) rfl (Finset.subset_empty.mp ?_)
      rw [← none]
      exact runCommit_txRels session
  | abort _ closed =>
      exact ended (WellFormed.abort closed _) rfl (runAbort_untouched kept.registered _)

theorem run {files : RelId → Option Table} {events : List Event}
    (reached : Session.run (Session.start files) events = some session)
    (allowed : Transition.Meets Session.step KeepsCommitHook (Session.start files) events) :
    session.HookKept :=
  Transition.run_invariant (fun _ _ _ kept allowed stepped => kept.step allowed stepped)
    (start files) allowed reached

/-- At the commit nothing was touched after `PreCommit`, so the ledger is there. -/
theorem durable (kept : session.HookKept) (untouched : session.backend.txRels = ∅)
    (ready : session.phase = .preCommitted) : session.Durable := by
  intro rel entry member
  rw [fileContents_eq]
  rcases List.mem_append.mp member with before | after
  · exact kept.done ready rel entry before
  · have touched := kept.touched rel entry after
    simp [untouched] at touched

end HookKept

/-- In every run whose steps keep the commit hook, what Postgres commits is in
the files, and `on_precommit` is registered in every transaction that writes. -/
theorem committed_writes_durable {files : RelId → Option Table} {events : List Event}
    {session : Session} (reached : Session.run (Session.start files) events = some session)
    (allowed : Transition.Meets step KeepsCommitHook (Session.start files) events) :
    session.Hooked ∧
      ∀ next, session.step .commit = some next → session.KeepsCommitHook .commit →
        session.Durable := by
  have kept := HookKept.run reached allowed
  refine ⟨kept.hooked, fun next stepped untouched => ?_⟩
  cases steps_of_step stepped with
  | commit ready _ => exact kept.durable untouched ready

/-- A transaction that writes at both levels, up to its commit. -/
def nestedWrites : List Event :=
  [.begin, .call 1 insertOne noFaults, .startSub [1] noFaults, .call 1 insertOne noFaults,
    .commitSub noFaults, .preCommit [1] noFaults]

theorem nestedWrites_durable :
    ∃ session, Session.run (Session.start noFiles) nestedWrites = some session ∧
      session.precommitted.length = 2 ∧ session.Hooked ∧ session.Durable := by
  have ends : ∃ session, Session.run (Session.start noFiles) nestedWrites = some session ∧
      session.precommitted.length = 2 ∧ session.KeepsCommitHook .commit ∧
      (session.step .commit).isSome = true := ⟨_, rfl, by decide, by decide, by decide⟩
  obtain ⟨session, reached, length, untouched, commits⟩ := ends
  obtain ⟨next, stepped⟩ := Option.isSome_iff_exists.mp commits
  obtain ⟨hooked, durable⟩ := committed_writes_durable reached (by decide)
  exact ⟨session, reached, length, hooked, durable next stepped untouched⟩

/-- The open of the transaction's first relation fails, and the error aborts the
transaction. The next transaction writes another relation and commits. -/
def firstOpenFails : List Event :=
  [.begin, .call 1 insertOne (failing .openConn), .abort noFaults, .begin,
    .call 2 insertOne noFaults, .preCommit [1, 2] noFaults]

theorem firstOpenFails_not_durable :
    ∃ session next, Session.run (Session.start noFiles) firstOpenFails = some session ∧
      session.step .commit = some next ∧ ¬ session.Hooked ∧ ¬ session.Durable := by
  refine ⟨_, _, rfl, rfl, fun hooked => ?_, fun durable => ?_⟩
  · have registered := hooked (by decide)
    revert registered
    decide
  · have stored := durable 2 ⟨1, .insertRow 100#32 0#32 [1]⟩ (by decide)
    revert stored
    decide

/-- SQLite rolls the transaction back under a subtransaction. The SAVEPOINT of the next
one opens another, and COMMIT succeeds without the first insert. -/
def lostInSub : List Event :=
  [.begin, .call 1 insertOne noFaults, .startSub [1] noFaults, .call 1 insertOne (losing (.stmt 0)),
    .abortSub noFaults, .startSub [1] noFaults, .abortSub noFaults, .preCommit [1] noFaults]

example : ∃ session, Session.run (Session.start noFiles) lostInSub = some session ∧
    (session.step .commit).isSome = true ∧ session.precommitted.length = 1 ∧
      (session.fileContents 1).log = [] :=
  ⟨_, rfl, by decide, by decide, by decide⟩

end SqliteHeap.Session
