import SqliteHeap.SessionProperties

/-! What each event does to the connections of a session, and the invariant that
every run keeps whatever fails. -/

set_option autoImplicit false

namespace SqliteHeap

open SavepointStack

namespace Backend

theorem onSubStart_rel (fails : Faults) (sub : SubId) {order : List RelId} (distinct : order.Nodup)
    (backend : Backend) (rel : RelId) :
    let outcome := onSubStart fails sub order backend
    (outcome.backend.rels rel = backend.rels rel ∧
        (outcome.completed = true → rel ∈ order → (backend.rels rel).cached = false)) ∨
      rel ∈ order ∧ ∃ conn begun, backend.rels rel = .opened conn ∧
        conn.beginIfNeeded (fails rel) = some begun ∧
        outcome.backend.rels rel = .opened
          (begun.warnExec (fails rel) .savepoint fun db => some (db.savepoint sub)) := by
  obtain ⟨_, changes, through, _⟩ :=
    forConns_spec (subStartConn fails sub) (fun _ conn => conn) (.failed .begin) order distinct backend
  rcases changes rel with ⟨same, missed⟩ | ⟨_, _, panicked, conn, opened, _, effect⟩ |
    ⟨member, _, conn, changed, opened, applied, effect⟩
  · refine .inl ⟨same, fun completed member => ?_⟩
    cases found : backend.rels rel with
    | closed file => rfl
    | opened conn => exact absurd (through completed rel member conn found) missed
  · refine .inl ⟨effect.trans opened.symm, fun completed => ?_⟩
    rw [onSubStart, panicked] at completed
    cases completed
  · obtain ⟨begun, started, rfl⟩ := Option.map_eq_some_iff.mp applied
    exact .inr ⟨member, conn, begun, opened, started, effect⟩

theorem onSubStart_kept (fails : Faults) (sub : SubId) {order : List RelId}
    (distinct : order.Nodup) (backend : Backend) :
    (onSubStart fails sub order backend).backend.txRels = backend.txRels ∧
      (onSubStart fails sub order backend).backend.registered = backend.registered ∧
      (onSubStart fails sub order backend).backend.drops = backend.drops :=
  (forConns_spec (subStartConn fails sub) (fun _ conn => conn) (.failed .begin) order distinct
    backend).1

/-- A `on_sub_start` that panicked met a connection whose BEGIN failed. -/
theorem onSubStart_panicked {fails : Faults} {sub : SubId} {order : List RelId}
    (distinct : order.Nodup) {backend : Backend}
    (panicked : (onSubStart fails sub order backend).completed = false) :
    ∃ rel ∈ order, ∃ conn, backend.rels rel = .opened conn ∧
      conn.beginIfNeeded (fails rel) = none := by
  obtain ⟨rel, member, conn, opened, none⟩ :=
    (forConns_spec (subStartConn fails sub) (fun _ conn => conn) (.failed .begin) order distinct
      backend).2.2.2 panicked
  exact ⟨rel, member, conn, opened, by simpa [subStartConn] using none⟩

theorem runOnTxnConns_rel (exec : RelId → RelConn → RelConn) (backend : Backend) (rel : RelId) :
    ((runOnTxnConns exec backend).rels rel = backend.rels rel ∧
        (rel ∉ backend.txRels ∨ (backend.rels rel).conn.inTxn = false)) ∨
      ∃ conn, rel ∈ backend.txRels ∧ backend.rels rel = .opened conn ∧ conn.inTxn = true ∧
        (runOnTxnConns exec backend).rels rel = .opened (exec rel conn) := by
  by_cases touched : rel ∈ backend.txRels
  · cases found : backend.rels rel with
    | closed file =>
        exact .inl ⟨by simp [runOnTxnConns, touched, found, RelState.mapConn], .inr rfl⟩
    | opened conn =>
        cases held : conn.inTxn with
        | false =>
            exact .inl ⟨by simp [runOnTxnConns, touched, found, RelState.mapConn, held], .inr held⟩
        | true =>
            exact .inr ⟨conn, touched, rfl, held,
              by simp [runOnTxnConns, touched, found, RelState.mapConn, held]⟩
  · exact .inl ⟨by simp [runOnTxnConns, touched], .inl touched⟩

/-- What `on_precommit` does to one relation: its COMMIT runs, fails or is not reached. -/
theorem onPrecommit_rel (fails : Faults) {order : List RelId} (distinct : order.Nodup)
    (backend : Backend) (rel : RelId) :
    let result := onPrecommit fails order backend
    (result.2.backend.rels rel = backend.rels rel ∧ rel ∉ result.1 ∧
        (result.2.completed = true → rel ∈ order → (backend.rels rel).cached = false)) ∨
      (rel ∈ order ∧ rel ∉ result.1 ∧ result.2.completed = false ∧ ∃ conn,
        backend.rels rel = .opened conn ∧ conn.commit (fails rel) = none ∧
        result.2.backend.rels rel = .opened (conn.afterError (fails rel))) ∨
      rel ∈ order ∧ rel ∈ result.1 ∧ ∃ conn committed, backend.rels rel = .opened conn ∧
        conn.commit (fails rel) = some committed ∧
        result.2.backend.rels rel = .opened committed := by
  obtain ⟨_, changes, through, _⟩ := forConns_spec (fun rel conn => conn.commit (fails rel))
    (fun rel conn => conn.afterError (fails rel)) (.failed .commit) order distinct
    { backend with txRels := ∅ }
  rcases changes rel with ⟨same, missed⟩ | effect
  · refine .inl ⟨same, missed, fun completed member => ?_⟩
    cases found : backend.rels rel with
    | closed file => rfl
    | opened conn => exact absurd (through completed rel member conn found) missed
  · exact .inr effect

theorem onPrecommit_kept (fails : Faults) {order : List RelId} (distinct : order.Nodup)
    (backend : Backend) :
    (onPrecommit fails order backend).2.backend.txRels = ∅ ∧
      (onPrecommit fails order backend).2.backend.registered = backend.registered ∧
      (onPrecommit fails order backend).2.backend.drops = backend.drops :=
  (forConns_spec (fun rel conn => conn.commit (fails rel))
    (fun rel conn => conn.afterError (fails rel)) (.failed .commit) order distinct
    { backend with txRels := ∅ }).1

theorem onPrecommit_panicked {fails : Faults} {order : List RelId} (distinct : order.Nodup)
    {backend : Backend} (panicked : (onPrecommit fails order backend).2.completed = false) :
    ∃ rel ∈ order, ∃ conn, backend.rels rel = .opened conn ∧ conn.commit (fails rel) = none :=
  (forConns_spec (fun rel conn => conn.commit (fails rel))
    (fun rel conn => conn.afterError (fails rel)) (.failed .commit) order distinct
    { backend with txRels := ∅ }).2.2.2 panicked

theorem onAbort_rel (fails : Faults) (backend : Backend) (rel : RelId) :
    ((onAbort fails backend).rels rel = backend.rels rel ∧
        (rel ∉ backend.txRels ∨ (backend.rels rel).conn.inTxn = false)) ∨
      ∃ conn, rel ∈ backend.txRels ∧ backend.rels rel = .opened conn ∧ conn.inTxn = true ∧
        (onAbort fails backend).rels rel = .opened (conn.rollback (fails rel)) := by
  by_cases touched : rel ∈ backend.txRels
  · cases found : backend.rels rel with
    | closed file => exact .inl ⟨by simp [onAbort, touched, found, RelState.mapConn], .inr rfl⟩
    | opened conn =>
        cases held : conn.inTxn with
        | false =>
            exact .inl ⟨by simp [onAbort, touched, found, RelState.mapConn, RelConn.rollback, held],
              .inr held⟩
        | true =>
            exact .inr ⟨conn, touched, rfl, held,
              by simp [onAbort, touched, found, RelState.mapConn]⟩
  · exact .inl ⟨by simp [onAbort, touched], .inl touched⟩

end Backend

namespace RelConn

/-- A call runs its statements in order, and all of them if none fails. -/
theorem stmtsRun_prefix (fails : Sql → Bool) (index : Nat) (stmts : List Table.Stmt) :
    (stmtsRun fails index stmts).1 <+: stmts ∧
      ((stmtsRun fails index stmts).2 = true → (stmtsRun fails index stmts).1 = stmts) := by
  induction stmts generalizing index with
  | nil => simp [stmtsRun]
  | cons stmt rest ih =>
      obtain ⟨earlier, whole⟩ := ih (index + 1)
      unfold stmtsRun
      split
      · simp
      · exact ⟨List.prefix_cons_inj stmt |>.mpr earlier, fun completed => congrArg (stmt :: ·) (whole completed)⟩

theorem entries_stmt (tick : Nat) (ran : List Table.Stmt) :
    (entries tick ran).map Entry.stmt = ran := by
  simp [entries, List.map_map, Function.comp_def]

theorem entries_tick {tick : Nat} {ran : List Table.Stmt} {entry : Entry}
    (member : entry ∈ entries tick ran) : tick ≤ entry.tick ∧ entry.tick < tick + ran.length := by
  obtain ⟨numbered, found, rfl⟩ := List.mem_map.mp member
  have bound := List.snd_lt_of_mem_zipIdx found
  exact ⟨Nat.le_add_right _ _, by simpa using bound⟩

end RelConn

namespace Session

theorem fileContents_eq (session : Session) (rel : RelId) :
    session.fileContents rel = (session.conn rel).db.file :=
  (RelState.file_conn _).symm

theorem view_eq (session : Session) (rel : RelId) : session.view rel = (session.conn rel).view :=
  (RelState.view_conn _).symm

/-- No connection is in a SQLite transaction, and none believes it is. -/
def Quiet (session : Session) : Prop :=
  ∀ rel, (session.conn rel).db.txn = none ∧ (session.conn rel).inTxn = false

/-- What a call did to the connection of its relation: nothing, or it executed
`ran` after `begin_if_needed`, and its error may have cost the transaction. -/
def Wrote (fails : Sql → Bool) (failed : Bool) (conn changed : RelConn) (ran : List Entry) : Prop :=
  (ran = [] ∧ changed = conn) ∨
    ∃ begun, conn.beginIfNeeded fails = some begun ∧
      (changed = begun.execute ran ∨
        failed = true ∧ fails .rollsBack = true ∧ changed = (begun.execute ran).abandon)

theorem mem_append_map_iff {ledger : List Executed} {rel other : RelId} {ran : List Entry}
    {entry : Entry} :
    (other, entry) ∈ ledger ++ ran.map (Prod.mk rel) ↔
      (other, entry) ∈ ledger ∨ other = rel ∧ entry ∈ ran := by
  constructor
  · intro member
    rcases List.mem_append.mp member with earlier | added
    · exact .inl earlier
    · obtain ⟨found, inRan, same⟩ := List.mem_map.mp added
      cases same
      exact .inr ⟨rfl, inRan⟩
  · rintro (earlier | ⟨rfl, inRan⟩)
    · exact List.mem_append_left _ earlier
    · exact List.mem_append_right _ (List.mem_map_of_mem inRan)

theorem runCall_cases (session : Session) (rel : RelId) (write : Write) (fails : Faults) :
    let next := session.runCall rel write fails
    Backend.Touches fails rel session.backend next.backend ∧
      ∃ ran : List Entry,
        next.ledger = session.ledger.update (· ++ ran.map (Prod.mk rel)) ∧
        next.attempted = session.attempted ++ ran.map (Prod.mk rel) ∧
        (∀ entry ∈ ran, session.tick ≤ entry.tick ∧ entry.tick < next.tick) ∧
        (ran.map Entry.stmt <+: write.stmts ∧
          (next.failed = false → ran.map Entry.stmt = write.stmts)) ∧
        ((ran = [] ∧ next.backend.rels rel = session.backend.rels rel) ∨
          ¬ Backend.Stuck rel session.backend ∧ ∃ changed,
            next.backend.rels rel = .opened changed ∧
            Wrote (fails rel) next.failed (session.conn rel) changed ran) := by
  rcases Backend.withConn_cases fails rel
      (Backend.writeConn (fails rel) session.tick write.stmts) session.backend with
    ⟨reason, after, outcome, unreached, touches, same⟩ | ⟨reached, unstuck, effect, completed⟩
  · simp only [runCall, executed, outcome, unreached]
    exact ⟨touches, [], by simp, by simp, by simp, ⟨List.nil_prefix, nofun⟩, .inl ⟨rfl, same⟩⟩
  · have touches := (Backend.Touches.entered fails rel session.backend).setRel
      (.opened (Backend.writeConn (fails rel) session.tick write.stmts
        (session.backend.rels rel).conn).1)
    simp only [runCall, executed, reached, Option.bind_some, effect, completed]
    refine ⟨touches, ?_⟩
    cases started : (session.backend.rels rel).conn.beginIfNeeded (fails rel) with
    | none =>
        refine ⟨[], by simp, by simp, by simp, ⟨List.nil_prefix, ?_⟩,
          .inr ⟨unstuck, _, Backend.setRel_same _ _ _, .inl ?_⟩⟩
        · simp [Backend.writeConn, started]
        · simp [Backend.writeConn, started, conn]
    | some begun =>
        refine ⟨RelConn.entries session.tick (RelConn.stmtsRun (fails rel) 0 write.stmts).1,
          rfl, rfl, fun entry member => ?_, ?_,
          .inr ⟨unstuck, _, Backend.setRel_same _ _ _, .inr ?_⟩⟩
        · have bounds := RelConn.entries_tick member
          have shorter := (RelConn.stmtsRun_prefix (fails rel) 0 write.stmts).1.length_le
          exact ⟨bounds.1, by omega⟩
        · rw [RelConn.entries_stmt]
          refine ⟨(RelConn.stmtsRun_prefix _ _ _).1, fun sane => ?_⟩
          refine (RelConn.stmtsRun_prefix _ _ _).2 ?_
          cases ended : (RelConn.stmtsRun (fails rel) 0 write.stmts).2 with
          | true => rfl
          | false => simp [Backend.writeConn, started, ended] at sane
        · refine ⟨begun, started, ?_⟩
          cases ended : (RelConn.stmtsRun (fails rel) 0 write.stmts).2 with
          | true => exact .inl (by simp [Backend.writeConn, started, ended])
          | false =>
              rcases RelConn.afterError_cases (fails rel) (begun.execute
                (RelConn.entries session.tick (RelConn.stmtsRun (fails rel) 0 write.stmts).1)) with
                same | ⟨lossy, same⟩
              · exact .inl (by simp [Backend.writeConn, started, ended, same])
              · exact .inr ⟨by simp [Backend.writeConn, started, ended], lossy,
                  by simp [Backend.writeConn, started, ended, same]⟩

theorem runRead_cases (session : Session) (rel : RelId) (fails : Faults) :
    let next := session.runRead rel fails
    Backend.Touches fails rel session.backend next.backend ∧
      (next.backend.rels rel = session.backend.rels rel ∨
        ¬ Backend.Stuck rel session.backend ∧
          (next.backend.rels rel = .opened (session.conn rel) ∨
            next.failed = true ∧ fails rel .rollsBack = true ∧
              next.backend.rels rel = .opened (session.conn rel).abandon)) := by
  rcases Backend.withConn_cases fails rel (Backend.readConn (fails rel)) session.backend with
    ⟨reason, after, outcome, _, touches, same⟩ | ⟨_, unstuck, effect, completed⟩
  · simp only [runRead, outcome]
    exact ⟨touches, .inl same⟩
  · simp only [runRead, effect, completed]
    refine ⟨(Backend.Touches.entered fails rel session.backend).setRel _, .inr ⟨unstuck, ?_⟩⟩
    rw [Backend.setRel_same, ← conn]
    cases failing : fails rel (.stmt 0) with
    | false => exact .inl (by simp [Backend.readConn, failing])
    | true =>
        rcases RelConn.afterError_cases (fails rel) (session.conn rel) with same | ⟨lossy, same⟩
        · exact .inl (by simp [Backend.readConn, failing, same])
        · exact .inr ⟨by simp [Backend.readConn, failing], lossy,
            by simp [Backend.readConn, failing, same]⟩

theorem runStartSub_rel (session : Session) {order : List RelId} (distinct : order.Nodup)
    (fails : Faults) (rel : RelId) :
    let next := session.runStartSub order fails
    (next.backend.rels rel = session.backend.rels rel ∧
        (session.backend.registered = true → next.failed = false → rel ∈ order →
          (session.backend.rels rel).cached = false)) ∨
      rel ∈ order ∧ ∃ begun, session.backend.rels rel = .opened (session.conn rel) ∧
        (session.conn rel).beginIfNeeded (fails rel) = some begun ∧
        next.backend.rels rel = .opened
          (begun.warnExec (fails rel) .savepoint fun db => some (db.savepoint session.nextSub)) := by
  unfold runStartSub
  cases registered : session.backend.registered with
  | false => exact .inl ⟨rfl, nofun⟩
  | true =>
      rcases Backend.onSubStart_rel fails session.nextSub distinct session.backend rel with
        ⟨same, reach⟩ | ⟨member, conn, begun, opened, started, effect⟩
      · exact .inl ⟨same, fun _ sane => reach (by simpa using sane)⟩
      · have found : session.conn rel = conn := by simp [Session.conn, opened]
        rw [found]
        exact .inr ⟨member, begun, opened, started, effect⟩

theorem runStartSub_kept (session : Session) {order : List RelId} (distinct : order.Nodup)
    (fails : Faults) :
    let next := session.runStartSub order fails
    next.backend.txRels = session.backend.txRels ∧
      next.backend.registered = session.backend.registered ∧
      next.backend.drops = session.backend.drops := by
  unfold runStartSub
  cases registered : session.backend.registered with
  | false => exact ⟨rfl, registered, rfl⟩
  | true =>
      obtain ⟨txRels, kept, drops⟩ :=
        Backend.onSubStart_kept fails session.nextSub distinct session.backend
      exact ⟨txRels, kept.trans registered, drops⟩

/-- A subtransaction ends on the connections in a transaction, by a statement
whose failure is only a warning. -/
theorem onSubEnd_rel (session : Session) (exec : RelId → RelConn → RelConn) (rel : RelId) :
    let after :=
      if session.backend.registered then Backend.runOnTxnConns exec session.backend
      else session.backend
    (after.rels rel = session.backend.rels rel ∧
        (session.backend.registered = false ∨ rel ∉ session.backend.txRels ∨
          (session.conn rel).inTxn = false)) ∨
      rel ∈ session.backend.txRels ∧ session.backend.rels rel = .opened (session.conn rel) ∧
        (session.conn rel).inTxn = true ∧ after.rels rel = .opened (exec rel (session.conn rel)) := by
  cases registered : session.backend.registered with
  | false => exact .inl ⟨rfl, .inl rfl⟩
  | true =>
      rcases Backend.runOnTxnConns_rel exec session.backend rel with
        ⟨same, reach⟩ | ⟨conn, member, opened, held, effect⟩
      · exact .inl ⟨same, .inr reach⟩
      · have found : session.conn rel = conn := by simp [Session.conn, opened]
        rw [found]
        exact .inr ⟨member, opened, held, effect⟩

theorem runCommitSub_rel (session : Session) (sub : SubFrame) (rest : List SubFrame)
    (fails : Faults) (rel : RelId) :
    let next := session.runCommitSub sub rest fails
    (next.backend.rels rel = session.backend.rels rel ∧
        (session.backend.registered = false ∨ rel ∉ session.backend.txRels ∨
          (session.conn rel).inTxn = false)) ∨
      rel ∈ session.backend.txRels ∧ session.backend.rels rel = .opened (session.conn rel) ∧
        (session.conn rel).inTxn = true ∧ next.backend.rels rel = .opened
          ((session.conn rel).warnExec (fails rel) .release (Db.release sub.id)) :=
  onSubEnd_rel session _ rel

theorem runAbortSub_rel (session : Session) (sub : SubFrame) (rest : List SubFrame)
    (fails : Faults) (rel : RelId) :
    let next := session.runAbortSub sub rest fails
    (next.backend.rels rel = session.backend.rels rel ∧
        (session.backend.registered = false ∨ rel ∉ session.backend.txRels ∨
          (session.conn rel).inTxn = false)) ∨
      rel ∈ session.backend.txRels ∧ session.backend.rels rel = .opened (session.conn rel) ∧
        (session.conn rel).inTxn = true ∧ next.backend.rels rel = .opened
          ((session.conn rel).warnExec (fails rel) .rollbackTo (Db.rollbackTo sub.id)) :=
  onSubEnd_rel session _ rel

theorem onSubEnd_kept (session : Session) (exec : RelId → RelConn → RelConn) :
    let after :=
      if session.backend.registered then Backend.runOnTxnConns exec session.backend
      else session.backend
    after.txRels = session.backend.txRels ∧ after.registered = session.backend.registered ∧
      after.drops = session.backend.drops := by
  cases registered : session.backend.registered <;> exact ⟨rfl, registered, rfl⟩

theorem runPreCommit_rel (session : Session) {order : List RelId} (distinct : order.Nodup)
    (fails : Faults) (rel : RelId) :
    let next := session.runPreCommit order fails
    (next.backend.rels rel = session.backend.rels rel ∧ rel ∉ next.commitRan ∧
        (session.backend.registered = true → next.failed = false → rel ∈ order →
          (session.backend.rels rel).cached = false)) ∨
      (rel ∈ order ∧ rel ∉ next.commitRan ∧ next.failed = true ∧
        session.backend.rels rel = .opened (session.conn rel) ∧
        (session.conn rel).commit (fails rel) = none ∧
        next.backend.rels rel = .opened ((session.conn rel).afterError (fails rel))) ∨
      rel ∈ order ∧ rel ∈ next.commitRan ∧ ∃ committed,
        session.backend.rels rel = .opened (session.conn rel) ∧
        (session.conn rel).commit (fails rel) = some committed ∧
        next.backend.rels rel = .opened committed := by
  unfold runPreCommit
  cases registered : session.backend.registered with
  | false => exact .inl ⟨rfl, List.not_mem_nil, nofun⟩
  | true =>
      rcases Backend.onPrecommit_rel fails distinct session.backend rel with
        ⟨same, missed, reach⟩ | ⟨member, missed, panicked, conn, opened, none, effect⟩ |
        ⟨member, visited, conn, committed, opened, done, effect⟩
      · exact .inl ⟨same, missed, fun _ sane => reach (by simpa using sane)⟩
      · have found : session.conn rel = conn := by simp [Session.conn, opened]
        rw [found]
        exact .inr (.inl ⟨member, missed, by simpa using panicked, opened, none, effect⟩)
      · have found : session.conn rel = conn := by simp [Session.conn, opened]
        rw [found]
        exact .inr (.inr ⟨member, visited, committed, opened, done, effect⟩)

theorem runPreCommit_phase (session : Session) (order : List RelId) (fails : Faults) :
    let next := session.runPreCommit order fails
    (next.failed = false ∧ next.phase = .preCommitted) ∨
      (next.failed = true ∧ next.phase = session.phase) := by
  unfold runPreCommit
  dsimp only
  generalize (if session.backend.registered = true then session.backend.onPrecommit fails order
    else ([], .returned session.backend)) = result
  cases result.2.completed with
  | false => exact .inr ⟨rfl, rfl⟩
  | true => exact .inl ⟨rfl, rfl⟩

theorem runPreCommit_not_idle {session : Session} (running : session.phase = .running)
    (order : List RelId) (fails : Faults) : (session.runPreCommit order fails).phase ≠ .idle := by
  intro idle
  rcases runPreCommit_phase session order fails with ⟨_, ready⟩ | ⟨_, stays⟩
  · rw [ready] at idle
    cases idle
  · rw [stays, running] at idle
    cases idle

theorem runPreCommit_kept (session : Session) {order : List RelId} (distinct : order.Nodup)
    (fails : Faults) :
    let next := session.runPreCommit order fails
    next.backend.txRels ⊆ session.backend.txRels ∧
      (session.backend.registered = true → next.backend.txRels = ∅) ∧
      next.backend.registered = session.backend.registered ∧
      next.backend.drops = session.backend.drops := by
  unfold runPreCommit
  cases registered : session.backend.registered with
  | false => exact ⟨subset_rfl, nofun, registered, rfl⟩
  | true =>
      obtain ⟨taken, kept, drops⟩ := Backend.onPrecommit_kept fails distinct session.backend
      refine ⟨?_, fun _ => taken, kept.trans registered, drops⟩
      simp only [if_true, taken, Finset.empty_subset]

theorem runCommit_rel (session : Session) (rel : RelId) :
    session.runCommit.backend.rels rel =
      if rel ∈ session.backend.drops then .closed none else session.backend.rels rel :=
  Backend.foldl_unlinkStorage_rels _ _ _

theorem runCommit_txRels (session : Session) :
    session.runCommit.backend.txRels ⊆ session.backend.txRels :=
  Backend.foldl_unlinkStorage_txRels _ _

theorem runAbort_rel (session : Session) (fails : Faults) (rel : RelId) :
    let next := session.runAbort fails
    (next.backend.rels rel = session.backend.rels rel ∧
        (session.backend.registered = false ∨ rel ∉ session.backend.txRels ∨
          (session.conn rel).inTxn = false)) ∨
      rel ∈ session.backend.txRels ∧ session.backend.rels rel = .opened (session.conn rel) ∧
        (session.conn rel).inTxn = true ∧
        next.backend.rels rel = .opened ((session.conn rel).rollback (fails rel)) := by
  unfold runAbort
  cases registered : session.backend.registered with
  | false => exact .inl ⟨rfl, .inl rfl⟩
  | true =>
      rcases Backend.onAbort_rel fails session.backend rel with
        ⟨same, reach⟩ | ⟨conn, member, opened, held, effect⟩
      · exact .inl ⟨same, .inr reach⟩
      · have found : session.conn rel = conn := by simp [Session.conn, opened]
        rw [found]
        exact .inr ⟨member, opened, held, effect⟩

theorem runAbort_txRels (session : Session) (fails : Faults) :
    (session.runAbort fails).backend.txRels =
      if session.backend.registered then ∅ else session.backend.txRels := by
  unfold runAbort
  cases session.backend.registered <;> rfl

theorem runAbort_untouched {session : Session}
    (registered : session.backend.txRels ≠ ∅ → session.backend.registered = true) (fails : Faults) :
    (session.runAbort fails).backend.txRels = ∅ := by
  rw [runAbort_txRels]
  split
  · rfl
  · next bare =>
      by_contra touched
      exact bare (registered touched)

/-- The guards and effects of all events, one constructor each. -/
inductive Steps (session : Session) : Event → Session → Prop where
  | begin (idle : session.phase = .idle) :
      Steps session .begin { session with phase := .running, nextSub := 2 }
  | call {rel write fails} (running : session.phase ≠ .idle) (sane : session.failed = false) :
      Steps session (.call rel write fails) (session.runCall rel write fails)
  | read {rel fails} (running : session.phase ≠ .idle) (sane : session.failed = false) :
      Steps session (.read rel fails) (session.runRead rel fails)
  | drop {rel} (running : session.phase = .running) (sane : session.failed = false) :
      Steps session (.drop rel) { session with
        backend := session.backend.dropRelation rel
        dropLedger := session.dropLedger.update (· ++ [rel]) }
  | startSub {order fails} (running : session.phase = .running) (sane : session.failed = false)
      (distinct : order.Nodup) (complete : order.toFinset = session.backend.txRels) :
      Steps session (.startSub order fails) (session.runStartSub order fails)
  | commitSub {fails sub rest} (open_ : session.subs = sub :: rest)
      (running : session.phase = .running) (sane : session.failed = false) :
      Steps session (.commitSub fails) (session.runCommitSub sub rest fails)
  | abortSub {fails sub rest} (open_ : session.subs = sub :: rest)
      (running : session.phase = .running) :
      Steps session (.abortSub fails) (session.runAbortSub sub rest fails)
  | preCommit {order fails} (running : session.phase = .running) (sane : session.failed = false)
      (closed : session.subs = []) (distinct : order.Nodup)
      (complete : order.toFinset = session.backend.txRels) :
      Steps session (.preCommit order fails) (session.runPreCommit order fails)
  | commit (ready : session.phase = .preCommitted) (sane : session.failed = false) :
      Steps session .commit session.runCommit
  | abort {fails} (running : session.phase ≠ .idle) (closed : session.subs = []) :
      Steps session (.abort fails) (session.runAbort fails)

theorem steps_of_step {session next : Session} {event : Event}
    (stepped : session.step event = some next) : Steps session event next := by
  cases event with
  | begin =>
      obtain ⟨idle, rfl⟩ := by simpa [step] using stepped
      exact .begin idle
  | call rel write fails =>
      obtain ⟨⟨running, sane⟩, rfl⟩ := by simpa [step, active] using stepped
      exact .call running sane
  | read rel fails =>
      obtain ⟨⟨running, sane⟩, rfl⟩ := by simpa [step, active] using stepped
      exact .read running sane
  | drop rel =>
      obtain ⟨⟨running, sane⟩, rfl⟩ := by simpa [step] using stepped
      exact .drop running sane
  | startSub order fails =>
      obtain ⟨⟨running, sane, distinct, complete⟩, rfl⟩ := by
        simpa [step, enumerates] using stepped
      exact .startSub running sane distinct complete
  | commitSub fails =>
      cases subs : session.subs with
      | nil => simp [step, subs] at stepped
      | cons sub rest =>
          obtain ⟨⟨running, sane⟩, rfl⟩ := by simpa [step, subs] using stepped
          exact .commitSub subs running sane
  | abortSub fails =>
      cases subs : session.subs with
      | nil => simp [step, subs] at stepped
      | cons sub rest =>
          obtain ⟨running, rfl⟩ := by simpa [step, subs] using stepped
          exact .abortSub subs running
  | preCommit order fails =>
      obtain ⟨⟨running, sane, closed, distinct, complete⟩, rfl⟩ := by
        simpa [step, enumerates] using stepped
      exact .preCommit running sane closed distinct complete
  | commit =>
      obtain ⟨⟨ready, sane⟩, rfl⟩ := by simpa [step] using stepped
      exact .commit ready sane
  | abort fails =>
      obtain ⟨⟨running, closed⟩, rfl⟩ := by simpa [step] using stepped
      exact .abort running closed

/-- The bookkeeping of a session. It holds in every run, whatever fails. -/
structure WellFormed (session : Session) : Prop where
  flat : session.phase ≠ .running → session.subs = []
  rest : session.phase = .idle →
    session.backend.registered = false ∧ session.backend.drops = [] ∧
      session.ledger = Nested.fresh [] ∧ session.dropLedger = Nested.fresh [] ∧
      session.attempted = [] ∧ session.commitRan = [] ∧ session.undoneDrops = []
  numbered : (session.subs.map SubFrame.id).Nodup ∧ ∀ sub ∈ session.subs, sub.id < session.nextSub
  touched : ∀ sub ∈ session.subs, sub.touched ⊆ session.backend.txRels
  depth : session.ledger.saved.length = session.subs.length
  dropDepth : session.dropLedger.saved.length = session.subs.length
  growing : session.ledger.Growing fun older newer => older <+: newer
  dropGrowing : session.dropLedger.Growing fun older newer => older <+: newer
  recorded : ∀ executed ∈ session.ledger.current, executed ∈ session.attempted
  ticks : ∀ executed ∈ session.attempted, executed.2.tick < session.tick

theorem WellFormed.start (files : RelId → Option Table) : (Session.start files).WellFormed where
  flat _ := rfl
  rest _ := by simp [Session.start]
  numbered := by simp [Session.start]
  touched := by simp [Session.start]
  depth := rfl
  dropDepth := rfl
  growing := Nested.Growing.fresh _
  dropGrowing := Nested.Growing.fresh _
  recorded := by simp [Session.start, Nested.fresh]
  ticks := by simp [Session.start]

theorem conn_congr {session next : Session} {rel : RelId}
    (same : next.backend.rels rel = session.backend.rels rel) : next.conn rel = session.conn rel := by
  rw [conn, conn, same]

theorem conn_of_opened {session : Session} {rel : RelId} {found : RelConn}
    (opened : session.backend.rels rel = .opened found) : session.conn rel = found := by
  rw [conn, opened, RelState.conn_opened]

theorem runCall_conn {session : Session} {rel : RelId} {write : Write} {fails : Faults}
    (other : RelId) {ran : List Entry}
    (effect : (ran = [] ∧ (session.runCall rel write fails).backend.rels rel =
        session.backend.rels rel) ∨
      ¬ Backend.Stuck rel session.backend ∧ ∃ changed,
        (session.runCall rel write fails).backend.rels rel = .opened changed ∧
        Wrote (fails rel) (session.runCall rel write fails).failed (session.conn rel) changed ran)
    (touches : Backend.Touches fails rel session.backend
      (session.runCall rel write fails).backend) :
    (other ≠ rel ∧ (session.runCall rel write fails).conn other = session.conn other) ∨
      other = rel ∧
        Wrote (fails rel) (session.runCall rel write fails).failed (session.conn rel)
          ((session.runCall rel write fails).conn rel) ran := by
  by_cases same : other = rel
  · refine .inr ⟨same, ?_⟩
    rcases effect with ⟨none, unchanged⟩ | ⟨_, changed, opened, wrote⟩
    · exact .inl ⟨none, conn_congr unchanged⟩
    · rw [conn_of_opened opened]
      exact wrote
  · exact .inl ⟨same, conn_congr (touches.others other same)⟩

/-- A read changes a connection only when its error costs the transaction. -/
theorem runRead_conn (session : Session) (rel : RelId) (fails : Faults) (other : RelId) :
    (session.runRead rel fails).conn other = session.conn other ∨
      other = rel ∧ (session.runRead rel fails).failed = true ∧ fails rel .rollsBack = true ∧
        (session.runRead rel fails).conn rel = (session.conn rel).abandon := by
  obtain ⟨touches, effect⟩ := runRead_cases session rel fails
  by_cases same : other = rel
  · subst same
    rcases effect with unchanged | ⟨_, opened | ⟨failed, lossy, opened⟩⟩
    · exact .inl (conn_congr unchanged)
    · exact .inl (conn_of_opened opened)
    · exact .inr ⟨rfl, failed, lossy, conn_of_opened opened⟩
  · exact .inl (conn_congr (touches.others other same))

/-- `registered` follows the first relation of a transaction. -/
theorem registered_of_touches {session : Session} {after : Backend} {fails : Faults} {rel : RelId}
    (touches : Backend.Touches fails rel session.backend after)
    (opens : ¬ Backend.FirstOpenFails fails rel session.backend)
    (registered : session.backend.txRels ≠ ∅ → session.backend.registered = true) :
    after.registered = true := by
  rw [touches.registered opens]
  by_cases first : session.backend.txRels = ∅
  · simp [first]
  · simp [registered first]

theorem cached_of_inTxn {session : Session} {rel : RelId} (held : (session.conn rel).inTxn = true) :
    (session.backend.rels rel).cached = true := by
  cases found : session.backend.rels rel with
  | closed file => simp [Session.conn, found, RelState.conn, RelConn.openConn] at held
  | opened conn => rfl

namespace WellFormed

variable {session next : Session} {event : Event}

theorem call (formed : session.WellFormed) (running : session.phase ≠ .idle) (rel : RelId)
    (write : Write) (fails : Faults) : (session.runCall rel write fails).WellFormed := by
  obtain ⟨touches, ran, ledger, attempted, ticks, _, effect⟩ := runCall_cases session rel write fails
  constructor
  case flat => exact formed.flat
  case rest => exact fun idle => absurd idle running
  case numbered => exact formed.numbered
  case touched =>
    intro sub member
    rw [touches.txRels]
    exact (formed.touched sub member).trans (Finset.subset_insert _ _)
  case depth =>
    rw [ledger]
    exact formed.depth
  case dropDepth => exact formed.dropDepth
  case growing =>
    rw [ledger]
    exact formed.growing.update (fun _ _ _ => List.IsPrefix.trans) (List.prefix_append _ _)
  case dropGrowing => exact formed.dropGrowing
  case recorded =>
    rw [ledger, attempted]
    intro executed member
    rcases List.mem_append.mp member with earlier | added
    · exact List.mem_append_left _ (formed.recorded executed earlier)
    · exact List.mem_append_right _ added
  case ticks =>
    rw [attempted]
    intro executed member
    rcases List.mem_append.mp member with earlier | added
    · exact Nat.lt_of_lt_of_le (formed.ticks executed earlier) (Nat.le_add_right _ _)
    · obtain ⟨entry, inRan, rfl⟩ := List.mem_map.mp added
      exact (ticks entry inRan).2

theorem read (formed : session.WellFormed) (running : session.phase ≠ .idle) (rel : RelId)
    (fails : Faults) : (session.runRead rel fails).WellFormed where
  flat := formed.flat
  rest idle := absurd idle running
  numbered := formed.numbered
  touched sub member := by
    rw [(runRead_cases session rel fails).1.txRels]
    exact (formed.touched sub member).trans (Finset.subset_insert _ _)
  depth := formed.depth
  dropDepth := formed.dropDepth
  growing := formed.growing
  dropGrowing := formed.dropGrowing
  recorded := formed.recorded
  ticks := formed.ticks

theorem startSub (formed : session.WellFormed) (running : session.phase = .running)
    {order : List RelId} (distinct : order.Nodup) (fails : Faults) :
    (session.runStartSub order fails).WellFormed := by
  obtain ⟨txRels, registered, drops⟩ := runStartSub_kept session distinct fails
  constructor
  case flat => exact fun ended => absurd running ended
  case rest => exact fun idle => by simp [runStartSub, running] at idle
  case numbered =>
    obtain ⟨distinctIds, bound⟩ := formed.numbered
    refine ⟨List.nodup_cons.mpr ⟨fun member => ?_, distinctIds⟩, fun sub member => ?_⟩
    · obtain ⟨sub, inSubs, same⟩ := List.mem_map.mp member
      exact absurd same (Nat.ne_of_lt (bound sub inSubs))
    · rcases List.mem_cons.mp member with rfl | older
      · exact Nat.lt_succ_self _
      · exact Nat.lt_succ_of_lt (bound sub older)
  case touched =>
    intro sub member
    rw [txRels]
    rcases List.mem_cons.mp member with rfl | older
    · exact Finset.Subset.refl _
    · exact formed.touched sub older
  case depth => exact congrArg Nat.succ formed.depth
  case dropDepth => exact congrArg Nat.succ formed.dropDepth
  case growing => exact formed.growing.start List.prefix_refl
  case dropGrowing => exact formed.dropGrowing.start List.prefix_refl
  case recorded => exact formed.recorded
  case ticks => exact formed.ticks

theorem commitSub (formed : session.WellFormed) (running : session.phase = .running)
    {sub : SubFrame} {rest : List SubFrame} (subs : session.subs = sub :: rest) (fails : Faults) :
    (session.runCommitSub sub rest fails).WellFormed := by
  have member : ∀ frame ∈ rest, frame ∈ session.subs := fun frame inRest => by simp [subs, inRest]
  have distinctIds := formed.numbered.1
  rw [subs] at distinctIds
  obtain ⟨txRels, _⟩ := onSubEnd_kept session
    fun rel conn => conn.warnExec (fails rel) .release (Db.release sub.id)
  constructor
  case flat => exact fun ended => absurd running ended
  case rest => exact fun idle => by simp [runCommitSub, running] at idle
  case numbered =>
    exact ⟨distinctIds.of_cons, fun frame inRest => formed.numbered.2 frame (member frame inRest)⟩
  case touched =>
    intro frame inRest
    rw [show (session.runCommitSub sub rest fails).backend.txRels = _ from txRels]
    exact formed.touched frame (member frame inRest)
  case depth =>
    have depth := formed.depth
    rw [subs] at depth
    simp [runCommitSub, depth]
  case dropDepth =>
    have depth := formed.dropDepth
    rw [subs] at depth
    simp [runCommitSub, depth]
  case growing => exact formed.growing.commit
  case dropGrowing => exact formed.dropGrowing.commit
  case recorded => exact formed.recorded
  case ticks => exact formed.ticks

theorem abortSub (formed : session.WellFormed) (running : session.phase = .running)
    {sub : SubFrame} {rest : List SubFrame} (subs : session.subs = sub :: rest) (fails : Faults) :
    (session.runAbortSub sub rest fails).WellFormed := by
  have member : ∀ frame ∈ rest, frame ∈ session.subs := fun frame inRest => by simp [subs, inRest]
  have distinctIds := formed.numbered.1
  rw [subs] at distinctIds
  obtain ⟨txRels, _⟩ := onSubEnd_kept session
    fun rel conn => conn.warnExec (fails rel) .rollbackTo (Db.rollbackTo sub.id)
  constructor
  case flat => exact fun ended => absurd running ended
  case rest => exact fun idle => by simp [runAbortSub, running] at idle
  case numbered =>
    exact ⟨distinctIds.of_cons, fun frame inRest => formed.numbered.2 frame (member frame inRest)⟩
  case touched =>
    intro frame inRest
    rw [show (session.runAbortSub sub rest fails).backend.txRels = _ from txRels]
    exact formed.touched frame (member frame inRest)
  case depth =>
    have depth := formed.depth
    rw [subs] at depth
    simp [runAbortSub, depth]
  case dropDepth =>
    have depth := formed.dropDepth
    rw [subs] at depth
    simp [runAbortSub, depth]
  case growing => exact formed.growing.abort
  case dropGrowing => exact formed.dropGrowing.abort
  case recorded =>
    intro executed inLedger
    exact formed.recorded executed
      ((formed.growing.abort_le List.prefix_refl).subset inLedger)
  case ticks => exact formed.ticks

theorem preCommit (formed : session.WellFormed) (running : session.phase = .running)
    (closed : session.subs = []) (order : List RelId) (fails : Faults) :
    (session.runPreCommit order fails).WellFormed := by
  constructor
  case flat => exact fun _ => closed
  case rest => exact fun idle => absurd idle (runPreCommit_not_idle running order fails)
  case numbered => exact formed.numbered
  case touched => exact fun sub member => by simp [runPreCommit, closed] at member
  case depth => simp [runPreCommit, closed, Nested.fresh]
  case dropDepth => exact formed.dropDepth
  case growing => exact Nested.Growing.fresh _
  case dropGrowing => exact formed.dropGrowing
  case recorded => exact fun _ member => by simp [runPreCommit, Nested.fresh] at member
  case ticks => exact formed.ticks

theorem ended (backend : Backend) (closed : session.subs = []) (lost : List Executed) :
    ({ session.endXact backend with lost := lost }).WellFormed where
  flat _ := closed
  rest _ := ⟨rfl, rfl, rfl, rfl, rfl, rfl, rfl⟩
  numbered := by simp [endXact, closed]
  touched := by simp [endXact, closed]
  depth := by simp [endXact, closed, Nested.fresh]
  dropDepth := by simp [endXact, closed, Nested.fresh]
  growing := Nested.Growing.fresh _
  dropGrowing := Nested.Growing.fresh _
  recorded := by simp [endXact, Nested.fresh]
  ticks := by simp [endXact]

theorem commit (formed : session.WellFormed) (ready : session.phase = .preCommitted) :
    session.runCommit.WellFormed :=
  ended _ (formed.flat (by simp [ready])) session.lost

theorem abort (closed : session.subs = []) (fails : Faults) :
    (session.runAbort fails).WellFormed := ended _ closed _

theorem step (formed : session.WellFormed) (stepped : session.step event = some next) :
    next.WellFormed := by
  cases steps_of_step stepped with
  | begin idle =>
      have closed := formed.flat (by simp [idle])
      exact { formed with
        flat := fun _ => closed
        rest := nofun
        numbered := by simp [closed] }
  | call running _ => exact formed.call running _ _ _
  | read running _ => exact formed.read running _ _
  | drop running _ =>
      exact { formed with
        rest := fun idle => by simp [running] at idle
        dropGrowing := formed.dropGrowing.update (fun _ _ _ => List.IsPrefix.trans)
          (List.prefix_append _ _) }
  | startSub running _ distinct _ => exact formed.startSub running distinct _
  | commitSub subs running _ => exact formed.commitSub running subs _
  | abortSub subs running => exact formed.abortSub running subs _
  | preCommit running _ closed => exact formed.preCommit running closed _ _
  | commit ready _ => exact formed.commit ready
  | abort _ closed => exact abort closed _

theorem run {files : RelId → Option Table} {events : List Event}
    (reached : Session.run (Session.start files) events = some session) : session.WellFormed :=
  Transition.run_invariant (fun _ _ _ formed _ stepped => formed.step stepped)
    (WellFormed.start files) (Transition.meets_trivial _ _) reached

end WellFormed

/-- No error of the event is one that SQLite answers with a rollback. -/
def Lossless (session : Session) : Event → Prop
  | .call rel _ fails | .read rel fails => fails rel .rollsBack = false
  | .startSub _ fails =>
      ∀ rel ∈ session.backend.txRels, (session.backend.rels rel).cached = true →
        fails rel .savepoint = true → fails rel .rollsBack = false
  | .commitSub fails | .abortSub fails | .preCommit _ fails =>
      ∀ rel ∈ session.backend.txRels, fails rel .rollsBack = false
  | .begin | .drop _ | .commit | .abort _ => True

instance (session : Session) : ∀ event, Decidable (session.Lossless event)
  | .call _ _ _ | .read _ _ => inferInstanceAs (Decidable (_ = _))
  | .startSub _ _ => inferInstanceAs (Decidable (∀ rel ∈ session.backend.txRels, _ → _ → _))
  | .commitSub _ | .abortSub _ | .preCommit _ _ =>
      inferInstanceAs (Decidable (∀ rel ∈ session.backend.txRels, _ = _))
  | .begin | .drop _ | .commit | .abort _ => isTrue trivial

/-- Of every connection, `in_txn` says whether it is in a transaction. -/
def Sound (session : Session) : Prop := ∀ rel, (session.conn rel).Sound

theorem Wrote.sound {fails : Sql → Bool} {failed : Bool} {conn changed : RelConn} {ran : List Entry}
    (wrote : Wrote fails failed conn changed ran) (sound : conn.Sound)
    (lossless : failed = true → fails .rollsBack = false) : changed.Sound := by
  rcases wrote with ⟨_, rfl⟩ | ⟨begun, started, rfl | ⟨panicked, lossy, _⟩⟩
  · exact sound
  · exact (sound.beginIfNeeded started).1.execute ran
  · rw [lossless panicked] at lossy
    cases lossy

theorem Wrote.file {fails : Sql → Bool} {failed : Bool} {conn changed : RelConn} {ran : List Entry}
    (wrote : Wrote fails failed conn changed ran) (sound : conn.Sound) :
    changed.db.file = conn.db.file := by
  have kept : ∀ begun : RelConn, conn.beginIfNeeded fails = some begun →
      (begun.execute ran).db.file = conn.db.file := by
    intro begun started
    obtain ⟨_, _, txn, opened⟩ := sound.beginIfNeeded started
    rw [RelConn.execute_open opened]
    rcases RelConn.beginIfNeeded_cases started with ⟨_, rfl⟩ | ⟨_, _, _, rfl⟩ <;> rfl
  rcases wrote with ⟨_, rfl⟩ | ⟨begun, started, rfl | ⟨_, _, rfl⟩⟩
  · rfl
  · exact kept begun started
  · exact kept begun started

namespace Sound

variable {session next : Session} {event : Event}

theorem start (files : RelId → Option Table) : (Session.start files).Sound :=
  fun _ => RelConn.Sound.openConn _

theorem of_quiet (quiet : session.Quiet) : session.Sound := by
  intro rel
  obtain ⟨none, bare⟩ := quiet rel
  exact ⟨by simp [bare], by simp [none]⟩

theorem call (sound : session.Sound) {target : RelId} {write : Write} {fails : Faults}
    (lossless : (session.runCall target write fails).failed = true →
      fails target .rollsBack = false) : (session.runCall target write fails).Sound := by
  intro rel
  obtain ⟨touches, ran, _, _, _, _, effect⟩ := runCall_cases session target write fails
  rcases runCall_conn rel effect touches with ⟨_, same⟩ | ⟨rfl, wrote⟩
  · rw [same]
    exact sound rel
  · exact wrote.sound (sound rel) lossless

theorem read (sound : session.Sound) {target : RelId} {fails : Faults}
    (lossless : (session.runRead target fails).failed = true → fails target .rollsBack = false) :
    (session.runRead target fails).Sound := by
  intro rel
  rcases runRead_conn session target fails rel with same | ⟨_, panicked, lossy, _⟩
  · rw [same]
    exact sound rel
  · rw [lossless panicked] at lossy
    cases lossy

theorem step (sound : session.Sound) (lossless : session.Lossless event)
    (stepped : session.step event = some next) : next.Sound := by
  intro rel
  cases steps_of_step stepped with
  | begin | drop => exact sound rel
  | call => exact sound.call (fun _ => lossless) rel
  | read => exact sound.read (fun _ => lossless) rel
  | @startSub order fails _ _ distinct complete =>
      rcases runStartSub_rel session distinct fails rel with
        ⟨same, _⟩ | ⟨member, begun, opened, started, effect⟩
      · rw [conn_congr same]
        exact sound rel
      · rw [conn_of_opened effect]
        obtain ⟨sound, held, _⟩ := (sound rel).beginIfNeeded started
        rw [RelConn.warnExec_lossless begun
          (lossless rel (complete ▸ List.mem_toFinset.mpr member) (by rw [opened]; rfl))]
        exact sound.savepoint held _ _
  | @commitSub fails sub rest =>
      rcases runCommitSub_rel session sub rest fails rel with
        ⟨same, _⟩ | ⟨touched, _, held, effect⟩
      · rw [conn_congr same]
        exact sound rel
      · rw [conn_of_opened effect, RelConn.warnExec_lossless _ fun _ => lossless rel touched]
        exact (sound rel).release held _ _
  | @abortSub fails sub rest =>
      rcases runAbortSub_rel session sub rest fails rel with
        ⟨same, _⟩ | ⟨touched, _, held, effect⟩
      · rw [conn_congr same]
        exact sound rel
      · rw [conn_of_opened effect, RelConn.warnExec_lossless _ fun _ => lossless rel touched]
        exact (sound rel).rollbackTo held _ _
  | @preCommit order fails _ _ _ distinct complete =>
      rcases runPreCommit_rel session distinct fails rel with
        ⟨same, _⟩ | ⟨member, _, _, _, _, effect⟩ | ⟨_, _, committed, _, done, effect⟩
      · rw [conn_congr same]
        exact sound rel
      · rw [conn_of_opened effect]
        rcases RelConn.afterError_cases (fails rel) (session.conn rel) with same | ⟨lossy, _⟩
        · rw [same]
          exact sound rel
        · rw [lossless rel (complete ▸ List.mem_toFinset.mpr member)] at lossy
          cases lossy
      · rw [conn_of_opened effect]
        exact (sound rel).commit done
  | commit =>
      rw [conn, runCommit_rel]
      split
      · exact RelConn.Sound.openConn none
      · exact sound rel
  | @abort fails =>
      rcases runAbort_rel session fails rel with ⟨same, _⟩ | ⟨_, _, _, effect⟩
      · rw [conn_congr same]
        exact sound rel
      · rw [conn_of_opened effect]
        exact (sound rel).rollback _

end Sound

end Session

end SqliteHeap
