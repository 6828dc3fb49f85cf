import SqliteHeap.SessionInvariant

/-! The contents that a connection can still read or return to: its file, the
work of its transaction and what its savepoints remember. A step adds to them at
most what a call executes. -/

set_option autoImplicit false

namespace SqliteHeap

open SavepointStack

/-- The connection reads these contents, or a statement can bring them back. -/
def RelConn.Reaches (conn : RelConn) (contents : Contents) : Prop :=
  contents = conn.db.file ∨ ∃ txn ∈ conn.db.txn,
    contents = txn.work ∨ ∃ save ∈ txn.saves, contents = save.contents

namespace RelConn

variable {conn : RelConn} {contents : Contents}

theorem reaches_file (conn : RelConn) : conn.Reaches conn.db.file := .inl rfl

theorem reaches_of_txn_none (closed : conn.db.txn = none) :
    conn.Reaches contents ↔ contents = conn.db.file := by
  simp [Reaches, closed]

theorem reaches_of_txn_some {txn : Txn SubId Contents} (opened : conn.db.txn = some txn) :
    conn.Reaches contents ↔ contents = conn.db.file ∨ contents = txn.work ∨
      ∃ save ∈ txn.saves, contents = save.contents := by
  simp [Reaches, opened]

theorem reaches_view (conn : RelConn) : conn.Reaches conn.view := by
  cases opened : conn.db.txn with
  | none => simp [reaches_of_txn_none opened, view, Db.view, opened]
  | some txn => simp [reaches_of_txn_some opened, view, Db.view, opened]

theorem beginIfNeeded_view {fails : Sql → Bool} {begun : RelConn}
    (started : conn.beginIfNeeded fails = some begun) : begun.view = conn.view := by
  rcases beginIfNeeded_cases started with ⟨_, rfl⟩ | ⟨_, _, none, rfl⟩
  · rfl
  · simp [view, Db.view, none]

theorem beginIfNeeded_file {fails : Sql → Bool} {begun : RelConn}
    (started : conn.beginIfNeeded fails = some begun) : begun.db.file = conn.db.file := by
  rcases beginIfNeeded_cases started with ⟨_, rfl⟩ | ⟨_, _, _, rfl⟩ <;> rfl

theorem abandon_view (conn : RelConn) : conn.abandon.view = conn.db.file := rfl

/-- In a transaction or not, the statements are read after they ran. -/
theorem execute_view (conn : RelConn) (ran : List Entry) :
    (conn.execute ran).view = conn.view.append ran := by
  cases opened : conn.db.txn <;> simp [execute, view, Db.view, Db.write, opened]

/-- SAVEPOINT changes nothing that is read, even where it opens a transaction. -/
theorem savepoint_view (fails : Bool) (sub : SubId) :
    (conn.tryExec fails fun db => some (db.savepoint sub)).view = conn.view := by
  cases fails with
  | true => rfl
  | false =>
      cases opened : conn.db.txn <;>
        simp [tryExec, view, Db.view, Db.savepoint, opened]

/-- RELEASE changes nothing that is read, even where it commits. -/
theorem release_view (fails : Bool) (sub : SubId) :
    (conn.tryExec fails (Db.release sub)).view = conn.view := by
  cases opened : conn.db.txn with
  | none => rw [tryExec_closed _ (by simp [Db.release, opened])]
  | some txn =>
      rcases release_any fails opened with same | ⟨_, same⟩ | ⟨save, below, _, same⟩
      · rw [same]
      · rw [same]
        simp [view, Db.view, opened]
      · rw [same]
        simp [view, Db.view, opened]

theorem commit_view {fails : Sql → Bool} {committed : RelConn}
    (done : conn.commit fails = some committed) : committed.view = conn.view := by
  rcases commit_cases done with ⟨_, rfl⟩ | ⟨txn, _, opened, rfl⟩
  · rfl
  · simp [view, Db.view, opened]

theorem Reaches.of_beginIfNeeded {fails : Sql → Bool} {begun : RelConn}
    (started : conn.beginIfNeeded fails = some begun) (reaches : begun.Reaches contents) :
    conn.Reaches contents := by
  rcases beginIfNeeded_cases started with ⟨_, rfl⟩ | ⟨_, _, _, rfl⟩
  · exact reaches
  · exact .inl (by simpa [reaches_of_txn_some] using reaches)

theorem Reaches.of_abandon (reaches : conn.abandon.Reaches contents) : conn.Reaches contents :=
  .inl ((reaches_of_txn_none (abandon_txn conn)).mp reaches)

theorem Reaches.of_afterError {fails : Sql → Bool}
    (reaches : (conn.afterError fails).Reaches contents) : conn.Reaches contents := by
  rcases afterError_cases fails conn with same | ⟨_, same⟩
  · rwa [same] at reaches
  · rw [same] at reaches
    exact reaches.of_abandon

/-- In a transaction or not, a statement adds to what the connection reads. -/
theorem Reaches.of_execute {ran : List Entry} (reaches : (conn.execute ran).Reaches contents) :
    conn.Reaches contents ∨ contents = conn.view.append ran := by
  cases opened : conn.db.txn with
  | none =>
      have committed : (conn.execute ran).db = ⟨conn.db.file.append ran, none⟩ := by
        simp [execute, Db.write, opened]
      rw [reaches_of_txn_none (by rw [committed]), committed] at reaches
      rw [view, Db.view, opened]
      exact .inr reaches
  | some txn =>
      rw [execute_open opened, reaches_of_txn_some rfl] at reaches
      rw [reaches_of_txn_some opened, view, Db.view, opened]
      rcases reaches with file | work | saves
      · exact .inl (.inl file)
      · exact .inr work
      · exact .inl (.inr (.inr saves))

theorem Reaches.of_savepoint {fails : Bool} {sub : SubId}
    (reaches : (conn.tryExec fails fun db => some (db.savepoint sub)).Reaches contents) :
    conn.Reaches contents := by
  cases fails with
  | true => exact reaches
  | false =>
      cases opened : conn.db.txn with
      | none =>
          rw [reaches_of_txn_none opened]
          simpa [tryExec, Db.savepoint, opened, Reaches] using reaches
      | some txn =>
          rw [savepoint_open opened, if_neg Bool.false_ne_true, reaches_of_txn_some rfl] at reaches
          rw [reaches_of_txn_some opened]
          rcases reaches with file | work | ⟨save, member, same⟩
          · exact .inl file
          · exact .inr (.inl work)
          · rcases List.mem_cons.mp member with rfl | older
            · exact .inr (.inl same)
            · exact .inr (.inr ⟨save, older, same⟩)

theorem Reaches.of_release {fails : Bool} {sub : SubId}
    (reaches : (conn.tryExec fails (Db.release sub)).Reaches contents) : conn.Reaches contents := by
  cases opened : conn.db.txn with
  | none => rwa [tryExec_closed fails (by simp [Db.release, opened])] at reaches
  | some txn =>
      rcases release_any fails opened with same | ⟨_, same⟩ | ⟨save, below, found, same⟩
      · rwa [same] at reaches
      · rw [same, reaches_of_txn_none rfl] at reaches
        exact (reaches_of_txn_some opened).mpr (.inr (.inl reaches))
      · rw [same, reaches_of_txn_some rfl] at reaches
        rw [reaches_of_txn_some opened]
        rcases reaches with file | work | ⟨other, member, inSave⟩
        · exact .inl file
        · exact .inr (.inl work)
        · exact .inr (.inr ⟨other, (Db.mem_of_upTo found).2 other member, inSave⟩)

theorem Reaches.of_rollbackTo {fails : Bool} {sub : SubId}
    (reaches : (conn.tryExec fails (Db.rollbackTo sub)).Reaches contents) :
    conn.Reaches contents := by
  cases opened : conn.db.txn with
  | none => rwa [tryExec_closed fails (by simp [Db.rollbackTo, opened])] at reaches
  | some txn =>
      rcases rollbackTo_cases fails opened with same | ⟨save, below, found, same⟩
      · rwa [same] at reaches
      · obtain ⟨kept, inner⟩ := Db.mem_of_upTo found
        rw [same, reaches_of_txn_some rfl] at reaches
        rw [reaches_of_txn_some opened]
        rcases reaches with file | work | ⟨other, member, inSave⟩
        · exact .inl file
        · exact .inr (.inr ⟨save, kept, work⟩)
        · rcases List.mem_cons.mp member with rfl | older
          · exact .inr (.inr ⟨other, kept, inSave⟩)
          · exact .inr (.inr ⟨other, inner other older, inSave⟩)

theorem Reaches.of_warnExec {fails : Sql → Bool} {statement : Sql}
    {exec : SqliteDb → Option SqliteDb}
    (kept : (conn.tryExec (fails statement) exec).Reaches contents → conn.Reaches contents)
    (reaches : (conn.warnExec fails statement exec).Reaches contents) : conn.Reaches contents := by
  rcases warnExec_cases fails statement exec conn with ⟨_, _, same⟩ | same
  · rw [same] at reaches
    exact reaches.of_abandon
  · rw [same] at reaches
    exact kept reaches

theorem Reaches.of_commit {fails : Sql → Bool} {committed : RelConn}
    (done : conn.commit fails = some committed) (reaches : committed.Reaches contents) :
    conn.Reaches contents := by
  rcases commit_cases done with ⟨_, rfl⟩ | ⟨txn, _, opened, rfl⟩
  · exact reaches
  · rw [reaches_of_txn_none rfl] at reaches
    exact (reaches_of_txn_some opened).mpr (.inr (.inl reaches))

theorem Reaches.of_rollback {fails : Sql → Bool} (reaches : (conn.rollback fails).Reaches contents) :
    conn.Reaches contents := by
  rcases rollback_cases fails conn with ⟨_, same⟩ | same | same
  · rwa [same] at reaches
  · rw [same] at reaches
    exact reaches
  · rw [same, reaches_of_txn_none rfl] at reaches
    exact .inl reaches

end RelConn

namespace Session

/-- Contents that a call made out of what the backend read before it. -/
structure Extends (session next : Session) (rel : RelId) (write : Write) (ran : List Entry) :
    Prop where
  ticks : ∀ entry ∈ ran, session.tick ≤ entry.tick ∧ entry.tick < next.tick
  first : ran.map Entry.stmt <+: write.stmts
  whole : next.failed = false → ran.map Entry.stmt = write.stmts

/-- A step reaches nothing new but what a call executes, and nothing at all on a
file that was unlinked. -/
theorem reaches_of_step {session next : Session} {event : Event}
    (stepped : session.step event = some next) {rel : RelId} {contents : Contents}
    (reaches : (next.conn rel).Reaches contents) :
    (session.conn rel).Reaches contents ∨ (event = .commit ∧ contents = Contents.fresh) ∨
      ∃ write fails ran, event = .call rel write fails ∧
        contents = (session.view rel).append ran ∧ Extends session next rel write ran := by
  cases steps_of_step stepped with
  | begin _ => exact .inl reaches
  | @call target write fails _ _ =>
      obtain ⟨touches, ran, _, _, ticks, ⟨first, whole⟩, effect⟩ :=
        runCall_cases session target write fails
      rcases runCall_conn rel effect touches with ⟨_, same⟩ | ⟨rfl, ⟨_, same⟩ | wrote⟩
      · exact .inl (by rwa [same] at reaches)
      · exact .inl (by rwa [same] at reaches)
      · obtain ⟨begun, started, written⟩ := wrote
        have executed : (begun.execute ran).Reaches contents := by
          rcases written with same | ⟨_, _, same⟩
          · rwa [same] at reaches
          · rw [same] at reaches
            exact reaches.of_abandon
        rcases executed.of_execute with old | added
        · exact .inl (old.of_beginIfNeeded started)
        · refine .inr (.inr ⟨write, fails, ran, rfl, ?_, ticks, first, whole⟩)
          rw [added, RelConn.beginIfNeeded_view started, view_eq]
  | @read target fails _ _ =>
      rcases runRead_conn session target fails rel with same | ⟨rfl, _, _, same⟩
      · exact .inl (by rwa [same] at reaches)
      · rw [same] at reaches
        exact .inl reaches.of_abandon
  | drop _ _ => exact .inl reaches
  | @startSub order fails _ _ distinct _ =>
      rcases runStartSub_rel session distinct fails rel with
        ⟨same, _⟩ | ⟨_, begun, _, started, effect⟩
      · exact .inl (by rwa [conn_congr same] at reaches)
      · rw [conn_of_opened effect] at reaches
        have before := RelConn.Reaches.of_warnExec RelConn.Reaches.of_savepoint reaches
        exact .inl (before.of_beginIfNeeded started)
  | @commitSub fails sub rest _ _ _ =>
      rcases runCommitSub_rel session sub rest fails rel with ⟨same, _⟩ | ⟨_, _, _, effect⟩
      · exact .inl (by rwa [conn_congr same] at reaches)
      · rw [conn_of_opened effect] at reaches
        exact .inl (RelConn.Reaches.of_warnExec RelConn.Reaches.of_release reaches)
  | @abortSub fails sub rest _ _ =>
      rcases runAbortSub_rel session sub rest fails rel with ⟨same, _⟩ | ⟨_, _, _, effect⟩
      · exact .inl (by rwa [conn_congr same] at reaches)
      · rw [conn_of_opened effect] at reaches
        exact .inl (RelConn.Reaches.of_warnExec RelConn.Reaches.of_rollbackTo reaches)
  | @preCommit order fails _ _ _ distinct _ =>
      rcases runPreCommit_rel session distinct fails rel with
        ⟨same, _⟩ | ⟨_, _, _, _, _, effect⟩ | ⟨_, _, committed, _, done, effect⟩
      · exact .inl (by rwa [conn_congr same] at reaches)
      · rw [conn_of_opened effect] at reaches
        exact .inl reaches.of_afterError
      · rw [conn_of_opened effect] at reaches
        exact .inl (reaches.of_commit done)
  | commit _ _ =>
      rw [Session.conn, runCommit_rel] at reaches
      split at reaches
      · exact .inr (.inl ⟨rfl, (RelConn.reaches_of_txn_none rfl).mp reaches⟩)
      · exact .inl reaches
  | @abort fails _ _ =>
      rcases runAbort_rel session fails rel with ⟨same, _⟩ | ⟨_, _, _, effect⟩
      · exact .inl (by rwa [conn_congr same] at reaches)
      · rw [conn_of_opened effect] at reaches
        exact .inl reaches.of_rollback

/-- After a call that returned, the backend reads the table that the call computes. -/
theorem table_of_call {session next : Session} {rel : RelId} {write : Write} {fails : Faults}
    (stepped : session.step (.call rel write fails) = some next) (sane : next.failed = false) :
    (next.view rel).table = write.apply (session.view rel).table := by
  cases steps_of_step stepped with
  | call =>
      obtain ⟨touches, ran, _, _, _, ⟨_, whole⟩, effect⟩ := runCall_cases session rel write fails
      have all := whole sane
      have table : ((session.view rel).append ran).table = write.apply (session.view rel).table := by
        rw [← Write.foldl_stmts, ← all, Contents.append_table, List.foldl_map]
      rw [← table, view_eq, view_eq]
      rcases runCall_conn rel effect touches with
        ⟨other, _⟩ | ⟨_, ⟨none, same⟩ | ⟨begun, started, written | ⟨panicked, _⟩⟩⟩
      · exact absurd rfl other
      · rw [same, none, Contents.append_nil]
      · rw [written, RelConn.execute_view, RelConn.beginIfNeeded_view started]
      · rw [sane] at panicked
        cases panicked

/-- The contents that SQLite returns a relation to if it answers an error of the event
with a rollback, or if the event is the end of an aborted (sub)transaction. -/
def returns (session : Session) (rel : RelId) : Event → List Contents
  | .call target _ fails | .read target fails =>
      if target = rel ∧ fails rel .rollsBack = true then [(session.conn rel).db.file] else []
  | .preCommit order fails =>
      if rel ∈ order ∧ fails rel .rollsBack = true then [(session.conn rel).db.file] else []
  | .startSub order fails =>
      if rel ∈ order ∧ fails rel .savepoint = true ∧ fails rel .rollsBack = true then
        [(session.conn rel).db.file]
      else []
  | .commitSub fails =>
      if rel ∈ session.backend.txRels ∧ fails rel .release = true ∧ fails rel .rollsBack = true then
        [(session.conn rel).db.file]
      else []
  | .abortSub fails =>
      if rel ∈ session.backend.txRels ∧ (session.conn rel).inTxn = true then
        (if fails rel .rollsBack then [(session.conn rel).db.file] else []) ++
          (session.subs.head?.toList.flatMap fun sub =>
            (session.conn rel).db.txn.toList.flatMap fun txn =>
              ((Db.upTo sub.id txn.saves).head?.map Savepoint.contents).toList)
      else []
  | .abort _ =>
      if rel ∈ session.backend.txRels ∧ (session.conn rel).inTxn = true then
        [(session.conn rel).db.file]
      else []
  | .begin | .drop _ | .commit => []

/-- What a step does to the contents that the backend reads of one relation. -/
inductive Views (session next : Session) (rel : RelId) : Event → Prop where
  | same {event} (unchanged : next.view rel = session.view rel) : Views session next rel event
  | unlinked (dropped : rel ∈ session.backend.drops) (empty : next.view rel = Contents.fresh) :
      Views session next rel .commit
  | wrote {write fails ran} (appended : next.view rel = (session.view rel).append ran)
      (extended : Extends session next rel write ran) :
      Views session next rel (.call rel write fails)
  | returned {event} (panicked : next.failed = true)
      (back : next.view rel ∈ session.returns rel event) : Views session next rel event
  | unset {order fails} (back : next.view rel ∈ session.returns rel (.startSub order fails)) :
      Views session next rel (.startSub order fails)
  | unreleased {fails} (back : next.view rel ∈ session.returns rel (.commitSub fails)) :
      Views session next rel (.commitSub fails)
  | undone {fails} (back : next.view rel ∈ session.returns rel (.abortSub fails)) :
      Views session next rel (.abortSub fails)
  | aborted {fails} (back : next.view rel ∈ session.returns rel (.abort fails)) :
      Views session next rel (.abort fails)

namespace Views

variable (session : Session) (rel : RelId)

theorem call (target : RelId) (write : Write) (fails : Faults) :
    Views session (session.runCall target write fails) rel (.call target write fails) := by
  obtain ⟨touches, ran, _, _, ticks, ⟨first, whole⟩, effect⟩ :=
    runCall_cases session target write fails
  rcases runCall_conn rel effect touches with ⟨_, same⟩ | ⟨rfl, ⟨_, same⟩ | wrote⟩
  · exact .same (by rw [view_eq, view_eq, same])
  · exact .same (by rw [view_eq, view_eq, same])
  · obtain ⟨begun, started, written⟩ := wrote
    have view := RelConn.beginIfNeeded_view started
    rcases written with written | ⟨panicked, lossy, lost⟩
    · refine .wrote ?_ ⟨ticks, first, whole⟩
      rw [view_eq, view_eq, written, RelConn.execute_view, view]
    · rcases RelConn.stale_or_open (RelConn.beginIfNeeded_inTxn started) with stale | ⟨txn, opened⟩
      · refine .wrote ?_ ⟨ticks, first, whole⟩
        rw [view_eq, view_eq, lost, RelConn.abandon_view, (stale.execute ran).2, ← view,
          RelConn.view, Db.view, stale.2]
      · refine .returned panicked ?_
        rw [view_eq, lost, RelConn.abandon_view, RelConn.execute_open opened]
        simp [returns, lossy, RelConn.beginIfNeeded_file started]

theorem read (target : RelId) (fails : Faults) :
    Views session (session.runRead target fails) rel (.read target fails) := by
  rcases runRead_conn session target fails rel with same | ⟨rfl, panicked, lossy, lost⟩
  · exact .same (by rw [view_eq, view_eq, same])
  · refine .returned panicked ?_
    rw [view_eq, lost, RelConn.abandon_view]
    simp [returns, lossy]

theorem startSub {order : List RelId} (distinct : order.Nodup) (fails : Faults) :
    Views session (session.runStartSub order fails) rel (.startSub order fails) := by
  rcases runStartSub_rel session distinct fails rel with
    ⟨same, _⟩ | ⟨member, begun, _, started, effect⟩
  · exact .same (by rw [view_eq, view_eq, conn_congr same])
  · have conn := conn_of_opened effect
    rcases RelConn.warnExec_cases (fails rel) .savepoint
        (fun db => some (db.savepoint session.nextSub)) begun with ⟨failing, lossy, lost⟩ | ran
    · refine .unset ?_
      rw [view_eq, conn, lost, RelConn.abandon_view, RelConn.beginIfNeeded_file started]
      simp [returns, member, failing, lossy]
    · refine .same ?_
      rw [view_eq, view_eq, conn, ran, RelConn.savepoint_view, RelConn.beginIfNeeded_view started]

theorem commitSub (sub : SubFrame) (rest : List SubFrame) (fails : Faults) :
    Views session (session.runCommitSub sub rest fails) rel (.commitSub fails) := by
  rcases runCommitSub_rel session sub rest fails rel with ⟨same, _⟩ | ⟨touched, _, _, effect⟩
  · exact .same (by rw [view_eq, view_eq, conn_congr same])
  · have conn := conn_of_opened effect
    rcases RelConn.warnExec_cases (fails rel) .release (Db.release sub.id) (session.conn rel) with
      ⟨failing, lossy, lost⟩ | ran
    · refine .unreleased ?_
      rw [view_eq, conn, lost, RelConn.abandon_view]
      simp [returns, touched, failing, lossy]
    · exact .same (by rw [view_eq, view_eq, conn, ran, RelConn.release_view])

theorem abortSub {sub : SubFrame} {rest : List SubFrame} (subs : session.subs = sub :: rest)
    (fails : Faults) : Views session (session.runAbortSub sub rest fails) rel (.abortSub fails) := by
  rcases runAbortSub_rel session sub rest fails rel with ⟨same, _⟩ | ⟨touched, _, held, effect⟩
  · exact .same (by rw [view_eq, view_eq, conn_congr same])
  · have conn := conn_of_opened effect
    rcases RelConn.warnExec_cases (fails rel) .rollbackTo (Db.rollbackTo sub.id)
        (session.conn rel) with ⟨_, lossy, lost⟩ | ran
    · refine .undone ?_
      rw [view_eq, conn, lost, RelConn.abandon_view]
      simp [returns, touched, held, lossy]
    · rw [ran] at conn
      cases opened : (session.conn rel).db.txn with
      | none =>
          rw [RelConn.tryExec_closed _ (by simp [Db.rollbackTo, opened])] at conn
          exact .same (by rw [view_eq, view_eq, conn])
      | some txn =>
          rcases RelConn.rollbackTo_cases (fails rel .rollbackTo) opened with
            same | ⟨save, below, found, same⟩
          · exact .same (by rw [view_eq, view_eq, conn, same])
          · refine .undone ?_
            rw [view_eq, conn, same, RelConn.view, Db.view]
            simp [returns, touched, held, subs, opened, found]

theorem preCommit {order : List RelId} (distinct : order.Nodup) (fails : Faults) :
    Views session (session.runPreCommit order fails) rel (.preCommit order fails) := by
  rcases runPreCommit_rel session distinct fails rel with
    ⟨same, _⟩ | ⟨member, _, panicked, _, _, effect⟩ | ⟨_, _, committed, _, done, effect⟩
  · exact .same (by rw [view_eq, view_eq, conn_congr same])
  · have conn := conn_of_opened effect
    rcases RelConn.afterError_cases (fails rel) (session.conn rel) with same | ⟨lossy, lost⟩
    · exact .same (by rw [view_eq, view_eq, conn, same])
    · refine .returned panicked ?_
      rw [view_eq, conn, lost, RelConn.abandon_view]
      simp [returns, member, lossy]
  · exact .same (by rw [view_eq, view_eq, conn_of_opened effect, RelConn.commit_view done])

theorem commit : Views session session.runCommit rel .commit := by
  by_cases dropped : rel ∈ session.backend.drops
  · refine .unlinked dropped ?_
    rw [view, runCommit_rel, if_pos dropped]
    rfl
  · refine .same ?_
    rw [view, view, runCommit_rel, if_neg dropped]

theorem abort (fails : Faults) : Views session (session.runAbort fails) rel (.abort fails) := by
  rcases runAbort_rel session fails rel with ⟨same, _⟩ | ⟨touched, _, held, effect⟩
  · exact .same (by rw [view_eq, view_eq, conn_congr same])
  · have conn := conn_of_opened effect
    rcases RelConn.rollback_cases (fails rel) (session.conn rel) with ⟨_, same⟩ | same | same
    · exact .same (by rw [view_eq, view_eq, conn, same])
    · exact .same (by rw [view_eq, view_eq, conn, same]; rfl)
    · refine .aborted ?_
      rw [view_eq, conn, same, RelConn.view, Db.view]
      simp [returns, touched, held]

end Views

theorem view_of_step {session next : Session} {event : Event}
    (stepped : session.step event = some next) (rel : RelId) : Views session next rel event := by
  cases steps_of_step stepped with
  | begin | drop => exact .same rfl
  | call => exact .call session rel _ _ _
  | read => exact .read session rel _ _
  | startSub _ _ distinct => exact .startSub session rel distinct _
  | commitSub => exact .commitSub session rel _ _ _
  | abortSub subs => exact .abortSub session rel subs _
  | preCommit _ _ _ distinct => exact .preCommit session rel distinct _
  | commit => exact .commit session rel
  | abort => exact .abort session rel _

end Session

end SqliteHeap
