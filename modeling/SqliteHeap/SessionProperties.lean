import SqliteHeap.SessionRun

/-! What each function of the session can do to one relation. Every invariant of
a session is derived from these facts, without unfolding the functions again. -/

set_option autoImplicit false

namespace SqliteHeap

open SavepointStack

/-! ## Connections -/

@[simp] theorem RelState.conn_opened (conn : RelConn) : (RelState.opened conn).conn = conn := rfl

@[simp] theorem RelState.view_opened (conn : RelConn) : (RelState.opened conn).view = conn.view := rfl

theorem RelState.view_conn (state : RelState) : state.conn.view = state.view := by
  cases state <;> rfl

theorem RelState.file_conn (state : RelState) :
    state.conn.db.file = state.file.getD Contents.fresh := by
  cases state <;> rfl

namespace RelConn

theorem beginIfNeeded_cases {fails : Sql → Bool} {conn begun : RelConn}
    (started : conn.beginIfNeeded fails = some begun) :
    (conn.inTxn = true ∧ begun = conn) ∨
      (conn.inTxn = false ∧ fails .begin = false ∧ conn.db.txn = none ∧
        begun = ⟨⟨conn.db.file, some ⟨conn.db.file, [], true⟩⟩, true⟩) := by
  unfold beginIfNeeded at started
  split at started
  · next open? => exact .inl ⟨open?, (Option.some.inj started).symm⟩
  · next closed =>
      split at started
      · cases started
      · next succeeded =>
          cases absent : conn.db.txn with
          | some txn => simp [Db.begin, absent] at started
          | none =>
              simp only [Db.begin, absent, Option.map_some, Option.some.injEq] at started
              exact .inr ⟨by simpa using closed, by simpa using succeeded, rfl, started.symm⟩

theorem commit_cases {fails : Sql → Bool} {conn committed : RelConn}
    (done : conn.commit fails = some committed) :
    (conn.inTxn = false ∧ committed = conn) ∨
      ∃ txn, conn.inTxn = true ∧ conn.db.txn = some txn ∧
        committed = ⟨⟨txn.work, none⟩, false⟩ := by
  unfold commit at done
  split at done
  · next closed => exact .inl ⟨by simpa using closed, (Option.some.inj done).symm⟩
  · next opened =>
      split at done
      · cases done
      · cases present : conn.db.txn with
        | none => simp [Db.commit, present] at done
        | some txn =>
            simp only [Db.commit, present, Option.map_some, Option.some.injEq] at done
            exact .inr ⟨txn, by simpa using opened, rfl, done.symm⟩

theorem tryExec_cases (fails : Bool) (exec : SqliteDb → Option SqliteDb) (conn : RelConn) :
    conn.tryExec fails exec = conn ∨
      ∃ db, fails = false ∧ exec conn.db = some db ∧
        conn.tryExec fails exec = { conn with db := db } := by
  unfold tryExec
  split
  · exact .inl rfl
  · next succeeded =>
      cases result : exec conn.db with
      | none => exact .inl rfl
      | some db => exact .inr ⟨db, by simpa using succeeded, rfl, rfl⟩

theorem savepoint_open {conn : RelConn} {txn : Txn SubId Contents} (opened : conn.db.txn = some txn)
    (fails : Bool) (sub : SubId) :
    conn.tryExec fails (fun db => some (db.savepoint sub)) =
      if fails then conn
      else { conn with db := { conn.db with
        txn := some { txn with saves := ⟨sub, txn.work⟩ :: txn.saves } } } := by
  cases fails <;> simp [tryExec, Db.savepoint, opened]

@[simp] theorem execute_nil (conn : RelConn) : conn.execute [] = conn := by
  rcases conn with ⟨⟨file, txn⟩, inTxn⟩
  cases txn <;> simp [execute, Db.write]

theorem execute_open {conn : RelConn} {txn : Txn SubId Contents} (opened : conn.db.txn = some txn)
    (ran : List Entry) :
    conn.execute ran =
      { conn with db := { conn.db with txn := some { txn with work := txn.work.append ran } } } := by
  simp [execute, Db.write, opened]

/-- The connection after SQLite rolled its transaction back. -/
def abandon (conn : RelConn) : RelConn := { conn with db := conn.db.abandon }

@[simp] theorem abandon_inTxn (conn : RelConn) : conn.abandon.inTxn = conn.inTxn := rfl

@[simp] theorem abandon_txn (conn : RelConn) : conn.abandon.db.txn = none := rfl

@[simp] theorem abandon_file (conn : RelConn) : conn.abandon.db.file = conn.db.file := rfl

theorem afterError_cases (fails : Sql → Bool) (conn : RelConn) :
    conn.afterError fails = conn ∨
      fails .rollsBack = true ∧ conn.afterError fails = conn.abandon := by
  unfold afterError
  split
  · next lossy => exact .inr ⟨lossy, rfl⟩
  · exact .inl rfl

/-- `in_txn` is set, but SQLite has rolled the transaction back. -/
def Stale (conn : RelConn) : Prop := conn.inTxn = true ∧ conn.db.txn = none

instance (conn : RelConn) : Decidable conn.Stale := inferInstanceAs (Decidable (_ ∧ _))

theorem stale_or_open {conn : RelConn} (held : conn.inTxn = true) :
    conn.Stale ∨ ∃ txn, conn.db.txn = some txn := by
  cases opened : conn.db.txn with
  | none => exact .inl ⟨held, opened⟩
  | some txn => exact .inr ⟨txn, rfl⟩

theorem Stale.beginIfNeeded {fails : Sql → Bool} {conn begun : RelConn} (stale : conn.Stale)
    (started : conn.beginIfNeeded fails = some begun) : begun = conn := by
  rcases beginIfNeeded_cases started with ⟨_, same⟩ | ⟨bare, _⟩
  · exact same
  · rw [stale.1] at bare
    cases bare

theorem beginIfNeeded_inTxn {fails : Sql → Bool} {conn begun : RelConn}
    (started : conn.beginIfNeeded fails = some begun) : begun.inTxn = true := by
  rcases beginIfNeeded_cases started with ⟨held, rfl⟩ | ⟨_, _, _, rfl⟩
  · exact held
  · rfl

theorem Stale.execute {conn : RelConn} (stale : conn.Stale) (ran : List Entry) :
    (conn.execute ran).Stale ∧ (conn.execute ran).db.file = conn.db.file.append ran := by
  obtain ⟨held, closed⟩ := stale
  simp [Stale, RelConn.execute, Db.write, held, closed]

theorem Stale.commit {conn : RelConn} (stale : conn.Stale) (fails : Sql → Bool) :
    conn.commit fails = none := by
  obtain ⟨held, closed⟩ := stale
  simp [RelConn.commit, Db.commit, held, closed]

/-- `in_txn` says whether a transaction is open, and it was opened by BEGIN. Only a
failed ROLLBACK leaves one that `in_txn` does not tell of. -/
structure Sound (conn : RelConn) : Prop where
  held : conn.inTxn = true → ∃ txn, conn.db.txn = some txn
  begun : ∀ txn, conn.db.txn = some txn → txn.begun = true

theorem Sound.openConn (file : Option Contents) : (RelConn.openConn file).Sound :=
  ⟨by simp [RelConn.openConn], by simp [RelConn.openConn]⟩

theorem Sound.beginIfNeeded {fails : Sql → Bool} {conn begun : RelConn} (sound : conn.Sound)
    (started : conn.beginIfNeeded fails = some begun) :
    begun.Sound ∧ begun.inTxn = true ∧ ∃ txn, begun.db.txn = some txn := by
  rcases beginIfNeeded_cases started with ⟨held, rfl⟩ | ⟨_, _, _, rfl⟩
  · exact ⟨sound, held, sound.held held⟩
  · exact ⟨⟨by simp, by simp⟩, rfl, _, rfl⟩

theorem Sound.execute {conn : RelConn} (sound : conn.Sound) (ran : List Entry) :
    (conn.execute ran).Sound := by
  rcases conn with ⟨⟨file, txn⟩, inTxn⟩
  cases txn with
  | none => exact ⟨sound.held, by simp [RelConn.execute, Db.write]⟩
  | some txn =>
      exact ⟨by simp [RelConn.execute, Db.write],
        by simpa [RelConn.execute, Db.write] using sound.begun⟩

theorem Sound.commit {fails : Sql → Bool} {conn committed : RelConn} (sound : conn.Sound)
    (done : conn.commit fails = some committed) : committed.Sound := by
  rcases commit_cases done with ⟨_, rfl⟩ | ⟨txn, _, _, rfl⟩
  · exact sound
  · exact ⟨by simp, by simp⟩

theorem Sound.savepoint {conn : RelConn} (sound : conn.Sound) (held : conn.inTxn = true)
    (fails : Bool) (sub : SubId) :
    (conn.tryExec fails fun db => some (db.savepoint sub)).Sound := by
  obtain ⟨txn, opened⟩ := sound.held held
  rcases tryExec_cases fails (fun db => some (db.savepoint sub)) conn with same | ⟨db, _, ran, same⟩
  · rw [same]; exact sound
  · rw [same]
    cases ran
    exact ⟨by simp [Db.savepoint, opened],
      by simpa [Db.savepoint, opened] using sound.begun txn opened⟩

section Savepoints

variable {conn : RelConn} {txn : Txn SubId Contents} {sub : SubId}

/-- RELEASE shortens the stack, or commits a transaction that its SAVEPOINT opened. -/
theorem release_any (fails : Bool) (opened : conn.db.txn = some txn) :
    conn.tryExec fails (Db.release sub) = conn ∨
      (txn.begun = false ∧
        conn.tryExec fails (Db.release sub) = { conn with db := ⟨txn.work, none⟩ }) ∨
      ∃ save below, Db.upTo sub txn.saves = save :: below ∧
        conn.tryExec fails (Db.release sub) =
          { conn with db := { conn.db with txn := some { txn with saves := below } } } := by
  refine (tryExec_cases fails (Db.release sub) conn).imp_right fun ⟨db, _, ran, same⟩ => ?_
  simp only [Db.release, opened] at ran
  cases stack : Db.upTo sub txn.saves with
  | nil => simp [stack] at ran
  | cons save below =>
      rw [stack] at ran
      dsimp only at ran
      split at ran
      · next outermost => exact .inl ⟨outermost.2, by rw [same, ← Option.some.inj ran]⟩
      · exact .inr ⟨save, below, rfl, by rw [same, ← Option.some.inj ran]⟩

/-- RELEASE in a transaction that BEGIN opened only shortens the stack. -/
theorem release_cases (fails : Bool) (opened : conn.db.txn = some txn) (begun : txn.begun = true) :
    conn.tryExec fails (Db.release sub) = conn ∨
      ∃ save below, Db.upTo sub txn.saves = save :: below ∧
        conn.tryExec fails (Db.release sub) =
          { conn with db := { conn.db with txn := some { txn with saves := below } } } := by
  rcases release_any fails opened with same | ⟨outermost, _⟩ | shortened
  · exact .inl same
  · rw [begun] at outermost
    cases outermost
  · exact .inr shortened

theorem rollbackTo_cases (fails : Bool) (opened : conn.db.txn = some txn) :
    conn.tryExec fails (Db.rollbackTo sub) = conn ∨
      ∃ save below, Db.upTo sub txn.saves = save :: below ∧
        conn.tryExec fails (Db.rollbackTo sub) =
          { conn with db := { conn.db with
            txn := some { txn with work := save.contents, saves := save :: below } } } := by
  refine (tryExec_cases fails (Db.rollbackTo sub) conn).imp_right fun ⟨db, _, ran, same⟩ => ?_
  simp only [Db.rollbackTo, opened] at ran
  cases stack : Db.upTo sub txn.saves with
  | nil => simp [stack] at ran
  | cons save below =>
      simp only [stack, Option.some.injEq] at ran
      exact ⟨save, below, rfl, by rw [same, ← ran]⟩

/-- Outside a transaction neither RELEASE nor ROLLBACK TO finds its savepoint. -/
theorem tryExec_closed {exec : SqliteDb → Option SqliteDb} (fails : Bool)
    (refused : exec conn.db = none) : conn.tryExec fails exec = conn := by
  rcases tryExec_cases fails exec conn with same | ⟨db, _, ran, _⟩
  · exact same
  · rw [refused] at ran
    cases ran

end Savepoints

/-- A statement that warns succeeds, or changes nothing, or loses the transaction. -/
theorem warnExec_cases (fails : Sql → Bool) (statement : Sql) (exec : SqliteDb → Option SqliteDb)
    (conn : RelConn) :
    (fails statement = true ∧ fails .rollsBack = true ∧
        conn.warnExec fails statement exec = conn.abandon) ∨
      conn.warnExec fails statement exec = conn.tryExec (fails statement) exec := by
  unfold warnExec
  cases failing : fails statement with
  | false => exact .inr rfl
  | true =>
      rcases afterError_cases fails conn with same | lost
      · exact .inr (by simp [same, tryExec])
      · exact .inl ⟨rfl, by simpa using lost⟩

theorem warnExec_stale_or (fails : Sql → Bool) (statement : Sql)
    (exec : SqliteDb → Option SqliteDb) {conn : RelConn} (held : conn.inTxn = true) :
    (conn.warnExec fails statement exec).Stale ∨
      conn.warnExec fails statement exec = conn.tryExec (fails statement) exec := by
  refine (warnExec_cases fails statement exec conn).imp_left ?_
  rintro ⟨_, _, lost⟩
  rw [lost]
  exact ⟨held, rfl⟩

/-- Without a transaction there is nothing to lose. -/
theorem Stale.warnExec {fails : Sql → Bool} {statement : Sql} {exec : SqliteDb → Option SqliteDb}
    {conn : RelConn} (stale : conn.Stale) (refused : fails statement = false → exec conn.db = none) :
    conn.warnExec fails statement exec = conn := by
  rcases warnExec_cases fails statement exec conn with ⟨_, _, lost⟩ | ran
  · rcases conn with ⟨⟨file, txn⟩, inTxn⟩
    cases stale.2
    exact lost
  · rw [ran]
    rcases tryExec_cases (fails statement) exec conn with same | ⟨db, succeeds, found, _⟩
    · exact same
    · rw [refused succeeds] at found
      cases found

theorem warnExec_lossless {fails : Sql → Bool} {statement : Sql}
    {exec : SqliteDb → Option SqliteDb} (conn : RelConn)
    (lossless : fails statement = true → fails .rollsBack = false) :
    conn.warnExec fails statement exec = conn.tryExec (fails statement) exec := by
  refine (warnExec_cases fails statement exec conn).resolve_left ?_
  rintro ⟨failing, lossy, _⟩
  rw [lossless failing] at lossy
  cases lossy

theorem tryExec_inTxn (fails : Bool) (exec : SqliteDb → Option SqliteDb) (conn : RelConn) :
    (conn.tryExec fails exec).inTxn = conn.inTxn := by
  unfold tryExec
  split <;> rfl

theorem warnExec_inTxn (fails : Sql → Bool) (statement : Sql) (exec : SqliteDb → Option SqliteDb)
    (conn : RelConn) : (conn.warnExec fails statement exec).inTxn = conn.inTxn := by
  rcases warnExec_cases fails statement exec conn with ⟨_, _, same⟩ | same
  · rw [same, abandon_inTxn]
  · rw [same, tryExec_inTxn]

theorem afterError_file (fails : Sql → Bool) (conn : RelConn) :
    (conn.afterError fails).db.file = conn.db.file := by
  rcases afterError_cases fails conn with same | ⟨_, same⟩
  · rw [same]
  · rw [same, abandon_file]

theorem warnExec_file {fails : Sql → Bool} {statement : Sql} {exec : SqliteDb → Option SqliteDb}
    {conn : RelConn} (kept : (conn.tryExec (fails statement) exec).db.file = conn.db.file) :
    (conn.warnExec fails statement exec).db.file = conn.db.file := by
  rcases warnExec_cases fails statement exec conn with ⟨_, _, same⟩ | same
  · rw [same, abandon_file]
  · rw [same, kept]

theorem rollbackTo_file (fails : Bool) (sub : SubId) (conn : RelConn) :
    (conn.tryExec fails (Db.rollbackTo sub)).db.file = conn.db.file := by
  cases opened : conn.db.txn with
  | none => rw [tryExec_closed _ (by simp [Db.rollbackTo, opened])]
  | some txn =>
      rcases rollbackTo_cases fails opened with kept | ⟨_, _, _, kept⟩ <;> rw [kept]

theorem rollback_cases (fails : Sql → Bool) (conn : RelConn) :
    conn.inTxn = false ∧ conn.rollback fails = conn ∨
      conn.rollback fails = ⟨conn.db, false⟩ ∨
        conn.rollback fails = ⟨{ conn.db with txn := none }, false⟩ := by
  unfold rollback
  split
  · next outside => exact .inl ⟨by simpa using outside, rfl⟩
  · refine .inr ?_
    rcases tryExec_cases (fails .rollback) Db.rollback conn with same | ⟨db, _, ran, same⟩
    · exact .inl (by rw [same])
    · cases opened : conn.db.txn with
      | none => simp [Db.rollback, opened] at ran
      | some txn =>
          simp only [Db.rollback, opened, Option.some.injEq] at ran
          exact .inr (by rw [same, ← ran])

theorem Sound.release {conn : RelConn} (sound : conn.Sound) (held : conn.inTxn = true)
    (fails : Bool) (sub : SubId) : (conn.tryExec fails (Db.release sub)).Sound := by
  obtain ⟨txn, opened⟩ := sound.held held
  rcases release_cases fails opened (sound.begun txn opened) with same | ⟨save, below, _, same⟩
  · rw [same]; exact sound
  · rw [same]
    exact ⟨by simp, by simpa using sound.begun txn opened⟩

theorem Sound.rollbackTo {conn : RelConn} (sound : conn.Sound) (held : conn.inTxn = true)
    (fails : Bool) (sub : SubId) : (conn.tryExec fails (Db.rollbackTo sub)).Sound := by
  obtain ⟨txn, opened⟩ := sound.held held
  rcases rollbackTo_cases fails opened with same | ⟨save, below, _, same⟩
  · rw [same]; exact sound
  · rw [same]
    exact ⟨by simp, by simpa using sound.begun txn opened⟩

theorem Sound.rollback {conn : RelConn} (sound : conn.Sound) (fails : Sql → Bool) :
    (conn.rollback fails).Sound := by
  rcases rollback_cases fails conn with ⟨_, same⟩ | same | same
  · rw [same]; exact sound
  · rw [same]
    exact ⟨by simp, sound.begun⟩
  · rw [same]
    exact ⟨by simp, by simp⟩

theorem rollback_file (fails : Sql → Bool) (conn : RelConn) :
    (conn.rollback fails).db.file = conn.db.file := by
  rcases rollback_cases fails conn with ⟨_, same⟩ | same | same <;> rw [same]

end RelConn

/-! ## The backend's maps -/

namespace Backend

@[simp] theorem setRel_same (rel : RelId) (state : RelState) (backend : Backend) :
    (backend.setRel rel state).rels rel = state := by simp [setRel]

theorem setRel_other {rel other : RelId} (different : other ≠ rel) (state : RelState)
    (backend : Backend) : (backend.setRel rel state).rels other = backend.rels other := by
  simp [setRel, different]

@[simp] theorem setRel_txRels (rel : RelId) (state : RelState) (backend : Backend) :
    (backend.setRel rel state).txRels = backend.txRels := rfl

@[simp] theorem setRel_registered (rel : RelId) (state : RelState) (backend : Backend) :
    (backend.setRel rel state).registered = backend.registered := rfl

@[simp] theorem setRel_drops (rel : RelId) (state : RelState) (backend : Backend) :
    (backend.setRel rel state).drops = backend.drops := rfl

/-- The bookkeeping of an `ensure_in_xact` that returned. -/
def entered (rel : RelId) (backend : Backend) : Backend :=
  { backend with
    txRels := insert rel backend.txRels
    registered := backend.registered || decide (backend.txRels = ∅) }

/-- The open of a relation's connection is the one that would go unnoticed: it is
the first of the transaction, and it fails before the callbacks are registered. -/
def FirstOpenFails (fails : Faults) (rel : RelId) (backend : Backend) : Prop :=
  backend.txRels = ∅ ∧ (backend.rels rel).cached = false ∧ fails rel .openConn = true

instance (fails : Faults) (rel : RelId) (backend : Backend) :
    Decidable (FirstOpenFails fails rel backend) :=
  inferInstanceAs (Decidable (_ ∧ _ ∧ _))

/-- An operation on one relation leaves every other relation alone. -/
structure Touches (fails : Faults) (rel : RelId) (backend after : Backend) : Prop where
  txRels : after.txRels = insert rel backend.txRels
  drops : after.drops = backend.drops
  registered : ¬ FirstOpenFails fails rel backend →
    after.registered = (backend.registered || decide (backend.txRels = ∅))
  others : ∀ other, other ≠ rel → after.rels other = backend.rels other

theorem Touches.entered (fails : Faults) (rel : RelId) (backend : Backend) :
    Touches fails rel backend (backend.entered rel) :=
  ⟨rfl, rfl, fun _ => rfl, fun _ _ => rfl⟩

theorem Touches.setRel {fails : Faults} {rel : RelId} {backend after : Backend}
    (touches : Touches fails rel backend after) (state : RelState) :
    Touches fails rel backend (after.setRel rel state) :=
  ⟨touches.txRels, touches.drops, touches.registered,
    fun other different => by rw [setRel_other different, touches.others other different]⟩

/-- A relation that entered `TX_RELS` without a connection stays without one. -/
def Stuck (rel : RelId) (backend : Backend) : Prop :=
  rel ∈ backend.txRels ∧ (backend.rels rel).cached = false

theorem withConn_cases (fails : Faults) (rel : RelId) (use : RelConn → RelConn × Option Panic)
    (backend : Backend) :
    (∃ reason after, withConn fails rel use backend = .panicked reason after ∧
        reached fails rel backend = none ∧ Touches fails rel backend after ∧
        after.rels rel = backend.rels rel) ∨
      (reached fails rel backend = some (backend.rels rel).conn ∧ ¬ Stuck rel backend ∧
        (withConn fails rel use backend).backend =
          (backend.entered rel).setRel rel (.opened (use (backend.rels rel).conn).1) ∧
        (withConn fails rel use backend).completed = (use (backend.rels rel).conn).2.isNone) := by
  cases found : backend.rels rel with
  | closed file =>
      by_cases known : rel ∈ backend.txRels
      · have touched : backend.txRels ≠ ∅ := Finset.ne_empty_of_mem known
        refine .inl ⟨.notCached, backend.entered rel, ?_, ?_, Touches.entered fails rel backend, found⟩
        · simp [withConn, ensureInXact, found, known, touched, entered]
        · simp [reached, ensureInXact, found, known, touched]
      · cases failing : fails rel .openConn with
        | true =>
            refine .inl ⟨.failed .openConn, { backend with txRels := insert rel backend.txRels },
              ?_, ?_, ⟨rfl, rfl, fun opens => ?_, fun _ _ => rfl⟩, found⟩
            · simp [withConn, ensureInXact, found, known, failing]
            · simp [reached, ensureInXact, found, known, failing]
            · have touched : backend.txRels ≠ ∅ :=
                fun first => opens ⟨first, by rw [found]; rfl, failing⟩
              simp [touched]
        | false =>
            refine .inr ⟨?_, fun stuck => known stuck.1, ?_⟩
            · by_cases first : backend.txRels = ∅ <;>
                simp [reached, ensureInXact, found, known, failing, first, RelState.conn]
            · by_cases first : backend.txRels = ∅ <;>
                rcases changed : use (RelConn.openConn file) with ⟨conn, _ | reason⟩ <;>
                simp [withConn, ensureInXact, found, known, failing, first, changed, entered,
                  RelState.conn, setRel, Outcome.backend, Outcome.completed]
  | opened conn =>
      refine .inr ⟨?_, ?_, ?_⟩
      · by_cases first : backend.txRels = ∅ <;> simp [reached, ensureInXact, found, first]
      · rintro ⟨_, closed⟩
        rw [found] at closed
        cases closed
      · by_cases first : backend.txRels = ∅ <;>
          rcases changed : use conn with ⟨after, _ | reason⟩ <;>
          simp [withConn, ensureInXact, found, first, changed, entered, setRel, Outcome.backend,
            Outcome.completed]

/-! ## Loops over `TX_RELS` -/

/-- A loop keeps the bookkeeping, changes a relation by its body only, and either
gets through every relation or stops at one whose body panics. -/
theorem forConns_spec (body : RelId → RelConn → Option RelConn) (left : RelId → RelConn → RelConn)
    (reason : Panic) (order : List RelId) (distinct : order.Nodup) (backend : Backend) :
    let result := forConns body left reason order backend
    (result.2.backend.txRels = backend.txRels ∧
        result.2.backend.registered = backend.registered ∧
        result.2.backend.drops = backend.drops) ∧
      (∀ rel, result.2.backend.rels rel = backend.rels rel ∧ rel ∉ result.1 ∨
        (rel ∈ order ∧ rel ∉ result.1 ∧ result.2.completed = false ∧ ∃ conn,
          backend.rels rel = .opened conn ∧ body rel conn = none ∧
            result.2.backend.rels rel = .opened (left rel conn)) ∨
        rel ∈ order ∧ rel ∈ result.1 ∧ ∃ conn changed, backend.rels rel = .opened conn ∧
          body rel conn = some changed ∧ result.2.backend.rels rel = .opened changed) ∧
      (result.2.completed = true →
        ∀ rel ∈ order, ∀ conn, backend.rels rel = .opened conn → rel ∈ result.1) ∧
      (result.2.completed = false →
        ∃ rel ∈ order, ∃ conn, backend.rels rel = .opened conn ∧ body rel conn = none) := by
  induction order generalizing backend with
  | nil => simp [forConns, Outcome.backend, Outcome.completed]
  | cons first rest ih =>
      obtain ⟨fresh, distinctRest⟩ := List.nodup_cons.mp distinct
      cases found : backend.rels first with
      | closed file =>
          obtain ⟨kept, changes, through, stopped⟩ := ih distinctRest backend
          simp only [forConns, found]
          refine ⟨kept, fun rel => ?_, fun completed rel member conn opened => ?_, fun panicked => ?_⟩
          · rcases changes rel with same | ⟨member, rest⟩ | ⟨member, rest⟩
            · exact .inl same
            · exact .inr (.inl ⟨List.mem_cons_of_mem _ member, rest⟩)
            · exact .inr (.inr ⟨List.mem_cons_of_mem _ member, rest⟩)
          · rcases List.mem_cons.mp member with rfl | later
            · rw [found] at opened
              cases opened
            · exact through completed rel later conn opened
          · obtain ⟨rel, member, rest⟩ := stopped panicked
            exact ⟨rel, List.mem_cons_of_mem _ member, rest⟩
      | opened conn =>
          cases applied : body first conn with
          | none =>
              simp only [forConns, found, applied, Outcome.backend, Outcome.completed]
              refine ⟨⟨rfl, rfl, rfl⟩, fun rel => ?_, nofun,
                fun _ => ⟨first, List.mem_cons_self, conn, found, applied⟩⟩
              by_cases same : rel = first
              · subst same
                exact .inr (.inl ⟨List.mem_cons_self, List.not_mem_nil, trivial, conn, found, applied,
                  setRel_same _ _ _⟩)
              · exact .inl ⟨setRel_other same _ _, List.not_mem_nil⟩
          | some changed =>
              obtain ⟨kept, changes, through, stopped⟩ :=
                ih distinctRest (backend.setRel first (.opened changed))
              simp only [forConns, found, applied]
              have others : ∀ rel ∈ rest,
                  (backend.setRel first (.opened changed)).rels rel = backend.rels rel := by
                intro rel member
                exact setRel_other (fun same => fresh (by rwa [← same])) _ _
              refine ⟨kept, fun rel => ?_, fun completed rel member other opened => ?_,
                fun panicked => ?_⟩
              · by_cases same : rel = first
                · subst same
                  rcases changes rel with ⟨unchanged, _⟩ | ⟨member, _⟩ | ⟨member, _⟩
                  · rw [setRel_same] at unchanged
                    exact .inr (.inr ⟨by simp, by simp, conn, changed, found, applied, unchanged⟩)
                  · exact absurd member fresh
                  · exact absurd member fresh
                · rcases changes rel with ⟨unchanged, missing⟩ |
                    ⟨member, missing, panicked, old, opened, none, effect⟩ |
                    ⟨member, visited, old, new, effect⟩
                  · rw [setRel_other same] at unchanged
                    exact .inl ⟨unchanged, by simp [same, missing]⟩
                  · rw [others rel member] at opened
                    exact .inr (.inl ⟨by simp [member], by simp [same, missing], panicked, old, opened,
                      none, effect⟩)
                  · rw [others rel member] at effect
                    exact .inr (.inr ⟨by simp [member], by simp [visited], old, new, effect⟩)
              · rcases List.mem_cons.mp member with rfl | later
                · simp
                · rw [← others rel later] at opened
                  exact List.mem_cons_of_mem _ (through completed rel later other opened)
              · obtain ⟨rel, member, other, opened, none⟩ := stopped panicked
                rw [others rel member] at opened
                exact ⟨rel, by simp [member], other, opened, none⟩

theorem foldl_unlinkStorage_rels (drops : List RelId) (backend : Backend) (rel : RelId) :
    (drops.foldl unlinkStorage backend).rels rel =
      if rel ∈ drops then .closed none else backend.rels rel := by
  induction drops generalizing backend with
  | nil => simp
  | cons first rest ih =>
      rw [List.foldl_cons, ih]
      by_cases same : rel = first
      · subst same
        simp [unlinkStorage]
      · simp [unlinkStorage, setRel_other same, same]

theorem foldl_unlinkStorage_txRels (drops : List RelId) (backend : Backend) :
    (drops.foldl unlinkStorage backend).txRels ⊆ backend.txRels := by
  induction drops generalizing backend with
  | nil => exact fun _ member => member
  | cons first rest ih =>
      intro rel member
      exact Finset.mem_of_mem_erase (ih (backend.unlinkStorage first) member)

end Backend

end SqliteHeap
