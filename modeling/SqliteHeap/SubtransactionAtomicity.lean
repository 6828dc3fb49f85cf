import SqliteHeap.SessionInvariant

/-! Subtransactions. A SQLite savepoint stack per connection follows the open
subtransactions of Postgres, except that a relation gets no savepoint for the
subtransactions that were open when the transaction first touched it, and that
SQLite's own rollback under a subtransaction takes the outer work with it. -/

set_option autoImplicit false

namespace SqliteHeap.Session

open SavepointStack

/-- The statements of a ledger on one relation, in order. -/
def statementsOn (rel : RelId) (ledger : List Executed) : List Entry :=
  ledger.filterMap fun executed => if executed.1 = rel then some executed.2 else none

section statementsOn

variable {rel other : RelId} {ledger : List Executed}

theorem statementsOn_append (rel : RelId) (first second : List Executed) :
    statementsOn rel (first ++ second) = statementsOn rel first ++ statementsOn rel second := by
  simp [statementsOn]

theorem statementsOn_map_self (rel : RelId) (ran : List Entry) :
    statementsOn rel (ran.map (Prod.mk rel)) = ran := by
  simp [statementsOn, List.filterMap_map]

theorem statementsOn_map_other (different : other ≠ rel) (ran : List Entry) :
    statementsOn other (ran.map (Prod.mk rel)) = [] := by
  simp [statementsOn, different.symm]

theorem statementsOn_of_le {older : List Executed} (before : older <+: ledger)
    (none : statementsOn rel ledger = []) : statementsOn rel older = [] := by
  obtain ⟨later, rfl⟩ := before
  rw [statementsOn_append, List.append_eq_nil_iff] at none
  exact none.1

end statementsOn

def innermost (session : Session) : List Executed :=
  session.ledger.current.drop session.ledger.abort.current.length

/-- Every relation that a subtransaction wrote was touched before it started, and
its ROLLBACK TO succeeds. -/
def UndoesWrites (session : Session) (fails : Faults) : Prop :=
  ∀ sub ∈ session.subs.head?, ∀ executed ∈ session.innermost,
    executed.1 ∈ sub.touched ∧ fails executed.1 .rollbackTo = false

/-- Every touched connection gets its savepoint. -/
def SetsSavepoints (session : Session) (fails : Faults) : Prop :=
  ∀ rel ∈ session.backend.txRels, (session.backend.rels rel).cached = true →
    (session.conn rel).beginIfNeeded (fails rel) ≠ none ∧ fails rel .savepoint = false

/-- Steps inside a transaction that keep both stacks together: inside a
subtransaction no error is one that SQLite answers with a rollback. The ends of the
transaction are not among them. -/
def KeepsSavepoints (session : Session) : Event → Prop
  | .begin => session.phase = .idle
  | .call rel _ fails =>
      ¬ Backend.FirstOpenFails fails rel session.backend ∧
        (session.subs ≠ [] → fails rel .rollsBack = false)
  | .read rel fails =>
      ¬ Backend.FirstOpenFails fails rel session.backend ∧
        (session.subs ≠ [] → fails rel .rollsBack = false)
  | .drop _ => True
  | .startSub _ fails => session.SetsSavepoints fails
  | .commitSub fails => session.Lossless (.commitSub fails)
  | .abortSub fails => session.UndoesWrites fails ∧ session.Lossless (.abortSub fails)
  | .preCommit _ _ => False
  | .commit => False
  | .abort _ => False

instance (session : Session) (fails : Faults) : Decidable (session.SetsSavepoints fails) :=
  inferInstanceAs (Decidable (∀ rel ∈ session.backend.txRels, _ → _))

instance (session : Session) (fails : Faults) : Decidable (session.UndoesWrites fails) :=
  inferInstanceAs (Decidable (∀ sub ∈ session.subs.head?, ∀ executed ∈ session.innermost, _ ∧ _))

instance (session : Session) : ∀ event, Decidable (session.KeepsSavepoints event)
  | .begin => inferInstanceAs (Decidable (_ = _))
  | .call rel _ fails | .read rel fails =>
      inferInstanceAs (Decidable (¬ Backend.FirstOpenFails fails rel _ ∧ (_ → _)))
  | .startSub _ fails => inferInstanceAs (Decidable (session.SetsSavepoints fails))
  | .commitSub fails => inferInstanceAs (Decidable (session.Lossless (.commitSub fails)))
  | .abortSub fails =>
      inferInstanceAs (Decidable (session.UndoesWrites fails ∧ session.Lossless (.abortSub fails)))
  | .drop _ => isTrue trivial
  | .preCommit _ _ | .commit | .abort _ => isFalse id

theorem lossless_of_setsSavepoints {session : Session} {order : List RelId} {fails : Faults}
    (sets : session.SetsSavepoints fails) : session.Lossless (.startSub order fails) := by
  intro rel touched cached failing
  rw [(sets rel touched cached).2] at failing
  cases failing

/-- Between two transactions: nothing is touched and no connection is busy. -/
structure AtRest (session : Session) : Prop where
  formed : session.WellFormed
  idle : session.phase = .idle
  quiet : session.Quiet
  untouched : session.backend.txRels = ∅

theorem AtRest.start (files : RelId → Option Table) : (Session.start files).AtRest :=
  ⟨WellFormed.start files, rfl, fun _ => ⟨rfl, rfl⟩, rfl⟩

/-- The contents are those at the start of the transaction and the ledger. -/
def Kept (base : RelId → Contents) (rel : RelId) (ledger : List Executed) (contents : Contents) :
    Prop :=
  contents = (base rel).append (statementsOn rel ledger)

/-- The subtransaction was open when the relation was first touched. -/
def Late (session : Session) (rel : RelId) (sub : SubId) : Prop :=
  ∀ frame ∈ session.subs, frame.id = sub → rel ∉ frame.touched

/-- Both stacks of one relation together, over its file as the transaction found it. -/
structure Follows (base : RelId → Contents) (session : Session) (rel : RelId) : Prop where
  file : (session.conn rel).db.file = base rel
  view : Kept base rel session.ledger.current (session.conn rel).view
  touched : (session.conn rel).inTxn = true → rel ∈ session.backend.txRels
  closed : (session.conn rel).inTxn = false →
    (session.conn rel).db.txn = none ∧ statementsOn rel session.ledger.current = [] ∧
      (Backend.Stuck rel session.backend ∨ ∀ frame ∈ session.subs, rel ∉ frame.touched)
  guarded : ∀ txn, (session.conn rel).db.txn = some txn →
    Guards (Kept base rel) (fun _ => False) (session.Late rel)
      (session.subs.map SubFrame.id) session.ledger.saved txn.saves

namespace Follows

variable {base : RelId → Contents} {session next : Session} {rel : RelId}

theorem congr (follows : session.Follows base rel) (conn : next.conn rel = session.conn rel)
    (subs : next.subs = session.subs) (saved : next.ledger.saved = session.ledger.saved)
    (current : statementsOn rel next.ledger.current = statementsOn rel session.ledger.current)
    (fewer : session.backend.txRels ⊆ next.backend.txRels)
    (stuck : Backend.Stuck rel session.backend →
      Backend.Stuck rel next.backend ∨ ∀ frame ∈ session.subs, rel ∉ frame.touched) :
    next.Follows base rel where
  file := by rw [conn, follows.file]
  view := by
    rw [Kept, conn, current]
    exact follows.view
  touched held := by
    rw [conn] at held
    exact fewer (follows.touched held)
  closed bare := by
    rw [conn] at bare
    obtain ⟨none, unwritten, late⟩ := follows.closed bare
    rw [conn, current, subs]
    exact ⟨none, unwritten, late.elim stuck .inr⟩
  guarded txn opened := by
    have late : next.Late rel = session.Late rel := by
      funext sub
      rw [Late, Late, subs]
    rw [conn] at opened
    rw [late, subs, saved]
    exact follows.guarded txn opened

theorem of_open {txn : Txn SubId Contents} (file : (next.conn rel).db.file = base rel)
    (held : (next.conn rel).inTxn = true) (opened : (next.conn rel).db.txn = some txn)
    (touched : rel ∈ next.backend.txRels) (work : Kept base rel next.ledger.current txn.work)
    (guards : Guards (Kept base rel) (fun _ => False) (next.Late rel)
      (next.subs.map SubFrame.id) next.ledger.saved txn.saves) : next.Follows base rel where
  file := file
  view := by rwa [RelConn.view, Db.view, opened]
  touched _ := touched
  closed bare := by
    rw [held] at bare
    cases bare
  guarded other openedToo := by
    rw [opened] at openedToo
    cases openedToo
    exact guards

theorem work (follows : session.Follows base rel) {txn : Txn SubId Contents}
    (opened : (session.conn rel).db.txn = some txn) :
    Kept base rel session.ledger.current txn.work := by
  have view := follows.view
  rwa [RelConn.view, Db.view, opened] at view

theorem beginIfNeeded (follows : session.Follows base rel) (formed : session.WellFormed)
    (sound : session.Sound) (unstuck : ¬ Backend.Stuck rel session.backend) {fails : Sql → Bool} {begun : RelConn}
    (started : (session.conn rel).beginIfNeeded fails = some begun) :
    begun.inTxn = true ∧ begun.db.file = base rel ∧ ∃ txn, begun.db.txn = some txn ∧
      Kept base rel session.ledger.current txn.work ∧
      Guards (Kept base rel) (fun _ => False) (session.Late rel)
        (session.subs.map SubFrame.id) session.ledger.saved txn.saves := by
  rcases RelConn.beginIfNeeded_cases started with ⟨held, rfl⟩ | ⟨bare, _, _, rfl⟩
  · obtain ⟨txn, opened⟩ := (sound rel).held held
    exact ⟨held, follows.file, txn, opened, follows.work opened, follows.guarded txn opened⟩
  · obtain ⟨_, unwritten, late⟩ := follows.closed bare
    have late := late.resolve_left unstuck
    refine ⟨rfl, follows.file, _, rfl, ?_, .late (by simp [formed.depth])
      fun _ _ frame member _ => late frame member⟩
    rw [Kept, unwritten, Contents.append_nil, follows.file]

end Follows

/-- Nothing but the abort of the whole transaction can follow. -/
def Doomed (session : Session) : Prop :=
  session.phase = .running ∧ session.failed = true ∧ session.subs = []

theorem Doomed.stops {session next : Session} {event : Event} (doomed : session.Doomed)
    (allowed : session.KeepsSavepoints event) : session.step event ≠ some next := by
  obtain ⟨running, failed, flat⟩ := doomed
  intro stepped
  cases steps_of_step stepped with
  | begin idle =>
      rw [running] at idle
      cases idle
  | call _ sane | read _ sane | drop _ sane | startSub _ sane | commitSub _ _ sane =>
      rw [failed] at sane
      cases sane
  | abortSub subs =>
      rw [flat] at subs
      cases subs
  | preCommit | commit | abort => exact allowed

/-- Both stacks of every relation together. -/
structure Synced (base : RelId → Contents) (session : Session) : Prop where
  formed : session.WellFormed
  sound : session.Sound
  running : session.phase = .running
  registered : session.backend.txRels ≠ ∅ → session.backend.registered = true
  frames : List.Forall₂ (fun frame value => ∀ rel, Kept base rel value (frame.contents rel))
    session.subs session.ledger.saved
  follows : ∀ rel, session.Follows base rel

namespace Synced

variable {base : RelId → Contents} {session next : Session} {event : Event}

theorem begin (rest : session.AtRest) (stepped : session.step .begin = some next) :
    next.Synced session.fileContents := by
  obtain ⟨_, _, ledger, _⟩ := rest.formed.rest rest.idle
  have subs := rest.formed.flat (by simp [rest.idle])
  have formed := rest.formed.step stepped
  cases steps_of_step stepped with
  | begin =>
      refine ⟨formed, Sound.of_quiet rest.quiet, rfl, fun touched => absurd rest.untouched touched,
        by simp [subs, ledger, Nested.fresh], fun rel => ?_⟩
      obtain ⟨none, bare⟩ := rest.quiet rel
      have unwritten : statementsOn rel session.ledger.current = [] := by
        simp [ledger, Nested.fresh, statementsOn]
      constructor
      case file => exact (fileContents_eq session rel).symm
      case view =>
        change Kept _ rel session.ledger.current (session.conn rel).view
        rw [Kept, unwritten, Contents.append_nil, RelConn.view, Db.view, none, fileContents_eq]
      case touched =>
        intro held
        change (session.conn rel).inTxn = true at held
        rw [bare] at held
        cases held
      case closed => exact fun _ => ⟨none, unwritten, .inr (by simp [subs])⟩
      case guarded =>
        intro txn opened
        change (session.conn rel).db.txn = some txn at opened
        rw [none] at opened
        cases opened

theorem call (synced : session.Synced base) {rel : RelId} {write : Write} {fails : Faults}
    (opens : ¬ Backend.FirstOpenFails fails rel session.backend)
    (lossless : (session.runCall rel write fails).failed = true → fails rel .rollsBack = false) :
    (session.runCall rel write fails).Synced base := by
  have busy : session.phase ≠ .idle := by simp [synced.running]
  obtain ⟨touches, ran, ledger, _, _, _, effect⟩ := runCall_cases session rel write fails
  have grows : session.backend.txRels ⊆ (session.runCall rel write fails).backend.txRels := by
    rw [touches.txRels]
    exact Finset.subset_insert _ _
  have saved : (session.runCall rel write fails).ledger.saved = session.ledger.saved := by
    rw [ledger, Nested.update_saved]
  refine ⟨synced.formed.call busy rel write fails, synced.sound.call lossless, synced.running,
    fun _ => registered_of_touches touches opens synced.registered,
    by rw [saved]; exact synced.frames, fun other => ?_⟩
  by_cases same : other = rel
  · subst same
    have current : statementsOn other (session.runCall other write fails).ledger.current =
        statementsOn other session.ledger.current ++ ran := by
      rw [ledger, Nested.update_current, statementsOn_append, statementsOn_map_self]
    rcases effect with ⟨rfl, unchanged⟩ | ⟨unstuck, changed, opened, wrote⟩
    · refine (synced.follows other).congr (conn_congr unchanged) rfl saved (by simpa using current)
        grows fun stuck => .inl ⟨grows stuck.1, by rw [unchanged]; exact stuck.2⟩
    · rcases wrote with ⟨rfl, rfl⟩ | ⟨begun, started, rfl | ⟨panicked, lossy, _⟩⟩
      · exact (synced.follows other).congr (conn_of_opened opened) rfl saved (by simpa using current)
          grows fun stuck => absurd stuck unstuck
      · obtain ⟨held, file, txn, openTxn, work, guards⟩ :=
          (synced.follows other).beginIfNeeded synced.formed synced.sound unstuck started
        have conn := conn_of_opened opened
        rw [RelConn.execute_open openTxn] at conn
        refine .of_open (by rw [conn, file]) (by rw [conn, held]) (by rw [conn])
          (by rw [touches.txRels]; exact Finset.mem_insert_self _ _) ?_ (by rw [saved]; exact guards)
        rw [Kept, current, work, Contents.append_append]
      · rw [lossless panicked] at lossy
        cases lossy
  · refine (synced.follows other).congr (conn_congr (touches.others other same)) rfl saved ?_ grows
      fun stuck => .inl ⟨grows stuck.1, by rw [touches.others other same]; exact stuck.2⟩
    rw [ledger, Nested.update_current, statementsOn_append, statementsOn_map_other same,
      List.append_nil]

theorem read (synced : session.Synced base) {rel : RelId} {fails : Faults}
    (opens : ¬ Backend.FirstOpenFails fails rel session.backend)
    (lossless : (session.runRead rel fails).failed = true → fails rel .rollsBack = false) :
    (session.runRead rel fails).Synced base := by
  have busy : session.phase ≠ .idle := by simp [synced.running]
  obtain ⟨touches, effect⟩ := runRead_cases session rel fails
  have grows : session.backend.txRels ⊆ (session.runRead rel fails).backend.txRels := by
    rw [touches.txRels]
    exact Finset.subset_insert _ _
  have unchanged : ∀ other, (session.runRead rel fails).conn other = session.conn other := by
    intro other
    refine (runRead_conn session rel fails other).resolve_right ?_
    rintro ⟨_, panicked, lossy, _⟩
    rw [lossless panicked] at lossy
    cases lossy
  refine ⟨synced.formed.read busy rel fails, synced.sound.read lossless, synced.running,
    fun _ => registered_of_touches touches opens synced.registered, synced.frames, fun other => ?_⟩
  refine (synced.follows other).congr (unchanged other) rfl rfl rfl grows fun stuck => ?_
  by_cases same : other = rel
  · subst same
    rcases effect with unchanged | ⟨unstuck, _⟩
    · exact .inl ⟨grows stuck.1, by rw [unchanged]; exact stuck.2⟩
    · exact absurd stuck unstuck
  · exact .inl ⟨grows stuck.1, by rw [touches.others other same]; exact stuck.2⟩

theorem late_startSub (synced : session.Synced base) {order : List RelId} {fails : Faults} {rel : RelId}
    {sub : SubId} (member : sub ∈ session.subs.map SubFrame.id) (late : session.Late rel sub) :
    (session.runStartSub order fails).Late rel sub := by
  intro frame inSubs same
  rcases List.mem_cons.mp inSubs with rfl | inOlder
  · obtain ⟨older, inOlder, id⟩ := List.mem_map.mp member
    have bound := synced.formed.numbered.2 older inOlder
    rw [id, ← same] at bound
    exact absurd bound (Nat.lt_irrefl _)
  · exact late frame inOlder same

theorem startSub_completes {order : List RelId} (distinct : order.Nodup)
    (complete : order.toFinset = session.backend.txRels) {fails : Faults}
    (sets : session.SetsSavepoints fails) (hooked : session.backend.registered = true) :
    (session.runStartSub order fails).failed = false := by
  by_contra panicked
  obtain ⟨rel, member, conn, opened, none⟩ := Backend.onSubStart_panicked distinct
    (by simpa [runStartSub, hooked] using panicked)
  have touched : rel ∈ session.backend.txRels := complete ▸ List.mem_toFinset.mpr member
  refine (sets rel touched (by rw [opened]; rfl)).1 ?_
  rw [conn_of_opened opened, none]

/-- A connection that `on_sub_start` does not reach is in no SQLite transaction. -/
theorem startSub_follows_bare (synced : session.Synced base) {order : List RelId}
    (distinct : order.Nodup) {fails : Faults} {rel : RelId}
    (same : (session.runStartSub order fails).backend.rels rel = session.backend.rels rel)
    (uncached : rel ∈ session.backend.txRels → (session.backend.rels rel).cached = false) :
    (session.runStartSub order fails).Follows base rel := by
  obtain ⟨txRels, _⟩ := runStartSub_kept session distinct fails
  have follows := synced.follows rel
  have bare : (session.conn rel).inTxn = false := by
    refine Bool.eq_false_iff.mpr fun held => ?_
    have cached := uncached (follows.touched held)
    rw [cached_of_inTxn held] at cached
    cases cached
  obtain ⟨none, unwritten, late⟩ := follows.closed bare
  have conn : (session.runStartSub order fails).conn rel = session.conn rel := conn_congr same
  constructor
  case file => rw [conn, follows.file]
  case view =>
    rw [conn]
    exact follows.view
  case touched =>
    rw [conn, txRels]
    exact follows.touched
  case closed =>
    intro _
    rw [conn]
    refine ⟨none, unwritten, ?_⟩
    rcases late with stuck | late
    · exact .inl ⟨by rw [txRels]; exact stuck.1, by rw [same]; exact stuck.2⟩
    · by_cases touched : rel ∈ session.backend.txRels
      · exact .inl ⟨by rwa [txRels], by rw [same]; exact uncached touched⟩
      · refine .inr fun frame inSubs => ?_
        rcases List.mem_cons.mp inSubs with rfl | inOlder
        · exact touched
        · exact late frame inOlder
  case guarded =>
    intro txn opened
    rw [conn, none] at opened
    cases opened

/-- Every touched connection gets its savepoint, with what the ledger has now. -/
theorem startSub (synced : session.Synced base) {order : List RelId} (distinct : order.Nodup)
    (complete : order.toFinset = session.backend.txRels) {fails : Faults}
    (sets : session.SetsSavepoints fails) (sound : (session.runStartSub order fails).Sound) :
    (session.runStartSub order fails).Synced base := by
  obtain ⟨txRels, registered, _⟩ := runStartSub_kept session distinct fails
  have formed := synced.formed.startSub synced.running distinct fails
  have inOrder : ∀ rel, rel ∈ order ↔ rel ∈ session.backend.txRels := by
    intro rel
    rw [← complete, List.mem_toFinset]
  refine ⟨formed, sound, synced.running, by rw [txRels, registered]; exact synced.registered, ?_,
    fun rel => ?_⟩
  · refine .cons (fun rel => ?_) synced.frames
    change Kept base rel session.ledger.current (session.view rel)
    rw [view_eq]
    exact (synced.follows rel).view
  · rcases runStartSub_rel session distinct fails rel with
      ⟨same, reach⟩ | ⟨member, begun, cached, started, effect⟩
    · refine synced.startSub_follows_bare distinct same fun touched => ?_
      have hooked := synced.registered (Finset.ne_empty_of_mem touched)
      exact reach hooked (startSub_completes distinct complete sets hooked) ((inOrder rel).mpr touched)
    · have touched := (inOrder rel).mp member
      have unstuck : ¬ Backend.Stuck rel session.backend := by
        rintro ⟨_, uncached⟩
        rw [cached] at uncached
        cases uncached
      obtain ⟨held, file, txn, opened, work, guards⟩ :=
        (synced.follows rel).beginIfNeeded synced.formed synced.sound unstuck started
      have set := (sets rel touched (by rw [cached]; rfl)).2
      have conn := conn_of_opened effect
      rw [RelConn.warnExec_lossless _ (fun failing => by simp [set] at failing),
        RelConn.savepoint_open opened, set, if_neg Bool.false_ne_true] at conn
      have openedNext : ((session.runStartSub order fails).conn rel).db.txn =
          some { txn with saves := ⟨session.nextSub, txn.work⟩ :: txn.saves } := by rw [conn]
      exact .of_open (by rw [conn, file]) (by rw [conn, held]) openedNext
        (by rw [txRels]; exact touched) work
        ((guards.mono fun sub => synced.late_startSub).push work)

theorem innermost_frame (synced : session.Synced base) {sub : SubFrame} {outer : List SubFrame}
    (subs : session.subs = sub :: outer) :
    ∃ value values, session.ledger.saved = value :: values ∧ value <+: session.ledger.current ∧
      (∀ rel, Kept base rel value (sub.contents rel)) ∧
      List.Forall₂ (fun frame value => ∀ rel, Kept base rel value (frame.contents rel))
        outer values ∧
      sub.id ∉ outer.map SubFrame.id := by
  have frames := synced.frames
  have distinctIds := synced.formed.numbered.1
  rw [subs] at frames distinctIds
  cases saved : session.ledger.saved with
  | nil =>
      rw [saved] at frames
      cases frames
  | cons value values =>
      rw [saved] at frames
      obtain ⟨first, rest⟩ := List.forall₂_cons.mp frames
      exact ⟨value, values, rfl, synced.formed.growing.le_current (by simp [saved]), first, rest,
        (List.nodup_cons.mp distinctIds).1⟩

theorem late_outer {sub : SubFrame} {outer : List SubFrame}
    (subs : session.subs = sub :: outer) (subsNext : next.subs = outer) {rel : RelId} {id : SubId}
    (late : session.Late rel id) : next.Late rel id := by
  intro frame inOuter same
  rw [subsNext] at inOuter
  exact late frame (by rw [subs]; exact List.mem_cons_of_mem _ inOuter) same

theorem guards_outer {sub : SubFrame} {outer : List SubFrame} (subs : session.subs = sub :: outer)
    (subsNext : next.subs = outer) {values : List (List Executed)} (saved : next.ledger.saved = values)
    {rel : RelId} {saves : List (Savepoint SubId Contents)}
    (guards : Guards (Kept base rel) (fun _ => False) (session.Late rel) (outer.map SubFrame.id)
      values saves) :
    Guards (Kept base rel) (fun _ => False) (next.Late rel) (next.subs.map SubFrame.id)
      next.ledger.saved saves := by
  rw [subsNext, saved]
  exact guards.mono fun _ _ late => late_outer subs subsNext late

/-- A statement that `run_on_txn_conns` runs reaches every open transaction. -/
theorem reached (synced : session.Synced base) {rel : RelId}
    (held : (session.conn rel).inTxn = true) :
    ¬ (session.backend.registered = false ∨ rel ∉ session.backend.txRels ∨
      (session.conn rel).inTxn = false) := by
  have touched := (synced.follows rel).touched held
  have hooked := synced.registered (Finset.ne_empty_of_mem touched)
  simp [touched, hooked, held]

theorem follows_bare (synced : session.Synced base) {sub : SubFrame} {outer : List SubFrame}
    (subs : session.subs = sub :: outer) (subsNext : next.subs = outer) {rel : RelId}
    (bare : (session.conn rel).inTxn = false)
    (same : next.backend.rels rel = session.backend.rels rel)
    (txRels : next.backend.txRels = session.backend.txRels)
    (earlier : next.ledger.current <+: session.ledger.current) : next.Follows base rel := by
  have follows := synced.follows rel
  obtain ⟨none, unwritten, late⟩ := follows.closed bare
  have conn : next.conn rel = session.conn rel := conn_congr same
  have unwrittenNext := statementsOn_of_le earlier unwritten
  constructor
  case file => rw [conn, follows.file]
  case view =>
    have view := follows.view
    rw [Kept, unwritten] at view
    rw [Kept, conn, view, unwrittenNext]
  case touched =>
    intro held
    rw [conn, bare] at held
    cases held
  case closed =>
    intro _
    rw [conn]
    refine ⟨none, unwrittenNext, ?_⟩
    rcases late with stuck | late
    · exact .inl ⟨by rw [txRels]; exact stuck.1, by rw [same]; exact stuck.2⟩
    · refine .inr fun frame inOuter => ?_
      rw [subsNext] at inOuter
      exact late frame (by rw [subs]; exact List.mem_cons_of_mem _ inOuter)
  case guarded =>
    intro txn opened
    rw [conn, none] at opened
    cases opened

theorem commitSub (synced : session.Synced base) {sub : SubFrame} {outer : List SubFrame}
    (subs : session.subs = sub :: outer) {fails : Faults}
    (lossless : session.Lossless (.commitSub fails))
    (sound : (session.runCommitSub sub outer fails).Sound) :
    (session.runCommitSub sub outer fails).Synced base := by
  obtain ⟨value, values, saved, _, _, frames, fresh⟩ := synced.innermost_frame subs
  obtain ⟨txRels, registered, _⟩ := onSubEnd_kept session
    fun rel conn => conn.warnExec (fails rel) .release (Db.release sub.id)
  have txRels : (session.runCommitSub sub outer fails).backend.txRels = session.backend.txRels :=
    txRels
  have hooked : (session.runCommitSub sub outer fails).backend.registered =
      session.backend.registered := registered
  have ledger : (session.runCommitSub sub outer fails).ledger.saved = values := by
    simp [runCommitSub, saved]
  refine ⟨synced.formed.commitSub synced.running subs fails, sound, synced.running,
    by rw [txRels, hooked]; exact synced.registered, by rw [ledger]; exact frames, fun rel => ?_⟩
  have follows := synced.follows rel
  cases held : (session.conn rel).inTxn with
  | false =>
      rcases runCommitSub_rel session sub outer fails rel with ⟨same, _⟩ | ⟨_, _, open_, _⟩
      · exact synced.follows_bare subs rfl held same txRels (List.prefix_refl _)
      · rw [held] at open_
        cases open_
  | true =>
      obtain ⟨txn, opened⟩ := (synced.sound rel).held held
      have work := follows.work opened
      have guards := follows.guarded txn opened
      rw [subs, saved, List.map_cons] at guards
      have touched : rel ∈ (session.runCommitSub sub outer fails).backend.txRels := by
        rw [txRels]
        exact follows.touched held
      rcases runCommitSub_rel session sub outer fails rel with ⟨_, missed⟩ | ⟨inTxRels, _, _, effect⟩
      · exact absurd missed (synced.reached held)
      · have conn := conn_of_opened effect
        rw [RelConn.warnExec_lossless _ fun _ => lossless rel inTxRels] at conn
        rcases RelConn.release_cases (fails rel .release) opened
            ((synced.sound rel).begun txn opened) with same | ⟨save, below, found, same⟩
        · rw [same] at conn
          exact .of_open (by rw [conn, follows.file]) (by rw [conn, held]) (by rw [conn, opened])
            touched work (guards_outer subs rfl ledger (guards.pop fresh))
        · rw [same] at conn
          have openedNext : ((session.runCommitSub sub outer fails).conn rel).db.txn =
              some { txn with saves := below } := by rw [conn]
          exact .of_open (by rw [conn]; exact follows.file) (by rw [conn, held]) openedNext
            touched work (guards_outer subs rfl ledger (guards.release found))

/-- ROLLBACK TO finds the savepoint of every relation written inside. -/
theorem rollbackTo_runs (synced : session.Synced base) {sub : SubFrame} {outer : List SubFrame}
    (subs : session.subs = sub :: outer) {fails : Faults} (undoes : session.UndoesWrites fails)
    {rel : RelId} {txn : Txn SubId Contents} (opened : (session.conn rel).db.txn = some txn)
    (written : statementsOn rel session.innermost ≠ []) :
    ∃ save below, Db.upTo sub.id txn.saves = save :: below ∧
      (session.conn rel).tryExec (fails rel .rollbackTo) (Db.rollbackTo sub.id) =
        { session.conn rel with db := { (session.conn rel).db with
          txn := some { txn with work := save.contents, saves := save :: below } } } := by
  obtain ⟨value, values, saved, _, _, _, _⟩ := synced.innermost_frame subs
  obtain ⟨entry, member⟩ := List.exists_mem_of_ne_nil _ written
  obtain ⟨executed, inside, same⟩ := List.mem_filterMap.mp member
  obtain ⟨on, _⟩ : executed.1 = rel ∧ executed.2 = entry := by
    split at same
    · next on => exact ⟨on, Option.some.inj same⟩
    · cases same
  obtain ⟨touched, succeeds⟩ := undoes sub (by simp [subs]) executed inside
  rw [on] at touched succeeds
  have guards := (synced.follows rel).guarded txn opened
  rw [subs, saved, List.map_cons] at guards
  have found := guards.found id fun late => late sub (by simp [subs]) rfl touched
  cases stack : Db.upTo sub.id txn.saves with
  | nil => exact absurd stack found
  | cons save below =>
      refine ⟨save, below, rfl, ?_⟩
      simp [RelConn.tryExec, succeeds, Db.rollbackTo, opened, stack]

theorem abortSub (synced : session.Synced base) {sub : SubFrame} {outer : List SubFrame}
    (subs : session.subs = sub :: outer) {fails : Faults} (undoes : session.UndoesWrites fails)
    (lossless : session.Lossless (.abortSub fails))
    (sound : (session.runAbortSub sub outer fails).Sound) :
    (session.runAbortSub sub outer fails).Synced base := by
  obtain ⟨value, values, saved, earlier, _, frames, fresh⟩ := synced.innermost_frame subs
  obtain ⟨txRels, registered, _⟩ := onSubEnd_kept session
    fun rel conn => conn.warnExec (fails rel) .rollbackTo (Db.rollbackTo sub.id)
  have txRels : (session.runAbortSub sub outer fails).backend.txRels = session.backend.txRels :=
    txRels
  have hooked : (session.runAbortSub sub outer fails).backend.registered =
      session.backend.registered := registered
  have ledger : (session.runAbortSub sub outer fails).ledger = ⟨value, values⟩ := by
    simp [runAbortSub, Nested.abort, saved]
  have inner : session.ledger.current = value ++ session.innermost := by
    have returns : session.ledger.abort.current = value := by simp [Nested.abort, saved]
    obtain ⟨later, whole⟩ := earlier
    rw [innermost, returns, ← whole, List.drop_left]
  refine ⟨synced.formed.abortSub synced.running subs fails, sound, synced.running,
    by rw [txRels, hooked]; exact synced.registered, by rw [ledger]; exact frames, fun rel => ?_⟩
  have follows := synced.follows rel
  cases held : (session.conn rel).inTxn with
  | false =>
      rcases runAbortSub_rel session sub outer fails rel with ⟨same, _⟩ | ⟨_, _, open_, _⟩
      · exact synced.follows_bare subs rfl held same txRels (by rw [ledger]; exact earlier)
      · rw [held] at open_
        cases open_
  | true =>
      obtain ⟨txn, opened⟩ := (synced.sound rel).held held
      have work := follows.work opened
      have guards := follows.guarded txn opened
      rw [subs, saved, List.map_cons] at guards
      have touched : rel ∈ (session.runAbortSub sub outer fails).backend.txRels := by
        rw [txRels]
        exact follows.touched held
      rcases runAbortSub_rel session sub outer fails rel with ⟨_, missed⟩ | ⟨inTxRels, _, _, effect⟩
      · exact absurd missed (synced.reached held)
      · have conn := conn_of_opened effect
        rw [RelConn.warnExec_lossless _ fun _ => lossless rel inTxRels] at conn
        have ran : (∃ save below, Db.upTo sub.id txn.saves = save :: below ∧
            (session.runAbortSub sub outer fails).conn rel =
              { session.conn rel with db := { (session.conn rel).db with
                txn := some { txn with work := save.contents, saves := save :: below } } }) ∨
            (statementsOn rel session.innermost = [] ∧
              (session.runAbortSub sub outer fails).conn rel = session.conn rel) := by
          rcases RelConn.rollbackTo_cases (fails rel .rollbackTo) opened with
            same | ⟨save, below, found, same⟩
          · by_cases written : statementsOn rel session.innermost = []
            · exact .inr ⟨written, by rw [conn, same]⟩
            · obtain ⟨save, below, found, same⟩ := synced.rollbackTo_runs subs undoes opened written
              exact .inl ⟨save, below, found, by rw [conn, same]⟩
          · exact .inl ⟨save, below, found, by rw [conn, same]⟩
        rcases ran with ⟨save, below, found, conn⟩ | ⟨unwritten, conn⟩
        · obtain ⟨restored, belowGuards⟩ := guards.rollbackTo fresh found
          have openedNext : ((session.runAbortSub sub outer fails).conn rel).db.txn =
              some { txn with work := save.contents, saves := save :: below } := by rw [conn]
          exact .of_open (by rw [conn]; exact follows.file) (by rw [conn, held]) openedNext
            touched (by rw [ledger]; exact restored.resolve_right id) (guards_outer subs rfl (by rw [ledger]) belowGuards)
        · refine .of_open (by rw [conn, follows.file]) (by rw [conn, held]) (by rw [conn, opened])
            touched ?_ (guards_outer subs rfl (by rw [ledger]) (guards.pop fresh))
          rw [Kept, inner, statementsOn_append, unwritten, List.append_nil] at work
          rw [Kept, ledger, work]

theorem step (synced : session.Synced base) (allowed : session.KeepsSavepoints event)
    (lossless : session.Lossless event) (stepped : session.step event = some next) :
    next.Synced base := by
  have sound := synced.sound.step lossless stepped
  cases steps_of_step stepped with
  | begin idle =>
      rw [synced.running] at idle
      cases idle
  | call => exact synced.call allowed.1 fun _ => lossless
  | read => exact synced.read allowed.1 fun _ => lossless
  | drop =>
      exact ⟨synced.formed.step stepped, sound, synced.running, synced.registered, synced.frames,
        fun rel => (synced.follows rel).congr rfl rfl rfl rfl (Finset.Subset.refl _) .inl⟩
  | startSub _ _ distinct complete => exact synced.startSub distinct complete allowed sound
  | commitSub subs => exact synced.commitSub subs lossless sound
  | abortSub subs => exact synced.abortSub subs allowed.1 lossless sound
  | preCommit => exact allowed.elim
  | commit => exact allowed.elim
  | abort => exact allowed.elim

/-- Inside a subtransaction an allowed step is lossless. Outside any, an error only
leaves the abort of the transaction. -/
theorem step_or_doomed (synced : session.Synced base) (allowed : session.KeepsSavepoints event)
    (stepped : session.step event = some next) : next.Synced base ∨ next.Doomed := by
  by_cases lossless : session.Lossless event
  · exact .inl (synced.step allowed lossless stepped)
  · cases steps_of_step stepped with
    | @call rel write fails =>
        have flat : session.subs = [] := by
          by_contra inside
          exact lossless (allowed.2 inside)
        cases failed : (session.runCall rel write fails).failed with
        | false => exact .inl (synced.call allowed.1 fun panicked => by simp [failed] at panicked)
        | true => exact .inr ⟨synced.running, failed, flat⟩
    | @read rel fails =>
        have flat : session.subs = [] := by
          by_contra inside
          exact lossless (allowed.2 inside)
        cases failed : (session.runRead rel fails).failed with
        | false => exact .inl (synced.read allowed.1 fun panicked => by simp [failed] at panicked)
        | true => exact .inr ⟨synced.running, failed, flat⟩
    | startSub => exact absurd (lossless_of_setsSavepoints allowed) lossless
    | commitSub => exact absurd allowed lossless
    | abortSub => exact absurd allowed.2 lossless
    | begin | drop | commit | abort => exact absurd trivial lossless
    | preCommit => exact allowed.elim

theorem preCommit_file (synced : session.Synced base) {order : List RelId}
    (distinct : order.Nodup) (complete : order.toFinset = session.backend.txRels) {fails : Faults}
    (sane : (session.runPreCommit order fails).failed = false) (rel : RelId) :
    (session.runPreCommit order fails).fileContents rel =
      (base rel).append (statementsOn rel session.ledger.current) := by
  have follows := synced.follows rel
  have unwritten : (session.conn rel).inTxn = false →
      (session.conn rel).db.file = (base rel).append (statementsOn rel session.ledger.current) := by
    intro bare
    rw [(follows.closed bare).2.1, Contents.append_nil, follows.file]
  rw [fileContents_eq]
  rcases runPreCommit_rel session distinct fails rel with
    ⟨same, _, reach⟩ | ⟨_, _, panicked, _⟩ | ⟨_, _, committed, _, done, effect⟩
  · rw [conn_congr same]
    refine unwritten ?_
    by_contra held
    have held : (session.conn rel).inTxn = true := by simpa using held
    have touched := follows.touched held
    have hooked := synced.registered (Finset.ne_empty_of_mem touched)
    rw [← complete, List.mem_toFinset] at touched
    have uncached := reach hooked sane touched
    rw [cached_of_inTxn held] at uncached
    cases uncached
  · rw [sane] at panicked
    cases panicked
  · rw [conn_of_opened effect]
    rcases RelConn.commit_cases done with ⟨bare, rfl⟩ | ⟨txn, _, opened, rfl⟩
    · exact unwritten bare
    · exact follows.work opened

end Synced

/-- Inside one transaction that starts at rest, and whose steps keep the savepoints:
AbortSub returns every relation to its contents at StartSub, CommitSub changes
none, and a completed PreCommit makes exactly the statements durable that no
aborted subtransaction undid. -/
theorem subtransactions_atomic {rest session : Session} {events : List Event}
    (start : rest.AtRest) (reached : Session.run rest (.begin :: events) = some session)
    (allowed : Transition.Meets step KeepsSavepoints rest (.begin :: events)) :
    (∀ fails next sub outer, session.step (.abortSub fails) = some next →
      session.KeepsSavepoints (.abortSub fails) → session.subs = sub :: outer →
        ∀ rel, next.view rel = sub.contents rel) ∧
    (∀ fails next, session.step (.commitSub fails) = some next →
      session.KeepsSavepoints (.commitSub fails) → ∀ rel, next.view rel = session.view rel) ∧
    ∀ order fails next, session.step (.preCommit order fails) = some next → next.failed = false →
      ∀ rel, next.fileContents rel =
        (rest.fileContents rel).append (statementsOn rel session.ledger.current) := by
  obtain ⟨begun, began, ran⟩ := Transition.run_cons_iff.mp reached
  have reached := @Transition.run_invariant _ _ Session.step _
    (fun state => state.Synced rest.fileContents ∨ state.Doomed)
    (fun _ _ _ kept allowed stepped => kept.elim
      (fun synced => synced.step_or_doomed allowed stepped)
      fun doomed => absurd stepped (doomed.stops allowed)) _ _ _
    (.inl (Synced.begin start began)) (allowed.2 begun began) ran
  refine ⟨fun fails next sub outer stepped keeps subs rel => ?_,
    fun fails next stepped keeps rel => ?_, fun order fails next stepped sane rel => ?_⟩
  · have synced := reached.resolve_right fun doomed => doomed.stops keeps stepped
    have after := ((synced.step keeps keeps.2 stepped).follows rel).view
    obtain ⟨value, values, saved, _, contents, _, _⟩ := synced.innermost_frame subs
    cases steps_of_step stepped with
    | @abortSub _ top below open_ =>
        obtain ⟨rfl, rfl⟩ := List.cons.inj (open_.symm.trans subs)
        have returns : (session.runAbortSub top below fails).ledger.current = value := by
          simp [runAbortSub, Nested.abort, saved]
        rw [view_eq, after, returns, ← contents rel]
  · have synced := reached.resolve_right fun doomed => doomed.stops keeps stepped
    have after := ((synced.step keeps keeps stepped).follows rel).view
    have before := (synced.follows rel).view
    cases steps_of_step stepped with
    | commitSub => rw [view_eq, view_eq, after, before]; rfl
  · cases steps_of_step stepped with
    | preCommit _ alive _ distinct complete =>
        have synced := reached.resolve_right fun doomed => by
          rw [doomed.2.1] at alive
          cases alive
        exact synced.preCommit_file distinct complete sane rel

/-- Two levels of subtransactions write one relation, and the inner one is open. -/
def nestedSubs : List Event :=
  [.begin, .call 1 insertOne noFaults, .startSub [1] noFaults, .call 1 insertOne noFaults,
    .startSub [1] noFaults, .call 1 .reset noFaults]

theorem nestedSubs_atomic :
    ∃ session next sub outer, Session.run (Session.start noFiles) nestedSubs = some session ∧
      session.step (.abortSub noFaults) = some next ∧ session.subs = sub :: outer ∧
      (session.view 1).log.length = 3 ∧ ∀ rel, next.view rel = sub.contents rel := by
  have ends : ∃ session next sub outer,
      Session.run (Session.start noFiles) nestedSubs = some session ∧
      session.step (.abortSub noFaults) = some next ∧ session.subs = sub :: outer ∧
      (session.view 1).log.length = 3 ∧ session.KeepsSavepoints (.abortSub noFaults) :=
    ⟨_, _, _, _, rfl, rfl, rfl, by decide, by decide⟩
  obtain ⟨session, next, sub, outer, reached, stepped, subs, length, keeps⟩ := ends
  refine ⟨session, next, sub, outer, reached, stepped, subs, length, ?_⟩
  exact (subtransactions_atomic (AtRest.start noFiles) reached (by decide)).1 _ _ _ _ stepped keeps
    subs

/-- A relation is first touched inside the subtransaction that aborts. -/
def firstTouchInside : List Event :=
  [.begin, .startSub [] noFaults, .call 1 insertOne noFaults]

/-- There is no savepoint to roll back to, so the row survives the abort. -/
theorem firstTouchInside_survives :
    ∃ session next sub outer, Session.run (Session.start noFiles) firstTouchInside = some session ∧
      session.step (.abortSub noFaults) = some next ∧ session.subs = sub :: outer ∧
      (sub.contents 1).table.countRows = 0 ∧ (next.view 1).table.countRows = 1 ∧
      next.view 1 ≠ sub.contents 1 :=
  ⟨_, _, _, _, rfl, rfl, rfl, by decide, by decide, by decide⟩

/-- SQLite rolls the transaction back under the subtransaction that aborts. -/
def lossInside : List Event :=
  [.begin, .call 1 insertOne noFaults, .startSub [1] noFaults, .call 1 insertOne (losing (.stmt 0))]

example : ∃ session next sub outer, Session.run (Session.start noFiles) lossInside = some session ∧
    session.step (.abortSub noFaults) = some next ∧ session.subs = sub :: outer ∧
    (sub.contents 1).table.countRows = 1 ∧ (next.view 1).table.countRows = 0 :=
  ⟨_, _, _, _, rfl, rfl, rfl, by decide, by decide⟩

end SqliteHeap.Session
