import SqliteHeap.SessionRun

/-! `sqlite.zig` of the Zig port: which relations are in the current transaction and in a
SQLite transaction. The callbacks are registered once in the life of the backend, by its
first table operation. A failing statement leaves the function by `longjmp` with what was
done until then. -/

set_option autoImplicit false

namespace SqliteHeap.Zig

/-- The places where SQLite may report an error. A failure of the last three only warns. -/
inductive Sql where
  | openConn | begin | stmt | commit | rollback | savepoint | subEnd
deriving DecidableEq

abbrev Faults := RelId → Sql → Bool

structure RelConn where
  inTxn : Bool
deriving DecidableEq

/-- The variables of `sqlite.zig` that live as long as the backend. -/
structure Backend where
  conns : RelId → Option RelConn
  txRels : Finset RelId
  pendingDrops : List RelId
  callbacksRegistered : Bool

/-- A function returned or left by `longjmp`. -/
inductive Outcome (Result : Type) where
  | returned (result : Result)
  | raised (result : Result)

/-- The table operations of `sqlite.zig`; `vacuumDead` is `metaGet`, `deleteDead`, `metaSet`. -/
inductive Operation where
  | insert | insertBatch | setXmax | updateRow | physicalDelete | deleteDead | reset | metaSet
  | selectAll | selectOne | fetchOneRef | selectXmaxBatch | metaGet | estimateSize | schemaVersion
deriving DecidableEq

/-- The operation calls `beginIfNeeded`. -/
def Operation.writes : Operation → Bool
  | .insert | .insertBatch | .setXmax | .updateRow | .physicalDelete | .deleteDead | .reset
  | .metaSet => true
  | .selectAll | .selectOne | .fetchOneRef | .selectXmaxBatch | .metaGet | .estimateSize
  | .schemaVersion => false

namespace RelConn

/-- `beginIfNeeded`; none leaves by `longjmp`. -/
def beginIfNeeded (fails : Sql → Bool) (conn : RelConn) : Option RelConn :=
  if conn.inTxn then some conn else if fails .begin then none else some ⟨true⟩

/-- `commit`; none leaves by `longjmp`. -/
def commit (fails : Sql → Bool) (conn : RelConn) : Option RelConn :=
  if !conn.inTxn then some conn else if fails .commit then none else some ⟨false⟩

/-- `rollback`: a failure only warns. -/
def rollback (conn : RelConn) : RelConn := if !conn.inTxn then conn else ⟨false⟩

end RelConn

/-- What the statements of the current transaction were, for its end. -/
structure Ledger where
  /-- Relations with a write that got past BEGIN. -/
  written : Finset RelId
  /-- Relations on which BEGIN succeeded. -/
  begun : Finset RelId
  /-- Relations on which COMMIT succeeded. -/
  committed : Finset RelId
  /-- Relations on which ROLLBACK was issued. -/
  rolledBack : Finset RelId
deriving DecidableEq

def Ledger.empty : Ledger := ⟨∅, ∅, ∅, ∅⟩

structure State where
  backend : Backend
  ledger : Ledger

namespace State

def setConn (rel : RelId) (conn : RelConn) (state : State) : State :=
  { state with backend := { state.backend with
    conns := Function.update state.backend.conns rel (some conn) } }

def ensureInXact (fails : Faults) (rel : RelId) (state : State) : Outcome State :=
  let registered := { state with backend := { state.backend with callbacksRegistered := true } }
  match state.backend.conns rel with
  | none =>
      if fails rel .openConn then .raised registered
      else
        let opened := registered.setConn rel ⟨false⟩
        .returned { opened with backend := { opened.backend with
          txRels := insert rel opened.backend.txRels } }
  | some _ =>
      .returned { registered with backend := { registered.backend with
        txRels := insert rel registered.backend.txRels } }

/-- `beginIfNeeded` on the connection of a relation. -/
def beginOn (fails : Faults) (rel : RelId) (conn : RelConn) (state : State) : Option State :=
  (conn.beginIfNeeded (fails rel)).map fun begun =>
    let after := state.setConn rel begun
    { after with ledger := { after.ledger with begun := insert rel after.ledger.begun } }

/-- A table operation: `connFor`, for a write `beginIfNeeded`, then its statements. -/
def operate (fails : Faults) (rel : RelId) (operation : Operation) (state : State) : Outcome State :=
  match state.ensureInXact fails rel with
  | .raised after => .raised after
  | .returned entered =>
      if operation.writes then
        match entered.backend.conns rel with
        -- `conns.get(rel_id).?` after `ensureInXact`
        | none => .raised entered
        | some conn =>
            match entered.beginOn fails rel conn with
            | none => .raised entered
            | some begun =>
                let wrote := { begun with ledger := { begun.ledger with
                  written := insert rel begun.ledger.written } }
                if fails rel .stmt then .raised wrote else .returned wrote
      else if fails rel .stmt then .raised entered
      else .returned entered

/-- A loop over the relations of `tx_rels` that have a connection. -/
def forConns (body : RelId → RelConn → State → Option State) : List RelId → State → Outcome State
  | [], state => .returned state
  | rel :: rest, state =>
      match state.backend.conns rel with
      | none => forConns body rest state
      | some conn =>
          match body rel conn state with
          | none => .raised state
          | some after => forConns body rest after

/-- `onSubStart`: after BEGIN the savepoint's failure only warns. -/
def onSubStart (fails : Faults) (order : List RelId) (state : State) : Outcome State :=
  forConns (beginOn fails) order state

def commitOn (fails : Faults) (rel : RelId) (conn : RelConn) (state : State) : Option State :=
  (conn.commit (fails rel)).map fun committed =>
    let after := state.setConn rel committed
    if conn.inTxn then
      { after with ledger := { after.ledger with committed := insert rel after.ledger.committed } }
    else after

/-- `onPrecommit`: `tx_rels` is cleared after the loop. -/
def onPrecommit (fails : Faults) (order : List RelId) (state : State) : Outcome State :=
  match forConns (commitOn fails) order state with
  | .raised after => .raised after
  | .returned after => .returned { after with backend := { after.backend with txRels := ∅ } }

def unlinkStorage (backend : Backend) (rel : RelId) : Backend :=
  { backend with
    conns := Function.update backend.conns rel none
    txRels := backend.txRels.erase rel }

def onCommit (state : State) : State :=
  { state with backend :=
    { state.backend.pendingDrops.foldl unlinkStorage state.backend with pendingDrops := [] } }

def onAbort (state : State) : State where
  backend :=
    { state.backend with
      conns := fun rel =>
        if rel ∈ state.backend.txRels then (state.backend.conns rel).map RelConn.rollback
        else state.backend.conns rel
      txRels := ∅
      pendingDrops := [] }
  ledger :=
    { state.ledger with
      rolledBack := state.ledger.rolledBack ∪ state.backend.txRels.filter fun rel =>
        state.backend.conns rel = some ⟨true⟩ }

def dropRelation (rel : RelId) (state : State) : State :=
  { state with backend := { state.backend with
    pendingDrops := state.backend.pendingDrops ++ [rel] } }

end State

/-- How the last transaction ended. -/
inductive End where
  | commit | abort
deriving DecidableEq

structure Session where
  state : State
  phase : Phase
  failed : Bool
  subs : Nat
  ended : Option End

inductive Event where
  | begin
  | operate (rel : RelId) (operation : Operation) (fails : Faults)
  | drop (rel : RelId)
  | startSub (order : List RelId) (fails : Faults)
  /-- `onSubCommit` and `onSubAbort` run statements whose failure only warns. -/
  | commitSub
  | abortSub
  | preCommit (order : List RelId) (fails : Faults)
  | commit
  | abort

namespace Session

def start : Session := ⟨⟨⟨fun _ => none, ∅, [], false⟩, Ledger.empty⟩, .idle, false, 0, none⟩

def leave (session : Session) : Outcome State → Session
  | .returned state => { session with state := state }
  | .raised state => { session with state := state, failed := true }

/-- An iteration order of `tx_rels`. -/
def enumerates (session : Session) (order : List RelId) : Bool :=
  order.Nodup ∧ order.toFinset = session.state.backend.txRels

/-- A callback runs where it is registered. -/
def callback (session : Session) (run : State → Outcome State) : Outcome State :=
  if session.state.backend.callbacksRegistered then run session.state else .returned session.state

def active (session : Session) : Bool := session.phase = .running ∧ session.failed = false

def step (session : Session) : Event → Option Session
  | .begin =>
      if session.phase = .idle then
        some { session with
          state := { session.state with ledger := Ledger.empty }, phase := .running, ended := none }
      else none
  | .operate rel operation fails =>
      if session.active then some (session.leave (session.state.operate fails rel operation)) else none
  | .drop rel =>
      if session.active then some { session with state := session.state.dropRelation rel } else none
  | .startSub order fails =>
      if session.active ∧ session.enumerates order then
        some ({ session with subs := session.subs + 1 }.leave
          (session.callback (State.onSubStart fails order)))
      else none
  | .commitSub =>
      if session.active ∧ 0 < session.subs then some { session with subs := session.subs - 1 }
      else none
  | .abortSub =>
      if session.phase = .running ∧ 0 < session.subs then
        some { session with subs := session.subs - 1, failed := false }
      else none
  | .preCommit order fails =>
      if session.active ∧ session.subs = 0 ∧ session.enumerates order then
        match session.callback (State.onPrecommit fails order) with
        | .returned state => some { session with state := state, phase := .preCommitted }
        | .raised state => some { session with state := state, failed := true }
      else none
  | .commit =>
      if session.phase = .preCommitted then
        some ⟨if session.state.backend.callbacksRegistered then session.state.onCommit
          else session.state, .idle, false, 0, some .commit⟩
      else none
  | .abort =>
      if session.phase ≠ .idle ∧ session.subs = 0 then
        some ⟨if session.state.backend.callbacksRegistered then session.state.onAbort
          else session.state, .idle, false, 0, some .abort⟩
      else none

def run : Session → List Event → Option Session := Transition.run step

structure Ended (session : Session) : Prop where
  txRels : session.state.backend.txRels = ∅
  pendingDrops : session.state.backend.pendingDrops = []
  conns : ∀ rel conn, session.state.backend.conns rel = some conn → conn.inTxn = false
  commit : session.ended = some .commit →
    ∀ rel ∈ session.state.ledger.written, rel ∈ session.state.ledger.committed
  abort : session.ended = some .abort → ∀ rel ∈ session.state.ledger.begun,
    rel ∈ session.state.ledger.committed ∨ rel ∈ session.state.ledger.rolledBack

/-- A transaction ends with callbacks registered, or with no drop pending. -/
def Covered (session : Session) : Event → Prop
  | .commit | .abort =>
      session.state.backend.callbacksRegistered = true ∨ session.state.backend.pendingDrops = []
  | .begin | .operate _ _ _ | .drop _ | .startSub _ _ | .commitSub | .abortSub | .preCommit _ _ => True

instance (session : Session) : ∀ event, Decidable (session.Covered event)
  | .commit | .abort => inferInstanceAs (Decidable (_ ∨ _))
  | .begin | .operate _ _ _ | .drop _ | .startSub _ _ | .commitSub | .abortSub | .preCommit _ _ =>
      isTrue trivial

end Session

/-! ## What the functions keep -/

namespace Outcome

variable {Result : Type}

def result : Outcome Result → Result
  | .returned result | .raised result => result

end Outcome

/-- A relation in a SQLite transaction is in `tx_rels`, and one that began a transaction is
still in it or has ended it. -/
structure State.Tracked (state : State) : Prop where
  inTxn : ∀ rel, state.backend.conns rel = some ⟨true⟩ →
    rel ∈ state.backend.txRels ∧ rel ∈ state.ledger.begun
  begun : ∀ rel ∈ state.ledger.begun, state.backend.conns rel = some ⟨true⟩ ∨
    rel ∈ state.ledger.committed ∨ rel ∈ state.ledger.rolledBack
  written : state.ledger.written ⊆ state.ledger.begun
  registered : state.backend.txRels ≠ ∅ → state.backend.callbacksRegistered = true

namespace State

variable {state after : State} {fails : Faults} {rel : RelId} {conn ended : RelConn}

/-- The parts of the state that no statement touches. -/
structure SameLists (state after : State) : Prop where
  txRels : after.backend.txRels = state.backend.txRels
  pendingDrops : after.backend.pendingDrops = state.backend.pendingDrops
  registered : after.backend.callbacksRegistered = state.backend.callbacksRegistered
  rolledBack : after.ledger.rolledBack = state.ledger.rolledBack

theorem SameLists.refl (state : State) : SameLists state state := ⟨rfl, rfl, rfl, rfl⟩

theorem SameLists.trans {final : State} (first : SameLists state after)
    (second : SameLists after final) : SameLists state final :=
  ⟨second.txRels.trans first.txRels, second.pendingDrops.trans first.pendingDrops,
    second.registered.trans first.registered, second.rolledBack.trans first.rolledBack⟩

theorem Tracked.beginOn (tracked : state.Tracked) (member : rel ∈ state.backend.txRels)
    (began : state.beginOn fails rel conn = some after) : after.Tracked ∧ SameLists state after := by
  obtain ⟨begun, started, rfl⟩ := Option.map_eq_some_iff.mp began
  have open_ : begun = ⟨true⟩ := by
    unfold RelConn.beginIfNeeded at started
    split at started
    · next already =>
        obtain rfl := Option.some.inj started
        cases conn
        simpa using already
    · split at started
      · cases started
      · exact (Option.some.inj started).symm
  subst open_
  refine ⟨⟨fun other found => ?_, fun other inBegun => ?_, ?_, tracked.registered⟩, rfl, rfl, rfl, rfl⟩
  · by_cases same : other = rel
    · subst same
      exact ⟨member, Finset.mem_insert_self _ _⟩
    · obtain ⟨touched, began⟩ := tracked.inTxn other (by simpa [setConn, same] using found)
      exact ⟨touched, Finset.mem_insert_of_mem began⟩
  · by_cases same : other = rel
    · subst same
      exact .inl (by simp [setConn])
    · have old := tracked.begun other ((Finset.mem_insert.mp inBegun).resolve_left same)
      simpa [setConn, same] using old
  · exact fun other member => Finset.mem_insert_of_mem (tracked.written member)

theorem closed_of_commit (committed : conn.commit (fails rel) = some ended) : ended = ⟨false⟩ := by
  unfold RelConn.commit at committed
  split at committed
  · next outside =>
      obtain rfl := Option.some.inj committed
      cases conn
      simpa using outside
  · exact (Option.some.inj (Option.ite_none_left_eq_some.mp committed).2).symm

theorem Tracked.closeConn (tracked : state.Tracked) {committed : Finset RelId}
    (grown : state.ledger.committed ⊆ committed)
    (ended : rel ∈ state.ledger.begun → rel ∈ committed ∨ rel ∈ state.ledger.rolledBack) :
    Tracked { state.setConn rel ⟨false⟩ with ledger := { state.ledger with committed := committed } } := by
  refine ⟨fun other open_ => ?_, fun other inBegun => ?_, tracked.written, tracked.registered⟩
  · by_cases same : other = rel
    · subst same
      simp [setConn] at open_
    · exact tracked.inTxn other (by simpa [setConn, same] using open_)
  · by_cases same : other = rel
    · subst same
      exact .inr (ended inBegun)
    · have old := tracked.begun other inBegun
      refine old.imp (fun open_ => ?_) (Or.imp_left fun member => grown member)
      simpa [setConn, same] using open_

theorem Tracked.commitOn (tracked : state.Tracked)
    (found : state.backend.conns rel = some conn)
    (committed : state.commitOn fails rel conn = some after) :
    after.Tracked ∧ SameLists state after ∧
      after.backend.conns = Function.update state.backend.conns rel (some ⟨false⟩) := by
  obtain ⟨closed, done, rfl⟩ := Option.map_eq_some_iff.mp committed
  obtain rfl := closed_of_commit done
  cases inside : conn.inTxn with
  | false =>
      have outside : state.backend.conns rel ≠ some ⟨true⟩ := by
        rw [found]
        rintro ⟨⟩
        cases inside
      refine ⟨?_, ⟨rfl, rfl, rfl, rfl⟩, rfl⟩
      exact tracked.closeConn (Finset.Subset.refl _) fun inBegun =>
        (tracked.begun rel inBegun).resolve_left outside
  | true =>
      refine ⟨?_, ⟨rfl, rfl, rfl, rfl⟩, rfl⟩
      exact tracked.closeConn (Finset.subset_insert _ _) fun _ => .inl (Finset.mem_insert_self _ _)

theorem Tracked.forConns {body : RelId → RelConn → State → Option State} {order : List RelId}
    (keeps : ∀ state rel conn after, Tracked state → rel ∈ state.backend.txRels →
      state.backend.conns rel = some conn → body rel conn state = some after →
      after.Tracked ∧ SameLists state after)
    (tracked : state.Tracked) (touched : ∀ rel ∈ order, rel ∈ state.backend.txRels) :
    (forConns body order state).result.Tracked ∧
      SameLists state (forConns body order state).result := by
  induction order generalizing state with
  | nil => exact ⟨tracked, .refl state⟩
  | cons rel rest ih =>
      unfold State.forConns
      cases found : state.backend.conns rel with
      | none => exact ih tracked fun other member => touched other (List.mem_cons_of_mem _ member)
      | some conn =>
          cases ran : body rel conn state with
          | none =>
              simp only [ran]
              exact ⟨tracked, .refl state⟩
          | some after =>
              simp only [ran]
              obtain ⟨kept, same⟩ := keeps state rel conn after tracked (touched rel (by simp)) found ran
              obtain ⟨final, later⟩ := ih kept fun other member => by
                rw [same.txRels]
                exact touched other (List.mem_cons_of_mem _ member)
              exact ⟨final, same.trans later⟩

theorem closed_of_commits {order : List RelId} (tracked : state.Tracked)
    (finished : forConns (commitOn fails) order state = .returned after) (rel : RelId)
    (covered : rel ∈ order ∨ state.backend.conns rel ≠ some ⟨true⟩) :
    after.backend.conns rel ≠ some ⟨true⟩ := by
  induction order generalizing state with
  | nil =>
      cases finished
      exact covered.resolve_left (by simp)
  | cons first rest ih =>
      unfold State.forConns at finished
      cases found : state.backend.conns first with
      | none =>
          rw [found] at finished
          refine ih tracked finished ?_
          rcases covered with member | closed
          · rcases List.mem_cons.mp member with rfl | member
            · exact .inr (by simp [found])
            · exact .inl member
          · exact .inr closed
      | some conn =>
          cases ran : commitOn fails first conn state with
          | none => simp [found, ran] at finished
          | some middle =>
              simp only [found, ran] at finished
              obtain ⟨kept, _, conns⟩ := tracked.commitOn found ran
              refine ih kept finished ?_
              rw [conns]
              by_cases same : rel = first
              · subst same
                exact .inr (by simp)
              · rcases covered with member | closed
                · exact .inl ((List.mem_cons.mp member).resolve_left same)
                · exact .inr (by simpa [same] using closed)

theorem Tracked.ensureInXact (tracked : state.Tracked) (fails : Faults) (rel : RelId) :
    let entered := (state.ensureInXact fails rel).result
    entered.Tracked ∧ entered.backend.pendingDrops = state.backend.pendingDrops ∧
      entered.ledger = state.ledger ∧
      (∀ after, state.ensureInXact fails rel = .returned after → rel ∈ after.backend.txRels) := by
  unfold State.ensureInXact
  cases found : state.backend.conns rel with
  | none =>
      dsimp only
      split
      · exact ⟨⟨tracked.inTxn, tracked.begun, tracked.written, fun _ => rfl⟩, rfl, rfl, nofun⟩
      · refine ⟨⟨fun other open_ => ?_, fun other inBegun => ?_, tracked.written, fun _ => rfl⟩, rfl, rfl,
          fun after same => ?_⟩
        · by_cases same : other = rel
          · subst same
            simp [Outcome.result, setConn] at open_
          · obtain ⟨touched, began⟩ :=
              tracked.inTxn other (by simpa [Outcome.result, setConn, same] using open_)
            exact ⟨Finset.mem_insert_of_mem touched, began⟩
        · rcases tracked.begun other inBegun with open_ | ended
          · refine .inl ?_
            have different : other ≠ rel := fun same => by simp [same, found] at open_
            simpa [Outcome.result, setConn, different] using open_
          · exact .inr ended
        · cases same
          exact Finset.mem_insert_self _ _
  | some conn =>
      refine ⟨⟨fun other open_ => ?_, tracked.begun, tracked.written, fun _ => rfl⟩, rfl, rfl,
        fun after same => ?_⟩
      · exact ⟨Finset.mem_insert_of_mem (tracked.inTxn other open_).1, (tracked.inTxn other open_).2⟩
      · cases same
        exact Finset.mem_insert_self _ _

theorem Tracked.operate (tracked : state.Tracked) (fails : Faults) (rel : RelId)
    (operation : Operation) :
    let after := (state.operate fails rel operation).result
    after.Tracked ∧ after.backend.pendingDrops = state.backend.pendingDrops ∧
      after.ledger.rolledBack = state.ledger.rolledBack := by
  obtain ⟨kept, drops, ledger, member⟩ := tracked.ensureInXact fails rel
  unfold State.operate
  cases entering : state.ensureInXact fails rel with
  | raised entered =>
      rw [entering] at kept drops ledger
      exact ⟨kept, drops, congrArg Ledger.rolledBack ledger⟩
  | returned entered =>
      rw [entering] at kept drops ledger
      simp only [Outcome.result] at kept drops ledger
      have rolledBack := congrArg Ledger.rolledBack ledger
      dsimp only
      split
      · cases found : entered.backend.conns rel with
        | none => exact ⟨kept, drops, rolledBack⟩
        | some conn =>
            cases began : entered.beginOn fails rel conn with
            | none =>
                simp only [began]
                exact ⟨kept, drops, rolledBack⟩
            | some begun =>
                simp only [began]
                obtain ⟨tracked, same⟩ := kept.beginOn (member entered entering) began
                have inBegun : rel ∈ begun.ledger.begun := by
                  obtain ⟨_, _, rfl⟩ := Option.map_eq_some_iff.mp began
                  exact Finset.mem_insert_self _ _
                have wrote : Tracked { begun with ledger := { begun.ledger with
                    written := insert rel begun.ledger.written } } :=
                  ⟨tracked.inTxn, tracked.begun,
                    Finset.insert_subset inBegun tracked.written, tracked.registered⟩
                split <;>
                  exact ⟨wrote, same.pendingDrops.trans drops, same.rolledBack.trans rolledBack⟩
      · split <;> exact ⟨kept, drops, rolledBack⟩

theorem Tracked.closed (tracked : state.Tracked) (none : state.backend.txRels = ∅) (rel : RelId)
    (conn : RelConn) (found : state.backend.conns rel = some conn) : conn.inTxn = false := by
  cases inside : conn.inTxn with
  | false => rfl
  | true =>
      have open_ : state.backend.conns rel = some ⟨true⟩ := by
        cases conn
        rw [found, ← inside]
      have touched := (tracked.inTxn rel open_).1
      rw [none] at touched
      simp at touched

theorem Tracked.onPrecommit {order : List RelId} (tracked : state.Tracked)
    (complete : order.toFinset = state.backend.txRels) :
    let after := (state.onPrecommit fails order).result
    after.Tracked ∧ after.backend.pendingDrops = state.backend.pendingDrops ∧
      after.ledger.rolledBack = state.ledger.rolledBack ∧
      ∀ returned, state.onPrecommit fails order = .returned returned →
        returned.backend.txRels = ∅ := by
  have touched : ∀ rel ∈ order, rel ∈ state.backend.txRels := by
    intro rel member
    rw [← complete]
    exact List.mem_toFinset.mpr member
  obtain ⟨kept, same⟩ := tracked.forConns (fun _ _ _ _ tracked _ found ran =>
    let both := tracked.commitOn found ran
    ⟨both.1, both.2.1⟩) touched
  unfold State.onPrecommit
  cases finished : State.forConns (State.commitOn fails) order state with
  | raised after =>
      rw [finished] at kept same
      exact ⟨kept, same.pendingDrops, same.rolledBack, nofun⟩
  | returned after =>
      rw [finished] at kept same
      have closed (rel : RelId) : after.backend.conns rel ≠ some ⟨true⟩ := by
        refine closed_of_commits tracked finished rel ?_
        by_cases open_ : state.backend.conns rel = some ⟨true⟩
        · have member := (tracked.inTxn rel open_).1
          rw [← complete] at member
          exact .inl (List.mem_toFinset.mp member)
        · exact .inr open_
      refine ⟨⟨fun rel open_ => absurd open_ (closed rel), kept.begun, kept.written, fun some => ?_⟩,
        same.pendingDrops, same.rolledBack, fun returned same => ?_⟩
      · exact absurd rfl some
      · cases same
        rfl

theorem Tracked.onSubStart {order : List RelId} (tracked : state.Tracked)
    (complete : order.toFinset = state.backend.txRels) :
    (state.onSubStart fails order).result.Tracked ∧
      SameLists state (state.onSubStart fails order).result := by
  refine tracked.forConns (fun _ _ _ _ tracked member _ ran => tracked.beginOn member ran) ?_
  intro rel member
  rw [← complete]
  exact List.mem_toFinset.mpr member

theorem Tracked.onAbort (tracked : state.Tracked) : state.onAbort.Tracked := by
  have rolled (rel : RelId) (conn : RelConn) : conn.rollback ≠ ⟨true⟩ := by
    cases conn with
    | mk inTxn => cases inTxn <;> simp [RelConn.rollback]
  have closed (rel : RelId) : state.onAbort.backend.conns rel ≠ some ⟨true⟩ := by
    intro open_
    simp only [State.onAbort] at open_
    split at open_
    · obtain ⟨conn, _, same⟩ := Option.map_eq_some_iff.mp open_
      exact rolled rel conn same
    · next untouched => exact untouched (tracked.inTxn rel open_).1
  have ended : ∀ rel ∈ state.onAbort.ledger.begun,
      rel ∈ state.onAbort.ledger.committed ∨ rel ∈ state.onAbort.ledger.rolledBack := by
    intro rel inBegun
    rcases tracked.begun rel inBegun with open_ | committed | rolledBack
    · refine .inr (Finset.mem_union_right _ (Finset.mem_filter.mpr ⟨(tracked.inTxn rel open_).1, open_⟩))
    · exact .inl committed
    · exact .inr (Finset.mem_union_left _ rolledBack)
  exact ⟨fun rel open_ => absurd open_ (closed rel), fun rel inBegun => .inr (ended rel inBegun),
    tracked.written, fun some => absurd rfl some⟩

theorem foldl_unlinkStorage (drops : List RelId) (backend : Backend) (rel : RelId) :
    ((drops.foldl unlinkStorage backend).conns rel = none ∨
        (drops.foldl unlinkStorage backend).conns rel = backend.conns rel) ∧
      (drops.foldl unlinkStorage backend).txRels ⊆ backend.txRels := by
  induction drops generalizing backend with
  | nil => exact ⟨.inr rfl, Finset.Subset.refl _⟩
  | cons dropped drops ih =>
      obtain ⟨conns, txRels⟩ := ih (unlinkStorage backend dropped)
      refine ⟨?_, txRels.trans (Finset.erase_subset _ _)⟩
      rcases conns with gone | kept
      · exact .inl gone
      · by_cases same : rel = dropped
        · subst same
          exact .inl (kept.trans (by simp [unlinkStorage]))
        · exact .inr (kept.trans (by simp [unlinkStorage, same]))

theorem Tracked.onCommit (tracked : state.Tracked) (none : state.backend.txRels = ∅) :
    state.onCommit.Tracked ∧ state.onCommit.backend.txRels = ∅ := by
  have conns (rel : RelId) := (foldl_unlinkStorage state.backend.pendingDrops state.backend rel).1
  have txRels := (foldl_unlinkStorage state.backend.pendingDrops state.backend 0).2
  rw [none] at txRels
  have empty := Finset.subset_empty.mp txRels
  have closed (rel : RelId) : state.backend.conns rel ≠ some ⟨true⟩ := by
    intro open_
    have touched := (tracked.inTxn rel open_).1
    rw [none] at touched
    simp at touched
  refine ⟨⟨fun rel open_ => ?_, fun rel inBegun => ?_, tracked.written, fun some => absurd empty some⟩, empty⟩
  · rcases conns rel with gone | kept
    · exact absurd (gone.symm.trans open_) (by simp)
    · exact absurd (kept.symm.trans open_) (closed rel)
  · exact .inr ((tracked.begun rel inBegun).resolve_left (closed rel))

end State

/-! ## Runs -/

namespace Session

variable {session next final : Session} {event : Event}

/-- Between two events the state is tracked, nothing is rolled back before the end, and a
transaction that has ended left nothing. -/
structure Kept (session : Session) : Prop where
  tracked : session.state.Tracked
  fresh : session.phase ≠ .idle → session.state.ledger.rolledBack = ∅
  preCommitted : session.phase = .preCommitted → session.state.backend.txRels = ∅
  ended : session.phase = .idle → session.Ended

theorem Kept.start : start.Kept where
  tracked := ⟨nofun, nofun, Finset.Subset.refl _, fun some => absurd rfl some⟩
  fresh := fun busy => absurd rfl busy
  preCommitted := nofun
  ended := fun _ => ⟨rfl, rfl, nofun, nofun, nofun⟩

theorem phase_of_active (active : session.active = true) :
    session.phase = .running ∧ session.failed = false := by
  simpa [Session.active] using active

theorem toFinset_of_enumerates {order : List RelId} (complete : session.enumerates order = true) :
    order.toFinset = session.state.backend.txRels := by
  simp only [enumerates, decide_eq_true_eq] at complete
  exact complete.2

@[simp] theorem leave_state (session : Session) (outcome : Outcome State) :
    (session.leave outcome).state = outcome.result := by
  cases outcome <;> rfl

@[simp] theorem leave_phase (session : Session) (outcome : Outcome State) :
    (session.leave outcome).phase = session.phase := by
  cases outcome <;> rfl

theorem Kept.running (kept : session.Kept) (running : session.phase = .running)
    (tracked : next.state.Tracked) (phase : next.phase = .running)
    (rolledBack : next.state.ledger.rolledBack = session.state.ledger.rolledBack) : next.Kept where
  tracked := tracked
  fresh := fun _ => rolledBack.trans (kept.fresh (by simp [running]))
  preCommitted := fun done => by simp [phase] at done
  ended := fun idle => by simp [phase] at idle

theorem Kept.finish (state : State) (how : End) (tracked : state.Tracked)
    (txRels : state.backend.txRels = ∅) (drops : state.backend.pendingDrops = [])
    (commit : how = .commit → state.ledger.rolledBack = ∅) :
    Kept ⟨state, .idle, false, 0, some how⟩ := by
  have closed (rel : RelId) : state.backend.conns rel ≠ some ⟨true⟩ := by
    intro open_
    have inside := tracked.closed txRels rel _ open_
    cases inside
  refine ⟨tracked, fun busy => absurd rfl busy, nofun, fun _ =>
    ⟨txRels, drops, tracked.closed txRels, fun same rel member => ?_, fun _ rel member => ?_⟩⟩
  · obtain rfl := Option.some.inj same
    have ended := (tracked.begun rel (tracked.written member)).resolve_left (closed rel)
    rw [commit rfl] at ended
    exact ended.resolve_right (Finset.notMem_empty rel)
  · exact (tracked.begun rel member).resolve_left (closed rel)

theorem Kept.begin (kept : session.Kept) (stepped : session.step .begin = some next) : next.Kept := by
  obtain ⟨idle, same⟩ := Option.ite_none_right_eq_some.mp stepped
  obtain rfl := Option.some.inj same
  have ended := kept.ended idle
  refine ⟨⟨fun rel open_ => ?_, nofun, Finset.Subset.refl _, kept.tracked.registered⟩,
    fun _ => rfl, nofun, nofun⟩
  have inside := ended.conns rel _ open_
  cases inside

theorem Kept.preCommit (kept : session.Kept) {order : List RelId} {fails : Faults}
    (stepped : session.step (.preCommit order fails) = some next) : next.Kept := by
  obtain ⟨⟨active, _, complete⟩, same⟩ := Option.ite_none_right_eq_some.mp stepped
  obtain ⟨running, _⟩ := phase_of_active active
  cases registered : session.state.backend.callbacksRegistered with
  | true =>
      obtain ⟨tracked, _, rolledBack, emptied⟩ :=
        kept.tracked.onPrecommit (toFinset_of_enumerates complete)
      simp only [callback, registered, ↓reduceIte] at same
      cases ran : State.onPrecommit fails order session.state with
      | returned state =>
          rw [ran] at tracked rolledBack same
          obtain rfl := Option.some.inj same
          exact ⟨tracked, fun _ => rolledBack.trans (kept.fresh (by simp [running])),
            fun _ => emptied state ran, nofun⟩
      | raised state =>
          rw [ran] at tracked rolledBack same
          obtain rfl := Option.some.inj same
          exact kept.running running tracked running rolledBack
  | false =>
      simp only [callback, registered, Bool.false_eq_true, ↓reduceIte] at same
      obtain rfl := Option.some.inj same
      refine ⟨kept.tracked, fun _ => kept.fresh (by simp [running]), fun _ => ?_, nofun⟩
      refine not_not.mp fun some => ?_
      have used := kept.tracked.registered some
      rw [registered] at used
      cases used

theorem Kept.step (kept : session.Kept) (covered : session.Covered event)
    (stepped : session.step event = some next) : next.Kept := by
  cases event with
  | begin => exact kept.begin stepped
  | operate rel operation fails =>
      obtain ⟨active, same⟩ := Option.ite_none_right_eq_some.mp stepped
      obtain rfl := Option.some.inj same
      obtain ⟨running, _⟩ := phase_of_active active
      obtain ⟨tracked, _, rolledBack⟩ := kept.tracked.operate fails rel operation
      exact kept.running running (by simpa using tracked) (by simpa using running)
        (by simpa using rolledBack)
  | drop rel =>
      obtain ⟨active, same⟩ := Option.ite_none_right_eq_some.mp stepped
      obtain rfl := Option.some.inj same
      obtain ⟨running, _⟩ := phase_of_active active
      obtain ⟨inTxn, begun, written, registered⟩ := kept.tracked
      exact kept.running running ⟨inTxn, begun, written, registered⟩ running rfl
  | startSub order fails =>
      obtain ⟨⟨active, complete⟩, same⟩ := Option.ite_none_right_eq_some.mp stepped
      obtain rfl := Option.some.inj same
      obtain ⟨running, _⟩ := phase_of_active active
      unfold callback
      split
      · obtain ⟨tracked, same⟩ := kept.tracked.onSubStart (toFinset_of_enumerates complete)
        exact kept.running running (by simpa using tracked) (by simpa using running)
          (by simpa using same.rolledBack)
      · exact kept.running running kept.tracked running rfl
  | commitSub =>
      obtain ⟨⟨active, _⟩, same⟩ := Option.ite_none_right_eq_some.mp stepped
      obtain rfl := Option.some.inj same
      obtain ⟨running, _⟩ := phase_of_active active
      exact kept.running running kept.tracked running rfl
  | abortSub =>
      obtain ⟨⟨running, _⟩, same⟩ := Option.ite_none_right_eq_some.mp stepped
      obtain rfl := Option.some.inj same
      exact kept.running running kept.tracked running rfl
  | preCommit order fails => exact kept.preCommit stepped
  | commit =>
      obtain ⟨done, same⟩ := Option.ite_none_right_eq_some.mp stepped
      obtain rfl := Option.some.inj same
      have rolledBack := kept.fresh (by simp [done])
      split
      · obtain ⟨tracked, txRels⟩ := kept.tracked.onCommit (kept.preCommitted done)
        exact Kept.finish _ .commit tracked txRels rfl fun _ => rolledBack
      · next unregistered =>
          exact Kept.finish _ .commit kept.tracked (kept.preCommitted done)
            (covered.resolve_left unregistered) fun _ => rolledBack
  | abort =>
      obtain ⟨_, same⟩ := Option.ite_none_right_eq_some.mp stepped
      obtain rfl := Option.some.inj same
      split
      · exact Kept.finish _ .abort kept.tracked.onAbort rfl rfl nofun
      · next unregistered =>
          exact Kept.finish _ .abort kept.tracked
            (not_not.mp fun some => unregistered (kept.tracked.registered some))
            (covered.resolve_left unregistered) nofun

/-- An end whose callback is missing leaves the drops that were pending. -/
theorem covered_of_ended (stepped : session.step event = some next)
    (ended : next.phase = .idle → next.Ended) : session.Covered event := by
  cases event with
  | begin | operate | drop | startSub | commitSub | abortSub | preCommit => trivial
  | commit | abort =>
      obtain ⟨_, same⟩ := Option.ite_none_right_eq_some.mp stepped
      obtain rfl := Option.some.inj same
      cases registered : session.state.backend.callbacksRegistered with
      | true => exact .inl registered
      | false =>
          have drops := (ended rfl).pendingDrops
          simp only [registered, Bool.false_eq_true, ↓reduceIte] at drops
          exact .inr drops

/-- In every run of a backend each transaction end restores the idle state if and only if
each comes after a table operation of the backend, or with no drop pending. -/
theorem restores_iff_covered {events : List Event} (reached : start.run events = some final) :
    (∀ before, before <+: events → ∀ session, start.run before = some session →
        session.phase = .idle → session.Ended) ↔
      Transition.Meets step Covered start events := by
  refine @Transition.good_iff_meets _ _ Session.step Covered (fun _ _ => True) Kept
    (fun session => session.phase = .idle → session.Ended) ?_ (fun _ kept => kept.ended) ?_ _ _ _
    Kept.start (Transition.meets_trivial _ _) reached
  · exact fun _ _ _ kept _ covered stepped => kept.step covered stepped
  · exact fun _ _ _ _ _ stepped ended => covered_of_ended stepped ended

def noFaults : Faults := fun _ _ => false

/-- A table is written and dropped, and another one's COMMIT fails. -/
def writeAndDrop : List Event :=
  [.begin, .operate 1 .insert noFaults, .drop 1, .preCommit [1] noFaults, .commit,
    .begin, .operate 1 .insert noFaults, .operate 2 .updateRow noFaults,
    .preCommit [2, 1] (fun rel sql => rel = 1 ∧ sql = .commit), .abort]

theorem writeAndDrop_restores :
    ∃ final, start.run writeAndDrop = some final ∧
      ((∀ before, before <+: writeAndDrop → ∀ session, start.run before = some session →
          session.phase = .idle → session.Ended) ↔
        Transition.Meets step Covered start writeAndDrop) :=
  ⟨_, rfl, restores_iff_covered rfl⟩

/-- A backend that has used no table drops one and rolls back: the drop stays pending, and
the next transaction that commits unlinks the file of the table. -/
theorem rolledBackDrop_stays :
    ∃ session later, start.run [.begin, .drop 7, .abort] = some session ∧
      session.phase = .idle ∧ session.state.backend.pendingDrops = [7] ∧ ¬ session.Ended ∧
      session.run [.begin, .operate 7 .insert noFaults, .preCommit [7] noFaults, .commit] = some later ∧
      later.state.ledger.committed = {7} ∧ later.state.backend.conns 7 = none := by
  refine ⟨_, _, rfl, rfl, rfl, fun ended => ?_, rfl, by decide, by decide⟩
  have none := ended.pendingDrops
  cases none

end Session

end SqliteHeap.Zig
