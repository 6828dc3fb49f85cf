import SqliteHeap.History
import SqliteHeap.IndexEntries

/-! Old rows. Nothing rewrites a stored `xmin`, and `xid_view` compares it with the bounds
of the snapshot modulo `2 ^ 32`. -/

set_option autoImplicit false

namespace SqliteHeap

namespace Write

/-- The call does not delete, stamp or truncate away the row at this rowid. -/
def spares (rowid : Int) : Write → Bool
  | .setXmax target _ _ | .updateRow target _ _ _ | .physicalDelete target => target ≠ rowid
  | .reset => false
  | .insert _ _ _ | .insertBatch _ _ _ | .metaSet _ _ | .deleteDead _ => true

theorem mem_stampRow_of_ne {table : Table} {row : StoredRow} {rowid : Int}
    (member : row ∈ table.rows) (other : rowid ≠ row.rowid) (xmax : TransactionId) (cmax : CommandId) :
    row ∈ (table.stampRow rowid xmax cmax).rows := by
  refine List.mem_map.mpr ⟨row, member, ?_⟩
  have missed : Table.isLive rowid row = false := by simp [Table.isLive, Ne.symm other]
  simp [Table.stamp, missed]

/-- Every other call leaves a row without `xmax` as it is: nothing freezes its `xmin`. -/
theorem mem_apply_of_spares {write : Write} {table : Table} {row : StoredRow}
    (member : row ∈ table.rows) (undeleted : row.xmax = 0#32)
    (spares : write.spares row.rowid = true) : row ∈ (write.apply table).rows := by
  cases write with
  | insert xmin cmin tuple => exact List.mem_append_left _ member
  | insertBatch xmin cmin tuples => exact mem_insertBatch member
  | metaSet key value => exact member
  | setXmax target xmax cmax =>
      exact mem_stampRow_of_ne member (by simpa [Write.spares] using spares) xmax cmax
  | updateRow target xid cid tuple =>
      exact List.mem_append_left _
        (mem_stampRow_of_ne member (by simpa [Write.spares] using spares) xid cid)
  | physicalDelete target =>
      have other : target ≠ row.rowid := by simpa [Write.spares] using spares
      exact List.mem_filter.mpr ⟨member, by simpa using other.symm⟩
  | reset => simp [Write.spares] at spares
  | deleteDead oldest =>
      refine List.mem_filter.mpr ⟨member, ?_⟩
      simp [Table.isDead, undeleted, bindU32]

end Write

namespace History

/-- Answers of Postgres when `TransactionIdDidCommit` remembers every commit. -/
def remembering (history : History) (reader : TxnId) : Xacts where
  __ := Xacts.idle
  isCurrent stored :=
    history.status reader = .running &&
      history.assigned.any fun assigned => assigned.owner = reader && assigned.stored = stored
  isInProgress stored :=
    history.assigned.any fun assigned =>
      assigned.stored = stored && history.status assigned.owner = .running
  transactionIdDidCommit stored :=
    isPermanent stored || history.assigned.any fun assigned =>
      assigned.stored = stored && history.status assigned.owner = .committed

end History

/-- The xid is before the bound modulo `2 ^ 32`: by one to `2 ^ 31` ids. -/
def Behind (xid bound : Nat) : Prop :=
  0 < ((bound : Int) - xid) % 2 ^ 32 ∧ ((bound : Int) - xid) % 2 ^ 32 ≤ 2 ^ 31

instance (xid bound : Nat) : Decidable (Behind xid bound) := inferInstanceAs (Decidable (_ ∧ _))

namespace History

/-- The reader has an xid with the same low half. -/
def OwnAlias (history : History) (reader : TxnId) (xid : Nat) : Prop :=
  history.status reader = .running ∧
    ∃ own ∈ history.assigned, own.owner = reader ∧ own.xid % 2 ^ 32 = xid % 2 ^ 32

/-- A snapshot of the reader lists an xid with the same low half. -/
def ListedAlias (history : History) (reader : TxnId) (xid : Nat) : Prop :=
  ∃ other ∈ history.running, other.owner ≠ reader ∧ other.sub = false ∧
    other.xid < history.xmax ∧ other.xid % 2 ^ 32 = xid % 2 ^ 32

instance (history : History) (reader : TxnId) (xid : Nat) : Decidable (history.OwnAlias reader xid) :=
  inferInstanceAs (Decidable (_ ∧ _))

instance (history : History) (reader : TxnId) (xid : Nat) :
    Decidable (history.ListedAlias reader xid) :=
  inferInstanceAs (Decidable (∃ other ∈ _, _))

end History

/-- The distances at which a committed row is still seen, by a snapshot that its reader
took when the cluster was at `taken` and uses when it is at `now`. -/
def Reaches (taken now : History) (reader : TxnId) (curcid cmin : CommandId) (xid : Nat) : Prop :=
  if now.OwnAlias reader xid then cmin < curcid
  else Behind xid taken.xmin ∨ Behind xid taken.xmax ∧ ¬ taken.ListedAlias reader xid

instance (taken now : History) (reader : TxnId) (curcid cmin : CommandId) (xid : Nat) :
    Decidable (Reaches taken now reader curcid cmin xid) :=
  inferInstanceAs (Decidable (ite _ _ _))

theorem isNormal_storedXid {xid : Nat} (normal : 3 ≤ xid % 2 ^ 32) : isNormal (storedXid xid) = true := by
  simp only [isNormal, storedXid, decide_eq_true_eq, BitVec.le_def, BitVec.toNat_ofNat]
  omega

theorem storedXid_eq_iff {xid other : Nat} : storedXid xid = storedXid other ↔
    xid % 2 ^ 32 = other % 2 ^ 32 := by
  rw [storedXid, storedXid, ← BitVec.toNat_inj, BitVec.toNat_ofNat, BitVec.toNat_ofNat]

theorem precedes_storedXid_iff {xid bound : Nat} (normal : 3 ≤ xid % 2 ^ 32)
    (bounded : 3 ≤ bound % 2 ^ 32) :
    transactionIdPrecedes (storedXid xid) (storedXid bound) = true ↔ Behind xid bound := by
  rw [transactionIdPrecedes_of_normal (isNormal_storedXid normal) (isNormal_storedXid bounded), storedXid,
    storedXid, Circular.precedes_ofNat_iff_emod (by decide), Behind]
  omega

/-! ## A relation while transactions pass -/

/-- The committed file of a relation, beside the transactions of the cluster. -/
structure Aging where
  history : History
  table : Table

inductive AgingEvent where
  | xact (event : XactEvent)
  /-- A write of some transaction that SQLite has committed. -/
  | write (write : Write)

def AgingEvent.Spares (rowid : Int) : AgingEvent → Prop
  | .xact _ => True
  | .write call => call.spares rowid = true

namespace Aging

def start : Aging := ⟨History.start, Table.empty⟩

def step (aging : Aging) : AgingEvent → Option Aging
  | .xact event => (aging.history.step event).map fun history => { aging with history := history }
  | .write write => some { aging with table := write.apply aging.table }

def run : Aging → List AgingEvent → Option Aging := Transition.run step

/-- `row_visible` in the reader's backend. -/
def rowVisible (aging : Aging) (reader : TxnId) (row : StoredHeader) (snapshot : Snapshot) : Bool :=
  (Visibility.rowVisible (aging.history.remembering reader) row snapshot).1

variable {aging next taken now : Aging} {events : List AgingEvent} {row : StoredRow}

theorem row_of_run (member : row ∈ aging.table.rows) (undeleted : row.xmax = 0#32)
    (spares : ∀ event ∈ events, event.Spares row.rowid)
    (reached : run aging events = some next) : row ∈ next.table.rows := by
  induction events generalizing aging with
  | nil =>
      cases reached
      exact member
  | cons event events ih =>
      obtain ⟨middle, stepped, reached⟩ := Transition.run_cons_iff.mp reached
      obtain ⟨first, spares⟩ := List.forall_mem_cons.mp spares
      refine ih ?_ spares reached
      cases event with
      | xact event =>
          obtain ⟨history, _, rfl⟩ := Option.map_eq_some_iff.mp stepped
          exact member
      | write write =>
          cases stepped
          exact Write.mem_apply_of_spares member undeleted first

theorem since_of_step {event : AgingEvent} (formed : aging.history.WellFormed)
    (stepped : aging.step event = some next) :
    next.history.WellFormed ∧ aging.history.Since next.history := by
  cases event with
  | xact event =>
      obtain ⟨history, taken, rfl⟩ := Option.map_eq_some_iff.mp stepped
      have changed := History.changes_of_step taken
      exact ⟨formed.change changed, .change formed changed⟩
  | write write =>
      cases stepped
      exact ⟨formed, .refl _⟩

theorem since_of_run (formed : aging.history.WellFormed) (reached : run aging events = some next) :
    next.history.WellFormed ∧ aging.history.Since next.history := by
  induction events generalizing aging with
  | nil =>
      cases reached
      exact ⟨formed, .refl _⟩
  | cons event events ih =>
      obtain ⟨middle, stepped, reached⟩ := Transition.run_cons_iff.mp reached
      obtain ⟨formed, first⟩ := since_of_step formed stepped
      obtain ⟨formed, later⟩ := ih formed reached
      exact ⟨formed, first.trans later⟩

end Aging

/-! ## The verdict on a committed row -/

section

variable {taken now : History} {reader : TxnId} {inserter : AssignedXid}

theorem didCommit_remembering (member : inserter ∈ now.assigned) (normal : 3 ≤ inserter.xid % 2 ^ 32)
    (committed : now.status inserter.owner = .committed) :
    Visibility.didCommit (now.remembering reader) inserter.stored = true := by
  have nonzero : inserter.stored ≠ 0#32 := by
    intro zero
    have bits := congrArg BitVec.toNat zero
    simp only [AssignedXid.stored, storedXid, BitVec.toNat_ofNat] at bits
    omega
  have known : (now.assigned.any fun assigned =>
      assigned.stored = inserter.stored && now.status assigned.owner = .committed) = true :=
    List.any_eq_true.mpr ⟨inserter, member, by simp [committed]⟩
  simp only [Visibility.didCommit, nonzero, ↓reduceIte, History.remembering, known, Bool.or_true]

theorem isCurrent_remembering_iff (xid : Nat) :
    (now.remembering reader).isCurrent (storedXid xid) = true ↔ now.OwnAlias reader xid := by
  simp only [History.remembering, Bool.and_eq_true, decide_eq_true_eq, List.any_eq_true,
    AssignedXid.stored, storedXid_eq_iff, History.OwnAlias]

theorem mem_xip_iff_listedAlias (curcid : CommandId) (xid : Nat) :
    storedXid xid ∈ (taken.snapshot reader curcid).xip ↔ taken.ListedAlias reader xid := by
  simp only [History.snapshot, List.mem_map, List.mem_filter, Bool.and_eq_true, Bool.not_eq_true',
    decide_eq_true_eq, AssignedXid.stored, storedXid_eq_iff, History.ListedAlias]
  constructor
  · rintro ⟨other, ⟨⟨running, foreign⟩, top, below⟩, bits⟩
    exact ⟨other, running, foreign, top, below, bits⟩
  · rintro ⟨other, running, foreign, top, below, bits⟩
    exact ⟨other, ⟨⟨running, foreign⟩, top, below⟩, bits⟩

/-- A committed row that was never deleted is visible exactly at the distances that reach. -/
theorem visible_iff_reaches (formedTaken : taken.WellFormed) (formedNow : now.WellFormed)
    (member : inserter ∈ now.assigned) (committed : now.status inserter.owner = .committed)
    {row : StoredHeader} (inserted : row.xmin = inserter.stored) (undeleted : row.xmax = 0#32)
    (curcid : CommandId) :
    (Visibility.rowVisible (now.remembering reader) row (taken.snapshot reader curcid)).1 = true ↔
      Reaches taken now reader curcid row.cmin inserter.xid := by
  have normal := formedNow.normal inserter member
  have current : (now.remembering reader).isCurrent (storedXid inserter.xid) = true ↔
      now.OwnAlias reader inserter.xid := isCurrent_remembering_iff inserter.xid
  have kept : ¬ Visibility.DeletedFor (now.remembering reader) row (taken.snapshot reader curcid) :=
    fun deleted => deleted.1 undeleted
  have mvcc : (Visibility.rowVisible (now.remembering reader) row (taken.snapshot reader curcid)).1 =
      Visibility.visibleMvcc (now.remembering reader) row (taken.snapshot reader curcid) := rfl
  rw [mvcc, Visibility.visibleMvcc_iff, Visibility.xidView_committed_iff, inserted,
    and_iff_left kept, didCommit_remembering member normal committed, AssignedXid.stored,
    mem_xip_iff_listedAlias]
  change (_ ∧ _ ∧ (transactionIdPrecedes _ (storedXid taken.xmin) = true ∨
    transactionIdPrecedes _ (storedXid taken.xmax) = true ∧ _)) ∨ _ ∧ row.cmin < curcid ↔ _
  rw [precedes_storedXid_iff normal formedTaken.xmin_normal,
    precedes_storedXid_iff normal formedTaken.xmax_normal]
  unfold Reaches
  by_cases own : now.OwnAlias reader inserter.xid
  · simp [current.mpr own, own]
  · have foreign : (now.remembering reader).isCurrent (storedXid inserter.xid) = false :=
      Bool.eq_false_iff.mpr fun held => own (current.mp held)
    simp [foreign, own]

end

namespace Aging

/-- In every run, a row whose inserter committed and that nothing deletes stays in the file,
and a snapshot taken any number of transactions later sees it at the distances that reach
and at no others. -/
theorem visible_iff {setup past future : List AgingEvent} {settled taken now : Aging}
    {inserter : AssignedXid} {row : StoredRow} (ready : run start setup = some settled)
    (member : row ∈ settled.table.rows) (assigned : inserter ∈ settled.history.assigned)
    (committed : settled.history.status inserter.owner = .committed)
    (inserted : row.xmin = inserter.stored) (undeleted : row.xmax = 0#32)
    (passed : run settled past = some taken) (used : run taken future = some now)
    (spares : ∀ event ∈ past ++ future, event.Spares row.rowid)
    (reader : TxnId) (curcid : CommandId) :
    row ∈ now.table.rows ∧
      (now.rowVisible reader row.toStoredHeader (taken.history.snapshot reader curcid) = true ↔
        Reaches taken.history now.history reader curcid row.cmin inserter.xid) := by
  obtain ⟨formed, _⟩ := since_of_run History.WellFormed.start ready
  obtain ⟨formedTaken, sinceTaken⟩ := since_of_run formed passed
  obtain ⟨formedNow, sinceNow⟩ := since_of_run formedTaken used
  have since := sinceTaken.trans sinceNow
  refine ⟨row_of_run member undeleted spares (Transition.run_append_iff.mpr ⟨taken, passed, used⟩), ?_⟩
  exact visible_iff_reaches formedTaken formedNow (since.kept inserter assigned (.inr committed))
    (since.committed _ committed) inserted undeleted curcid

/-- A row is inserted and read two transactions later. -/
theorem visible_soon :
    ∃ settled taken now : Aging,
      run start [.xact (.begin 0), .xact (.assign 0), .write (.insert 3#32 0#32 [1]),
        .xact (.commit 0)] = some settled ∧
      run settled [.xact (.begin 1), .xact (.assign 1)] = some taken ∧
      run taken [.xact (.commit 1)] = some now ∧
      (⟨⟨1, 3#32, 0#32, 0#32, 0#32⟩, [1]⟩ : StoredRow) ∈ now.table.rows ∧
        (now.rowVisible 2 ⟨1, 3#32, 0#32, 0#32, 0#32⟩ (taken.history.snapshot 2 0#32) = true ↔
          Reaches taken.history now.history 2 0#32 0#32 3) :=
  ⟨_, _, _, rfl, rfl, rfl,
    @visible_iff [.xact (.begin 0), .xact (.assign 0), .write (.insert 3#32 0#32 [1]),
        .xact (.commit 0)] [.xact (.begin 1), .xact (.assign 1)] [.xact (.commit 1)] _ _ _
      ⟨3, 0, false⟩ ⟨⟨1, 3#32, 0#32, 0#32, 0#32⟩, [1]⟩ rfl (.head _) (.head _) rfl rfl rfl rfl rfl
      (by simp [AgingEvent.Spares]) 2 0#32⟩

/-! ## Many transactions -/

/-- Transactions that begin, get an xid and commit, one after another. -/
def consume (first : Nat) : Nat → List XactEvent
  | 0 => []
  | count + 1 => [.begin first, .assign first, .commit first] ++ consume (first + 1) count

/-- The cluster after the first transactions. -/
def consumed (count : Nat) : History where
  nextXid := 3 + count
  latestCompleted := 2 + count
  assigned := (List.range count).map fun txn => ⟨3 + txn, txn, false⟩
  status txn := if txn < count then .committed else .unstarted

theorem owner_of_mem_consumed {count : Nat} {assigned : AssignedXid}
    (member : assigned ∈ (consumed count).assigned) : assigned.owner < count := by
  obtain ⟨txn, below, rfl⟩ := List.mem_map.mp member
  exact List.mem_range.mp below

theorem run_transaction {count : Nat} (fits : count + 4 < 2 ^ 32) :
    History.run (consumed count) [.begin count, .assign count, .commit count] =
      some (consumed (count + 1)) := by
  let started := (consumed count).setStatus count .running
  have begun : (consumed count).step (.begin count) = some started := by
    simp [History.step, consumed, started]
  have free : started.topXid count = none := by
    refine Option.map_eq_none_iff.mpr (List.find?_eq_none.mpr fun assigned member => ?_)
    have other : assigned.owner ≠ count := (owner_of_mem_consumed member).ne
    simp [other]
  have running : started.status count = .running := History.setStatus_self _ _ _
  let given := started.assignXid count false
  have assigned : started.step (.assign count) = some given := by
    simp [History.step, running, free, given]
  have ended : given.step (.commit count) = some (given.finish count .committed) :=
    if_pos running
  have completed : given.assigned.filter (fun assigned => assigned.owner = count) =
      [⟨3 + count, count, false⟩] := by
    have others : (consumed count).assigned.filter (fun assigned => assigned.owner = count) = [] :=
      List.filter_eq_nil_iff.mpr fun assigned member => by
        simp [(owner_of_mem_consumed member).ne]
    have appended : given.assigned = (consumed count).assigned ++ [⟨3 + count, count, false⟩] := rfl
    rw [appended, List.filter_append, others]
    simp
  have last : given.finish count .committed = consumed (count + 1) := by
    have next : advanceXid (3 + count) = 3 + (count + 1) := by
      unfold advanceXid
      split <;> omega
    have latest : max (3 + count) (2 + count) = 2 + (count + 1) := by
      rw [Nat.max_eq_left (by omega)]
      omega
    have status : (given.finish count .committed).status = (consumed (count + 1)).status := by
      funext txn
      change Function.update (Function.update (consumed count).status count .running) count .committed txn =
        if txn < count + 1 then .committed else .unstarted
      by_cases same : txn = count
      · simp [same]
      · have bounds : txn < count + 1 ↔ txn < count :=
          ⟨fun below => Nat.lt_of_le_of_ne (Nat.le_of_lt_succ below) same, Nat.lt_succ_of_lt⟩
        simp [same, consumed, bounds]
    have xids : (consumed count).assigned ++ [⟨3 + count, count, false⟩] =
        (consumed (count + 1)).assigned := by
      simp [consumed, List.range_succ]
    have whole : given.finish count .committed = ⟨advanceXid (3 + count),
        given.complete (given.assigned.filter fun assigned => assigned.owner = count),
        (consumed count).assigned ++ [⟨3 + count, count, false⟩],
        (given.finish count .committed).status⟩ := rfl
    have completes : given.complete [⟨3 + count, count, false⟩] = max (3 + count) (2 + count) := rfl
    rw [whole, completed, completes, next, latest, xids, status]
    rfl
  refine Transition.run_cons_iff.mpr ⟨_, begun, Transition.run_cons_iff.mpr ⟨_, assigned, ?_⟩⟩
  exact Transition.run_cons_iff.mpr ⟨_, ended, congrArg some last⟩

theorem run_consume (first count : Nat) (fits : first + count + 4 ≤ 2 ^ 32) :
    History.run (consumed first) (consume first count) = some (consumed (first + count)) := by
  induction count generalizing first with
  | zero => rfl
  | succ count ih =>
      have rest := ih (first + 1) (by omega)
      rw [Nat.add_assoc, Nat.add_comm 1] at rest
      exact Transition.run_append_iff.mpr ⟨_, run_transaction (by omega), rest⟩

theorem run_xacts {aging : Aging} {events : List XactEvent} {history : History}
    (reached : History.run aging.history events = some history) :
    run aging (events.map .xact) = some { aging with history := history } := by
  induction events generalizing aging with
  | nil =>
      cases reached
      rfl
  | cons event events ih =>
      obtain ⟨middle, stepped, reached⟩ := Transition.run_cons_iff.mp reached
      exact Transition.run_cons_iff.mpr
        ⟨{ aging with history := middle }, Option.map_eq_some_iff.mpr ⟨middle, stepped, rfl⟩, ih reached⟩

theorem running_reading (count : Nat) :
    ((consumed count).setStatus count .running).running = [] := by
  refine List.filter_eq_nil_iff.mpr fun assigned member => ?_
  have below := owner_of_mem_consumed member
  simp [History.setStatus, consumed, below.ne, below]

/-- A row that the first transaction inserted, out of the sight of a transaction that begins
after `2 ^ 31` others. -/
structure Vanished (past : List AgingEvent) (settled taken : Aging) (row : StoredRow)
    (inserter : AssignedXid) (reader : TxnId) : Prop where
  ready : run start (.write (.insert 3#32 0#32 [1]) :: (consume 0 1).map .xact) = some settled
  member : row ∈ settled.table.rows
  assigned : inserter ∈ settled.history.assigned
  committed : settled.history.status inserter.owner = .committed
  inserted : row.xmin = inserter.stored
  undeleted : row.xmax = 0#32
  passed : run settled past = some taken
  spares : ∀ event ∈ past, event.Spares row.rowid
  reading : taken.history.status reader = .running
  stays : row ∈ taken.table.rows
  hidden : taken.rowVisible reader row.toStoredHeader (taken.history.snapshot reader 0#32) = false

theorem vanished {count : Nat} (far : 2 ^ 31 ≤ count) (fits : count + 5 ≤ 2 ^ 32) :
    Vanished ((consume 1 count ++ [XactEvent.begin (1 + count)]).map .xact)
      ⟨consumed 1, Table.empty.insertRow 3#32 0#32 [1]⟩
      ⟨(consumed (1 + count)).setStatus (1 + count) .running, Table.empty.insertRow 3#32 0#32 [1]⟩
      ⟨⟨1, 3#32, 0#32, 0#32, 0#32⟩, [1]⟩ ⟨3, 0, false⟩ (1 + count) := by
  let settled : Aging := ⟨consumed 1, Table.empty.insertRow 3#32 0#32 [1]⟩
  let reading := (consumed (1 + count)).setStatus (1 + count) .running
  have begun : (consumed (1 + count)).step (.begin (1 + count)) = some reading := by
    simp [History.step, consumed, reading]
  have passed : run settled ((consume 1 count ++ [XactEvent.begin (1 + count)]).map .xact) =
      some { settled with history := reading } := by
    refine run_xacts (Transition.run_append_iff.mpr ⟨_, run_consume 1 count (by omega), ?_⟩)
    exact Transition.run_cons_iff.mpr ⟨reading, begun, rfl⟩
  have spares : ∀ event ∈ (consume 1 count ++ [XactEvent.begin (1 + count)]).map AgingEvent.xact,
      event.Spares 1 := by
    intro event member
    obtain ⟨_, _, rfl⟩ := List.mem_map.mp member
    trivial
  have ready : run start (.write (.insert 3#32 0#32 [1]) :: (consume 0 1).map .xact) = some settled :=
    Transition.run_cons_iff.mpr ⟨⟨consumed 0, settled.table⟩, rfl, run_xacts (run_consume 0 1 (by decide))⟩
  obtain ⟨formed, _⟩ := since_of_run History.WellFormed.start ready
  obtain ⟨formedTaken, since⟩ := since_of_run formed passed
  have assigned : (⟨3, 0, false⟩ : AssignedXid) ∈ settled.history.assigned := .head _
  have committed : settled.history.status 0 = .committed := rfl
  have hidden : ¬ Reaches reading reading (1 + count) 0#32 0#32 3 := by
    have xmax : reading.xmax = 4 + count := by
      change advanceXid (2 + (1 + count)) = _
      unfold advanceXid
      split <;> omega
    have xmin : reading.xmin = 4 + count := by
      rw [← xmax, History.xmin, running_reading]
      rfl
    have foreign : ¬ reading.OwnAlias (1 + count) 3 := by
      rintro ⟨_, own, member, mine, _⟩
      exact absurd mine (owner_of_mem_consumed member).ne
    have far : ¬ Behind 3 (4 + count) := by
      unfold Behind
      omega
    rw [Reaches, if_neg foreign, xmin, xmax]
    exact fun reaches => reaches.elim far fun both => far both.1
  refine ⟨ready, .head _, assigned, committed, rfl, rfl, passed, spares, History.setStatus_self _ _ _, .head _,
    Bool.eq_false_iff.mpr fun visible => hidden ?_⟩
  exact (visible_iff_reaches formedTaken formedTaken (since.kept _ assigned (.inr committed))
    (since.committed _ committed) rfl rfl 0#32).mp visible

theorem vanishes_after_half_circle :
    ∃ past settled taken row inserter reader, Vanished past settled taken row inserter reader :=
  ⟨_, _, _, _, _, _, @vanished (2 ^ 31) (by decide) (by decide)⟩

end Aging

end SqliteHeap
