import SqliteHeap.Lib.Transition
import SqliteHeap.Visibility

/-! How Postgres hands out xids, ends transactions and takes MVCC snapshots. Xids are
counted without wrapping here; headers and snapshots store their low 32 bits. -/

set_option autoImplicit false

namespace SqliteHeap

/-- Transactions, which may have no xid or several. -/
abbrev TxnId := Nat

inductive XactStatus where
  | unstarted | running | committed | aborted
deriving DecidableEq

/-- An xid that Postgres has handed out, to a transaction or to one of its
subtransactions. -/
structure AssignedXid where
  xid : Nat
  owner : TxnId
  sub : Bool
deriving DecidableEq

/-- The id as headers and snapshots store it. -/
def storedXid (xid : Nat) : TransactionId := BitVec.ofNat 32 xid

def AssignedXid.stored (assigned : AssignedXid) : TransactionId := storedXid assigned.xid

/-- `FullTransactionIdAdvance`: the permanent ids are skipped. -/
def advanceXid (xid : Nat) : Nat := if (xid + 1) % 2 ^ 32 = 0 then xid + 4 else xid + 1

structure History where
  nextXid : Nat
  /-- `latestCompletedXid`. -/
  latestCompleted : Nat
  /-- Xids whose subtransaction was rolled back are not kept. -/
  assigned : List AssignedXid
  status : TxnId → XactStatus

inductive XactEvent where
  | begin (txn : TxnId)
  | assign (txn : TxnId)
  | assignSub (txn : TxnId)
  | rollbackSub (xid : Nat)
  | commit (txn : TxnId)
  | abort (txn : TxnId)
deriving DecidableEq

namespace History

def start : History := ⟨3, 2, [], fun _ => .unstarted⟩

/-- `GetTopTransactionIdIfAny`. -/
def topXid (txn : TxnId) (history : History) : Option Nat :=
  (history.assigned.find? fun assigned => assigned.owner = txn && !assigned.sub).map
    AssignedXid.xid

def assignXid (txn : TxnId) (sub : Bool) (history : History) : History :=
  { history with
    nextXid := advanceXid history.nextXid
    assigned := history.assigned ++ [⟨history.nextXid, txn, sub⟩] }

/-- `MaintainLatestCompletedXid`. -/
def complete (xids : List AssignedXid) (history : History) : Nat :=
  xids.foldr (fun assigned latest => max assigned.xid latest) history.latestCompleted

def setStatus (txn : TxnId) (status : XactStatus) (history : History) : History :=
  { history with status := Function.update history.status txn status }

def finish (txn : TxnId) (status : XactStatus) (history : History) : History :=
  { history.setStatus txn status with
    latestCompleted := history.complete (history.assigned.filter fun assigned => assigned.owner = txn) }

/-- Roll back the subtransaction with this xid. -/
def dropXid (assigned : AssignedXid) (history : History) : History :=
  { history with
    latestCompleted := history.complete [assigned]
    assigned := history.assigned.filter fun other => other.xid ≠ assigned.xid }

def step (history : History) : XactEvent → Option History
  | .begin txn =>
      if history.status txn = .unstarted then
        some (history.setStatus txn .running)
      else none
  | .assign txn =>
      if history.status txn = .running ∧ history.topXid txn = none then
        some (history.assignXid txn false)
      else none
  | .assignSub txn =>
      if history.status txn = .running ∧ history.topXid txn ≠ none then
        some (history.assignXid txn true)
      else none
  | .rollbackSub xid =>
      match history.assigned.find? fun assigned => assigned.xid = xid with
      | none => none
      | some assigned =>
          if assigned.sub = true ∧ history.status assigned.owner = .running then
            some (history.dropXid assigned)
          else none
  | .commit txn =>
      if history.status txn = .running then some (history.finish txn .committed) else none
  | .abort txn =>
      if history.status txn = .running then some (history.finish txn .aborted) else none

def run : History → List XactEvent → Option History := Transition.run step

/-! ## Snapshots -/

/-- Xids of running transactions and their subtransactions. -/
def running (history : History) : List AssignedXid :=
  history.assigned.filter fun assigned => history.status assigned.owner = .running

/-- Xids from here on had not completed. -/
def xmax (history : History) : Nat := advanceXid history.latestCompleted

/-- Xids before this one had completed. -/
def xmin (history : History) : Nat :=
  history.running.foldr (fun assigned xmin => min assigned.xid xmin) history.xmax

/-- `GetSnapshotData` for one transaction: it lists the others that are running. -/
def snapshot (history : History) (reader : TxnId) (curcid : CommandId) : Snapshot :=
  let others := history.running.filter fun assigned => assigned.owner ≠ reader
  { snapshotType := .mvcc
    xmin := storedXid history.xmin
    xmax := storedXid history.xmax
    xip := (others.filter fun assigned => !assigned.sub && assigned.xid < history.xmax).map
      AssignedXid.stored
    subxip := (others.filter AssignedXid.sub).map AssignedXid.stored
    curcid := curcid
    speculativeToken := 0#32 }

/-! ## What a backend asks Postgres -/

/-- The xid that a stored id stands for: the last one handed out with these bits. -/
def named (history : History) (stored : TransactionId) : Option AssignedXid :=
  history.assigned.find? fun assigned =>
    assigned.stored = stored && history.nextXid ≤ assigned.xid + 2 ^ 32

/-- Every backend holds the bootstrap and frozen ids committed. -/
def isPermanent (stored : TransactionId) : Bool := stored = 1#32 || stored = 2#32

/-- Answers to the backend that runs a transaction. -/
def xacts (history : History) (reader : TxnId) : Xacts where
  __ := Xacts.idle
  isCurrent stored :=
    match history.named stored with
    | none => false
    | some assigned => assigned.owner = reader && history.status reader = .running
  isInProgress stored :=
    match history.named stored with
    | none => false
    | some assigned => history.status assigned.owner = .running
  transactionIdDidCommit stored :=
    isPermanent stored ||
      match history.named stored with
      | none => false
      | some assigned => history.status assigned.owner = .committed

/-! ## Invariants -/

structure WellFormed (history : History) : Prop where
  nextNormal : 3 ≤ history.nextXid % 2 ^ 32
  normal : ∀ assigned ∈ history.assigned, 3 ≤ assigned.xid % 2 ^ 32
  below : ∀ assigned ∈ history.assigned, assigned.xid < history.nextXid
  distinct : ∀ first ∈ history.assigned, ∀ second ∈ history.assigned, first.xid = second.xid →
    first = second
  latest : 2 ≤ history.latestCompleted % 2 ^ 32 ∧ history.latestCompleted < history.nextXid
  completed : ∀ assigned ∈ history.assigned, history.status assigned.owner ≠ .running →
    assigned.xid ≤ history.latestCompleted
  started : ∀ assigned ∈ history.assigned, history.status assigned.owner ≠ .unstarted

/-- What stays from one moment to a later one. -/
structure Since (history later : History) : Prop where
  nextXid : history.nextXid ≤ later.nextXid
  latest : history.latestCompleted ≤ later.latestCompleted
  committed : ∀ txn, history.status txn = .committed → later.status txn = .committed
  aborted : ∀ txn, history.status txn = .aborted → later.status txn = .aborted
  started : ∀ txn, history.status txn ≠ .unstarted → later.status txn ≠ .unstarted
  new : ∀ assigned ∈ later.assigned, assigned ∈ history.assigned ∨ history.nextXid ≤ assigned.xid
  closed : ∀ assigned ∈ later.assigned, history.status assigned.owner = .committed →
    assigned ∈ history.assigned
  kept : ∀ assigned ∈ history.assigned,
    assigned.sub = false ∨ history.status assigned.owner = .committed → assigned ∈ later.assigned

theorem mem_assigned_of_topXid {history : History} {txn : TxnId} {xid : Nat}
    (top : history.topXid txn = some xid) : ⟨xid, txn, false⟩ ∈ history.assigned := by
  obtain ⟨assigned, found, rfl⟩ := Option.map_eq_some_iff.mp top
  have spec := List.find?_some found
  simp only [Bool.and_eq_true, decide_eq_true_eq, Bool.not_eq_eq_eq_not, Bool.not_true] at spec
  rw [← spec.1, ← spec.2]
  exact List.mem_of_find?_eq_some found

inductive Changes (history : History) : History → Prop where
  | begin {txn : TxnId} (unstarted : history.status txn = .unstarted) :
      Changes history (history.setStatus txn .running)
  | assign {txn : TxnId} {sub : Bool} (running : history.status txn = .running) :
      Changes history (history.assignXid txn sub)
  | drop {assigned : AssignedXid} (member : assigned ∈ history.assigned)
      (sub : assigned.sub = true) (running : history.status assigned.owner = .running) :
      Changes history (history.dropXid assigned)
  | finish {txn : TxnId} {status : XactStatus} (running : history.status txn = .running)
      (ends : status = .committed ∨ status = .aborted) : Changes history (history.finish txn status)

theorem changes_of_step {history next : History} {event : XactEvent}
    (stepped : history.step event = some next) : history.Changes next := by
  cases event with
  | begin txn =>
      obtain ⟨unstarted, same⟩ := Option.ite_none_right_eq_some.mp stepped
      exact Option.some.inj same ▸ .begin unstarted
  | assign txn | assignSub txn =>
      obtain ⟨⟨running, _⟩, same⟩ := Option.ite_none_right_eq_some.mp stepped
      exact Option.some.inj same ▸ .assign running
  | rollbackSub xid =>
      dsimp only [step] at stepped
      split at stepped
      · cases stepped
      · next assigned found =>
          obtain ⟨⟨sub, running⟩, same⟩ := Option.ite_none_right_eq_some.mp stepped
          exact Option.some.inj same ▸ .drop (List.mem_of_find?_eq_some found) sub running
  | commit txn =>
      obtain ⟨running, same⟩ := Option.ite_none_right_eq_some.mp stepped
      exact Option.some.inj same ▸ .finish running (.inl rfl)
  | abort txn =>
      obtain ⟨running, same⟩ := Option.ite_none_right_eq_some.mp stepped
      exact Option.some.inj same ▸ .finish running (.inr rfl)

@[simp] theorem setStatus_self (txn : TxnId) (status : XactStatus) (history : History) :
    (history.setStatus txn status).status txn = status := by
  simp [setStatus]

theorem setStatus_of_ne {txn other : TxnId} (different : other ≠ txn) (status : XactStatus)
    (history : History) : (history.setStatus txn status).status other = history.status other := by
  simp [setStatus, different]

theorem advanceXid_normal {xid : Nat} (normal : 2 ≤ xid % 2 ^ 32) :
    3 ≤ advanceXid xid % 2 ^ 32 := by
  unfold advanceXid
  split <;> omega

theorem lt_advanceXid (xid : Nat) : xid < advanceXid xid := by
  unfold advanceXid
  split <;> omega

theorem advanceXid_le {xid later : Nat} (above : xid < later) (normal : 3 ≤ later % 2 ^ 32) :
    advanceXid xid ≤ later := by
  unfold advanceXid
  split <;> omega

theorem latestCompleted_le_complete (xids : List AssignedXid) (history : History) :
    history.latestCompleted ≤ history.complete xids := by
  induction xids with
  | nil => exact Nat.le_refl _
  | cons first rest ih => exact Nat.le_trans ih (Nat.le_max_right _ _)

theorem le_complete {xids : List AssignedXid} {history : History} {assigned : AssignedXid}
    (member : assigned ∈ xids) : assigned.xid ≤ history.complete xids := by
  induction xids with
  | nil => cases member
  | cons first rest ih =>
      rcases List.mem_cons.mp member with rfl | later
      · exact Nat.le_max_left _ _
      · exact Nat.le_trans (ih later) (Nat.le_max_right _ _)

theorem complete_cases (xids : List AssignedXid) (history : History) :
    history.complete xids = history.latestCompleted ∨
      ∃ assigned ∈ xids, history.complete xids = assigned.xid := by
  induction xids with
  | nil => exact .inl rfl
  | cons first rest ih =>
      rcases Nat.le_total first.xid (history.complete rest) with less | greater
      · have same : history.complete (first :: rest) = history.complete rest := Nat.max_eq_right less
        rw [same]
        exact ih.imp_right fun ⟨assigned, member, found⟩ => ⟨assigned, .tail _ member, found⟩
      · exact .inr ⟨first, .head _, Nat.max_eq_left greater⟩

namespace WellFormed

variable {history next : History}

theorem start : History.start.WellFormed where
  nextNormal := by decide
  normal := by simp [History.start]
  below := by simp [History.start]
  distinct := by simp [History.start]
  latest := by decide
  completed := by simp [History.start]
  started := by simp [History.start]

theorem complete_bounds (formed : history.WellFormed) {xids : List AssignedXid}
    (assigned : ∀ assigned ∈ xids, assigned ∈ history.assigned) :
    2 ≤ history.complete xids % 2 ^ 32 ∧ history.complete xids < history.nextXid := by
  rcases complete_cases xids history with same | ⟨found, member, same⟩
  · rw [same]
    exact formed.latest
  · rw [same]
    have normal := formed.normal found (assigned found member)
    exact ⟨by omega, formed.below found (assigned found member)⟩

theorem assignXid (formed : history.WellFormed) {txn : TxnId} {sub : Bool}
    (running : history.status txn = .running) : (history.assignXid txn sub).WellFormed where
  nextNormal := advanceXid_normal (by have := formed.nextNormal; omega)
  normal assigned member := by
    rcases List.mem_append.mp member with old | new
    · exact formed.normal assigned old
    · rw [List.mem_singleton.mp new]
      exact formed.nextNormal
  below assigned member := by
    have advanced := lt_advanceXid history.nextXid
    rcases List.mem_append.mp member with old | new
    · exact Nat.lt_trans (formed.below assigned old) advanced
    · rw [List.mem_singleton.mp new]
      exact advanced
  distinct first inFirst second inSecond same := by
    rcases List.mem_append.mp inFirst with old | new <;>
      rcases List.mem_append.mp inSecond with old' | new'
    · exact formed.distinct first old second old' same
    · rw [List.mem_singleton.mp new'] at same
      exact absurd same (formed.below first old).ne
    · rw [List.mem_singleton.mp new] at same
      exact absurd same.symm (formed.below second old').ne
    · rw [List.mem_singleton.mp new, List.mem_singleton.mp new']
  latest := ⟨formed.latest.1, Nat.lt_trans formed.latest.2 (lt_advanceXid _)⟩
  completed assigned member ended := by
    rcases List.mem_append.mp member with old | new
    · exact formed.completed assigned old ended
    · rw [List.mem_singleton.mp new] at ended
      exact absurd running ended
  started assigned member := by
    rcases List.mem_append.mp member with old | new
    · exact formed.started assigned old
    · rw [List.mem_singleton.mp new]
      change history.status txn ≠ _
      simp [running]

theorem finish (formed : history.WellFormed) {txn : TxnId} {status : XactStatus}
    (ends : status ≠ .running ∧ status ≠ .unstarted) : (history.finish txn status).WellFormed where
  nextNormal := formed.nextNormal
  normal := formed.normal
  below := formed.below
  distinct := formed.distinct
  latest := formed.complete_bounds fun _ member => (List.mem_filter.mp member).1
  completed assigned member ended := by
    by_cases owner : assigned.owner = txn
    · exact le_complete (List.mem_filter.mpr ⟨member, by simpa using owner⟩)
    · change (history.setStatus txn status).status assigned.owner ≠ _ at ended
      rw [setStatus_of_ne owner] at ended
      exact Nat.le_trans (formed.completed assigned member ended) (latestCompleted_le_complete _ _)
  started assigned member := by
    change (history.setStatus txn status).status assigned.owner ≠ _
    by_cases owner : assigned.owner = txn
    · rw [owner, setStatus_self]
      exact ends.2
    · rw [setStatus_of_ne owner]
      exact formed.started assigned member

theorem dropXid (formed : history.WellFormed) {assigned : AssignedXid}
    (member : assigned ∈ history.assigned) : (history.dropXid assigned).WellFormed where
  nextNormal := formed.nextNormal
  normal other inOther := formed.normal other (List.mem_filter.mp inOther).1
  below other inOther := formed.below other (List.mem_filter.mp inOther).1
  distinct first inFirst second inSecond :=
    formed.distinct first (List.mem_filter.mp inFirst).1 second (List.mem_filter.mp inSecond).1
  latest := formed.complete_bounds fun _ only => List.mem_singleton.mp only ▸ member
  completed other inOther ended :=
    Nat.le_trans (formed.completed other (List.mem_filter.mp inOther).1 ended)
      (latestCompleted_le_complete _ _)
  started other inOther := formed.started other (List.mem_filter.mp inOther).1

theorem begin (formed : history.WellFormed) {txn : TxnId}
    (unstarted : history.status txn = .unstarted) :
    (history.setStatus txn .running).WellFormed where
  nextNormal := formed.nextNormal
  normal := formed.normal
  below := formed.below
  distinct := formed.distinct
  latest := formed.latest
  completed assigned member ended := by
    have other : assigned.owner ≠ txn := by
      intro owner
      exact formed.started assigned member (owner ▸ unstarted)
    rw [setStatus_of_ne other] at ended
    exact formed.completed assigned member ended
  started assigned member := by
    have other : assigned.owner ≠ txn := by
      intro owner
      exact formed.started assigned member (owner ▸ unstarted)
    rw [setStatus_of_ne other]
    exact formed.started assigned member

theorem change (formed : history.WellFormed) (changed : history.Changes next) :
    next.WellFormed := by
  cases changed with
  | begin unstarted => exact formed.begin unstarted
  | assign running => exact formed.assignXid running
  | drop member _ _ => exact formed.dropXid member
  | finish _ ends => exact formed.finish (by rcases ends with rfl | rfl <;> decide)

theorem run {events : List XactEvent} (formed : history.WellFormed)
    (reached : History.run history events = some next) : next.WellFormed :=
  Transition.run_invariant (fun _ _ _ formed _ stepped => formed.change (changes_of_step stepped)) formed
    (Transition.meets_trivial history events) reached

end WellFormed

namespace Since

variable {history middle next : History}

theorem refl (history : History) : history.Since history where
  nextXid := Nat.le_refl _
  latest := Nat.le_refl _
  committed _ status := status
  aborted _ status := status
  started _ status := status
  new _ member := .inl member
  closed _ member _ := member
  kept _ member _ := member

theorem trans (first : history.Since middle) (second : middle.Since next) : history.Since next where
  nextXid := Nat.le_trans first.nextXid second.nextXid
  latest := Nat.le_trans first.latest second.latest
  committed txn status := second.committed txn (first.committed txn status)
  aborted txn status := second.aborted txn (first.aborted txn status)
  started txn status := second.started txn (first.started txn status)
  new assigned member := by
    rcases second.new assigned member with old | new
    · exact first.new assigned old
    · exact .inr (Nat.le_trans first.nextXid new)
  closed assigned member committed :=
    first.closed assigned (second.closed assigned member (first.committed _ committed)) committed
  kept assigned member ended :=
    second.kept assigned (first.kept assigned member ended) (ended.imp_right (first.committed _))

theorem of_setStatus {txn : TxnId} {status : XactStatus}
    (unended : history.status txn = .unstarted ∨ history.status txn = .running)
    (later : status ≠ .unstarted) : history.Since (history.setStatus txn status) where
  nextXid := Nat.le_refl _
  latest := Nat.le_refl _
  committed other ended := by
    rw [setStatus_of_ne _]
    · exact ended
    · rintro rfl
      simp [ended] at unended
  aborted other ended := by
    rw [setStatus_of_ne _]
    · exact ended
    · rintro rfl
      simp [ended] at unended
  started other started := by
    by_cases same : other = txn
    · rw [same, setStatus_self]
      exact later
    · rw [setStatus_of_ne same]
      exact started
  new _ member := .inl member
  closed _ member _ := member
  kept _ member _ := member

theorem change (formed : history.WellFormed) (changed : history.Changes next) :
    history.Since next := by
  cases changed with
  | begin unstarted => exact of_setStatus (.inl unstarted) (by decide)
  | assign running =>
      exact {
        refl history with
        nextXid := (lt_advanceXid _).le
        new := fun assigned member => (List.mem_append.mp member).imp_right fun new => by
          rw [List.mem_singleton.mp new]
        closed := fun assigned member committed => by
          rcases List.mem_append.mp member with old | new
          · exact old
          · rw [List.mem_singleton.mp new, running] at committed
            cases committed
        kept := fun assigned member _ => List.mem_append_left _ member }
  | @drop assigned member sub running =>
      refine { refl history with
        latest := latestCompleted_le_complete _ _
        new := fun other inOther => .inl (List.mem_filter.mp inOther).1
        closed := fun other inOther _ => (List.mem_filter.mp inOther).1
        kept := fun other inOther ended => ?_ }
      · refine List.mem_filter.mpr ⟨inOther, ?_⟩
        simp only [decide_eq_true_eq]
        intro same
        rw [formed.distinct other inOther assigned member same, sub, running] at ended
        simp at ended
  | finish running ends =>
      exact {
        of_setStatus (.inr running) (by rcases ends with rfl | rfl <;> decide) with
        latest := latestCompleted_le_complete _ _ }

theorem run {events : List XactEvent} (formed : history.WellFormed)
    (reached : History.run history events = some next) : history.Since next :=
  (@Transition.run_invariant _ _ History.step (fun _ _ => True)
    (fun state => state.WellFormed ∧ history.Since state)
    (fun _ _ _ both _ stepped =>
      have changed := changes_of_step stepped
      ⟨both.1.change changed, both.2.trans (change both.1 changed)⟩)
    _ _ events ⟨formed, refl history⟩ (Transition.meets_trivial history events) reached).2

end Since

/-! ## The bounds of a snapshot -/

theorem mem_running_iff {history : History} {assigned : AssignedXid} :
    assigned ∈ history.running ↔
      assigned ∈ history.assigned ∧ history.status assigned.owner = .running := by
  simp [running]

theorem xmin_le_xmax (history : History) : history.xmin ≤ history.xmax := by
  unfold xmin
  induction history.running with
  | nil => exact Nat.le_refl _
  | cons first rest ih => exact Nat.le_trans (Nat.min_le_right _ _) ih

theorem xmin_le {history : History} {assigned : AssignedXid} (member : assigned ∈ history.running) :
    history.xmin ≤ assigned.xid := by
  unfold xmin
  revert member
  induction history.running with
  | nil => exact fun member => nomatch member
  | cons first rest ih =>
      intro member
      rcases List.mem_cons.mp member with rfl | later
      · exact Nat.min_le_left _ _
      · exact Nat.le_trans (Nat.min_le_right _ _) (ih later)

theorem xmin_cases (history : History) :
    history.xmin = history.xmax ∨ ∃ assigned ∈ history.running, history.xmin = assigned.xid := by
  unfold xmin
  induction history.running with
  | nil => exact .inl rfl
  | cons first rest ih =>
      rw [List.foldr_cons]
      rcases Nat.le_total first.xid
        (rest.foldr (fun assigned xmin => min assigned.xid xmin) history.xmax) with less | greater
      · exact .inr ⟨first, .head _, Nat.min_eq_left less⟩
      · rw [Nat.min_eq_right greater]
        exact ih.imp_right fun ⟨assigned, member, found⟩ => ⟨assigned, .tail _ member, found⟩

namespace WellFormed

variable {history : History}

theorem xmax_normal (formed : history.WellFormed) : 3 ≤ history.xmax % 2 ^ 32 :=
  advanceXid_normal formed.latest.1

theorem xmax_le_nextXid (formed : history.WellFormed) : history.xmax ≤ history.nextXid :=
  advanceXid_le formed.latest.2 formed.nextNormal

theorem advanceXid_mono {xid later : Nat} (order : xid ≤ later) (normal : 2 ≤ later % 2 ^ 32) :
    advanceXid xid ≤ advanceXid later := by
  unfold advanceXid
  split <;> split <;> omega

theorem xmin_le_nextXid (formed : history.WellFormed) : history.xmin ≤ history.nextXid :=
  Nat.le_trans history.xmin_le_xmax formed.xmax_le_nextXid

theorem xmin_normal (formed : history.WellFormed) : 3 ≤ history.xmin % 2 ^ 32 := by
  rcases history.xmin_cases with same | ⟨assigned, member, same⟩
  · rw [same]
    exact formed.xmax_normal
  · rw [same]
    exact formed.normal assigned (mem_running_iff.mp member).1

theorem lt_xmax (formed : history.WellFormed) {assigned : AssignedXid}
    (member : assigned ∈ history.assigned) (ended : history.status assigned.owner ≠ .running) :
    assigned.xid < history.xmax :=
  Nat.lt_of_le_of_lt (formed.completed assigned member ended) (lt_advanceXid _)

theorem ended_of_lt_xmin {assigned : AssignedXid} (member : assigned ∈ history.assigned)
    (before : assigned.xid < history.xmin) : history.status assigned.owner ≠ .running :=
  fun running => absurd (xmin_le (mem_running_iff.mpr ⟨member, running⟩)) (Nat.not_le.mpr before)

/-- Recent xids are told apart by their stored halves. -/
theorem eq_of_stored_eq (formed : history.WellFormed) {first second : AssignedXid}
    (inFirst : first ∈ history.assigned) (inSecond : second ∈ history.assigned)
    (same : first.stored = second.stored) (recent : history.nextXid ≤ first.xid + 2 ^ 32)
    (recent' : history.nextXid ≤ second.xid + 2 ^ 32) : first = second := by
  have below := formed.below first inFirst
  have below' := formed.below second inSecond
  have bits : first.xid % 2 ^ 32 = second.xid % 2 ^ 32 := by
    simpa [AssignedXid.stored, storedXid] using congrArg BitVec.toNat same
  exact formed.distinct first inFirst second inSecond (by omega)

theorem named_iff (formed : history.WellFormed) {stored : TransactionId} {assigned : AssignedXid} :
    history.named stored = some assigned ↔
      assigned ∈ history.assigned ∧ assigned.stored = stored ∧
        history.nextXid ≤ assigned.xid + 2 ^ 32 := by
  have spec : ∀ other, history.named stored = some other →
      other ∈ history.assigned ∧ other.stored = stored ∧
        history.nextXid ≤ other.xid + 2 ^ 32 := by
    intro other found
    have named := List.find?_some found
    simp only [Bool.and_eq_true, decide_eq_true_eq] at named
    exact ⟨List.mem_of_find?_eq_some found, named⟩
  refine ⟨spec assigned, fun ⟨member, bits, recent⟩ => ?_⟩
  have present : (history.named stored).isSome = true := by
    rw [named, List.find?_isSome]
    exact ⟨assigned, member, by simpa [bits] using recent⟩
  obtain ⟨other, found⟩ := Option.isSome_iff_exists.mp present
  obtain ⟨inOther, bits', recent'⟩ := spec other found
  rw [found, formed.eq_of_stored_eq member inOther (bits.trans bits'.symm) recent recent']

theorem running_of_since {later : History} (formed : history.WellFormed)
    (since : history.Since later) {assigned : AssignedXid} (member : assigned ∈ history.assigned)
    (running : later.status assigned.owner = .running) :
    history.status assigned.owner = .running := by
  cases status : history.status assigned.owner with
  | running => rfl
  | unstarted => exact absurd status (formed.started assigned member)
  | committed =>
      have ended := since.committed _ status
      rw [running] at ended
      cases ended
  | aborted =>
      have ended := since.aborted _ status
      rw [running] at ended
      cases ended

theorem xmin_mono {later : History} (formed : history.WellFormed) (formedLater : later.WellFormed)
    (since : history.Since later) : history.xmin ≤ later.xmin := by
  rcases later.xmin_cases with same | ⟨assigned, member, same⟩
  · rw [same]
    exact Nat.le_trans history.xmin_le_xmax (advanceXid_mono since.latest formedLater.latest.1)
  · rw [same]
    obtain ⟨inLater, running⟩ := mem_running_iff.mp member
    rcases since.new assigned inLater with known | new
    · exact xmin_le (mem_running_iff.mpr ⟨known, formed.running_of_since since known running⟩)
    · exact Nat.le_trans formed.xmin_le_nextXid new

end WellFormed

end History

end SqliteHeap
