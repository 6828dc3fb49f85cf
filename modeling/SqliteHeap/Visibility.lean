import SqliteHeap.Lib.Circular
import SqliteHeap.Storage

/-! `visibility.rs`: whether a row version is visible to a snapshot. What Postgres
knows about transactions is a parameter. -/

set_option autoImplicit false

namespace SqliteHeap

/-- Ids below three are permanent: invalid, bootstrap and frozen. -/
def isNormal (xid : TransactionId) : Bool := 3#32 ≤ xid

/-- The order of transaction ids in Postgres: normal ids are compared modulo
`2 ^ 32`, permanent ones come before them. -/
def transactionIdPrecedes (id1 id2 : TransactionId) : Bool :=
  if isNormal id1 && isNormal id2 then Circular.precedes id1 id2 else id1 < id2

/-- The converse comparison of Postgres, which differs from it on opposite ids. -/
def transactionIdFollows (id1 id2 : TransactionId) : Bool :=
  if isNormal id1 && isNormal id2 then 0 < (id1 - id2).toInt else id2 < id1

theorem transactionIdPrecedes_of_normal {id1 id2 : TransactionId} (first : isNormal id1 = true)
    (second : isNormal id2 = true) : transactionIdPrecedes id1 id2 = Circular.precedes id1 id2 := by
  simp [transactionIdPrecedes, first, second]

theorem transactionIdPrecedes_of_permanent {id1 id2 : TransactionId}
    (permanent : isNormal id1 = false) (normal : isNormal id2 = true) :
    transactionIdPrecedes id1 id2 = true := by
  simp only [isNormal, decide_eq_true_eq, decide_eq_false_iff_not] at permanent normal
  simp only [transactionIdPrecedes, isNormal, permanent, decide_false, Bool.false_and,
    Bool.false_eq_true, ↓reduceIte, decide_eq_true_eq]
  bv_omega

/-- What one backend learns from Postgres about transactions at one moment. -/
structure Xacts where
  /-- `TransactionIdIsCurrentTransactionId`. -/
  isCurrent : TransactionId → Bool
  /-- `TransactionIdIsInProgress`. -/
  isInProgress : TransactionId → Bool
  /-- `TransactionIdDidCommit`. -/
  transactionIdDidCommit : TransactionId → Bool
  /-- `TransactionIdPrecedes`. -/
  precedes : TransactionId → TransactionId → Bool
  precedes_eq : precedes = transactionIdPrecedes
  /-- `TransactionIdFollows`. -/
  follows : TransactionId → TransactionId → Bool
  follows_eq : follows = transactionIdFollows

/-- Before any transaction. -/
def Xacts.idle : Xacts where
  isCurrent _ := false
  isInProgress _ := false
  transactionIdDidCommit _ := false
  precedes := transactionIdPrecedes
  precedes_eq := rfl
  follows := transactionIdFollows
  follows_eq := rfl

inductive SnapshotType where
  | any | self | dirty | nonVacuumable | mvcc | historicMvcc | toast
deriving DecidableEq

/-- `SnapshotData`. -/
structure Snapshot where
  snapshotType : SnapshotType
  xmin : TransactionId
  xmax : TransactionId
  xip : List TransactionId
  subxip : List TransactionId
  curcid : CommandId
  speculativeToken : BitVec 32
deriving DecidableEq

namespace Visibility

def didCommit (xacts : Xacts) (xid : TransactionId) : Bool :=
  if xid = 0#32 then false else xacts.transactionIdDidCommit xid

inductive XidView where
  | ourOwnXact
  | committedAndVisible
  | notVisible
deriving DecidableEq

def xidView (xacts : Xacts) (xid : TransactionId) (snapshot : Snapshot) : XidView :=
  if xacts.isCurrent xid then .ourOwnXact
  else if !didCommit xacts xid then .notVisible
  else if xacts.precedes xid snapshot.xmin then .committedAndVisible
  else if !xacts.precedes xid snapshot.xmax then .notVisible
  else if xid ∈ snapshot.xip then .notVisible
  else .committedAndVisible

/-- The `xmax` half of `visible_mvcc`: the row is not deleted for the snapshot. -/
def undeletedMvcc (xacts : Xacts) (row : StoredHeader) (snapshot : Snapshot) : Bool :=
  if row.xmax = 0#32 then true
  else
    match xidView xacts row.xmax snapshot with
    | .notVisible => true
    | .ourOwnXact => snapshot.curcid ≤ row.cmax
    | .committedAndVisible => false

def visibleMvcc (xacts : Xacts) (row : StoredHeader) (snapshot : Snapshot) : Bool :=
  match xidView xacts row.xmin snapshot with
  | .notVisible => false
  | .ourOwnXact =>
      if snapshot.curcid ≤ row.cmin then false else undeletedMvcc xacts row snapshot
  | .committedAndVisible => undeletedMvcc xacts row snapshot

def visibleSelf (xacts : Xacts) (row : StoredHeader) : Bool :=
  let insertedByMe := xacts.isCurrent row.xmin
  if !insertedByMe && !didCommit xacts row.xmin then false
  else if row.xmax = 0#32 then true
  else
    let deletedByMe := xacts.isCurrent row.xmax
    !(deletedByMe || didCommit xacts row.xmax)

/-- The `xmax` half of `visible_dirty`. -/
def undeletedDirty (xacts : Xacts) (row : StoredHeader) (snapshot : Snapshot) : Bool × Snapshot :=
  if row.xmax = 0#32 then (true, snapshot)
  else if xacts.isCurrent row.xmax then (false, snapshot)
  else if xacts.isInProgress row.xmax then (true, { snapshot with xmax := row.xmax })
  else if didCommit xacts row.xmax then (false, snapshot)
  else (true, snapshot)

/-- `visible_dirty`: reports an in-progress xid through the snapshot. -/
def visibleDirty (xacts : Xacts) (row : StoredHeader) (snapshot : Snapshot) : Bool × Snapshot :=
  let reset := { snapshot with xmin := 0#32, xmax := 0#32, speculativeToken := 0#32 }
  if xacts.isCurrent row.xmin then undeletedDirty xacts row reset
  else if xacts.isInProgress row.xmin then
    undeletedDirty xacts row { reset with xmin := row.xmin }
  else if !didCommit xacts row.xmin then (false, reset)
  else undeletedDirty xacts row reset

def visibleNonVacuumable (xacts : Xacts) (row : StoredHeader) : Bool :=
  if row.xmax = 0#32 then true else !didCommit xacts row.xmax

/-- `row_visible`, with the snapshot that it leaves. -/
def rowVisible (xacts : Xacts) (row : StoredHeader) (snapshot : Snapshot) : Bool × Snapshot :=
  match snapshot.snapshotType with
  | .any => (true, snapshot)
  | .self => (visibleSelf xacts row, snapshot)
  | .dirty => visibleDirty xacts row snapshot
  | .nonVacuumable => (visibleNonVacuumable xacts row, snapshot)
  | .mvcc | .historicMvcc | .toast => (visibleMvcc xacts row snapshot, snapshot)

theorem xidView_ourOwnXact_iff {xacts : Xacts} {xid : TransactionId} {snapshot : Snapshot} :
    xidView xacts xid snapshot = .ourOwnXact ↔ xacts.isCurrent xid = true := by
  unfold xidView
  repeat' split
  all_goals simp_all

theorem xidView_committed_iff {xacts : Xacts} {xid : TransactionId} {snapshot : Snapshot} :
    xidView xacts xid snapshot = .committedAndVisible ↔
      xacts.isCurrent xid = false ∧ didCommit xacts xid = true ∧
        (transactionIdPrecedes xid snapshot.xmin = true ∨
          transactionIdPrecedes xid snapshot.xmax = true ∧ xid ∉ snapshot.xip) := by
  rw [← xacts.precedes_eq]
  unfold xidView
  repeat' split
  all_goals simp_all

/-- A deletion counts for a snapshot when it is committed and visible, or is an
earlier command of the transaction itself. -/
def DeletedFor (xacts : Xacts) (row : StoredHeader) (snapshot : Snapshot) : Prop :=
  row.xmax ≠ 0#32 ∧
    (xidView xacts row.xmax snapshot = .committedAndVisible ∨
      xacts.isCurrent row.xmax = true ∧ row.cmax < snapshot.curcid)

/-- An insertion counts for a snapshot when it is committed and visible, or is an
earlier command of the transaction itself. -/
def InsertedFor (xacts : Xacts) (row : StoredHeader) (snapshot : Snapshot) : Prop :=
  xidView xacts row.xmin snapshot = .committedAndVisible ∨
    xacts.isCurrent row.xmin = true ∧ row.cmin < snapshot.curcid

theorem undeletedMvcc_iff {xacts : Xacts} {row : StoredHeader} {snapshot : Snapshot} :
    undeletedMvcc xacts row snapshot = true ↔ ¬ DeletedFor xacts row snapshot := by
  unfold undeletedMvcc DeletedFor
  split
  · next none => simp [none]
  · next stamped =>
      cases view : xidView xacts row.xmax snapshot with
      | notVisible =>
          have foreign : xacts.isCurrent row.xmax ≠ true :=
            fun own => by simp [xidView_ourOwnXact_iff.mpr own] at view
          simp [foreign]
      | ourOwnXact => simp [stamped, xidView_ourOwnXact_iff.mp view]
      | committedAndVisible => simp [stamped]

theorem visibleMvcc_iff {xacts : Xacts} {row : StoredHeader} {snapshot : Snapshot} :
    visibleMvcc xacts row snapshot = true ↔
      (xidView xacts row.xmin snapshot = .committedAndVisible ∨
        xacts.isCurrent row.xmin = true ∧ row.cmin < snapshot.curcid) ∧
      ¬ DeletedFor xacts row snapshot := by
  unfold visibleMvcc
  cases view : xidView xacts row.xmin snapshot with
  | notVisible =>
      have foreign : xacts.isCurrent row.xmin ≠ true :=
        fun own => by simp [xidView_ourOwnXact_iff.mpr own] at view
      simp [foreign]
  | ourOwnXact => simp [xidView_ourOwnXact_iff.mp view, undeletedMvcc_iff]
  | committedAndVisible => simp [undeletedMvcc_iff]

end Visibility

end SqliteHeap
