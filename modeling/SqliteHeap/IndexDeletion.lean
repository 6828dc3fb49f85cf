import SqliteHeap.IndexEntries
import SqliteHeap.Vacuum
import SqliteHeap.XidStatus

/-! `index_delete_tuples` with the arrays that btree passes it. Entries refer to their
statuses by `id`, and the newest reclaimed xid is a running maximum in the circular order. -/

set_option autoImplicit false

namespace SqliteHeap

/-- `TM_IndexDelete`: the TID of an index entry and the index of its status. -/
structure TmIndexDelete where
  tid : Tid
  id : Nat
deriving DecidableEq

/-- `TM_IndexDeleteOp`: `ndeltids` entries and as many statuses, of which the callback sets
`knowndeletable`. -/
structure TmIndexDeleteOp where
  deltids : List TmIndexDelete
  status : List Bool
  sameLength : status.length = deltids.length
  inStatus : ∀ entry ∈ deltids, entry.id < status.length
  distinct : (deltids.map TmIndexDelete.id).Nodup

/-- What the callback leaves in the operation, and the xid that it returns. -/
structure IndexDeletion where
  ndeltids : Nat
  status : List Bool
  latestRemoved : TransactionId
deriving DecidableEq

namespace IndexDeletion

structure Marking where
  status : List Bool
  latestRemoved : TransactionId
  anyDeletable : Bool

/-- One pass of the loop, for the entry with this `id` whose row has this `xmax`. -/
def mark (xacts : Xacts) (oldest : TransactionId) (marking : Marking) (id : Nat)
    (xmax : Option TransactionId) : Marking :=
  if Table.deletable xacts oldest xmax then
    { status := marking.status.set id true
      anyDeletable := true
      latestRemoved :=
        match xmax with
        | none => marking.latestRemoved
        | some xmax =>
            if xmax ≠ 0#32 && xacts.follows xmax marking.latestRemoved then xmax
            else marking.latestRemoved }
  else marking

/-- `xmax_map.get` of the batch's result. -/
def getXmax (xmaxMap : List (Int × TransactionId)) (rowid : Int) : Option TransactionId :=
  (xmaxMap.find? fun found => found.1 = rowid).map Prod.snd

end IndexDeletion

open IndexDeletion in
/-- `index_delete_tuples`, given the horizon of `GetOldestNonRemovableTransactionId`. -/
def indexDeleteTuples (xacts : Xacts) (oldest : TransactionId) (table : Table)
    (op : TmIndexDeleteOp) : IndexDeletion :=
  if op.deltids.length = 0 then ⟨op.deltids.length, op.status, 0#32⟩
  else
    let rowids := op.deltids.map fun entry => tidToRowid entry.tid
    let xmaxMap := table.selectXmaxBatch rowids
    let marking := (op.deltids.zip rowids).foldl
      (fun marking entry => mark xacts oldest marking entry.1.id (getXmax xmaxMap entry.2))
      ⟨op.status, 0#32, false⟩
    ⟨if marking.anyDeletable then op.deltids.length else 0, marking.status, marking.latestRemoved⟩

namespace IndexDeletion

open Visibility

variable {xacts : Xacts} {oldest : TransactionId} {table : Table} {op : TmIndexDeleteOp}
  {marking : Marking} {marks : List (Nat × Option TransactionId)}

/-! ## The batch query -/

/-- The `xmax` of the row that a TID resolves to. -/
def xmaxOf (table : Table) (tid : Tid) : Option TransactionId :=
  (table.selectOne (tidToRowid tid)).map fun row => row.xmax

/-- The `IN` query finds for each of its rowids what a query for it alone finds. -/
theorem getXmax_selectXmaxBatch {rowids : List Int} {rowid : Int} (asked : rowid ∈ rowids) :
    getXmax (table.selectXmaxBatch rowids) rowid =
      (table.selectOne rowid).map fun row => row.xmax := by
  have found : (table.rows.filter fun row => decide (row.rowid ∈ rowids)).find?
      (fun row => decide (row.rowid = rowid)) = table.selectOne rowid := by
    rw [List.find?_filter, Table.selectOne]
    refine congrArg (fun test => table.rows.find? test) (funext fun row => ?_)
    by_cases same : row.rowid = rowid
    · simp [same, asked]
    · simp [same]
  rw [getXmax, Table.selectXmaxBatch, List.find?_map, Option.map_map]
  exact congrArg (Option.map fun row => row.xmax) found

/-- The loop's entries with their xmaxs. -/
def marksOf (table : Table) (op : TmIndexDeleteOp) : List (Nat × Option TransactionId) :=
  op.deltids.map fun entry => (entry.id, xmaxOf table entry.tid)

def markAll (xacts : Xacts) (oldest : TransactionId) (marks : List (Nat × Option TransactionId))
    (marking : Marking) : Marking :=
  marks.foldl (fun marking entry => mark xacts oldest marking entry.1 entry.2) marking

theorem indexDeleteTuples_eq (xacts : Xacts) (oldest : TransactionId) (table : Table)
    (op : TmIndexDeleteOp) :
    indexDeleteTuples xacts oldest table op =
      ⟨if (markAll xacts oldest (marksOf table op) ⟨op.status, 0#32, false⟩).anyDeletable
          then op.deltids.length else 0,
        (markAll xacts oldest (marksOf table op) ⟨op.status, 0#32, false⟩).status,
        (markAll xacts oldest (marksOf table op) ⟨op.status, 0#32, false⟩).latestRemoved⟩ := by
  unfold indexDeleteTuples
  split
  · next none => simp [List.length_eq_zero_iff.mp none, marksOf, markAll]
  · have looped : (op.deltids.zip (op.deltids.map fun entry => tidToRowid entry.tid)).foldl
          (fun marking entry => mark xacts oldest marking entry.1.id (getXmax
            (table.selectXmaxBatch (op.deltids.map fun entry => tidToRowid entry.tid)) entry.2))
          ⟨op.status, 0#32, false⟩ =
        markAll xacts oldest (marksOf table op) ⟨op.status, 0#32, false⟩ := by
      rw [markAll, marksOf, ← List.map_prod_left_eq_zip, List.foldl_map, List.foldl_map]
      refine List.foldl_ext _ _ _ fun marking entry member => ?_
      rw [getXmax_selectXmaxBatch (List.mem_map_of_mem member)]
      rfl
    simp only [looped]

/-! ## The loop -/

/-- The xmaxs of the deletable entries whose rows are stored. -/
def removed (xacts : Xacts) (oldest : TransactionId) (marks : List (Nat × Option TransactionId)) :
    List TransactionId :=
  (marks.filter fun entry => Table.deletable xacts oldest entry.2).filterMap Prod.snd

theorem deletable_some_iff {xmax : TransactionId} :
    Table.deletable xacts oldest (some xmax) = true ↔
      xmax ≠ 0#32 ∧ didCommit xacts xmax = true ∧ transactionIdPrecedes xmax oldest = true := by
  unfold Table.deletable
  dsimp only
  split
  · next zero => simp [zero]
  · next stamped => simp [stamped, xacts.precedes_eq]

theorem mem_removed_iff {xmax : TransactionId} : xmax ∈ removed xacts oldest marks ↔
    Table.deletable xacts oldest (some xmax) = true ∧ ∃ id, (id, some xmax) ∈ marks := by
  simp only [removed, List.mem_filterMap, List.mem_filter, Prod.exists]
  constructor
  · rintro ⟨id, found, ⟨member, deletable⟩, rfl⟩
    exact ⟨deletable, id, member⟩
  · rintro ⟨deletable, id, member⟩
    exact ⟨id, some xmax, ⟨member, deletable⟩, rfl⟩

theorem anyDeletable_foldl (xacts : Xacts) (oldest : TransactionId)
    (marks : List (Nat × Option TransactionId)) (marking : Marking) :
    (markAll xacts oldest marks marking).anyDeletable =
      (marking.anyDeletable || marks.any fun entry => Table.deletable xacts oldest entry.2) := by
  induction marks generalizing marking with
  | nil => simp [markAll]
  | cons entry marks ih =>
      rw [markAll, List.foldl_cons, ← markAll, ih, List.any_cons]
      cases deletable : Table.deletable xacts oldest entry.2 <;> simp [mark, deletable]

theorem mark_status (marking : Marking) (id : Nat) (xmax : Option TransactionId) :
    (mark xacts oldest marking id xmax).status =
      if Table.deletable xacts oldest xmax then marking.status.set id true else marking.status := by
  unfold mark
  split <;> rfl

theorem length_status_foldl (marks : List (Nat × Option TransactionId)) (marking : Marking) :
    (markAll xacts oldest marks marking).status.length = marking.status.length := by
  induction marks generalizing marking with
  | nil => rfl
  | cons entry marks ih =>
      rw [markAll, List.foldl_cons, ← markAll, ih, mark_status]
      split <;> simp

theorem status_foldl_of_unmarked {index : Nat}
    (unmarked : ∀ entry ∈ marks, entry.1 = index → Table.deletable xacts oldest entry.2 = false)
    (marking : Marking) :
    (markAll xacts oldest marks marking).status[index]? = marking.status[index]? := by
  induction marks generalizing marking with
  | nil => rfl
  | cons entry marks ih =>
      obtain ⟨first, rest⟩ := List.forall_mem_cons.mp unmarked
      rw [markAll, List.foldl_cons, ← markAll, ih rest, mark_status]
      split
      · next deletable =>
          have other : entry.1 ≠ index := fun same => by simp [first same] at deletable
          exact List.getElem?_set_ne other
      · rfl

theorem status_foldl_of_set {index : Nat} (set : marking.status[index]? = some true)
    (marks : List (Nat × Option TransactionId)) :
    (markAll xacts oldest marks marking).status[index]? = some true := by
  induction marks generalizing marking with
  | nil => exact set
  | cons entry marks ih =>
      refine ih ?_
      rw [mark_status]
      split
      · rw [List.getElem?_set]
        split
        · next same =>
            obtain ⟨bound, _⟩ := List.getElem?_eq_some_iff.mp set
            rw [if_pos (by omega)]
        · exact set
      · exact set

theorem status_foldl_of_marked {entry : Nat × Option TransactionId} (member : entry ∈ marks)
    (deletable : Table.deletable xacts oldest entry.2 = true)
    (inStatus : entry.1 < marking.status.length) :
    (markAll xacts oldest marks marking).status[entry.1]? = some true := by
  induction marks generalizing marking with
  | nil => cases member
  | cons first marks ih =>
      rcases List.mem_cons.mp member with rfl | later
      · refine status_foldl_of_set ?_ marks
        rw [mark_status, if_pos deletable, List.getElem?_set_self inStatus]
      · refine ih later ?_
        rw [mark_status]
        split <;> simpa using inStatus

theorem latestRemoved_foldl (xacts : Xacts) (oldest : TransactionId)
    (marks : List (Nat × Option TransactionId)) (marking : Marking) :
    (markAll xacts oldest marks marking).latestRemoved =
      (removed xacts oldest marks).foldl
        (fun latest xmax => if transactionIdFollows xmax latest then xmax else latest)
        marking.latestRemoved := by
  induction marks generalizing marking with
  | nil => rfl
  | cons entry marks ih =>
      obtain ⟨id, xmax⟩ := entry
      rw [markAll, List.foldl_cons, ← markAll, ih]
      cases deletable : Table.deletable xacts oldest xmax with
      | false => simp [mark, removed, deletable]
      | true =>
          cases xmax with
          | none => simp [mark, removed, deletable]
          | some xmax =>
              have stamped := (deletable_some_iff.mp deletable).1
              simp [mark, removed, deletable, stamped, xacts.follows_eq]

/-- Before any deletable row the newest xid is zero, which every normal one follows. -/
theorem foldl_follows {first : TransactionId} {rest : List TransactionId}
    (normal : ∀ xid ∈ first :: rest, isNormal xid = true) :
    (first :: rest).foldl (fun latest xmax => if transactionIdFollows xmax latest then xmax else latest)
        0#32 = Circular.newest first rest := by
  have assigned := normal first (by simp)
  have start : transactionIdFollows first 0#32 = true := by
    simp only [isNormal, decide_eq_true_eq] at assigned
    simp only [transactionIdFollows, isNormal, BitVec.reduceLE, decide_false, Bool.and_false,
      Bool.false_eq_true, ↓reduceIte, decide_eq_true_eq]
    bv_omega
  rw [List.foldl_cons, if_pos start]
  clear start
  induction rest generalizing first with
  | nil => rfl
  | cons xid rest ih =>
      have next : isNormal xid = true := normal xid (by simp)
      have order : transactionIdFollows xid first = Circular.follows xid first := by
        simp [transactionIdFollows, next, assigned, Circular.follows]
      rw [List.foldl_cons, Circular.newest, List.foldl_cons, order]
      split
      · exact ih (List.forall_mem_cons.mpr ⟨next, fun id member => normal id (by simp [member])⟩) next
      · exact ih (List.forall_mem_cons.mpr ⟨assigned, fun id member => normal id (by simp [member])⟩)
          assigned

/-! ## The contract -/

/-- The row version that the entry points at is gone or reclaimable. -/
def Deletable (xacts : Xacts) (oldest : TransactionId) (table : Table) (entry : TmIndexDelete) :
    Prop :=
  ∀ row ∈ table.rows, row.rowid = tidToRowid entry.tid →
    Vacuum.Reclaimable xacts oldest row.toStoredHeader

/-- The entry is deletable, and its row version is stored and has this `xmax`. -/
def Reclaims (xacts : Xacts) (oldest : TransactionId) (table : Table) (entry : TmIndexDelete)
    (xmax : TransactionId) : Prop :=
  ∃ row ∈ table.rows, row.rowid = tidToRowid entry.tid ∧ row.xmax = xmax ∧
    Vacuum.Reclaimable xacts oldest row.toStoredHeader

theorem xmaxOf_eq_some_iff {tid : Tid} {xmax : TransactionId} :
    xmaxOf table tid = some xmax ↔
      ∃ row ∈ table.rows, row.rowid = tidToRowid tid ∧ row.xmax = xmax := by
  simp only [xmaxOf, Option.map_eq_some_iff, Table.selectOne_eq_some_iff, and_assoc]

theorem deletable_iff {entry : TmIndexDelete} :
    Table.deletable xacts oldest (xmaxOf table entry.tid) = true ↔
      Deletable xacts oldest table entry := by
  cases found : xmaxOf table entry.tid with
  | none =>
      refine iff_of_true rfl fun row member same => ?_
      have some := xmaxOf_eq_some_iff.mpr ⟨row, member, same, rfl⟩
      rw [found] at some
      cases some
  | some xmax =>
      obtain ⟨row, member, same, rfl⟩ := xmaxOf_eq_some_iff.mp found
      rw [deletable_some_iff]
      constructor
      · intro reclaimable other otherMember otherSame
        rw [Table.eq_of_rowid_eq table.sorted otherMember member (otherSame.trans same.symm)]
        exact reclaimable
      · exact fun deletable => deletable row member same

theorem mem_removed_marksOf_iff {xmax : TransactionId} :
    xmax ∈ removed xacts oldest (marksOf table op) ↔
      ∃ entry ∈ op.deltids, Reclaims xacts oldest table entry xmax := by
  rw [mem_removed_iff, deletable_some_iff]
  constructor
  · rintro ⟨reclaimable, id, member⟩
    obtain ⟨entry, listed, same⟩ := List.mem_map.mp member
    obtain ⟨row, stored, here, rfl⟩ := xmaxOf_eq_some_iff.mp (Prod.mk.inj same).2
    exact ⟨entry, listed, row, stored, here, rfl, reclaimable⟩
  · rintro ⟨entry, listed, row, stored, here, rfl, reclaimable⟩
    refine ⟨reclaimable, entry.id, List.mem_map.mpr ⟨entry, listed, ?_⟩⟩
    rw [xmaxOf_eq_some_iff.mpr ⟨row, stored, here, rfl⟩]

theorem any_marksOf_iff :
    ((marksOf table op).any fun entry => Table.deletable xacts oldest entry.2) = true ↔
      ∃ entry ∈ op.deltids, Deletable xacts oldest table entry := by
  simp only [marksOf, List.any_map, List.any_eq_true, Function.comp_apply, deletable_iff]

/-- What btree relies on. -/
structure MarksExactly (xacts : Xacts) (oldest : TransactionId) (table : Table) (op : TmIndexDeleteOp)
    (deletion : IndexDeletion) : Prop where
  marked : ∀ entry ∈ op.deltids, Deletable xacts oldest table entry →
    deletion.status[entry.id]? = some true
  others : ∀ index, (∀ entry ∈ op.deltids, entry.id = index → ¬ Deletable xacts oldest table entry) →
    deletion.status[index]? = op.status[index]?
  sameLength : deletion.status.length = op.status.length
  emptied : deletion.ndeltids = 0 ↔ ¬ ∃ entry ∈ op.deltids, Deletable xacts oldest table entry
  kept : deletion.ndeltids ≠ 0 → deletion.ndeltids = op.deltids.length
  /-- No deletable entry has a stored row. -/
  noneRemoved : (∀ entry ∈ op.deltids, ∀ xmax, ¬ Reclaims xacts oldest table entry xmax) →
    deletion.latestRemoved = 0#32
  newest : ∀ entry ∈ op.deltids, ∀ xmax, Reclaims xacts oldest table entry xmax →
    (∃ other ∈ op.deltids, Reclaims xacts oldest table other deletion.latestRemoved) ∧
      transactionIdFollows xmax deletion.latestRemoved = false

theorem latestRemoved_spec (horizon : isNormal oldest = true)
    (normal : ∀ row ∈ table.rows, row.xmax ≠ 0#32 → isNormal row.xmax = true)
    {xids : List TransactionId} (listed : ∀ xid, xid ∈ xids ↔
      ∃ entry ∈ op.deltids, Reclaims xacts oldest table entry xid)
    {xid : TransactionId} (member : xid ∈ xids) {latest : TransactionId}
    (folded : xids.foldl
      (fun latest xmax => if transactionIdFollows xmax latest then xmax else latest) 0#32 = latest) :
    latest ∈ xids ∧ transactionIdFollows xid latest = false := by
  have assigned : ∀ xid ∈ xids, isNormal xid = true := by
    intro xid member
    obtain ⟨_, _, row, stored, _, rfl, reclaimable⟩ := (listed xid).mp member
    exact normal row stored reclaimable.1
  have before : ∀ xid ∈ xids, Circular.precedes xid oldest = true := by
    intro xid member
    have order := assigned xid member
    obtain ⟨_, _, row, _, _, rfl, reclaimable⟩ := (listed xid).mp member
    rw [← transactionIdPrecedes_of_normal order horizon]
    exact reclaimable.2.2
  cases xids with
  | nil => cases member
  | cons first rest =>
      rw [foldl_follows assigned] at folded
      subst folded
      have inList := Circular.newest_mem first rest
      refine ⟨inList, ?_⟩
      rw [transactionIdFollows, assigned xid member, assigned _ inList]
      exact Circular.not_follows_newest (by decide) before xid member

theorem marksExactly (horizon : isNormal oldest = true)
    (normal : ∀ row ∈ table.rows, row.xmax ≠ 0#32 → isNormal row.xmax = true) :
    MarksExactly xacts oldest table op (indexDeleteTuples xacts oldest table op) := by
  rw [indexDeleteTuples_eq]
  have any := anyDeletable_foldl xacts oldest (marksOf table op)
    ⟨op.status, 0#32, false⟩
  rw [Bool.false_or] at any
  have latest := latestRemoved_foldl xacts oldest (marksOf table op)
    ⟨op.status, 0#32, false⟩
  have listed := fun xid => @mem_removed_marksOf_iff xacts oldest table op xid
  refine ⟨fun entry member deletable => ?_, fun index undeletable => ?_, ?_, ?_, ?_, fun none => ?_,
    fun entry member xmax reclaims => ?_⟩
  · have marked : (entry.id, xmaxOf table entry.tid) ∈ marksOf table op := List.mem_map_of_mem member
    exact status_foldl_of_marked marked (deletable_iff.mpr deletable) (op.inStatus entry member)
  · refine status_foldl_of_unmarked (fun mark member same => ?_) _
    obtain ⟨entry, inOp, rfl⟩ := List.mem_map.mp member
    rw [← Bool.not_eq_true, deletable_iff]
    exact undeletable entry inOp same
  · exact length_status_foldl _ _
  · simp only [any]
    split
    · next some =>
        obtain ⟨entry, member, deletable⟩ := any_marksOf_iff.mp some
        refine iff_of_false (fun none => ?_) (fun none => none ⟨entry, member, deletable⟩)
        rw [List.length_eq_zero_iff.mp none] at member
        cases member
    · next none => exact iff_of_true rfl fun some => none (any_marksOf_iff.mpr some)
  · simp only [any]
    split
    · exact fun _ => rfl
    · exact fun some => absurd rfl some
  · have empty : removed xacts oldest (marksOf table op) = [] := by
      refine List.eq_nil_iff_forall_not_mem.mpr fun xid member => ?_
      obtain ⟨entry, inOp, reclaims⟩ := (listed xid).mp member
      exact none entry inOp xid reclaims
    simpa [empty] using latest
  · obtain ⟨inList, newest⟩ := latestRemoved_spec horizon normal listed
      ((listed xmax).mpr ⟨entry, member, reclaims⟩) latest.symm
    exact ⟨(listed _).mp inList, newest⟩

/-- A marked entry points at no version that a snapshot from the horizon on sees, as long
as the snapshot is no more than half the circle after the deletion. -/
def Unseen (xacts : Xacts) (oldest : TransactionId) (table : Table) (op : TmIndexDeleteOp) : Prop :=
  ∀ entry ∈ op.deltids, Deletable xacts oldest table entry →
    ∀ row ∈ table.rows, row.rowid = tidToRowid entry.tid → ∀ later snapshot,
      Vacuum.Later xacts later → Vacuum.SnapshotSince oldest row.xmax snapshot →
        (rowVisible later row.toStoredHeader snapshot).1 = false

/-- `index_delete_tuples` marks exactly the reclaimable entries, and returns the newest of
the xids that deleted them. -/
theorem indexDeleteTuples_exact {xacts : Xacts} {oldest : TransactionId} {table : Table}
    (horizon : isNormal oldest = true)
    (normal : ∀ row ∈ table.rows, row.xmax ≠ 0#32 → isNormal row.xmax = true)
    (op : TmIndexDeleteOp) :
    MarksExactly xacts oldest table op (indexDeleteTuples xacts oldest table op) ∧
      Unseen xacts oldest table op :=
  ⟨marksExactly horizon normal, fun _ _ deletable row member same _ _ progress since =>
    Vacuum.hidden_of_reclaimable (deletable row member same) horizon progress since⟩

def upTo105 : StatusMap := fun xid => if xid ≤ 105#32 then .committed else .inProgress

/-- Two versions of a row; the first was deleted by transaction 101. -/
def twoVersions : Table :=
  (Table.empty.insertRow 100#32 0#32 [1]).updateRow 1 101#32 0#32 [2] |>.1

/-- The first version's entry twice, the second version's, and one without a row. -/
def fourEntries : TmIndexDeleteOp where
  deltids := [⟨⟨0, 1⟩, 3⟩, ⟨⟨0, 2⟩, 0⟩, ⟨⟨0, 9⟩, 1⟩, ⟨⟨0, 1⟩, 2⟩]
  status := [false, false, false, false]
  sameLength := rfl
  inStatus := by decide
  distinct := by decide

theorem fourEntries_exact :
    MarksExactly upTo105.xacts 200#32 twoVersions fourEntries
        (indexDeleteTuples upTo105.xacts 200#32 twoVersions fourEntries) ∧
      Unseen upTo105.xacts 200#32 twoVersions fourEntries :=
  indexDeleteTuples_exact (by decide) (by decide) fourEntries

/-- Inserted by transaction 105 and then deleted by the older transaction 100. -/
def deletedByOlder : StoredRow := ⟨⟨1, 105#32, 0#32, 100#32, 0#32⟩, [1]⟩

def oneDeleted : Table := ⟨[deletedByOlder], [], by decide, by decide⟩

def oneEntry : TmIndexDeleteOp where
  deltids := [⟨⟨0, 1⟩, 0⟩]
  status := [false]
  sameLength := rfl
  inStatus := by decide
  distinct := by decide

def halfCircleLater : Snapshot := ⟨.mvcc, 0x80000065#32, 0x80000065#32, [], [], 0#32, 0#32⟩

/-- At a horizon half the circle after the deletion the entry is marked, and a snapshot
whose xmin is the next xid sees the row again. -/
theorem marked_seen :
    (isNormal 0x80000064#32 = true ∧
        ∀ row ∈ oneDeleted.rows, row.xmax ≠ 0#32 → isNormal row.xmax = true) ∧
      (indexDeleteTuples upTo105.xacts 0x80000064#32 oneDeleted oneEntry).status = [true] ∧
      (deletedByOlder ∈ oneDeleted.rows ∧ deletedByOlder.rowid = tidToRowid ⟨0, 1⟩) ∧
      isNormal halfCircleLater.xmin = true ∧
      transactionIdPrecedes 0x80000064#32 halfCircleLater.xmin = true ∧
      transactionIdPrecedes halfCircleLater.xmin 0x80000064#32 = false ∧
      (rowVisible upTo105.xacts deletedByOlder.toStoredHeader halfCircleLater).1 = true := by
  decide

end IndexDeletion

theorem IndexDeletion.indexDeleteTuples_fst {xacts : Xacts} {oldest : TransactionId} {table : Table}
    {op : TmIndexDeleteOp} :
    (table.indexDeleteTuples xacts oldest (op.deltids.map TmIndexDelete.tid)).1 =
      if (op.deltids.map fun entry => Table.deletable xacts oldest (xmaxOf table entry.tid)).any id then
        op.deltids.map fun entry => Table.deletable xacts oldest (xmaxOf table entry.tid)
      else [] := by
  have found : ∀ entry ∈ op.deltids,
      getXmax (table.selectXmaxBatch ((op.deltids.map TmIndexDelete.tid).map tidToRowid))
        (tidToRowid entry.tid) = xmaxOf table entry.tid := by
    intro entry member
    exact getXmax_selectXmaxBatch (List.mem_map_of_mem (List.mem_map_of_mem member))
  have same : ((op.deltids.map TmIndexDelete.tid).map fun tid =>
      ((table.selectXmaxBatch ((op.deltids.map TmIndexDelete.tid).map tidToRowid)).find?
        fun found => decide (found.1 = tidToRowid tid)).map Prod.snd) =
      op.deltids.map fun entry => xmaxOf table entry.tid := by
    rw [List.map_map]
    exact List.map_congr_left found
  unfold Table.indexDeleteTuples
  simp only [same]
  simp only [List.map_map]
  rfl

/-- The index beside a session gets its marks from the same entries. -/
theorem Indexed.marked_iff {xacts : Xacts} {oldest : TransactionId} {table : Table}
    {op : TmIndexDeleteOp} {tid : Tid} :
    Indexed.marked xacts oldest (op.deltids.map TmIndexDelete.tid) table tid = true ↔
      ∃ entry ∈ op.deltids, entry.tid = tid ∧
        IndexDeletion.Deletable xacts oldest table entry := by
  unfold marked
  rw [IndexDeletion.indexDeleteTuples_fst, List.any_eq_true]
  constructor
  · rintro ⟨⟨other, flag⟩, zipped, both⟩
    simp only [Bool.and_eq_true, decide_eq_true_eq] at both
    obtain ⟨rfl, rfl⟩ := both
    split at zipped
    · rw [List.zip_map', List.mem_map] at zipped
      obtain ⟨entry, member, same⟩ := zipped
      obtain ⟨rfl, deletable⟩ := Prod.mk.inj same
      exact ⟨entry, member, rfl, IndexDeletion.deletable_iff.mp deletable⟩
    · simp at zipped
  · rintro ⟨entry, member, rfl, deletable⟩
    have flag := IndexDeletion.deletable_iff.mpr deletable
    refine ⟨(entry.tid, true), ?_, by simp⟩
    rw [if_pos (List.any_eq_true.mpr ⟨true, List.mem_map.mpr ⟨entry, member, flag⟩, rfl⟩),
      List.zip_map', List.mem_map]
    exact ⟨entry, member, by rw [flag]⟩

end SqliteHeap
