import SqliteHeap.History

/-! MVCC visibility over histories with subtransactions. `xid_view` looks a foreign
xid up in `xip` but never in `subxip`, so it takes a subtransaction that was running
for one that had committed. This file says for which rows that gives a wrong answer. -/

set_option autoImplicit false

namespace SqliteHeap

theorem isNormal_stored {xid : Nat} (normal : 3 ≤ xid % 2 ^ 32) : isNormal (storedXid xid) = true := by
  simpa [isNormal, storedXid, BitVec.le_def] using normal

theorem precedes_of_permanent {stored : TransactionId} (permanent : History.isPermanent stored = true)
    {xid : Nat} (normal : 3 ≤ xid % 2 ^ 32) :
    transactionIdPrecedes stored (storedXid xid) = true := by
  refine transactionIdPrecedes_of_permanent ?_ (isNormal_stored normal)
  simp only [History.isPermanent, Bool.or_eq_true, decide_eq_true_eq] at permanent
  rcases permanent with rfl | rfl <;> rfl

theorem precedes_stored_iff {first second : Nat} (normal : 3 ≤ first % 2 ^ 32)
    (normal' : 3 ≤ second % 2 ^ 32) (ahead : second ≤ first + 2 ^ 32)
    (behind : first < second + 2 ^ 31) :
    transactionIdPrecedes (storedXid first) (storedXid second) = true ↔
      first < second ∧ second ≤ first + 2 ^ 31 := by
  rw [transactionIdPrecedes_of_normal (isNormal_stored normal) (isNormal_stored normal')]
  rcases Nat.lt_or_ge (first + 2 ^ 31) second with far | near
  · have distance : Circular.distance (storedXid first) (storedXid second) =
        (second - first) % 2 ^ 32 := by
      rcases Nat.lt_or_ge (second - first) (2 ^ 32) with less | whole
      · rw [storedXid, storedXid, Circular.distance_ofNat (by omega) less, Nat.mod_eq_of_lt less]
      · have circle : second = first + 2 ^ 32 := by omega
        have same : storedXid second = storedXid first := by
          rw [circle]
          simp [storedXid, BitVec.ofNat_add]
        rw [same, Circular.distance_self, circle]
        simp
    rw [Circular.precedes_iff (by decide), distance]
    omega
  · rw [storedXid, storedXid, Circular.precedes_ofNat_iff (by decide) (by omega) (by omega)]
    omega

namespace History

/-- A snapshot in use: its transaction is running, and Postgres has not handed out
xids beyond half the circle from its lower bound. -/
structure InUse (taken now : History) (reader : TxnId) : Prop where
  formed : taken.WellFormed
  formedNow : now.WellFormed
  since : taken.Since now
  reading : now.status reader = .running
  window : now.nextXid ≤ taken.xmin + 2 ^ 31

/-- The transaction that owns the xid had committed when the snapshot was taken. -/
def CommittedWhenTaken (taken now : History) (stored : TransactionId) : Prop :=
  isPermanent stored = true ∨
    ∃ assigned, now.named stored = some assigned ∧ taken.status assigned.owner = .committed

/-- The xid is one of the reader's own. -/
def Own (now : History) (reader : TxnId) (stored : TransactionId) : Prop :=
  ∃ assigned, now.named stored = some assigned ∧ assigned.owner = reader

/-- What an xid did with a command id belongs to the snapshot. -/
def Happened (taken now : History) (reader : TxnId) (curcid : CommandId) (stored : TransactionId)
    (cid : CommandId) : Prop :=
  CommittedWhenTaken taken now stored ∨ Own now reader stored ∧ cid < curcid

/-- The row version as the snapshot should see it. -/
def VisibleAsTaken (taken now : History) (reader : TxnId) (curcid : CommandId) (row : StoredHeader) :
    Prop :=
  Happened taken now reader curcid row.xmin row.cmin ∧
    ¬ Happened taken now reader curcid row.xmax row.cmax

/-- The xid is more than half the circle before the snapshot. -/
def TooOld (taken now : History) (stored : TransactionId) : Prop :=
  ∃ assigned, now.named stored = some assigned ∧ assigned.xid + 2 ^ 31 < taken.xmin

/-- A subtransaction of another transaction, before the snapshot's upper bound, that
was running when the snapshot was taken and is committed by now. -/
def CommittedSince (taken now : History) (reader : TxnId) (stored : TransactionId) : Prop :=
  ∃ assigned, now.named stored = some assigned ∧ assigned.sub = true ∧ assigned.owner ≠ reader ∧
    taken.status assigned.owner = .running ∧ assigned.xid < taken.xmax ∧
    now.status assigned.owner = .committed

/-- The row versions on which `row_visible` is wrong. -/
inductive Misjudged (taken now : History) (reader : TxnId) (curcid : CommandId)
    (row : StoredHeader) : Prop where
  | missed (inserted : Happened taken now reader curcid row.xmin row.cmin)
      (live : ¬ Happened taken now reader curcid row.xmax row.cmax)
      (wrong : TooOld taken now row.xmin ∨ CommittedSince taken now reader row.xmax)
  | early (wrong : CommittedSince taken now reader row.xmin)
      (live : ¬ CommittedSince taken now reader row.xmax)
      (undeleted : Happened taken now reader curcid row.xmax row.cmax → TooOld taken now row.xmax)
  | kept (inserted : Happened taken now reader curcid row.xmin row.cmin)
      (near : ¬ TooOld taken now row.xmin)
      (deleted : Happened taken now reader curcid row.xmax row.cmax)
      (wrong : TooOld taken now row.xmax)

theorem misjudged_iff {taken now : History} {reader : TxnId} {curcid : CommandId}
    {row : StoredHeader} :
    Misjudged taken now reader curcid row ↔
      Happened taken now reader curcid row.xmin row.cmin ∧
          ¬ Happened taken now reader curcid row.xmax row.cmax ∧
          (TooOld taken now row.xmin ∨ CommittedSince taken now reader row.xmax) ∨
        CommittedSince taken now reader row.xmin ∧ ¬ CommittedSince taken now reader row.xmax ∧
          (Happened taken now reader curcid row.xmax row.cmax → TooOld taken now row.xmax) ∨
        Happened taken now reader curcid row.xmin row.cmin ∧ ¬ TooOld taken now row.xmin ∧
          Happened taken now reader curcid row.xmax row.cmax ∧ TooOld taken now row.xmax := by
  constructor
  · rintro (⟨inserted, live, wrong⟩ | ⟨wrong, live, undeleted⟩ | ⟨inserted, near, deleted, wrong⟩)
    · exact .inl ⟨inserted, live, wrong⟩
    · exact .inr (.inl ⟨wrong, live, undeleted⟩)
    · exact .inr (.inr ⟨inserted, near, deleted, wrong⟩)
  · rintro (⟨inserted, live, wrong⟩ | ⟨wrong, live, undeleted⟩ | ⟨inserted, near, deleted, wrong⟩)
    · exact .missed inserted live wrong
    · exact .early wrong live undeleted
    · exact .kept inserted near deleted wrong

section Decide

variable (taken now : History) (reader : TxnId) (curcid : CommandId) (stored : TransactionId)
  (cid : CommandId)

instance (holds : AssignedXid → Prop) [DecidablePred holds] :
    Decidable (∃ assigned, now.named stored = some assigned ∧ holds assigned) :=
  match found : now.named stored with
  | none => isFalse (by simp)
  | some assigned => decidable_of_iff (holds assigned) (by simp)

instance : Decidable (CommittedWhenTaken taken now stored) := inferInstanceAs (Decidable (_ ∨ _))
instance : Decidable (Own now reader stored) := inferInstanceAs (Decidable (∃ _, _ ∧ _))
instance : Decidable (Happened taken now reader curcid stored cid) :=
  inferInstanceAs (Decidable (_ ∨ _ ∧ _))
instance : Decidable (TooOld taken now stored) := inferInstanceAs (Decidable (∃ _, _ ∧ _))
instance : Decidable (CommittedSince taken now reader stored) :=
  inferInstanceAs (Decidable (∃ _, _ ∧ _))
instance (row : StoredHeader) : Decidable (VisibleAsTaken taken now reader curcid row) :=
  inferInstanceAs (Decidable (_ ∧ ¬ _))
instance (row : StoredHeader) : Decidable (Misjudged taken now reader curcid row) :=
  decidable_of_iff _ misjudged_iff.symm

end Decide

namespace WellFormed

open Visibility

variable {history : History} {stored : TransactionId} {assigned : AssignedXid}

theorem not_permanent (formed : history.WellFormed) (found : history.named stored = some assigned) :
    isPermanent stored = false ∧ stored ≠ 0#32 := by
  obtain ⟨member, rfl, _⟩ := formed.named_iff.mp found
  have normal := formed.normal assigned member
  have value : assigned.stored.toNat = assigned.xid % 2 ^ 32 := by
    simp [AssignedXid.stored, storedXid]
  constructor
  · simp only [isPermanent, Bool.or_eq_false_iff, decide_eq_false_iff_not]
    constructor <;> · intro same; rw [same] at value; simp at value; omega
  · intro same
    rw [same] at value
    simp at value
    omega

theorem didCommit_iff (formed : history.WellFormed) (found : history.named stored = some assigned)
    (reader : TxnId) :
    didCommit (history.xacts reader) stored = true ↔ history.status assigned.owner = .committed := by
  obtain ⟨permanent, nonzero⟩ := formed.not_permanent found
  simp [didCommit, nonzero, xacts, permanent, found]

end WellFormed

namespace InUse

open Visibility

variable {taken now : History} {reader : TxnId} {stored : TransactionId} {assigned : AssignedXid}

theorem isCurrent_iff (use : InUse taken now reader) :
    (now.xacts reader).isCurrent stored = true ↔ Own now reader stored := by
  unfold Own xacts
  cases found : now.named stored with
  | none => simp [found]
  | some assigned => simp [found, use.reading]

/-- `xid_view` finds a foreign xid committed and visible by its place between the
snapshot's bounds. -/
theorem xidView_iff (use : InUse taken now reader) (found : now.named stored = some assigned)
    (curcid : CommandId) :
    xidView (now.xacts reader) stored (taken.snapshot reader curcid) = .committedAndVisible ↔
      assigned.owner ≠ reader ∧ now.status assigned.owner = .committed ∧
        taken.xmin ≤ assigned.xid + 2 ^ 31 ∧ assigned.xid < taken.xmax ∧
        (assigned.xid < taken.xmin ∨ stored ∉ (taken.snapshot reader curcid).xip) := by
  obtain ⟨member, rfl, recent⟩ := use.formedNow.named_iff.mp found
  have below := use.formedNow.below assigned member
  have normal := use.formedNow.normal assigned member
  have order := taken.xmin_le_xmax
  have bound := use.formed.xmax_le_nextXid
  have grown := use.since.nextXid
  have window := use.window
  have own : (now.xacts reader).isCurrent assigned.stored = false ↔ assigned.owner ≠ reader := by
    rw [Bool.eq_false_iff, ne_eq, use.isCurrent_iff]
    simp [Own, found]
  have lower := precedes_stored_iff normal use.formed.xmin_normal (by omega) (by omega)
  have upper := precedes_stored_iff normal use.formed.xmax_normal (by omega) (by omega)
  rw [xidView_committed_iff, own, use.formedNow.didCommit_iff found reader]
  change _ ∧ _ ∧ (transactionIdPrecedes (storedXid assigned.xid) (storedXid taken.xmin) = true ∨
    transactionIdPrecedes (storedXid assigned.xid) (storedXid taken.xmax) = true ∧ _) ↔ _
  rw [lower, upper]
  refine and_congr_right fun _ => and_congr_right fun _ => ?_
  constructor
  · rintro (⟨before, near⟩ | ⟨⟨before, near⟩, absent⟩)
    · exact ⟨near, by omega, .inl before⟩
    · exact ⟨by omega, before, .inr absent⟩
  · rintro ⟨near, before, first | absent⟩
    · exact .inl ⟨first, near⟩
    · refine (Nat.lt_or_ge assigned.xid taken.xmin).imp (fun first => ⟨first, near⟩) fun after => ?_
      exact ⟨⟨before, by omega⟩, absent⟩

theorem known (use : InUse taken now reader) (member : assigned ∈ now.assigned)
    (before : assigned.xid < taken.xmax) : assigned ∈ taken.assigned := by
  have bound := use.formed.xmax_le_nextXid
  rcases use.since.new assigned member with old | new
  · exact old
  · omega

theorem mem_xip_iff (use : InUse taken now reader) (found : now.named stored = some assigned)
    (before : assigned.xid < taken.xmax) (curcid : CommandId) :
    stored ∈ (taken.snapshot reader curcid).xip ↔
      taken.status assigned.owner = .running ∧ assigned.owner ≠ reader ∧ assigned.sub = false := by
  obtain ⟨member, bits, recent⟩ := use.formedNow.named_iff.mp found
  have old := use.known member before
  have grown := use.since.nextXid
  simp only [snapshot, List.mem_map, List.mem_filter, mem_running_iff, decide_eq_true_eq,
    Bool.and_eq_true, Bool.not_eq_eq_eq_not, Bool.not_true]
  constructor
  · rintro ⟨other, ⟨⟨⟨inOther, running⟩, different⟩, top, _⟩, same⟩
    have otherRecent : taken.nextXid ≤ other.xid + 2 ^ 32 := by
      have low := xmin_le (mem_running_iff.mpr ⟨inOther, running⟩)
      have window := use.window
      omega
    have only := use.formed.eq_of_stored_eq inOther old (same.trans bits.symm) otherRecent
      (by omega)
    rw [← only]
    exact ⟨running, different, top⟩
  · rintro ⟨running, different, top⟩
    exact ⟨assigned, ⟨⟨⟨old, running⟩, different⟩, top, before⟩, bits⟩

theorem not_tooOld_of_own (use : InUse taken now reader) (own : Own now reader stored) :
    ¬ TooOld taken now stored := by
  obtain ⟨assigned, found, owner⟩ := own
  rintro ⟨other, found', old⟩
  cases found.symm.trans found'
  obtain ⟨member, _, _⟩ := use.formedNow.named_iff.mp found
  rcases use.since.new assigned member with known | new
  · have ended := WellFormed.ended_of_lt_xmin known (by omega)
    exact ended (use.formed.running_of_since use.since known (owner ▸ use.reading))
  · have bound := use.formed.xmin_le_nextXid
    omega

theorem committedAndVisible_of_unnamed (use : InUse taken now reader) (unnamed : now.named stored = none)
    (curcid : CommandId) :
    xidView (now.xacts reader) stored (taken.snapshot reader curcid) = .committedAndVisible ↔
      isPermanent stored = true := by
  have foreign : (now.xacts reader).isCurrent stored = false := by simp [xacts, unnamed]
  rw [xidView_committed_iff, foreign]
  constructor
  · rintro ⟨_, committed, _⟩
    by_contra other
    simp [didCommit, xacts, unnamed, other] at committed
  · intro permanent
    refine ⟨rfl, ?_, .inl (precedes_of_permanent permanent use.formed.xmin_normal)⟩
    have nonzero : stored ≠ 0#32 := by
      rintro rfl
      cases permanent
    simp [didCommit, nonzero, xacts, permanent]

theorem committedAndVisible_of_named (use : InUse taken now reader)
    (found : now.named stored = some assigned) (curcid : CommandId) :
    xidView (now.xacts reader) stored (taken.snapshot reader curcid) = .committedAndVisible ↔
      taken.status assigned.owner = .committed ∧ ¬ assigned.xid + 2 ^ 31 < taken.xmin ∨
        assigned.sub = true ∧ assigned.owner ≠ reader ∧ taken.status assigned.owner = .running ∧
          assigned.xid < taken.xmax ∧ now.status assigned.owner = .committed := by
  obtain ⟨member, bits, _⟩ := use.formedNow.named_iff.mp found
  rw [use.xidView_iff found]
  constructor
  · rintro ⟨foreign, committed, near, before, absent⟩
    have known := use.known member before
    cases status : taken.status assigned.owner with
    | unstarted => exact absurd status (use.formed.started assigned known)
    | committed => exact .inl ⟨rfl, by omega⟩
    | aborted =>
        have later := use.since.aborted _ status
        rw [committed] at later
        cases later
    | running =>
        have after := xmin_le (mem_running_iff.mpr ⟨known, status⟩)
        have notListed := absent.resolve_left (by omega)
        rw [use.mem_xip_iff found before] at notListed
        refine .inr ⟨?_, foreign, rfl, before, committed⟩
        simpa [status, foreign] using notListed
  · rintro (⟨committed, near⟩ | ⟨sub, foreign, running, before, committed⟩)
    · have known := use.since.closed assigned member committed
      have before := use.formed.lt_xmax known (by simp [committed])
      refine ⟨?_, use.since.committed _ committed, by omega, before, .inr ?_⟩
      · rintro rfl
        have later := use.since.committed _ committed
        rw [use.reading] at later
        cases later
      · rw [use.mem_xip_iff found before]
        simp [committed]
    · have known := use.known member before
      have after := xmin_le (mem_running_iff.mpr ⟨known, running⟩)
      refine ⟨foreign, committed, by omega, before, .inr ?_⟩
      rw [use.mem_xip_iff found before]
      simp [sub]

theorem committedAndVisible_iff (use : InUse taken now reader) (curcid : CommandId) :
    xidView (now.xacts reader) stored (taken.snapshot reader curcid) = .committedAndVisible ↔
      CommittedWhenTaken taken now stored ∧ ¬ TooOld taken now stored ∨
        CommittedSince taken now reader stored := by
  cases found : now.named stored with
  | none =>
      rw [use.committedAndVisible_of_unnamed found]
      simp [CommittedWhenTaken, TooOld, CommittedSince, found]
  | some assigned =>
      have permanent := (use.formedNow.not_permanent found).1
      rw [use.committedAndVisible_of_named found]
      simp [CommittedWhenTaken, TooOld, CommittedSince, found, permanent]

/-- What `visible_mvcc` takes for granted about an xid and a command id. -/
theorem counts_iff (use : InUse taken now reader) (curcid cid : CommandId) :
    (xidView (now.xacts reader) stored (taken.snapshot reader curcid) = .committedAndVisible ∨
        (now.xacts reader).isCurrent stored = true ∧ cid < curcid) ↔
      Happened taken now reader curcid stored cid ∧ ¬ TooOld taken now stored ∨
        CommittedSince taken now reader stored := by
  rw [use.committedAndVisible_iff, use.isCurrent_iff, Happened]
  constructor
  · rintro ((⟨committed, near⟩ | since) | ⟨own, before⟩)
    · exact .inl ⟨.inl committed, near⟩
    · exact .inr since
    · exact .inl ⟨.inr ⟨own, before⟩, use.not_tooOld_of_own own⟩
  · rintro (⟨committed | ⟨own, before⟩, near⟩ | since)
    · exact .inl (.inl ⟨committed, near⟩)
    · exact .inr ⟨own, before⟩
    · exact .inl (.inr since)

theorem not_happened_of_since (use : InUse taken now reader)
    (since : CommittedSince taken now reader stored) (curcid cid : CommandId) :
    ¬ Happened taken now reader curcid stored cid := by
  obtain ⟨assigned, found, _, foreign, running, _, _⟩ := since
  rintro ((permanent | ⟨other, found', committed⟩) | ⟨⟨other, found', own⟩, _⟩)
  · rw [(use.formedNow.not_permanent found).1] at permanent
    cases permanent
  · cases found.symm.trans found'
    rw [running] at committed
    cases committed
  · cases found.symm.trans found'
    exact foreign own

theorem nonzero_of_counts (use : InUse taken now reader) {curcid cid : CommandId}
    (counts : Happened taken now reader curcid stored cid ∧ ¬ TooOld taken now stored ∨
      CommittedSince taken now reader stored) : stored ≠ 0#32 := by
  rintro rfl
  have unnamed : ∀ assigned, now.named 0#32 ≠ some assigned :=
    fun assigned found => (use.formedNow.not_permanent found).2 rfl
  rcases counts with ⟨(permanent | ⟨other, found, _⟩) | ⟨⟨other, found, _⟩, _⟩, _⟩ |
    ⟨other, found, _⟩
  · cases permanent
  · exact unnamed other found
  · exact unnamed other found
  · exact unnamed other found

/-- `row_visible` in terms of what happened for the snapshot and what is mistaken. -/
theorem rowVisible_iff (use : InUse taken now reader) (curcid : CommandId) (row : StoredHeader) :
    (rowVisible (now.xacts reader) row (taken.snapshot reader curcid)).1 = true ↔
      (Happened taken now reader curcid row.xmin row.cmin ∧ ¬ TooOld taken now row.xmin ∨
        CommittedSince taken now reader row.xmin) ∧
      ¬ (Happened taken now reader curcid row.xmax row.cmax ∧ ¬ TooOld taken now row.xmax ∨
        CommittedSince taken now reader row.xmax) := by
  change visibleMvcc _ _ _ = true ↔ _
  rw [visibleMvcc_iff, DeletedFor, ← use.counts_iff curcid row.cmin, ← use.counts_iff curcid row.cmax]
  have stamped : (xidView (now.xacts reader) row.xmax (taken.snapshot reader curcid) =
      .committedAndVisible ∨ (now.xacts reader).isCurrent row.xmax = true ∧ row.cmax < curcid) →
      row.xmax ≠ 0#32 := by
    rw [use.counts_iff curcid row.cmax]
    exact fun counts => use.nonzero_of_counts counts
  exact and_congr_right fun _ => not_congr (and_iff_right_of_imp stamped)

end InUse

/-- Under any snapshot and at any time while it is in use, `row_visible` shows the
row version as of the snapshot if and only if the row is not misjudged. -/
theorem rowVisible_asTaken_iff {before after : List XactEvent} {taken now : History}
    (reached : run start before = some taken) (later : run taken after = some now) {reader : TxnId}
    (reading : now.status reader = .running) (window : now.nextXid ≤ taken.xmin + 2 ^ 31)
    (curcid : CommandId) (row : StoredHeader) :
    ((Visibility.rowVisible (now.xacts reader) row (taken.snapshot reader curcid)).1 = true ↔
        VisibleAsTaken taken now reader curcid row) ↔
      ¬ Misjudged taken now reader curcid row := by
  have formed := WellFormed.start.run reached
  have use : InUse taken now reader := ⟨formed, formed.run later, .run formed later, reading, window⟩
  rw [use.rowVisible_iff curcid row, VisibleAsTaken]
  have inserted : CommittedSince taken now reader row.xmin →
      ¬ Happened taken now reader curcid row.xmin row.cmin :=
    fun since => use.not_happened_of_since since curcid row.cmin
  have deleted : CommittedSince taken now reader row.xmax →
      ¬ Happened taken now reader curcid row.xmax row.cmax :=
    fun since => use.not_happened_of_since since curcid row.cmax
  rw [misjudged_iff]
  by_cases since : CommittedSince taken now reader row.xmin
  · simp only [since, inserted since, false_and, false_or, or_true, true_and, or_false]
    by_cases later : CommittedSince taken now reader row.xmax
    · simp [later]
    · by_cases far : TooOld taken now row.xmax <;> simp [later, far]
  · by_cases later : CommittedSince taken now reader row.xmax
    · simp only [since, later, deleted later, false_and, or_true, or_false, not_true_eq_false,
        and_false, not_false_eq_true, and_true, false_iff]
    · simp only [since, later, or_false, false_and, false_or]
      by_cases happened : Happened taken now reader curcid row.xmin row.cmin
      · by_cases gone : Happened taken now reader curcid row.xmax row.cmax
        · by_cases far : TooOld taken now row.xmin <;> simp [happened, gone, far]
        · simp [happened, gone]
      · simp [happened]

/-! ## Runs -/

/-- Transaction 1 takes xid 3 and runs a subtransaction with xid 4. Transaction 3
takes xid 5 and commits, so that a snapshot of transaction 2 has upper bound 6. -/
def subRunning : List XactEvent :=
  [.begin 1, .assign 1, .assignSub 1, .begin 3, .assign 3, .commit 3, .begin 2]

/-- A row that transaction 3 inserted is judged right. -/
theorem subRunning_committed :
    ∃ taken now, run start subRunning = some taken ∧ run taken [.commit 1] = some now ∧
      ((Visibility.rowVisible (now.xacts 2) ⟨1, 5#32, 0#32, 0#32, 0#32⟩
          (taken.snapshot 2 0#32)).1 = true ↔
        VisibleAsTaken taken now 2 0#32 ⟨1, 5#32, 0#32, 0#32, 0#32⟩) := by
  obtain ⟨taken, now, reached, later, reading, window, right⟩ : ∃ taken now,
      run start subRunning = some taken ∧ run taken [.commit 1] = some now ∧
      now.status 2 = .running ∧ now.nextXid ≤ taken.xmin + 2 ^ 31 ∧
      ¬ Misjudged taken now 2 0#32 ⟨1, 5#32, 0#32, 0#32, 0#32⟩ :=
    ⟨_, _, rfl, rfl, by decide, by decide, by decide⟩
  exact ⟨taken, now, reached, later, (rowVisible_asTaken_iff reached later reading window _ _).mpr right⟩

/-- A row that the subtransaction inserted appears in the snapshot once transaction 1
has committed. -/
theorem subRunning_appears :
    ∃ taken now, run start subRunning = some taken ∧ run taken [.commit 1] = some now ∧
      (Visibility.rowVisible (now.xacts 2) ⟨1, 4#32, 0#32, 0#32, 0#32⟩
        (taken.snapshot 2 0#32)).1 = true ∧
      ¬ VisibleAsTaken taken now 2 0#32 ⟨1, 4#32, 0#32, 0#32, 0#32⟩ :=
  ⟨_, _, rfl, rfl, by decide, by decide⟩

end History

end SqliteHeap
