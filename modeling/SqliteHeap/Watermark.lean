import SqliteHeap.Lib.Transition
import SqliteHeap.Vacuum

/-! VACUUM and the watermark that it leaves, through runs of the file of one relation.
Transactions write rows, the horizon moves on around the circle of xids, and VACUUM is
called at some of its values. The file has one writer at a time, and what it writes is in
the file once its SQLite transaction commits. -/

set_option autoImplicit false

namespace SqliteHeap.Watermark

open Vacuum

/-- A write of rows, with `xid` the current transaction's. -/
inductive RowWrite where
  | insert (cid : CommandId) (tuple : Bytes)
  | multiInsert (cid : CommandId) (tuples : List Bytes)
  | delete (rowid : Int) (cid : CommandId)
  | update (oldRowid : Int) (cid : CommandId) (tuple : Bytes)

namespace RowWrite

def apply (xid : TransactionId) (table : Table) : RowWrite → Table
  | .insert cid tuple => (table.insert xid cid tuple).1
  | .multiInsert cid tuples => (table.insertBatch xid cid tuples).1
  | .delete rowid cid => (table.setXmax rowid xid cid).1
  | .update oldRowid cid tuple => (table.updateRow oldRowid xid cid tuple).1

/-- The xmax of a row is that of an earlier row, or the writer's, or none. -/
def Stamps (xid : TransactionId) (table after : Table) : Prop :=
  ∀ row ∈ after.rows, row.xmax = 0#32 ∨ row.xmax = xid ∨ ∃ old ∈ table.rows, old.xmax = row.xmax

variable {xid : TransactionId} {table : Table}

theorem Stamps.trans {middle after : Table} (first : Stamps xid table middle)
    (second : Stamps xid middle after) : Stamps xid table after := by
  intro row member
  rcases second row member with none | own | ⟨old, earlier, same⟩
  · exact .inl none
  · exact .inr (.inl own)
  · rw [← same]
    exact first old earlier

theorem stamps_insertRow (cid : CommandId) (tuple : Bytes) :
    Stamps xid table (table.insertRow xid cid tuple) := by
  intro row member
  rcases List.mem_append.mp member with earlier | new
  · exact .inr (.inr ⟨row, earlier, rfl⟩)
  · rw [List.mem_singleton.mp new]
    exact .inl rfl

theorem stamps_stampRow (rowid : Int) (cid : CommandId) :
    Stamps xid table (table.stampRow rowid xid cid) := by
  intro row member
  obtain ⟨old, earlier, rfl⟩ := List.mem_map.mp member
  unfold Table.stamp
  split
  · exact .inr (.inl rfl)
  · exact .inr (.inr ⟨old, earlier, rfl⟩)

theorem stamps_insertBatch (cid : CommandId) (tuples : List Bytes) :
    Stamps xid table (table.insertBatch xid cid tuples).1 := by
  induction tuples generalizing table with
  | nil => exact fun row member => .inr (.inr ⟨row, member, rfl⟩)
  | cons tuple rest ih => exact (stamps_insertRow cid tuple).trans ih

theorem stamps_apply (op : RowWrite) : Stamps xid table (op.apply xid table) := by
  cases op with
  | insert cid tuple => exact stamps_insertRow cid tuple
  | multiInsert cid tuples => exact stamps_insertBatch cid tuples
  | delete rowid cid => exact stamps_stampRow rowid cid
  | update oldRowid cid tuple => exact (stamps_stampRow oldRowid cid).trans (stamps_insertRow cid tuple)

theorem metaRows_insertBatch (cid : CommandId) (tuples : List Bytes) :
    (table.insertBatch xid cid tuples).1.metaRows = table.metaRows := by
  induction tuples generalizing table with
  | nil => rfl
  | cons tuple rest ih => exact ih

theorem lastVacuumXmin_apply (op : RowWrite) :
    (op.apply xid table).lastVacuumXmin = table.lastVacuumXmin := by
  have kept : (op.apply xid table).metaRows = table.metaRows := by
    cases op with
    | insert | delete | update => rfl
    | multiInsert cid tuples => exact metaRows_insertBatch cid tuples
  rw [Table.lastVacuumXmin, Table.lastVacuumXmin, Table.metaGet, Table.metaGet, kept]

end RowWrite

/-- The tables of a file, and whether a VACUUM has returned at the present horizon. -/
structure File where
  table : Table
  atHorizon : Bool

structure System where
  /-- Xids assigned to transactions that are not over. -/
  running : List TransactionId
  committed : List TransactionId
  /-- The last result of `GetOldestNonRemovableTransactionId`. -/
  horizon : TransactionId
  file : File
  /-- The file as the open SQLite transaction on it has left it. -/
  writing : Option File

inductive Event where
  | assign (xid : TransactionId)
  | finish (xid : TransactionId) (commits : Bool)
  | write (xid : TransactionId) (op : RowWrite)
  | sqliteCommit
  | sqliteRollback
  /-- The horizon moves while other relations are vacuumed. -/
  | advance (oldest : TransactionId)
  | vacuum (oldest : TransactionId)

namespace System

def xacts (system : System) : Xacts where
  __ := Xacts.idle
  transactionIdDidCommit xid := system.committed.contains xid

/-- Postgres can have this horizon next: it is at or after the last one, and no xid that
precedes it is running. -/
def CanReach (system : System) (oldest : TransactionId) : Prop :=
  isNormal oldest = true ∧
    (oldest = system.horizon ∨ transactionIdPrecedes system.horizon oldest = true) ∧
    ∀ xid ∈ system.running, transactionIdPrecedes xid oldest = false

instance (system : System) (oldest : TransactionId) : Decidable (system.CanReach oldest) :=
  have := List.decidableBAll (fun xid => transactionIdPrecedes xid oldest = false) system.running
  inferInstanceAs (Decidable (_ ∧ _ ∧ _))

/-- A file stays vacuumed while the horizon stays. -/
def moved (system : System) (oldest : TransactionId) (file : File) : File :=
  { file with atHorizon := file.atHorizon && oldest = system.horizon }

def advance (system : System) (oldest : TransactionId) : System :=
  { system with
    horizon := oldest
    file := system.moved oldest system.file
    writing := system.writing.map (system.moved oldest) }

/-- `relation_vacuum`. An early return writes nothing, and otherwise VACUUM is the writer. -/
def vacuum (system : System) (oldest : TransactionId) : Option System :=
  let vacuumed : File := ⟨relationVacuum oldest system.file.table, true⟩
  if oldest ≤ system.file.table.lastVacuumXmin then
    some { system.advance oldest with file := vacuumed }
  else if system.writing.isSome then none -- SQLITE_BUSY
  else some { system.advance oldest with writing := some vacuumed }

def step (system : System) : Event → Option System
  | .assign xid =>
      if isNormal xid && !system.running.contains xid &&
          !transactionIdPrecedes xid system.horizon then
        -- an xid that the counter comes back to is a new transaction
        some { system with
          running := xid :: system.running
          committed := system.committed.filter fun other => other ≠ xid }
      else none
  | .finish xid commits =>
      if system.running.contains xid then
        some { system with
          running := system.running.filter fun other => other ≠ xid
          committed := if commits then xid :: system.committed else system.committed }
      else none
  | .write xid op =>
      if system.running.contains xid then
        let file := system.writing.getD system.file
        some { system with writing := some { file with table := op.apply xid file.table } }
      else none
  | .sqliteCommit => some { system with file := system.writing.getD system.file, writing := none }
  | .sqliteRollback => some { system with writing := none }
  | .advance oldest => if system.CanReach oldest then some (system.advance oldest) else none
  | .vacuum oldest => if system.CanReach oldest then system.vacuum oldest else none

/-- A new relation, at any horizon that Postgres may have. -/
def start (committed : List TransactionId) (horizon : TransactionId) : System where
  running := []
  committed := committed
  horizon := horizon
  file := ⟨.empty, false⟩
  writing := none

/-- No row is left whose xmax is committed and precedes the horizon. -/
def Clean (system : System) (oldest : TransactionId) (table : Table) : Prop :=
  ∀ row ∈ table.rows, ¬ Reclaimable system.xacts oldest row.toStoredHeader

/-- A call of VACUUM leaves the file clean, also one that returns early. -/
def Complete (system : System) : Event → Prop
  | .vacuum oldest => system.Clean oldest (relationVacuum oldest system.file.table)
  | _ => True

/-- Above the watermark as unsigned numbers, and with every row to reclaim below the
horizon as signed numbers. -/
def InOrder (system : System) (oldest : TransactionId) : Prop :=
  ∀ row ∈ system.file.table.rows, Reclaimable system.xacts oldest row.toStoredHeader →
    system.file.table.lastVacuumXmin < oldest ∧ row.xmax.toInt < oldest.toInt

/-- VACUUM has returned at this horizon already, or the numbers are in order. -/
def Allowed (system : System) : Event → Prop
  | .vacuum oldest =>
      (oldest = system.horizon ∧ system.file.atHorizon = true) ∨ system.InOrder oldest
  | _ => True

/-- A file that was vacuumed at the horizon is clean. -/
def Kept (system : System) (file : File) : Prop :=
  file.atHorizon = true → system.Clean system.horizon file.table

structure Settled (system : System) : Prop where
  file : system.Kept system.file
  writing : ∀ file ∈ system.writing, system.Kept file
  running : ∀ xid ∈ system.running, transactionIdPrecedes xid system.horizon = false

variable {system next : System} {oldest xid : TransactionId}

theorem reclaimable_iff {row : StoredHeader} :
    Reclaimable system.xacts oldest row ↔
      row.xmax ≠ 0#32 ∧ row.xmax ∈ system.committed ∧ transactionIdPrecedes row.xmax oldest = true := by
  unfold Reclaimable Visibility.didCommit
  constructor
  · rintro ⟨stamped, committed, before⟩
    exact ⟨stamped, by simpa [stamped, xacts] using committed, before⟩
  · rintro ⟨stamped, committed, before⟩
    exact ⟨stamped, by simpa [stamped, xacts] using committed, before⟩

/-- What a VACUUM leaves is clean if the numbers are in order. -/
theorem clean_relationVacuum_iff :
    system.Clean oldest (relationVacuum oldest system.file.table) ↔ system.InOrder oldest := by
  constructor
  · intro clean row member reclaimable
    obtain ⟨runs, _, dead⟩ := removed_iff.mp ⟨member, fun left => clean row left reclaimable⟩
    exact ⟨BitVec.not_le.mp runs, (isDead_iff.mp dead).2⟩
  · intro ordered row left reclaimable
    have member : row ∈ system.file.table.rows := by
      unfold relationVacuum Table.vacuumDead at left
      split at left
      · exact left
      · exact (List.mem_filter.mp left).1
    obtain ⟨above, below⟩ := ordered row member reclaimable
    have removed : Removed oldest system.file.table row :=
      removed_iff.mpr ⟨BitVec.not_le.mpr above, member, isDead_iff.mpr ⟨reclaimable.1, below⟩⟩
    exact removed.2 left

theorem Kept.of_reclaimable {file after : File} (kept : system.Kept file)
    (flag : after.atHorizon = true → file.atHorizon = true)
    (rows : ∀ row ∈ after.table.rows, Reclaimable next.xacts next.horizon row.toStoredHeader →
      ∃ old ∈ file.table.rows, Reclaimable system.xacts system.horizon old.toStoredHeader) :
    next.Kept after := by
  intro vacuumed row member reclaimable
  obtain ⟨old, earlier, dead⟩ := rows row member reclaimable
  exact kept (flag vacuumed) old earlier dead

theorem Settled.assign (settled : system.Settled)
    (after : transactionIdPrecedes xid system.horizon = false) :
    Settled { system with
      running := xid :: system.running
      committed := system.committed.filter fun other => other ≠ xid } := by
  have kept {file : File} (kept : system.Kept file) : Kept { system with
      running := xid :: system.running
      committed := system.committed.filter fun other => other ≠ xid } file := by
    refine kept.of_reclaimable id fun row member reclaimable => ⟨row, member, ?_⟩
    rw [reclaimable_iff] at reclaimable ⊢
    exact ⟨reclaimable.1, (List.mem_filter.mp reclaimable.2.1).1, reclaimable.2.2⟩
  exact ⟨kept settled.file, fun file member => kept (settled.writing file member),
    List.forall_mem_cons.mpr ⟨after, settled.running⟩⟩

theorem Settled.finish (settled : system.Settled) (running : xid ∈ system.running) (commits : Bool) :
    Settled { system with
      running := system.running.filter fun other => other ≠ xid
      committed := if commits then xid :: system.committed else system.committed } := by
  have kept {file : File} (kept : system.Kept file) : Kept { system with
      running := system.running.filter fun other => other ≠ xid
      committed := if commits then xid :: system.committed else system.committed } file := by
    refine kept.of_reclaimable id fun row member reclaimable => ⟨row, member, ?_⟩
    rw [reclaimable_iff] at reclaimable ⊢
    obtain ⟨stamped, committed, before⟩ := reclaimable
    have other : row.xmax ≠ xid := by
      rintro rfl
      rw [settled.running _ running] at before
      cases before
    refine ⟨stamped, ?_, before⟩
    cases commits with
    | false => exact committed
    | true => exact (List.mem_cons.mp committed).resolve_left other
  exact ⟨kept settled.file, fun file member => kept (settled.writing file member),
    fun other member => settled.running other (List.mem_filter.mp member).1⟩

theorem Settled.write (settled : system.Settled) (running : xid ∈ system.running) (op : RowWrite)
    {file : File} (kept : system.Kept file) :
    Settled { system with writing := some { file with table := op.apply xid file.table } } := by
  refine ⟨settled.file, ?_, settled.running⟩
  rintro _ ⟨⟩
  refine kept.of_reclaimable id fun row member reclaimable => ?_
  have own : row.xmax ≠ xid := by
    intro own
    have before := reclaimable.2.2
    rw [own] at before
    rw [settled.running _ running] at before
    cases before
  rcases RowWrite.stamps_apply op row member with none | same | ⟨old, earlier, same⟩
  · exact absurd none reclaimable.1
  · exact absurd same own
  · refine ⟨old, earlier, ?_⟩
    unfold Reclaimable at reclaimable ⊢
    rw [same]
    exact reclaimable

theorem Settled.advance (settled : system.Settled) (reached : system.CanReach oldest) :
    Settled (system.advance oldest) := by
  have kept {file : File} (kept : system.Kept file) :
      Kept (system.advance oldest) (system.moved oldest file) := by
    intro vacuumed
    simp only [moved, Bool.and_eq_true, decide_eq_true_eq] at vacuumed
    obtain ⟨clean, rfl⟩ := vacuumed
    exact kept clean
  refine ⟨kept settled.file, fun file member => ?_, reached.2.2⟩
  obtain ⟨before, written, rfl⟩ := Option.map_eq_some_iff.mp member
  exact kept (settled.writing before written)

theorem Settled.vacuum (settled : system.Settled) (reached : system.CanReach oldest)
    (complete : system.Clean oldest (relationVacuum oldest system.file.table))
    (called : system.vacuum oldest = some next) : next.Settled := by
  have advanced := settled.advance reached
  unfold System.vacuum at called
  split at called
  · obtain rfl := Option.some.inj called
    exact ⟨fun _ => complete, advanced.writing, advanced.running⟩
  · split at called
    · cases called
    · obtain rfl := Option.some.inj called
      refine ⟨advanced.file, ?_, advanced.running⟩
      rintro _ ⟨⟩ _
      exact complete

/-- A file that was vacuumed at this horizon is still clean, so that an early return is
right. -/
theorem Settled.complete_iff (settled : system.Settled) (event : Event) :
    system.Complete event ↔ system.Allowed event := by
  cases event with
  | vacuum oldest =>
      rw [Complete, Allowed, clean_relationVacuum_iff]
      refine ⟨.inr, fun allowed => allowed.elim ?_ id⟩
      rintro ⟨rfl, vacuumed⟩ row member reclaimable
      exact absurd reclaimable (settled.file vacuumed row member)
  | assign | finish | write | sqliteCommit | sqliteRollback | advance => exact Iff.rfl

theorem Settled.step {event : Event} (settled : system.Settled) (allowed : system.Allowed event)
    (stepped : system.step event = some next) : next.Settled := by
  cases event with
  | assign xid =>
      obtain ⟨able, taken⟩ := Option.ite_none_right_eq_some.mp stepped
      obtain rfl := Option.some.inj taken
      simp only [Bool.and_eq_true, Bool.not_eq_true'] at able
      exact settled.assign able.2
  | finish xid commits =>
      obtain ⟨running, taken⟩ := Option.ite_none_right_eq_some.mp stepped
      obtain rfl := Option.some.inj taken
      exact settled.finish (List.contains_iff_mem.mp running) commits
  | write xid op =>
      obtain ⟨running, taken⟩ := Option.ite_none_right_eq_some.mp stepped
      obtain rfl := Option.some.inj taken
      refine settled.write (List.contains_iff_mem.mp running) op ?_
      cases written : system.writing with
      | none => exact settled.file
      | some file => exact settled.writing file written
  | sqliteCommit =>
      obtain rfl := Option.some.inj stepped
      refine ⟨?_, nofun, settled.running⟩
      cases written : system.writing with
      | none => exact settled.file
      | some file => exact settled.writing file written
  | sqliteRollback =>
      obtain rfl := Option.some.inj stepped
      exact ⟨settled.file, nofun, settled.running⟩
  | advance oldest =>
      obtain ⟨reached, taken⟩ := Option.ite_none_right_eq_some.mp stepped
      obtain rfl := Option.some.inj taken
      exact settled.advance reached
  | vacuum oldest =>
      obtain ⟨reached, called⟩ := Option.ite_none_right_eq_some.mp stepped
      exact settled.vacuum reached ((settled.complete_iff (.vacuum oldest)).mpr allowed) called

theorem settled_start (committed : List TransactionId) (horizon : TransactionId) :
    (start committed horizon).Settled := ⟨nofun, nofun, nofun⟩

/-- In a run every VACUUM leaves the file clean if and only if every one of them comes after
another at its horizon, or has the numbers in order. -/
theorem vacuums_complete_iff (committed : List TransactionId) (horizon : TransactionId)
    (events : List Event) :
    Transition.Meets step Complete (start committed horizon) events ↔
      Transition.Meets step Allowed (start committed horizon) events :=
  Transition.meets_congr (fun _ _ _ settled allowed stepped => settled.step allowed stepped)
    (fun _ event settled => settled.complete_iff event) (settled_start committed horizon) events

/-- A row of one transaction that another one deletes, and VACUUM once both committed. -/
def deletedRow (inserter deleter oldest : TransactionId) : List Event :=
  [.assign inserter, .write inserter (.insert 0#32 [1]), .sqliteCommit, .finish inserter true,
    .assign deleter, .write deleter (.delete 1 0#32), .sqliteCommit, .finish deleter true,
    .vacuum oldest]

instance (system : System) (event : Event) : Decidable (system.Complete event) := by
  unfold Complete Clean Reclaimable
  cases event <;> infer_instance

/-- VACUUM misses a row if its horizon is the first one above half the circle, and if the
counter has wrapped around since the last one. -/
theorem misses_deleted :
    ((Transition.run step (start [] 0x7ffffff0#32)
          (deletedRow 0x7ffffff1#32 0x7ffffff2#32 0x80000005#32)).isSome = true ∧
      ¬ Transition.Meets step Complete (start [] 0x7ffffff0#32)
          (deletedRow 0x7ffffff1#32 0x7ffffff2#32 0x80000005#32)) ∧
      (Transition.run step (start [] 0xfffffff0#32)
          (.vacuum 0xfffffff5#32 :: .sqliteCommit ::
            deletedRow 0xfffffff6#32 0xfffffff7#32 10#32)).isSome = true ∧
      ¬ Transition.Meets step Complete (start [] 0xfffffff0#32)
          (.vacuum 0xfffffff5#32 :: .sqliteCommit ::
            deletedRow 0xfffffff6#32 0xfffffff7#32 10#32) := by
  decide

/-! ## Below half the circle -/

/-- The first xid that is negative as a signed number. -/
abbrev firstNegative : TransactionId := 0x80000000#32

/-- Xids are assigned, and horizons reached, below half the circle. -/
def Below : Event → Prop
  | .assign xid => xid < firstNegative
  | .advance oldest | .vacuum oldest => oldest < firstNegative
  | _ => True

theorem precedes_iff_lt {first second : TransactionId} (low : first < firstNegative)
    (low' : second < firstNegative) : transactionIdPrecedes first second = true ↔ first < second := by
  have distance (xid : TransactionId) : Circular.distance 0#32 xid = xid.toNat := by
    simp [Circular.distance]
  have near (xid : TransactionId) (low : xid < firstNegative) :
      2 * Circular.distance 0#32 xid < 2 ^ 32 := by
    rw [distance]
    bv_omega
  unfold transactionIdPrecedes
  split
  · rw [Circular.precedes_iff_of_window (by decide) (near first low) (near second low'), distance,
      distance, BitVec.lt_def]
  · exact decide_eq_true_iff

theorem toInt_lt_of_lt {first second : TransactionId} (order : first < second)
    (low : second < firstNegative) : first.toInt < second.toInt := by
  rw [BitVec.lt_def] at order low
  have bound : second.toNat < 2 ^ 31 := low
  rw [BitVec.toInt_eq_toNat_cond, BitVec.toInt_eq_toNat_cond, if_pos (by omega), if_pos (by omega)]
  omega

/-- The watermark is below the horizon, or it is the horizon and VACUUM has returned at it. -/
structure LowFile (horizon : TransactionId) (file : File) : Prop where
  stamps : ∀ row ∈ file.table.rows, row.xmax < firstNegative
  watermark : file.table.lastVacuumXmin < horizon ∨
    file.table.lastVacuumXmin = horizon ∧ file.atHorizon = true

structure Low (system : System) : Prop where
  running : ∀ xid ∈ system.running, xid < firstNegative
  horizon : system.horizon < firstNegative
  file : LowFile system.horizon system.file
  writing : ∀ file ∈ system.writing, LowFile system.horizon file

theorem LowFile.write {horizon : TransactionId} {file : File} (low : LowFile horizon file)
    (running : xid < firstNegative) (op : RowWrite) :
    LowFile horizon { file with table := op.apply xid file.table } := by
  refine ⟨fun row member => ?_, ?_⟩
  · rcases RowWrite.stamps_apply op row member with none | own | ⟨old, earlier, same⟩
    · rw [none]
      decide
    · rwa [own]
    · rw [← same]
      exact low.stamps old earlier
  · rw [RowWrite.lastVacuumXmin_apply]
    exact low.watermark

theorem Low.lt_or_eq (low : system.Low) (reached : system.CanReach oldest)
    (below : oldest < firstNegative) : system.horizon < oldest ∨ oldest = system.horizon := by
  rcases reached.2.1 with same | before
  · exact .inr same
  · exact .inl ((precedes_iff_lt low.horizon below).mp before)

theorem Low.moved (low : system.Low) (reached : system.CanReach oldest)
    (below : oldest < firstNegative) {file : File} (lowFile : LowFile system.horizon file) :
    LowFile oldest (system.moved oldest file) := by
  refine ⟨lowFile.stamps, ?_⟩
  rcases low.lt_or_eq reached below with later | rfl
  · refine .inl ?_
    rcases lowFile.watermark with under | ⟨same, _⟩
    · exact BitVec.lt_trans under later
    · exact same ▸ later
  · refine lowFile.watermark.imp_right fun ⟨same, vacuumed⟩ => ⟨same, ?_⟩
    simp [System.moved, vacuumed]

theorem Low.advance (low : system.Low) (reached : system.CanReach oldest)
    (below : oldest < firstNegative) : Low (system.advance oldest) := by
  refine ⟨low.running, below, low.moved reached below low.file, fun file member => ?_⟩
  obtain ⟨before, written, rfl⟩ := Option.map_eq_some_iff.mp member
  exact low.moved reached below (low.writing before written)

/-- A VACUUM that returns early has returned at this horizon before. -/
theorem Low.vacuumed (low : system.Low) (reached : system.CanReach oldest)
    (below : oldest < firstNegative) :
    LowFile oldest ⟨relationVacuum oldest system.file.table, true⟩ := by
  unfold relationVacuum Table.vacuumDead
  split
  · next early =>
      have moved := low.moved reached below low.file
      refine ⟨low.file.stamps, .inr ⟨?_, rfl⟩⟩
      rcases moved.watermark with under | ⟨same, _⟩
      · exact absurd under (BitVec.not_lt.mpr early)
      · exact same
  · refine ⟨fun row member => low.file.stamps row (List.mem_filter.mp member).1, .inr ⟨?_, rfl⟩⟩
    simp [Table.lastVacuumXmin, Table.metaGet, Table.upsertMeta, Table.fromLeBytes_toLeBytes]

theorem Low.vacuum (low : system.Low) (reached : system.CanReach oldest)
    (below : oldest < firstNegative) (called : system.vacuum oldest = some next) : next.Low := by
  have advanced := low.advance reached below
  have vacuumed := low.vacuumed reached below
  unfold System.vacuum at called
  split at called
  · obtain rfl := Option.some.inj called
    exact ⟨advanced.running, advanced.horizon, vacuumed, advanced.writing⟩
  · split at called
    · cases called
    · obtain rfl := Option.some.inj called
      refine ⟨advanced.running, advanced.horizon, advanced.file, ?_⟩
      rintro _ ⟨⟩
      exact vacuumed

theorem Low.step {event : Event} (low : system.Low) (below : Below event)
    (stepped : system.step event = some next) : next.Low := by
  cases event with
  | assign xid =>
      obtain rfl := Option.some.inj (Option.ite_none_right_eq_some.mp stepped).2
      exact ⟨List.forall_mem_cons.mpr ⟨below, low.running⟩, low.horizon, low.file, low.writing⟩
  | finish xid commits =>
      obtain rfl := Option.some.inj (Option.ite_none_right_eq_some.mp stepped).2
      exact ⟨fun other member => low.running other (List.mem_filter.mp member).1, low.horizon,
        low.file, low.writing⟩
  | write xid op =>
      obtain ⟨running, taken⟩ := Option.ite_none_right_eq_some.mp stepped
      obtain rfl := Option.some.inj taken
      refine ⟨low.running, low.horizon, low.file, ?_⟩
      rintro _ ⟨⟩
      refine LowFile.write ?_ (low.running xid (List.contains_iff_mem.mp running)) op
      cases written : system.writing with
      | none => exact low.file
      | some file => exact low.writing file written
  | sqliteCommit =>
      obtain rfl := Option.some.inj stepped
      refine ⟨low.running, low.horizon, ?_, nofun⟩
      cases written : system.writing with
      | none => exact low.file
      | some file => exact low.writing file written
  | sqliteRollback =>
      obtain rfl := Option.some.inj stepped
      exact ⟨low.running, low.horizon, low.file, nofun⟩
  | advance oldest =>
      obtain ⟨reached, taken⟩ := Option.ite_none_right_eq_some.mp stepped
      obtain rfl := Option.some.inj taken
      exact low.advance reached below
  | vacuum oldest =>
      obtain ⟨reached, called⟩ := Option.ite_none_right_eq_some.mp stepped
      exact low.vacuum reached below called

theorem Low.allowed {event : Event} (low : system.Low) (below : Below event)
    (stepped : system.step event = some next) : system.Allowed event := by
  cases event with
  | vacuum oldest =>
      obtain ⟨reached, _⟩ := Option.ite_none_right_eq_some.mp stepped
      by_cases again : oldest = system.horizon ∧ system.file.atHorizon = true
      · exact .inl again
      · refine .inr fun row member reclaimable => ⟨?_, ?_⟩
        · rcases (low.moved reached below low.file).watermark with under | ⟨_, vacuumed⟩
          · exact under
          · simp only [System.moved, Bool.and_eq_true, decide_eq_true_eq] at vacuumed
            exact absurd vacuumed.symm again
        · have before := (precedes_iff_lt (low.file.stamps row member) below).mp reclaimable.2.2
          exact toInt_lt_of_lt before below
  | assign | finish | write | sqliteCommit | sqliteRollback | advance => trivial

theorem low_start (committed : List TransactionId) {horizon : TransactionId}
    (normal : isNormal horizon = true) (below : horizon < firstNegative) :
    (start committed horizon).Low := by
  refine ⟨nofun, below, ⟨nofun, .inl ?_⟩, nofun⟩
  simp only [isNormal, decide_eq_true_eq] at normal
  change 0#32 < horizon
  bv_omega

/-- As long as no xid and no horizon has reached half the circle, VACUUM is complete. -/
theorem vacuums_complete_of_below (committed : List TransactionId) {horizon : TransactionId}
    (normal : isNormal horizon = true) (low : horizon < firstNegative) {events : List Event}
    (below : ∀ event ∈ events, Below event) {final : System}
    (ran : Transition.run step (start committed horizon) events = some final) :
    Transition.Meets step Complete (start committed horizon) events := by
  have preserved : ∀ (system : System) event next, system.Settled ∧ system.Low → Below event →
      system.step event = some next → next.Settled ∧ next.Low := by
    rintro system event next ⟨settled, low⟩ below stepped
    exact ⟨settled.step (low.allowed below stepped) stepped, low.step below stepped⟩
  refine Transition.meets_of_reached preserved ?_
    ⟨settled_start committed horizon, low_start committed normal low⟩ below ran
  rintro system event next ⟨settled, low⟩ below stepped
  exact (settled.complete_iff event).mpr (low.allowed below stepped)

end System

end SqliteHeap.Watermark
