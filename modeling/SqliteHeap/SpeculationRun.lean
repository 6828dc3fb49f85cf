import SqliteHeap.Speculation

/-! What runs with speculative insertions keep: the index stays unique, a lost insertion leaves
the storage as it found it, and the entry that it leaves makes each of its retries lose too. -/

set_option autoImplicit false

namespace SqliteHeap

theorem Table.physicalDelete_insertRow (xmin : TransactionId) (cmin : CommandId) (tuple : Bytes)
    (table : Table) : ((table.insertRow xmin cmin tuple).physicalDelete table.nextRowid).1 = table := by
  have others : table.rows.filter (fun row => row.rowid ≠ table.nextRowid) = table.rows := by
    refine List.filter_eq_self.mpr fun row member => ?_
    exact decide_eq_true (rowid_lt_nextRowid member).ne
  have rows : ((table.insertRow xmin cmin tuple).physicalDelete table.nextRowid).1.rows = table.rows := by
    change (table.rows ++ [_]).filter (fun row => row.rowid ≠ table.nextRowid) = table.rows
    rw [List.filter_append, others]
    simp
  obtain ⟨_, _, _, _⟩ := table
  exact (Table.mk.injEq ..).mpr ⟨rows, rfl⟩

/-- A row of a running transaction is its own. -/
theorem Trace.Tells.isCurrent {trace : Trace} {history : History} {table : Table} {row : StoredRow}
    {txn : TxnId} (tells : trace.Tells (Lineage.Recent (2 ^ 32) history) history table)
    (formed : history.WellFormed) (member : row ∈ table.rows) (own : trace.inserter row.rowid = txn)
    (running : history.status txn = .running) : (history.xacts txn).isCurrent row.xmin = true := by
  obtain ⟨xmin, _, recent⟩ := tells.inserted row member
  have named := (tells.created _ (tells.below row member)).named_of_recent formed recent
  rw [Trace.inserter] at own
  rw [xmin]
  simp [History.xacts, named, own, running]

/-- btree takes a row of the checking transaction itself for a conflict. -/
theorem checkUnique_of_own {xacts : Xacts} {table : Table} {tid : Tid} {row : StoredRow}
    (member : row ∈ table.rows) (found : row.rowid = tidToRowid tid)
    (current : xacts.isCurrent row.xmin = true) (live : row.xmax = 0#32) :
    checkUnique xacts table tid = .conflicts := by
  rw [checkUnique, ← found, Table.selectOne_of_mem member]
  simp [Visibility.rowVisible, dirtySnapshot, Visibility.visibleDirty, current,
    Visibility.undeletedDirty, live]

/-! ## What the other transactions leave alone -/

namespace Lineage

variable {lineage next : Lineage} {txn other : TxnId} {event : BackendsEvent} {rel : Relation}

theorem Alters.statement {trace : Trace} {table : Table} (alters : lineage.Alters txn event trace table) :
    event.statement = some txn := by
  cases alters with
  | inserts inserter _ => cases event <;> first | exact inserter | cases inserter
  | deletes | misses | updates => rfl
  | removes between _ _ => cases event <;> first | exact between | cases between

theorem eq_of_mayWrite (held : lineage.backends.writer = some (txn, rel))
    (mayWrite : lineage.backends.mayWrite other = true) : other = txn := by
  rcases Backends.mayWrite_iff.mp mayWrite with free | ⟨work, held'⟩
  · rw [free] at held
    cases held
  · rw [held'] at held
    cases held
    rfl

theorem Acts.of_other (acts : lineage.Acts event next)
    (held : lineage.backends.writer = some (txn, rel)) (other : event.statement ≠ some txn)
    (kept : lineage.backends.frees event = false) :
    next.backends.writer = some (txn, rel) ∧ lineage.news event = [] := by
  cases acts with
  | assign _ | takeSnapshot _ _ => exact ⟨held, rfl⟩
  | moves tuples _ _ _ writer _ =>
      rw [kept, if_neg Bool.false_ne_true] at writer
      exact ⟨writer.trans held, news_of_tuples tuples⟩
  | write _ mayWrite alters =>
      have same := eq_of_mayWrite held mayWrite
      exact absurd (same ▸ alters.statement) other
  | @preCommit committer _ =>
      refine ⟨?_, rfl⟩
      change (if lineage.backends.mayWrite committer then none else lineage.backends.writer) = _
      rw [if_neg fun mayWrite => other (congrArg some (eq_of_mayWrite held mayWrite)), held]

end Lineage

/-! ## The pending row -/

namespace UniqueIndex

variable {Key : Type} [DecidableEq Key] {key : Bytes → Key} {index next : UniqueIndex Key}
  {txn : TxnId}

theorem doTupleInsert_of_step {tuple : Bytes}
    (stepped : index.step key (.backends (.doTupleInsert txn tuple)) = some next) :
    index.lineage.backends.mayWrite txn = true ∧ next.entries = index.entries ∧
      next.checked = index.checked ∧
      next.pending = index.pending ++ [(tuple, (index.lineage.backends.view txn).table.nextRowid)] ∧
      ∃ rel xmin cmin, next.lineage.backends.writer = some (txn, rel) ∧
        rel.table = (index.lineage.backends.view txn).table.insertRow xmin cmin tuple := by
  simp only [UniqueIndex.step] at stepped
  obtain ⟨_, moved⟩ := Option.ite_none_right_eq_some.mp stepped
  obtain ⟨lineage, ran, rfl⟩ := Option.map_eq_some_iff.mp moved
  obtain ⟨backends, written, rfl⟩ := Option.map_eq_some_iff.mp ran
  cases Backends.does_of_step written with
  | doTupleInsert author tuple => exact ⟨author.mayWrite, rfl, rfl, rfl, _, _, _, rfl, rfl⟩

/-- An event of another transaction leaves the writer and its pending rows alone. -/
theorem other_of_step {rel : Relation} {event : BackendsEvent} (driven : index.lineage.backends.Driven)
    (held : index.lineage.backends.writer = some (txn, rel)) (other : event.statement ≠ some txn)
    (kept : index.lineage.backends.frees event = false)
    (stepped : index.step key (.backends event) = some next) :
    next.lineage.backends.writer = some (txn, rel) ∧ next.pending = index.pending ∧
      next.entries = index.entries ∧ next.checked = index.checked := by
  simp only [UniqueIndex.step] at stepped
  obtain ⟨_, moved⟩ := Option.ite_none_right_eq_some.mp stepped
  obtain ⟨lineage, ran, rfl⟩ := Option.map_eq_some_iff.mp moved
  rw [kept, if_neg Bool.false_ne_true]
  obtain ⟨writer, news⟩ := (Lineage.acts_of_step driven ran).of_other held other kept
  refine ⟨writer, ?_, rfl, rfl⟩
  change index.pending ++ index.lineage.news event = index.pending
  rw [news, List.append_nil]

namespace Inv

/-- The entry of a lost check is one that no check relies on. -/
theorem entered (inv : index.Inv key) (added : List (IndexEntry Key)) :
    ({ index with entries := index.entries ++ added, checked := 0 }).Inv key where
  told := inv.told
  file := inv.file.more added
  work holder rel held := by
    obtain ⟨separated, inserting⟩ := inv.work holder rel held
    exact ⟨separated.more added, inserting.own, inserting.below, nofun⟩
  free := inv.free
  fresh _ := rfl

/-- The writer takes its only pending row back. -/
theorem retract (inv : index.Inv key) {rel : Relation} {new : Bytes × Int} {rowid : Int}
    (held : index.lineage.backends.writer = some (txn, rel)) (pending : index.pending = [new])
    (same : rowid = new.2) : (index.retract txn rowid).Inv key := by
  have view := (Lineage.view_of_held held).2
  have mayWrite : index.lineage.backends.mayWrite txn = true := Backends.mayWrite_iff.mpr (.inr ⟨rel, held⟩)
  have rows : ∀ row ∈ ((index.lineage.backends.view txn).physicalDelete rowid).table.rows,
      row ∈ (index.lineage.backends.view txn).table.rows :=
    fun row member => (List.mem_filter.mp member).1
  have acts : index.lineage.Acts (.reset txn) (index.retract txn rowid).lineage :=
    .write (inv.told.writing txn rel held) mayWrite (.removes rfl rfl rows)
  obtain ⟨separated, _⟩ := inv.view mayWrite
  have windowed : index.lineage.Windowed (.reset txn) := trivial
  have told := inv.told.acts (by decide) windowed trivial acts
  refine ⟨told, inv.file, fun holder after held => ?_, nofun, fun _ => rfl⟩
  cases held
  refine ⟨⟨fun row member _ => ?_, fun first inFirst second inSecond _ _ => ?_⟩, .of_idle rfl⟩
  · exact separated.indexed row (rows row member) (free row member)
  · exact separated.apart first (rows first inFirst) second (rows second inSecond) (free first inFirst)
      (free second inSecond)
where
  free (row : StoredRow)
      (member : row ∈ ((index.lineage.backends.view txn).physicalDelete rowid).table.rows) :
      row.rowid ∉ index.pending.map Prod.snd := by
    have other : row.rowid ≠ rowid := by simpa using (List.mem_filter.mp member).2
    rw [pending, List.map_singleton, List.mem_singleton, ← same]
    exact other

end Inv

end UniqueIndex

/-! ## Every step keeps the index and the insertion -/

namespace OnConflict

variable {Key : Type} {key : Bytes → Key} {state next : OnConflict Key} {spec : Speculation}

/-- The row of an insertion that is not complete is the last one of the writer's storage. -/
structure Speculates (key : Bytes → Key) (state : OnConflict Key) (spec : Speculation) : Prop where
  rowid : spec.rowid = spec.found.nextRowid
  row : ∃ rel xmin cmin, state.index.lineage.backends.writer = some (spec.txn, rel) ∧
    rel.table = spec.found.insertRow xmin cmin spec.tuple
  pending : spec.outcome ≠ some true → state.index.pending = [(spec.tuple, spec.rowid)]
  entered : spec.outcome ≠ none → spec.rowid ≤ maxTidRowid ∧ entry key spec ∈ state.index.entries

theorem Speculates.view (speculates : state.Speculates key spec) :
    ∃ xmin cmin, state.view spec.txn = spec.found.insertRow xmin cmin spec.tuple := by
  obtain ⟨rel, xmin, cmin, held, table⟩ := speculates.row
  refine ⟨xmin, cmin, ?_⟩
  rw [OnConflict.view, (Lineage.view_of_held held).2, table]

theorem Speculates.mayWrite (speculates : state.Speculates key spec) :
    state.index.lineage.backends.mayWrite spec.txn = true := by
  obtain ⟨rel, _, _, held, _⟩ := speculates.row
  exact Backends.mayWrite_iff.mpr (.inr ⟨rel, held⟩)

/-- The TID in the slot is that of the row. -/
theorem tid_decodes (rowid : spec.rowid = spec.found.nextRowid) (fits : spec.rowid ≤ maxTidRowid) :
    tidToRowid (rowidToTid spec.rowid) = spec.found.nextRowid := by
  rw [rowid] at fits ⊢
  exact tidToRowid_rowidToTid spec.found.one_le_nextRowid fits

theorem Speculates.decoded (speculates : state.Speculates key spec) (decided : spec.outcome ≠ none) :
    tidToRowid (rowidToTid spec.rowid) = spec.found.nextRowid :=
  tid_decodes speculates.rowid (speculates.entered decided).1

section

variable [DecidableEq Key]

structure Inv (key : Bytes → Key) (state : OnConflict Key) : Prop where
  index : state.index.Inv key
  speculates : ∀ spec ∈ state.speculation, state.Speculates key spec

theorem Inv.of_some {index : UniqueIndex Key} (inv : index.Inv key)
    (speculates : Speculates key ⟨index, some spec⟩ spec) : Inv key ⟨index, some spec⟩ where
  index := inv
  speculates other same := by
    obtain rfl := Option.some.inj same
    exact speculates

/-- What Postgres promises of its xids. -/
def Windowed (state : OnConflict Key) : OnConflictEvent → Prop
  | .plain event => state.index.Windowed event
  | .tupleInsertSpeculative _ _ | .checkSpeculative _ | .tupleCompleteSpeculative _ => True

/-- The condition of the unique index, also for a row that is inserted speculatively. -/
def Fits (state : OnConflict Key) : OnConflictEvent → Prop
  | .plain event => state.index.Fits event
  | .checkSpeculative _ => ∀ spec ∈ state.speculation, spec.rowid ≤ maxTidRowid
  | .tupleInsertSpeculative _ _ | .tupleCompleteSpeculative _ => True

instance (state : OnConflict Key) : DecidablePred state.Windowed
  | .plain event => inferInstanceAs (Decidable (state.index.Windowed event))
  | .tupleInsertSpeculative _ _ | .checkSpeculative _ | .tupleCompleteSpeculative _ => isTrue trivial

instance (state : OnConflict Key) : DecidablePred state.Fits
  | .plain event => inferInstanceAs (Decidable (state.index.Fits event))
  | .checkSpeculative _ => inferInstanceAs (Decidable (∀ spec ∈ state.speculation, _))
  | .tupleInsertSpeculative _ _ | .tupleCompleteSpeculative _ => isTrue trivial

/-- An event of another transaction is one beside the insertion. -/
theorem Speculates.plain (speculates : state.Speculates key spec) (inv : state.Inv key)
    {event : BackendsEvent} {index : UniqueIndex Key} (other : event.statement ≠ some spec.txn)
    (kept : state.index.lineage.backends.frees event = false)
    (stepped : state.index.step key (.backends event) = some index) :
    Speculates key ⟨index, state.speculation⟩ spec := by
  obtain ⟨rel, xmin, cmin, held, table⟩ := speculates.row
  obtain ⟨writer, pending, entries, _⟩ :=
    UniqueIndex.other_of_step inv.index.told.driven held other kept stepped
  refine ⟨speculates.rowid, ⟨rel, xmin, cmin, writer, table⟩, fun lost => ?_, fun decided => ?_⟩
  · exact pending.trans (speculates.pending lost)
  · obtain ⟨fits, entered⟩ := speculates.entered decided
    refine ⟨fits, ?_⟩
    change _ ∈ index.entries
    rw [entries]
    exact entered

inductive Checks (key : Bytes → Key) (state : OnConflict Key) (spec : Speculation) : OnConflict Key → Prop where
  | free (all : (state.index.equal key spec.tuple)[state.index.checked]? = none) :
      Checks key state spec
        ⟨{ state.index with
            entries := state.index.entries ++ [entry key spec]
            pending := []
            checked := 0 }, some { spec with outcome := some true }⟩
  | passes {other : IndexEntry Key}
      (next : (state.index.equal key spec.tuple)[state.index.checked]? = some other)
      (passes : checkUnique (state.index.lineage.backends.history.xacts spec.txn) (state.view spec.txn)
        other.tid = .passes) :
      Checks key state spec ⟨{ state.index with checked := state.index.checked + 1 }, some spec⟩
  | loses {other : IndexEntry Key}
      (next : (state.index.equal key spec.tuple)[state.index.checked]? = some other) :
      Checks key state spec
        ⟨{ state.index with
            entries := state.index.entries ++ [entry key spec]
            checked := 0 }, some { spec with outcome := some false }⟩

theorem checks (state : OnConflict Key) (spec : Speculation) :
    state.Checks key spec (state.checkSpeculative key spec) := by
  unfold checkSpeculative
  cases next : (state.index.equal key spec.tuple)[state.index.checked]? with
  | none => exact .free next
  | some other =>
      dsimp only
      cases verdict : checkUnique (state.index.lineage.backends.history.xacts spec.txn)
          (state.view spec.txn) other.tid with
      | passes => exact .passes next verdict
      | waits | conflicts => exact .loses next

theorem Inv.checkSpeculative (inv : state.Inv key) (speculating : state.speculation = some spec)
    (undecided : spec.outcome = none) (fits : spec.rowid ≤ maxTidRowid) :
    (state.checkSpeculative key spec).Inv key := by
  have speculates := inv.speculates spec speculating
  have mayWrite := speculates.mayWrite
  have pending := speculates.pending (by simp [undecided])
  have head : (spec.tuple, spec.rowid) ∈ state.index.pending.head? := by
    rw [pending]
    rfl
  have own : entry key spec ∈ state.index.entries ++ [entry key spec] := by simp
  have checked : state.Checks key spec (state.checkSpeculative key spec) := state.checks spec
  generalize state.checkSpeculative key spec = after at checked ⊢
  cases checked with
  | free all =>
      refine .of_some (inv.index.indexed mayWrite pending fits all) ?_
      exact ⟨speculates.rowid, speculates.row, fun lost => absurd rfl lost, fun _ => ⟨fits, own⟩⟩
  | @passes other next passes =>
      refine .of_some (inv.index.rechecked mayWrite pending _ fun earlier inTake row member free found => ?_) ?_
      · have inserting := (inv.index.view mayWrite).2
        rw [List.take_add_one, next] at inTake
        rcases List.mem_append.mp inTake with before | last
        · exact inserting.checked _ head earlier before row member free found
        · obtain rfl : earlier = other := by simpa using last
          exact Trace.yields_of_passes (inv.index.told.tells.view _) inv.index.told.driven.formed passes
            member found
      · exact ⟨speculates.rowid, speculates.row, speculates.pending, speculates.entered⟩
  | loses next =>
      refine .of_some (inv.index.entered _) ?_
      exact ⟨speculates.rowid, speculates.row, fun _ => pending, fun _ => ⟨fits, own⟩⟩

theorem Inv.tupleCompleteSpeculative (inv : state.Inv key) (speculating : state.speculation = some spec)
    {succeeded : Bool} (decided : spec.outcome = some succeeded) :
    (state.tupleCompleteSpeculative spec succeeded).Inv key := by
  have speculates := inv.speculates spec speculating
  cases succeeded with
  | true => exact ⟨inv.index, nofun⟩
  | false =>
      obtain ⟨rel, _, _, held, _⟩ := speculates.row
      have pending := speculates.pending (by simp [decided])
      have decoded := speculates.decoded (by simp [decided])
      exact ⟨inv.index.retract held pending (decoded.trans speculates.rowid.symm), nofun⟩

theorem Inv.tupleInsertSpeculative (inv : state.Inv key) {txn : TxnId} {tuple : Bytes}
    {index : UniqueIndex Key} (idle : state.index.pending = [])
    (stepped : state.index.step key (.backends (.doTupleInsert txn tuple)) = some index) :
    Inv key ⟨index, some ⟨txn, tuple, (state.view txn).nextRowid, state.view txn, none⟩⟩ := by
  have windowed : state.index.Windowed (.backends (.doTupleInsert txn tuple)) := trivial
  have fits : state.index.Fits (.backends (.doTupleInsert txn tuple)) := trivial
  refine .of_some (inv.index.step windowed fits stepped) ?_
  obtain ⟨_, _, _, pending, row⟩ := UniqueIndex.doTupleInsert_of_step stepped
  refine ⟨rfl, row, fun _ => ?_, fun decided => absurd rfl decided⟩
  change index.pending = _
  rw [pending, idle]
  rfl

/-- What an event finds, and what it makes of the insertion. -/
inductive Does (key : Bytes → Key) (state : OnConflict Key) : OnConflictEvent → OnConflict Key → Prop where
  | plain {event : UniqueEvent} {index : UniqueIndex Key} (ready : state.ready event = true)
      (stepped : state.index.step key event = some index) :
      Does key state (.plain event) ⟨index, if state.frees event then none else state.speculation⟩
  | inserts {txn : TxnId} {tuple : Bytes} {index : UniqueIndex Key} (free : state.speculation = none)
      (idle : state.index.pending = [])
      (stepped : state.index.step key (.backends (.doTupleInsert txn tuple)) = some index) :
      Does key state (.tupleInsertSpeculative txn tuple)
        ⟨index, some ⟨txn, tuple, (state.view txn).nextRowid, state.view txn, none⟩⟩
  | checks {spec : Speculation} (speculating : state.speculation = some spec)
      (undecided : spec.outcome = none) :
      Does key state (.checkSpeculative spec.txn) (state.checkSpeculative key spec)
  | completes {spec : Speculation} {succeeded : Bool} (speculating : state.speculation = some spec)
      (decided : spec.outcome = some succeeded) :
      Does key state (.tupleCompleteSpeculative spec.txn) (state.tupleCompleteSpeculative spec succeeded)

theorem does_of_step {event : OnConflictEvent} (stepped : state.step key event = some next) :
    state.Does key event next := by
  cases event with
  | plain event =>
      obtain ⟨ready, moved⟩ := Option.ite_none_right_eq_some.mp stepped
      obtain ⟨index, ran, rfl⟩ := Option.map_eq_some_iff.mp moved
      exact .plain ready ran
  | tupleInsertSpeculative txn tuple =>
      obtain ⟨guard, moved⟩ := Option.ite_none_right_eq_some.mp stepped
      obtain ⟨index, ran, rfl⟩ := Option.map_eq_some_iff.mp moved
      obtain ⟨free, idle⟩ := Bool.and_eq_true_iff.mp guard
      exact .inserts (Option.isNone_iff_eq_none.mp free) (List.isEmpty_iff.mp idle) ran
  | checkSpeculative txn =>
      cases speculating : state.speculation with
      | none => simp [OnConflict.step, speculating] at stepped
      | some spec =>
          simp only [OnConflict.step, speculating] at stepped
          obtain ⟨guard, same⟩ := Option.ite_none_right_eq_some.mp stepped
          obtain ⟨own, undecided⟩ := Bool.and_eq_true_iff.mp guard
          obtain rfl := of_decide_eq_true own
          exact Option.some.inj same ▸ .checks speculating (Option.isNone_iff_eq_none.mp undecided)
  | tupleCompleteSpeculative txn =>
      cases speculating : state.speculation with
      | none => simp [OnConflict.step, speculating] at stepped
      | some spec =>
          simp only [OnConflict.step, speculating] at stepped
          obtain ⟨rfl, moved⟩ := Option.ite_none_right_eq_some.mp stepped
          obtain ⟨succeeded, decided, rfl⟩ := Option.map_eq_some_iff.mp moved
          exact .completes speculating decided

theorem completes_of_step {txn : TxnId} (stepped : state.step key (.tupleCompleteSpeculative txn) = some next) :
    ∃ spec succeeded, state.speculation = some spec ∧ spec.outcome = some succeeded ∧
      next = state.tupleCompleteSpeculative spec succeeded := by
  cases does_of_step stepped with
  | completes speculating decided => exact ⟨_, _, speculating, decided, rfl⟩

theorem Inv.start : (OnConflict.start : OnConflict Key).Inv key := ⟨.start, nofun⟩

theorem Inv.step (inv : state.Inv key) {event : OnConflictEvent} (windowed : state.Windowed event)
    (fits : state.Fits event) (stepped : state.step key event = some next) : next.Inv key := by
  cases does_of_step stepped with
  | @plain event index ready ran =>
      refine ⟨inv.index.step windowed fits ran, fun spec held => ?_⟩
      cases frees : state.frees event with
      | true =>
          rw [frees] at held
          cases held
      | false =>
          rw [frees] at held
          have speculating : state.speculation = some spec := held
          cases event with
          | indexInsert txn => simp [OnConflict.ready, speculating] at ready
          | backends event =>
              have other : event.statement ≠ some spec.txn := by
                simpa [OnConflict.ready, speculating] using ready
              exact (inv.speculates spec held).plain inv other frees ran
  | inserts free idle ran => exact inv.tupleInsertSpeculative idle ran
  | checks speculating undecided =>
      exact inv.checkSpeculative speculating undecided (fits _ speculating)
  | completes speculating decided => exact inv.tupleCompleteSpeculative speculating decided

theorem inv_of_run {events : List OnConflictEvent} (inv : state.Inv key)
    (reached : run key state events = some next)
    (windowed : Transition.Meets (step key) Windowed state events)
    (fits : Transition.Meets (step key) Fits state events) : next.Inv key := by
  refine Transition.run_invariant (fun before event after inv assumed stepped => ?_) inv
    (Transition.meets_and_iff.mpr ⟨windowed, fits⟩) reached
  exact inv.step assumed.1 assumed.2 stepped

/-- A complete insertion leaves its row with an entry, or the storage that it found. -/
def Settled (key : Bytes → Key) (spec : Speculation) (state : OnConflict Key) : Prop :=
  (spec.outcome = some true ∧ entry key spec ∈ state.index.entries ∧
      ∃ xmin cmin, state.view spec.txn = spec.found.insertRow xmin cmin spec.tuple) ∨
    spec.outcome = some false ∧ state.view spec.txn = spec.found

theorem Inv.restored (inv : state.Inv key) (speculating : state.speculation = some spec)
    (lost : spec.outcome = some false) :
    ∃ rel, (state.tupleCompleteSpeculative spec false).index.lineage.backends.writer =
        some (spec.txn, rel) ∧ rel.table = spec.found := by
  have speculates := inv.speculates spec speculating
  obtain ⟨xmin, cmin, view⟩ := speculates.view
  refine ⟨_, rfl, ?_⟩
  change ((state.view spec.txn).physicalDelete (tidToRowid (rowidToTid spec.rowid))).1 = spec.found
  rw [view, speculates.decoded (by simp [lost]), Table.physicalDelete_insertRow]

theorem Inv.settled (inv : state.Inv key) (speculating : state.speculation = some spec)
    {succeeded : Bool} (decided : spec.outcome = some succeeded) :
    Settled key spec (state.tupleCompleteSpeculative spec succeeded) := by
  have speculates := inv.speculates spec speculating
  have known : spec.outcome ≠ none := by simp [decided]
  obtain ⟨xmin, cmin, view⟩ := speculates.view
  cases succeeded with
  | true => exact .inl ⟨decided, (speculates.entered known).2, xmin, cmin, view⟩
  | false =>
      obtain ⟨rel, held, table⟩ := inv.restored speculating decided
      refine .inr ⟨decided, ?_⟩
      rw [OnConflict.view, (Lineage.view_of_held held).2, table]

/-- In every run with plain and speculative insertions no two rows with one key are ever alive,
and `tuple_complete_speculative` leaves the row with its entry or no trace in the storage. -/
theorem speculation_settles {events : List OnConflictEvent} (reached : run key start events = some state)
    (windowed : Transition.Meets (step key) Windowed start events)
    (fits : Transition.Meets (step key) Fits start events) :
    state.index.Unique key ∧ ∀ txn next, state.step key (.tupleCompleteSpeculative txn) = some next →
      ∃ spec, state.speculation = some spec ∧ Settled key spec next := by
  have inv := inv_of_run .start reached windowed fits
  refine ⟨inv.index.unique, fun txn next stepped => ?_⟩
  obtain ⟨spec, succeeded, speculating, decided, rfl⟩ := completes_of_step stepped
  exact ⟨spec, speculating, inv.settled speculating decided⟩

/-- The second transaction loses to the row of the first one. -/
def losing : List OnConflictEvent :=
  [.plain (.backends (.begin 1 false)), .plain (.backends (.assign 1)),
    .plain (.backends (.doTupleInsert 1 [7])), .plain (.indexInsert 1), .plain (.backends (.preCommit 1)),
    .plain (.backends (.begin 2 false)), .plain (.backends (.assign 2)), .tupleInsertSpeculative 2 [7],
    .checkSpeculative 2]

theorem settles_losing : ∃ state, run (id : Bytes → Bytes) start losing = some state ∧
    state.index.Unique id ∧ ∀ txn next, state.step id (.tupleCompleteSpeculative txn) = some next →
      ∃ spec, state.speculation = some spec ∧ Settled id spec next :=
  ⟨_, rfl, @speculation_settles _ id _ _ losing rfl (by decide) (by decide)⟩

/-! ## Retries -/

/-- What happens while a statement that has lost tries again: it inserts rows with the same key
and does nothing else, and other transactions do what they like. -/
def Retries (key : Bytes → Key) (spec : Speculation) : OnConflictEvent → Prop
  | .plain (.backends event) => event.statement ≠ some spec.txn ∧ event ≠ .abort spec.txn
  | .tupleInsertSpeculative txn tuple => txn = spec.txn → key tuple = key spec.tuple
  | .plain (.indexInsert _) | .checkSpeculative _ | .tupleCompleteSpeculative _ => True

/-- Between two attempts of the statement, or in one that has not come past the entry of the
lost one. -/
inductive Attempts (key : Bytes → Key) (spec : Speculation) (state : OnConflict Key) : Prop where
  | between {rel : Relation} (free : state.speculation = none) (idle : state.index.pending = [])
      (held : state.index.lineage.backends.writer = some (spec.txn, rel))
      (table : rel.table = spec.found)
  | again {again : Speculation} (speculating : state.speculation = some again)
      (txn : again.txn = spec.txn) (found : again.found = spec.found)
      (same : key again.tuple = key spec.tuple) (unsuccessful : again.outcome ≠ some true)
      (unchecked : again.outcome = none →
        entry key spec ∉ (state.index.equal key again.tuple).take state.index.checked)

/-- The entry of a lost attempt is at the TID that the next one gets. -/
structure Losing (key : Bytes → Key) (spec : Speculation) (state : OnConflict Key) : Prop where
  rowid : spec.rowid = spec.found.nextRowid
  fits : spec.rowid ≤ maxTidRowid
  stale : entry key spec ∈ state.index.entries
  attempts : state.Attempts key spec

theorem Inv.losing (inv : state.Inv key) (speculating : state.speculation = some spec)
    (lost : spec.outcome = some false) : Losing key spec (state.tupleCompleteSpeculative spec false) := by
  have speculates := inv.speculates spec speculating
  have known : spec.outcome ≠ none := by simp [lost]
  obtain ⟨rel, held, table⟩ := inv.restored speculating lost
  obtain ⟨fits, entered⟩ := speculates.entered known
  exact ⟨speculates.rowid, fits, entered, .between rfl rfl held table⟩

/-- The row of an attempt is at the TID of the lost entry, and no row of another transaction. -/
theorem Inv.conflicts (inv : state.Inv key) {again : Speculation} (speculating : state.speculation = some again)
    {tid : Tid} (found : tidToRowid tid = again.rowid) (unsuccessful : again.outcome ≠ some true) :
    checkUnique (state.index.lineage.backends.history.xacts again.txn) (state.view again.txn) tid =
      .conflicts := by
  have speculates := inv.speculates again speculating
  obtain ⟨rel, xmin, cmin, held, table⟩ := speculates.row
  obtain ⟨trace, view⟩ := Lineage.view_of_held held
  have member : ⟨⟨again.rowid, xmin, cmin, 0#32, 0#32⟩, again.tuple⟩ ∈ rel.table.rows := by
    rw [table, speculates.rowid]
    exact List.mem_append_right _ List.mem_cons_self
  have tells := inv.index.told.tells.work _ held
  have inserting := (inv.index.work again.txn rel held).2
  have pending : (again.tuple, again.rowid) ∈ state.index.pending := by
    rw [speculates.pending unsuccessful]
    exact List.mem_singleton_self _
  have own := (inserting.own _ pending _ member rfl).2
  have running := (Backends.active_iff.mp (inv.index.told.writing again.txn rel held)).1
  rw [OnConflict.view, view]
  exact checkUnique_of_own member found.symm
    (tells.isCurrent inv.index.told.driven.formed member own running) rfl

namespace Losing

/-- The lost entry is among those that an attempt has to check. -/
theorem mem_equal (losing : state.Losing key spec) {tuple : Bytes} (same : key tuple = key spec.tuple) :
    entry key spec ∈ state.index.equal key tuple :=
  List.mem_filter.mpr ⟨losing.stale, decide_eq_true same.symm⟩

theorem checks (losing : state.Losing key spec) (inv : state.Inv key) {again : Speculation}
    (speculating : state.speculation = some again) (txn : again.txn = spec.txn)
    (found : again.found = spec.found) (same : key again.tuple = key spec.tuple)
    (undecided : again.outcome = none)
    (unchecked : entry key spec ∉ (state.index.equal key again.tuple).take state.index.checked)
    (checked : state.Checks key again next) : next.Losing key spec := by
  have rowid := (inv.speculates again speculating).rowid
  have unsuccessful : again.outcome ≠ some true := by simp [undecided]
  cases checked with
  | free all =>
      have all := List.take_of_length_le (List.getElem?_eq_none_iff.mp all)
      rw [all] at unchecked
      exact absurd (losing.mem_equal same) unchecked
  | @passes other next passes =>
      refine ⟨losing.rowid, losing.fits, losing.stale, .again rfl txn found same unsuccessful fun _ => ?_⟩
      change _ ∉ (state.index.equal key again.tuple).take (state.index.checked + 1)
      rw [List.take_add_one, next, List.mem_append, not_or]
      refine ⟨unchecked, fun last => ?_⟩
      obtain rfl : entry key spec = other := by simpa using last
      have decoded : tidToRowid (entry key spec).tid = again.rowid :=
        (tid_decodes losing.rowid losing.fits).trans (by rw [rowid, found])
      rw [inv.conflicts speculating decoded unsuccessful] at passes
      cases passes
  | loses _ =>
      exact ⟨losing.rowid, losing.fits, List.mem_append_left _ losing.stale,
        .again rfl txn found same (by simp) nofun⟩

theorem step (losing : state.Losing key spec) (inv : state.Inv key) {event : OnConflictEvent}
    (retries : Retries key spec event) (stepped : state.step key event = some next) :
    next.Losing key spec := by
  cases does_of_step stepped with
  | @plain event index ready ran =>
      cases event with
      | indexInsert txn =>
          cases losing.attempts with
          | between _ idle _ _ => simp [UniqueIndex.step, idle] at ran
          | again speculating _ _ _ _ _ => simp [OnConflict.ready, speculating] at ready
      | backends event =>
          obtain ⟨other, unaborted⟩ := retries
          have held : ∃ rel, state.index.lineage.backends.writer = some (spec.txn, rel) := by
            cases losing.attempts with
            | between _ _ held _ => exact ⟨_, held⟩
            | @again again speculating txn _ _ _ _ =>
                obtain ⟨rel, _, _, held, _⟩ := (inv.speculates again speculating).row
                exact ⟨rel, txn ▸ held⟩
          obtain ⟨rel, held⟩ := held
          have kept : state.index.lineage.backends.frees event = false := by
            cases event with
            | abort txn =>
                refine Bool.eq_false_iff.mpr fun mayWrite => unaborted ?_
                rw [Lineage.eq_of_mayWrite held mayWrite]
            | _ => rfl
          obtain ⟨writer, pending, entries, checked⟩ :=
            UniqueIndex.other_of_step inv.index.told.driven held other kept ran
          have beside : (if state.frees (.backends event) then none else state.speculation) =
              state.speculation := by
            rw [OnConflict.frees, kept, if_neg Bool.false_ne_true]
          rw [beside]
          have stale : entry key spec ∈ index.entries := entries ▸ losing.stale
          cases losing.attempts with
          | between free idle held' table =>
              obtain rfl := (Prod.mk.inj (Option.some.inj (held.symm.trans held'))).2
              exact ⟨losing.rowid, losing.fits, stale, .between free (pending.trans idle) writer table⟩
          | again speculating txn found same unsuccessful unchecked =>
              refine ⟨losing.rowid, losing.fits, stale,
                .again speculating txn found same unsuccessful fun open' => ?_⟩
              change _ ∉ (index.equal key _).take index.checked
              rw [checked, UniqueIndex.equal, entries]
              exact unchecked open'
  | @inserts txn tuple index free idle ran =>
      cases losing.attempts with
      | again speculating _ _ _ _ _ =>
          rw [free] at speculating
          cases speculating
      | @between rel _ _ held table =>
          obtain ⟨mayWrite, entries, checked, _, _⟩ := UniqueIndex.doTupleInsert_of_step ran
          obtain rfl := Lineage.eq_of_mayWrite held mayWrite
          have found : state.view spec.txn = spec.found := by
            rw [OnConflict.view, (Lineage.view_of_held held).2, table]
          refine ⟨losing.rowid, losing.fits, ?_, .again rfl rfl found (retries rfl) (by simp) fun _ => ?_⟩
          · change _ ∈ index.entries
            rw [entries]
            exact losing.stale
          · change _ ∉ (index.equal key tuple).take index.checked
            rw [checked, inv.index.fresh idle]
            exact List.not_mem_nil
  | @checks again speculating undecided =>
      cases losing.attempts with
      | between free _ _ _ =>
          rw [free] at speculating
          cases speculating
      | again speculating' txn found same _ unchecked =>
          obtain rfl := Option.some.inj (speculating.symm.trans speculating')
          exact losing.checks inv speculating txn found same undecided (unchecked undecided)
            (state.checks again)
  | @completes again succeeded speculating decided =>
      cases losing.attempts with
      | between free _ _ _ =>
          rw [free] at speculating
          cases speculating
      | again speculating' txn found same unsuccessful _ =>
          obtain rfl := Option.some.inj (speculating.symm.trans speculating')
          cases succeeded with
          | true => exact absurd decided unsuccessful
          | false =>
              obtain ⟨rel, held, table⟩ := inv.restored speculating decided
              exact ⟨losing.rowid, losing.fits, losing.stale,
                .between rfl rfl (txn ▸ held) (table.trans found)⟩

/-- One step of the check of an attempt loses, or leaves one entry less to check. -/
theorem check_loses_or_passes (losing : state.Losing key spec) (inv : state.Inv key) {again : Speculation}
    (speculating : state.speculation = some again) (undecided : again.outcome = none) :
    ∃ next, state.step key (.checkSpeculative spec.txn) = some next ∧
      ((∃ lost, next.speculation = some lost ∧ lost.outcome = some false) ∨
        next.Losing key spec ∧ next.Inv key ∧ next.speculation = some again ∧
          next.index.checked = state.index.checked + 1 ∧
          next.index.equal key again.tuple = state.index.equal key again.tuple ∧
          state.index.checked < (state.index.equal key again.tuple).length) := by
  cases losing.attempts with
  | between free _ _ _ =>
      rw [free] at speculating
      cases speculating
  | again speculating' txn found same unsuccessful unchecked =>
      obtain rfl := Option.some.inj (speculating.symm.trans speculating')
      have fits : again.rowid ≤ maxTidRowid := by
        rw [(inv.speculates again speculating).rowid, found, ← losing.rowid]
        exact losing.fits
      have kept := inv.checkSpeculative speculating undecided fits
      have checked : state.Checks key again (state.checkSpeculative key again) := state.checks again
      have still := losing.checks inv speculating txn found same undecided (unchecked undecided) checked
      refine ⟨state.checkSpeculative key again, ?_, ?_⟩
      · simp [OnConflict.step, speculating, txn, undecided]
      · generalize state.checkSpeculative key again = next at kept checked still ⊢
        cases checked with
        | free _ =>
            cases still.attempts with
            | between free _ _ _ => cases free
            | again succeeded _ _ _ unsuccessful _ =>
                obtain rfl := Option.some.inj succeeded
                exact absurd rfl unsuccessful
        | passes next _ =>
            exact .inr ⟨still, kept, rfl, rfl, rfl, (List.getElem?_eq_some_iff.mp next).1⟩
        | loses _ => exact .inl ⟨_, rfl, rfl⟩

/-- The check of an attempt comes to the lost entry, if it does not lose before. -/
theorem comes_to_lose (losing : state.Losing key spec) (inv : state.Inv key) {again : Speculation}
    (speculating : state.speculation = some again) (unsuccessful : again.outcome ≠ some true) (left : Nat)
    (bound : (state.index.equal key again.tuple).length ≤ state.index.checked + left) :
    ∃ checks final lost, run key state (List.replicate checks (.checkSpeculative spec.txn)) = some final ∧
      final.speculation = some lost ∧ lost.outcome = some false := by
  cases decided : again.outcome with
  | some succeeded =>
      cases succeeded with
      | true => exact absurd decided unsuccessful
      | false => exact ⟨0, state, again, rfl, speculating, decided⟩
  | none =>
      -- induction on the number of entries that are left to check
      induction left generalizing state with
      | zero =>
          obtain ⟨next, stepped, ⟨lost, failed⟩ | ⟨_, _, _, _, _, more⟩⟩ :=
            losing.check_loses_or_passes inv speculating decided
          · exact ⟨1, next, lost, Transition.run_cons_iff.mpr ⟨next, stepped, rfl⟩, failed⟩
          · omega
      | succ left ih =>
          obtain ⟨next, stepped, ⟨lost, failed⟩ | ⟨still, kept, speculating, one, same, _⟩⟩ :=
            losing.check_loses_or_passes inv speculating decided
          · exact ⟨1, next, lost, Transition.run_cons_iff.mpr ⟨next, stepped, rfl⟩, failed⟩
          · have fewer : (next.index.equal key again.tuple).length ≤ next.index.checked + left := by
              rw [same, one]
              omega
            obtain ⟨checks, final, lost, ran, failed⟩ := ih still kept speculating fewer
            exact ⟨checks + 1, final, lost, Transition.run_cons_iff.mpr ⟨next, stepped, ran⟩, failed⟩

end Losing

/-- The statement has inserted nothing, and the attempt that it is in can only lose. -/
def Fruitless (key : Bytes → Key) (spec : Speculation) (state : OnConflict Key) : Prop :=
  (state.speculation = none ∧ state.view spec.txn = spec.found) ∨
    ∃ again, state.speculation = some again ∧ again.txn = spec.txn ∧ again.outcome ≠ some true ∧
      ∃ checks final lost,
        run key state (List.replicate checks (.checkSpeculative spec.txn)) = some final ∧
          final.speculation = some lost ∧ lost.outcome = some false

/-- Once a speculative insertion has lost, no retry of the statement succeeds, whatever becomes
of the row that it has lost to: `physical_delete` frees the TID for the next attempt, whose row
btree then finds through the entry of the lost one. -/
theorem retries_lose {earlier retries : List OnConflictEvent} {after : OnConflict Key}
    (reached : run key start earlier = some state) (speculating : state.speculation = some spec)
    (lost : spec.outcome = some false)
    (retried : run key state (.tupleCompleteSpeculative spec.txn :: retries) = some after)
    (windowed : Transition.Meets (step key) Windowed start
      (earlier ++ .tupleCompleteSpeculative spec.txn :: retries))
    (fits : Transition.Meets (step key) Fits start
      (earlier ++ .tupleCompleteSpeculative spec.txn :: retries))
    (only : ∀ event ∈ retries, Retries key spec event) : after.Fruitless key spec := by
  obtain ⟨windowedFirst, windowedRetries⟩ := (Transition.meets_append_iff reached).mp windowed
  obtain ⟨fitsFirst, fitsRetries⟩ := (Transition.meets_append_iff reached).mp fits
  have inv := inv_of_run .start reached windowedFirst fitsFirst
  obtain ⟨between, completed, ran⟩ := Transition.run_cons_iff.mp retried
  have first : between.Losing key spec := by
    obtain ⟨_, _, speculating', decided, rfl⟩ := completes_of_step completed
    obtain rfl := Option.some.inj (speculating.symm.trans speculating')
    obtain rfl := Option.some.inj (lost.symm.trans decided)
    exact inv.losing speculating lost
  have kept := inv.step windowedRetries.1 fitsRetries.1 completed
  obtain ⟨losing, inv⟩ : after.Losing key spec ∧ after.Inv key := by
    have windowedRun := windowedRetries.2 between completed
    have fitsRun := fitsRetries.2 between completed
    clear windowed fits windowedRetries fitsRetries retried completed
    induction retries generalizing between with
    | nil =>
        cases ran
        exact ⟨first, kept⟩
    | cons event rest ih =>
        obtain ⟨next, stepped, ran⟩ := Transition.run_cons_iff.mp ran
        obtain ⟨retries, only⟩ := List.forall_mem_cons.mp only
        exact ih only next ran (first.step kept retries stepped)
          (kept.step windowedRun.1 fitsRun.1 stepped) (windowedRun.2 next stepped) (fitsRun.2 next stepped)
  cases losing.attempts with
  | between free _ held table =>
      refine .inl ⟨free, ?_⟩
      rw [OnConflict.view, (Lineage.view_of_held held).2, table]
  | again speculating txn _ _ unsuccessful _ =>
      exact .inr ⟨_, speculating, txn, unsuccessful,
        losing.comes_to_lose inv speculating unsuccessful _ (Nat.le_add_left _ _)⟩

/-- It tries again after the first one has aborted. -/
def retrying : List OnConflictEvent :=
  [.plain (.backends (.abort 1)), .tupleInsertSpeculative 2 [7], .checkSpeculative 2, .checkSpeculative 2,
    .tupleCompleteSpeculative 2, .tupleInsertSpeculative 2 [7], .checkSpeculative 2]

theorem retrying_loses : ∃ state spec after, run (id : Bytes → Bytes) start losing = some state ∧
    state.speculation = some spec ∧
      run id state (.tupleCompleteSpeculative 2 :: retrying) = some after ∧ after.Fruitless id spec :=
  ⟨_, _, _, rfl, rfl, rfl, @retries_lose _ id _ _ _ losing retrying _ rfl rfl rfl rfl (by decide) (by decide)
    (by simp [retrying, Retries, BackendsEvent.statement])⟩

end

end OnConflict

end SqliteHeap
