import Mathlib.Data.Nat.Digits.Defs
import SqliteHeap.UniqueIndex

/-! What a unique index keeps apart. Of two rows with equal keys that are both in the index,
the one that was checked has no committed life beside the other. -/

set_option autoImplicit false

namespace SqliteHeap

/-! ## Rows apart -/

namespace Trace

variable {trace after : Trace} {history later : History} {table larger : Table} {txn : TxnId}
  {news : List (Bytes × Int)} {rowid : Int}

/-- The transaction that inserted the version at a TID. -/
def inserter (rowid : Int) (trace : Trace) : TxnId := (trace.creator (trace.ids rowid)).txn.txn

/-- The version at a TID has no committed life beside a row of the transaction: its inserter
has aborted, or its deleter has committed or is the transaction itself. -/
def Yields (history : History) (trace : Trace) (rowid : Int) (txn : TxnId) : Prop :=
  history.status (trace.inserter rowid) = .aborted ∨
    ∃ op, trace.deleter (trace.ids rowid) = some op ∧
      (history.status op.txn.txn = .committed ∨ op.txn.txn = txn)

theorem inserter_of_extends {writer : TxnId} (extends' : trace.Extends writer news table after larger)
    (old : rowid < table.nextRowid) (below : trace.ids rowid < trace.count) :
    after.inserter rowid = trace.inserter rowid := by
  rw [inserter, extends'.ids rowid old, extends'.creator _ below, inserter]

namespace Yields

theorem since (yields : trace.Yields history rowid txn) (since : history.Since later) :
    trace.Yields later rowid txn := by
  rcases yields with aborted | ⟨op, ended, deleted⟩
  · exact .inl (since.aborted _ aborted)
  · exact .inr ⟨op, ended, deleted.imp_left (since.committed _)⟩

theorem of_extends {writer : TxnId} (yields : trace.Yields history rowid txn)
    (extends' : trace.Extends writer news table after larger) (old : rowid < table.nextRowid)
    (below : trace.ids rowid < trace.count) : after.Yields history rowid txn := by
  rcases yields with aborted | ⟨op, ended, deleted⟩
  · exact .inl (inserter_of_extends extends' old below ▸ aborted)
  · refine .inr ⟨op, ?_, deleted⟩
    rw [extends'.ids rowid old]
    exact extends'.deleter _ below op ended

end Yields

/-- What `_bt_check_unique` passes over yields to the transaction that checks. -/
theorem yields_of_passes {tid : Tid} {row : StoredRow}
    (tells : trace.Tells (Lineage.Recent (2 ^ 32) history) history table) (formed : history.WellFormed)
    (passes : checkUnique (history.xacts txn) table tid = .passes) (member : row ∈ table.rows)
    (found : row.rowid = tidToRowid tid) : trace.Yields history row.rowid txn := by
  have below := tells.below row member
  obtain ⟨xmin, _, recent⟩ := tells.inserted row member
  have created := tells.created _ below
  have named := created.named_of_recent formed recent
  have hidden : (Visibility.visibleDirty (history.xacts txn) row.toStoredHeader dirtySnapshot).1 =
      false := by
    rw [checkUnique, ← found, Table.selectOne_of_mem member] at passes
    dsimp only at passes
    split at passes
    · next unseen => exact (Bool.not_eq_true' _).mp unseen
    · split at passes <;> cases passes
  rcases Visibility.visibleDirty_eq_false_iff.mp hidden with ⟨_, ended, uncommitted⟩ | ⟨stamped, deleted⟩
  · refine .inl ?_
    rw [xmin] at ended uncommitted
    have stopped : history.status (trace.inserter row.rowid) ≠ .running := by
      simpa [History.xacts, named, Trace.inserter] using ended
    have failed : history.status (trace.inserter row.rowid) ≠ .committed := by
      intro committed
      rw [(formed.didCommit_iff named txn).mpr committed] at uncommitted
      cases uncommitted
    cases status : history.status (trace.inserter row.rowid) with
    | aborted => rfl
    | unstarted => exact absurd status (formed.started _ created.assigned)
    | running => exact absurd status stopped
    | committed => exact absurd status failed
  · cases ended : trace.deleter (trace.ids row.rowid) with
    | none => exact absurd (tells.undeleted row member ended) stamped
    | some op =>
        obtain ⟨xmax, _, recent'⟩ := tells.deleted row member op ended
        have named' := (tells.ended _ below op ended).named_of_recent formed recent'
        rw [xmax] at deleted
        refine .inr ⟨op, ended, ?_⟩
        rcases deleted with current | ⟨_, committed⟩
        · have own : op.txn.txn = txn ∧ history.status txn = .running := by
            simpa [History.xacts, named'] using current
          exact .inr own.1
        · exact .inl ((formed.didCommit_iff named' txn).mp committed)

end Trace

section Apart

variable {Key : Type} (key : Bytes → Key)

/-- The rows that are not pending have their entries, and of two with equal keys one yields to
the inserter of the other. -/
structure Separated (history : History) (entries : List (IndexEntry Key)) (pending : List (Bytes × Int))
    (trace : Trace) (table : Table) : Prop where
  indexed : ∀ row ∈ table.rows, row.rowid ∉ pending.map Prod.snd →
    ∃ entry ∈ entries, entry.key = key row.tuple ∧ tidToRowid entry.tid = row.rowid
  apart : ∀ first ∈ table.rows, ∀ second ∈ table.rows, first.rowid ∉ pending.map Prod.snd →
    second.rowid ∉ pending.map Prod.snd → first.rowid ≠ second.rowid →
      key first.tuple = key second.tuple →
        trace.Yields history first.rowid (trace.inserter second.rowid) ∨
          trace.Yields history second.rowid (trace.inserter first.rowid)

/-- The pending rows are the writer's, and what the first one has been checked against
yields to it. -/
structure Inserting [DecidableEq Key] (index : UniqueIndex Key) (holder : TxnId) (trace : Trace) (table : Table) : Prop where
  own : ∀ new ∈ index.pending, ∀ row ∈ table.rows, row.rowid = new.2 →
    row.tuple = new.1 ∧ trace.inserter row.rowid = holder
  below : ∀ new ∈ index.pending, new.2 < table.nextRowid
  checked : ∀ new ∈ index.pending.head?, ∀ entry ∈ (index.equal key new.1).take index.checked,
    ∀ row ∈ table.rows, row.rowid ∉ index.pending.map Prod.snd → row.rowid = tidToRowid entry.tid →
      trace.Yields index.lineage.backends.history row.rowid holder

variable {key : Bytes → Key} {history later : History} {entries : List (IndexEntry Key)}
  {pending news : List (Bytes × Int)} {trace after : Trace} {table larger : Table} {txn : TxnId}

namespace Separated

theorem empty : Separated key history entries pending Trace.empty Table.empty := ⟨nofun, nofun⟩

theorem since (separated : Separated key history entries pending trace table)
    (since : history.Since later) : Separated key later entries pending trace table where
  indexed := separated.indexed
  apart first inFirst second inSecond free free' different same :=
    (separated.apart first inFirst second inSecond free free' different same).imp
      (fun yields => yields.since since) fun yields => yields.since since

theorem subset (separated : Separated key history entries pending trace table) {smaller : Table}
    (rows : ∀ row ∈ smaller.rows, row ∈ table.rows) :
    Separated key history entries pending trace smaller where
  indexed row member := separated.indexed row (rows row member)
  apart first inFirst second inSecond := separated.apart first (rows first inFirst) second (rows second inSecond)

theorem more (separated : Separated key history entries pending trace table)
    (added : List (IndexEntry Key)) : Separated key history (entries ++ added) pending trace table where
  indexed row member free := by
    obtain ⟨entry, inEntries, spec⟩ := separated.indexed row member free
    exact ⟨entry, List.mem_append_left _ inEntries, spec⟩
  apart := separated.apart

theorem old_of_extends (extends' : trace.Extends txn news table after larger) {row : StoredRow}
    (member : row ∈ larger.rows) (free : row.rowid ∉ (pending ++ news).map Prod.snd) :
    ∃ old ∈ table.rows, old.rowid = row.rowid ∧ old.tuple = row.tuple ∧
      old.rowid ∉ pending.map Prod.snd := by
  rw [List.map_append, List.mem_append, not_or] at free
  rcases extends'.rows row member with ⟨old, inTable, rowid, tuple⟩ | ⟨inNews, _⟩
  · exact ⟨old, inTable, rowid, tuple, rowid ▸ free.1⟩
  · exact absurd (List.mem_map_of_mem inNews) free.2

theorem of_extends (separated : Separated key history entries pending trace table)
    (below : ∀ row ∈ table.rows, trace.ids row.rowid < trace.count)
    (extends' : trace.Extends txn news table after larger) :
    Separated key history entries (pending ++ news) after larger where
  indexed row member free := by
    obtain ⟨old, inTable, rowid, tuple, oldFree⟩ := old_of_extends extends' member free
    rw [← rowid, ← tuple]
    exact separated.indexed old inTable oldFree
  apart first inFirst second inSecond free free' different same := by
    obtain ⟨old, inTable, rowid, tuple, oldFree⟩ := old_of_extends extends' inFirst free
    obtain ⟨old', inTable', rowid', tuple', oldFree'⟩ := old_of_extends extends' inSecond free'
    have inserter : ∀ row ∈ table.rows, after.inserter row.rowid = trace.inserter row.rowid :=
      fun row member =>
        Trace.inserter_of_extends extends' (Table.rowid_lt_nextRowid member) (below row member)
    rw [← rowid, ← rowid'] at different ⊢
    rw [← tuple, ← tuple'] at same
    rw [inserter old inTable, inserter old' inTable']
    refine (separated.apart old inTable old' inTable' oldFree oldFree' different same).imp
      (fun yields => ?_) fun yields => ?_
    · exact yields.of_extends extends' (Table.rowid_lt_nextRowid inTable) (below old inTable)
    · exact yields.of_extends extends' (Table.rowid_lt_nextRowid inTable') (below old' inTable')

theorem not_mem_cons_of_ne {new : Bytes × Int} {rowid : Int} (free : rowid ∉ pending.map Prod.snd)
    (other : rowid ≠ new.2) : rowid ∉ (new :: pending).map Prod.snd := by
  rw [List.map_cons, List.mem_cons, not_or]
  exact ⟨other, free⟩

theorem enter {new : Bytes × Int} (separated : Separated key history entries (new :: pending) trace table)
    (fits : new.2 ≤ maxTidRowid)
    (own : ∀ row ∈ table.rows, row.rowid = new.2 → row.tuple = new.1 ∧ trace.inserter row.rowid = txn)
    (yields : ∀ row ∈ table.rows, row.rowid ∉ (new :: pending).map Prod.snd →
      key row.tuple = key new.1 → trace.Yields history row.rowid txn) :
    Separated key history (entries ++ [⟨key new.1, rowidToTid new.2⟩]) pending trace table where
  indexed row member free := by
    by_cases atNew : row.rowid = new.2
    · refine ⟨_, List.mem_append_right _ List.mem_cons_self, ?_, ?_⟩
      · rw [(own row member atNew).1]
      · rw [← atNew] at fits ⊢
        exact tidToRowid_rowidToTid (table.positive row member) fits
    · obtain ⟨entry, inEntries, spec⟩ := separated.indexed row member (not_mem_cons_of_ne free atNew)
      exact ⟨entry, List.mem_append_left _ inEntries, spec⟩
  apart row member other inTable free free' different same := by
    by_cases atNew : row.rowid = new.2
    · obtain ⟨tuple, inserter⟩ := own row member atNew
      have otherNew : other.rowid ≠ new.2 := fun found => different (atNew.trans found.symm)
      refine .inr ?_
      rw [inserter]
      exact yields other inTable (not_mem_cons_of_ne free' otherNew) (tuple ▸ same.symm)
    · by_cases otherNew : other.rowid = new.2
      · obtain ⟨tuple, inserter⟩ := own other inTable otherNew
        refine .inl ?_
        rw [inserter]
        exact yields row member (not_mem_cons_of_ne free atNew) (tuple ▸ same)
      · exact separated.apart row member other inTable (not_mem_cons_of_ne free atNew)
          (not_mem_cons_of_ne free' otherNew) different same

end Separated

namespace Inserting

variable [DecidableEq Key] {index next : UniqueIndex Key}

theorem of_idle (idle : index.pending = []) : Inserting key index txn trace table := by
  constructor <;> rw [idle]
  · exact nofun
  · exact nofun
  · exact nofun

theorem of_extends (inserting : Inserting key index txn trace table)
    (below : ∀ row ∈ table.rows, trace.ids row.rowid < trace.count)
    (extends' : trace.Extends txn news table after larger)
    (fresh : index.pending = [] → index.checked = 0)
    (pending : next.pending = index.pending ++ news) (entries : next.entries = index.entries)
    (checked : next.checked = index.checked)
    (history : next.lineage.backends.history = index.lineage.backends.history) :
    Inserting key next txn after larger where
  own new member row inLarger found := by
    rw [pending] at member
    rcases List.mem_append.mp member with old | added
    · have before := (inserting.below new old)
      rcases extends'.rows row inLarger with ⟨source, inTable, rowid, tuple⟩ | ⟨inNews, _⟩
      · have own := inserting.own new old source inTable (rowid.trans found)
        refine ⟨tuple ▸ own.1, ?_⟩
        rw [← rowid, Trace.inserter_of_extends extends' (Table.rowid_lt_nextRowid inTable)
          (below source inTable)]
        exact own.2
      · have after := (extends'.rowids _ inNews).1
        rw [← found] at before
        exact absurd before (Int.not_lt.mpr after)
    · rcases extends'.rows row inLarger with ⟨source, inTable, rowid, _⟩ | ⟨inNews, _, mine⟩
      · have before := Table.rowid_lt_nextRowid inTable
        rw [rowid, found] at before
        exact absurd before (Int.not_lt.mpr (extends'.rowids new added).1)
      · have same := extends'.distinct _ inNews new added found
        exact ⟨congrArg Prod.fst same, mine⟩
  below new member := by
    rw [pending] at member
    rcases List.mem_append.mp member with old | added
    · exact (inserting.below new old).trans_le extends'.next
    · exact (extends'.rowids new added).2
  checked new head entry inTake row inLarger free found := by
    rw [pending] at head free
    rw [UniqueIndex.equal, entries, checked] at inTake
    rw [history]
    cases queue : index.pending with
    | nil =>
        rw [fresh queue] at inTake
        cases inTake
    | cons first rest =>
        obtain ⟨old, inTable, rowid, _, oldFree⟩ := Separated.old_of_extends extends' inLarger free
        have sameHead : new ∈ index.pending.head? := by
          rw [queue] at head ⊢
          exact head
        rw [← rowid] at found ⊢
        exact (inserting.checked new sameHead entry inTake old inTable oldFree found).of_extends
          extends' (Table.rowid_lt_nextRowid inTable) (below old inTable)

/-- Every row with the key of the first pending one has been checked. -/
theorem yields_of_checked (inserting : Inserting key index txn trace table)
    (separated : Separated key index.lineage.backends.history index.entries index.pending trace table)
    {new : Bytes × Int} (head : new ∈ index.pending.head?)
    (all : (index.equal key new.1)[index.checked]? = none) {row : StoredRow} (member : row ∈ table.rows)
    (free : row.rowid ∉ index.pending.map Prod.snd) (same : key row.tuple = key new.1) :
    trace.Yields index.lineage.backends.history row.rowid txn := by
  obtain ⟨entry, inEntries, keyed, found⟩ := separated.indexed row member free
  have inEqual : entry ∈ index.equal key new.1 :=
    List.mem_filter.mpr ⟨inEntries, by simpa using keyed.trans same⟩
  have inTake : entry ∈ (index.equal key new.1).take index.checked := by
    rw [List.take_of_length_le (List.getElem?_eq_none_iff.mp all)]
    exact inEqual
  exact inserting.checked new head entry inTake row member free found.symm

end Inserting

end Apart

/-! ## Every step keeps them apart -/

namespace UniqueIndex

variable {Key : Type} [DecidableEq Key] {key : Bytes → Key} {index next : UniqueIndex Key}
  {lineage : Lineage} {txn : TxnId} {event : BackendsEvent}

structure Inv (key : Bytes → Key) (index : UniqueIndex Key) : Prop where
  told : index.lineage.Told (2 ^ 32)
  file : Separated key index.lineage.backends.history index.entries [] index.lineage.file
    index.lineage.backends.file.table
  work : ∀ holder rel, index.lineage.backends.writer = some (holder, rel) →
    Separated key index.lineage.backends.history index.entries index.pending index.lineage.work
        rel.table ∧
      Inserting key index holder index.lineage.work rel.table
  free : index.lineage.backends.writer = none → index.pending = []
  fresh : index.pending = [] → index.checked = 0

namespace Inv

theorem start : (UniqueIndex.start : UniqueIndex Key).Inv key :=
  ⟨.start _, .empty, nofun, fun _ => rfl, fun _ => rfl⟩

theorem view (inv : index.Inv key) (mayWrite : index.lineage.backends.mayWrite txn = true) :
    Separated key index.lineage.backends.history index.entries index.pending (index.lineage.view txn)
        (index.lineage.backends.view txn).table ∧
      Inserting key index txn (index.lineage.view txn) (index.lineage.backends.view txn).table := by
  rcases Backends.mayWrite_iff.mp mayWrite with free | ⟨rel, held⟩
  · have idle := inv.free free
    rw [(Lineage.view_of_free free txn).1, (Lineage.view_of_free free txn).2, idle]
    exact ⟨inv.file, .of_idle idle⟩
  · rw [(Lineage.view_of_held held).1, (Lineage.view_of_held held).2]
    exact inv.work txn rel held

theorem passed (inv : index.Inv key) (told : lineage.Told (2 ^ 32))
    (since : index.lineage.backends.history.Since lineage.backends.history)
    (file : lineage.file = index.lineage.file)
    (stored : lineage.backends.file = index.lineage.backends.file)
    (work : lineage.work = index.lineage.work)
    (writer : lineage.backends.writer = index.lineage.backends.writer) :
    ({ index with lineage := lineage }).Inv key where
  told := told
  file := by
    change Separated key lineage.backends.history _ _ lineage.file lineage.backends.file.table
    rw [file, stored]
    exact inv.file.since since
  work holder rel held := by
    change lineage.backends.writer = some (holder, rel) at held
    change Separated key lineage.backends.history _ _ lineage.work _ ∧ Inserting key _ _ lineage.work _
    rw [work]
    obtain ⟨separated, inserting⟩ := inv.work holder rel (writer ▸ held)
    refine ⟨separated.since since, inserting.own, inserting.below, ?_⟩
    intro new head entry inTake row member free found
    exact (inserting.checked new head entry inTake row member free found).since since
  free unheld := inv.free (writer ▸ unheld)
  fresh := inv.fresh

theorem freed (inv : index.Inv key) (told : lineage.Told (2 ^ 32))
    (since : index.lineage.backends.history.Since lineage.backends.history)
    (file : lineage.file = index.lineage.file)
    (stored : lineage.backends.file = index.lineage.backends.file)
    (writer : lineage.backends.writer = none) :
    ({ index with lineage := lineage, pending := [], checked := 0, failed := false }).Inv key where
  told := told
  file := by
    change Separated key lineage.backends.history _ _ lineage.file lineage.backends.file.table
    rw [file, stored]
    exact inv.file.since since
  work _ _ held := by
    change lineage.backends.writer = _ at held
    rw [writer] at held
    cases held
  free _ := rfl
  fresh _ := rfl

theorem written (inv : index.Inv key) (mayWrite : index.lineage.backends.mayWrite txn = true)
    (ready : index.ready event = true) {rel : Relation} {trace : Trace}
    (alters : index.lineage.Alters txn event trace rel.table)
    (told : Lineage.Told (2 ^ 32) ⟨{ index.lineage.backends with writer := some (txn, rel) },
      index.lineage.file, trace⟩) :
    ({ index with
        lineage := ⟨{ index.lineage.backends with writer := some (txn, rel) }, index.lineage.file, trace⟩
        pending := index.pending ++ index.lineage.news event }).Inv key := by
  obtain ⟨separated, inserting⟩ := inv.view mayWrite
  have below := (inv.told.tells.view txn).below
  have fresh : index.pending ++ index.lineage.news event = [] → index.checked = 0 :=
    fun idle => inv.fresh (List.append_eq_nil_iff.mp idle).1
  refine ⟨told, inv.file, fun holder after held => ?_, nofun, fresh⟩
  cases held
  rcases alters.extending_or_removing inv.told with extends' | ⟨between, news, same, rows⟩
  · exact ⟨separated.of_extends below extends',
      inserting.of_extends below extends' inv.fresh rfl rfl rfl rfl⟩
  · have idle : index.pending = [] := by
      simpa [UniqueIndex.ready, between, mayWrite] using ready
    rw [idle, news]
    change Separated key _ _ _ trace _ ∧ _
    rw [same]
    rw [idle] at separated
    exact ⟨separated.subset rows, .of_idle rfl⟩

theorem preCommitted (inv : index.Inv key) (ready : index.ready (.preCommit txn) = true)
    (told : lineage.Told (2 ^ 32))
    (history : lineage.backends.history = index.lineage.backends.history)
    (file : lineage.file = index.lineage.view txn)
    (stored : lineage.backends.file = index.lineage.backends.view txn)
    (work : lineage.work = index.lineage.work)
    (writer : lineage.backends.writer =
      if index.lineage.backends.mayWrite txn then none else index.lineage.backends.writer) :
    ({ index with lineage := lineage }).Inv key := by
  cases mayWrite : index.lineage.backends.mayWrite txn with
  | true =>
      have idle : index.pending = [] := by
        simpa [UniqueIndex.ready, BackendsEvent.between, mayWrite] using ready
      have separated := (inv.view mayWrite).1
      rw [idle, ← history, ← file, ← stored] at separated
      rw [mayWrite, if_pos rfl] at writer
      refine ⟨told, separated, fun holder rel held => ?_, fun _ => idle, inv.fresh⟩
      change lineage.backends.writer = _ at held
      rw [writer] at held
      cases held
  | false =>
      obtain ⟨sameFile, sameStored⟩ := Lineage.view_of_blocked mayWrite
      rw [mayWrite] at writer
      exact inv.passed told (history ▸ .refl _) (file.trans sameFile) (stored.trans sameStored) work writer

/-- The abort of the writer drops its pending rows, other events add theirs. -/
theorem backends (inv : index.Inv key) (windowed : index.lineage.Windowed event)
    (unworn : index.lineage.Unworn (2 ^ 32) event) (ready : index.ready event = true)
    (stepped : index.lineage.step event = some lineage) :
    (if index.lineage.backends.frees event then
        { index with lineage := lineage, pending := [], checked := 0, failed := false }
      else { index with
        lineage := lineage, pending := index.pending ++ index.lineage.news event }).Inv key := by
  have driven := inv.told.driven
  have acts := Lineage.acts_of_step driven stepped
  have told := inv.told.acts (by decide) windowed unworn acts
  have since := acts.since driven
  have kept (news : index.lineage.news event = []) (same : ({ index with lineage := lineage }).Inv key) :
      ({ index with
        lineage := lineage, pending := index.pending ++ index.lineage.news event }).Inv key := by
    rw [news, List.append_nil]
    exact same
  cases acts with
  | assign running => exact kept rfl (inv.passed told since rfl rfl rfl rfl)
  | moves tuples moves nextXid file writer _ =>
      split at writer
      · next frees =>
          rw [if_pos frees]
          exact inv.freed told since rfl file writer
      · next other =>
          rw [if_neg other]
          exact kept (Lineage.news_of_tuples tuples) (inv.passed told since rfl file rfl writer)
  | takeSnapshot id active => exact kept rfl (inv.passed told since rfl rfl rfl rfl)
  | write active mayWrite alters =>
      rw [if_neg (Bool.eq_false_iff.mp alters.frees)]
      exact inv.written mayWrite ready alters told
  | preCommit active => exact kept rfl (inv.preCommitted ready told rfl rfl rfl rfl rfl)

theorem held (inv : index.Inv key) (mayWrite : index.lineage.backends.mayWrite txn = true)
    {new : Bytes × Int} {rest : List (Bytes × Int)} (pending : index.pending = new :: rest) :
    ∃ rel, index.lineage.backends.writer = some (txn, rel) := by
  rcases Backends.mayWrite_iff.mp mayWrite with free | held
  · have idle := inv.free free
    rw [pending] at idle
    cases idle
  · exact held

theorem indexed (inv : index.Inv key) (mayWrite : index.lineage.backends.mayWrite txn = true)
    {new : Bytes × Int} {rest : List (Bytes × Int)} (pending : index.pending = new :: rest)
    (fits : new.2 ≤ maxTidRowid) (all : (index.equal key new.1)[index.checked]? = none) :
    ({ index with
        entries := index.entries ++ [(⟨key new.1, rowidToTid new.2⟩ : IndexEntry Key)]
        pending := rest
        checked := 0 }).Inv key := by
  obtain ⟨rel, held⟩ := inv.held mayWrite pending
  obtain ⟨separated, inserting⟩ := inv.work txn rel held
  have head : new ∈ index.pending.head? := by
    rw [pending]
    rfl
  have yields : ∀ row ∈ rel.table.rows, row.rowid ∉ index.pending.map Prod.snd →
      key row.tuple = key new.1 →
        index.lineage.work.Yields index.lineage.backends.history row.rowid txn :=
    fun row member free same => inserting.yields_of_checked separated head all member free same
  refine ⟨inv.told, inv.file.more _, fun holder after same => ?_, fun unheld => ?_, fun _ => rfl⟩
  · obtain ⟨rfl, rfl⟩ : txn = holder ∧ rel = after := by simpa [held] using same
    rw [pending] at separated yields
    refine ⟨separated.enter fits (inserting.own new (pending ▸ List.mem_cons_self)) yields,
      fun other inRest => ?_, fun other inRest => ?_, nofun⟩
    · exact inserting.own other (pending ▸ List.mem_cons_of_mem _ inRest)
    · exact inserting.below other (pending ▸ List.mem_cons_of_mem _ inRest)
  · change index.lineage.backends.writer = none at unheld
    rw [held] at unheld
    cases unheld

/-- The check of the first pending row has got as far as its entries yield to it. -/
theorem rechecked (inv : index.Inv key) (mayWrite : index.lineage.backends.mayWrite txn = true)
    {new : Bytes × Int} {rest : List (Bytes × Int)} (pending : index.pending = new :: rest) (count : Nat)
    (yields : ∀ entry ∈ (index.equal key new.1).take count,
      ∀ row ∈ (index.lineage.backends.view txn).table.rows, row.rowid ∉ index.pending.map Prod.snd →
        row.rowid = tidToRowid entry.tid →
          (index.lineage.view txn).Yields index.lineage.backends.history row.rowid txn) :
    ({ index with checked := count }).Inv key := by
  obtain ⟨rel, held⟩ := inv.held mayWrite pending
  obtain ⟨separated, inserting⟩ := inv.work txn rel held
  rw [(Lineage.view_of_held held).1, (Lineage.view_of_held held).2] at yields
  refine ⟨inv.told, inv.file, fun holder after same => ?_, inv.free, fun idle => ?_⟩
  · obtain ⟨rfl, rfl⟩ : txn = holder ∧ rel = after := by simpa [held] using same
    refine ⟨separated, inserting.own, inserting.below, fun other head => ?_⟩
    change other ∈ index.pending.head? at head
    rw [pending] at head
    obtain rfl : new = other := by simpa using head
    exact yields
  · change index.pending = [] at idle
    rw [pending] at idle
    cases idle

theorem indexInsert (inv : index.Inv key) (mayWrite : index.lineage.backends.mayWrite txn = true)
    {new : Bytes × Int} {rest : List (Bytes × Int)} (pending : index.pending = new :: rest)
    (fits : new.2 ≤ maxTidRowid) : (index.indexInsert key txn new rest).Inv key := by
  have inserting := (inv.view mayWrite).2
  have head : new ∈ index.pending.head? := by
    rw [pending]
    rfl
  cases next : (index.equal key new.1)[index.checked]? with
  | none =>
      rw [indexInsert_of_checked key next]
      exact inv.indexed mayWrite pending fits next
  | some entry =>
      cases verdict : checkUnique (index.lineage.backends.history.xacts txn)
          (index.lineage.backends.view txn).table entry.tid with
      | passes =>
          rw [indexInsert_of_passes key next verdict]
          refine inv.rechecked mayWrite pending _ fun other inTake row member free found => ?_
          rw [List.take_add_one, next] at inTake
          rcases List.mem_append.mp inTake with earlier | last
          · exact inserting.checked new head other earlier row member free found
          · obtain rfl : other = entry := by simpa using last
            exact Trace.yields_of_passes (inv.told.tells.view txn) inv.told.driven.formed verdict member
              found
      | waits =>
          rw [indexInsert_of_waits key next verdict]
          exact inv.rechecked mayWrite pending 0 nofun
      | conflicts =>
          rw [indexInsert_of_conflicts key next verdict]
          refine ⟨inv.told, inv.file, fun holder rel held => ?_, inv.free, inv.fresh⟩
          obtain ⟨separated, inserting⟩ := inv.work holder rel held
          exact ⟨separated, { inserting with }⟩

end Inv

/-- What Postgres promises of its xids. -/
def Windowed (index : UniqueIndex Key) : UniqueEvent → Prop
  | .backends event => index.lineage.Windowed event
  | .indexInsert _ => True

/-- Every xid in the table is within `2 ^ 32` of the ones handed out, and a row that gets its
entry has a rowid that fits a TID. -/
def Fits (index : UniqueIndex Key) : UniqueEvent → Prop
  | .backends event => index.lineage.Unworn (2 ^ 32) event
  | .indexInsert _ => ∀ new ∈ index.pending.head?, new.2 ≤ maxTidRowid

instance (index : UniqueIndex Key) : DecidablePred index.Windowed
  | .backends event => inferInstanceAs (Decidable (index.lineage.Windowed event))
  | .indexInsert _ => isTrue trivial

instance (index : UniqueIndex Key) : DecidablePred index.Fits
  | .backends event => inferInstanceAs (Decidable (index.lineage.Unworn (2 ^ 32) event))
  | .indexInsert _ => inferInstanceAs (Decidable (∀ new ∈ index.pending.head?, _))

theorem Inv.step (inv : index.Inv key) {event : UniqueEvent} (windowed : index.Windowed event)
    (fits : index.Fits event) (stepped : index.step key event = some next) : next.Inv key := by
  cases event with
  | backends event =>
      obtain ⟨ready, moved⟩ := Option.ite_none_right_eq_some.mp stepped
      obtain ⟨lineage, ran, rfl⟩ := Option.map_eq_some_iff.mp moved
      exact inv.backends windowed fits ready ran
  | indexInsert txn =>
      cases pending : index.pending with
      | nil => simp [UniqueIndex.step, pending] at stepped
      | cons new rest =>
          simp only [UniqueIndex.step, pending] at stepped
          obtain ⟨guard, same⟩ := Option.ite_none_right_eq_some.mp stepped
          obtain rfl := Option.some.inj same
          have mayWrite := (Bool.and_eq_true_iff.mp (Bool.and_eq_true_iff.mp guard).1).1
          exact inv.indexInsert mayWrite pending (fits new (by rw [pending]; rfl))

/-- The row has a committed `xmin` and no committed `xmax`. -/
def Alive (history : History) (reader : TxnId) (row : StoredHeader) : Prop :=
  Visibility.didCommit (history.xacts reader) row.xmin = true ∧
    Visibility.didCommit (history.xacts reader) row.xmax = false

/-- No two rows with one key are alive, in the file or in what any transaction reads. -/
def Unique (key : Bytes → Key) (index : UniqueIndex Key) : Prop :=
  ∀ txn reader, ∀ first ∈ (index.lineage.backends.view txn).table.rows,
    ∀ second ∈ (index.lineage.backends.view txn).table.rows,
      Alive index.lineage.backends.history reader first.toStoredHeader →
      Alive index.lineage.backends.history reader second.toStoredHeader →
      key first.tuple = key second.tuple → first = second

section

variable {history : History} {trace : Trace} {table : Table} {reader : TxnId} {row second : StoredRow}

theorem Alive.statuses (tells : trace.Tells (Lineage.Recent (2 ^ 32) history) history table)
    (formed : history.WellFormed) (member : row ∈ table.rows)
    (alive : Alive history reader row.toStoredHeader) :
    history.status (trace.inserter row.rowid) = .committed ∧
      ∀ op, trace.deleter (trace.ids row.rowid) = some op → history.status op.txn.txn ≠ .committed := by
  have below := tells.below row member
  obtain ⟨xmin, _, recent⟩ := tells.inserted row member
  obtain ⟨inserted, undeleted⟩ := alive
  constructor
  · rw [xmin] at inserted
    exact (formed.didCommit_iff ((tells.created _ below).named_of_recent formed recent) reader).mp inserted
  · intro op ended committed
    obtain ⟨xmax, _, recent'⟩ := tells.deleted row member op ended
    have named := (tells.ended _ below op ended).named_of_recent formed recent'
    rw [xmax, (formed.didCommit_iff named reader).mpr committed] at undeleted
    cases undeleted

theorem Alive.not_yields (tells : trace.Tells (Lineage.Recent (2 ^ 32) history) history table)
    (formed : history.WellFormed) (inTable : row ∈ table.rows) (inTable' : second ∈ table.rows)
    (alive : Alive history reader row.toStoredHeader)
    (alive' : Alive history reader second.toStoredHeader) :
    ¬ trace.Yields history row.rowid (trace.inserter second.rowid) := by
  obtain ⟨inserted, undeleted⟩ := alive.statuses tells formed inTable
  obtain ⟨inserted', _⟩ := alive'.statuses tells formed inTable'
  rintro (aborted | ⟨op, ended, committed | own⟩)
  · rw [inserted] at aborted
    cases aborted
  · exact undeleted op ended committed
  · exact undeleted op ended (own ▸ inserted')

end

/-- Pending rows are not alive, and of two others one yields. -/
theorem Inv.unique (inv : index.Inv key) : index.Unique key := by
  intro txn reader first inFirst second inSecond alive alive' same
  have formed := inv.told.driven.formed
  have tells := inv.told.tells.view txn
  obtain ⟨pending, separated, waiting⟩ : ∃ pending, Separated key index.lineage.backends.history
      index.entries pending (index.lineage.view txn) (index.lineage.backends.view txn).table ∧
        ∀ row ∈ (index.lineage.backends.view txn).table.rows, row.rowid ∈ pending.map Prod.snd →
          index.lineage.backends.history.status ((index.lineage.view txn).inserter row.rowid) = .running := by
    cases mayWrite : index.lineage.backends.mayWrite txn with
    | true =>
        obtain ⟨separated, inserting⟩ := inv.view mayWrite
        refine ⟨index.pending, separated, fun row member found => ?_⟩
        obtain ⟨new, inPending, rowid⟩ := List.mem_map.mp found
        obtain ⟨head, rest, queue⟩ := List.exists_cons_of_ne_nil (List.ne_nil_of_mem inPending)
        obtain ⟨rel, held⟩ := inv.held mayWrite queue
        rw [(inserting.own new inPending row member rowid.symm).2]
        exact (Backends.active_iff.mp (inv.told.writing txn rel held)).1
    | false =>
        rw [(Lineage.view_of_blocked mayWrite).1, (Lineage.view_of_blocked mayWrite).2]
        exact ⟨[], inv.file, nofun⟩
  have free : ∀ row ∈ (index.lineage.backends.view txn).table.rows,
      Alive index.lineage.backends.history reader row.toStoredHeader →
        row.rowid ∉ pending.map Prod.snd := by
    intro row member alive found
    have running := waiting row member found
    rw [(alive.statuses tells formed member).1] at running
    cases running
  by_contra different
  have apart : first.rowid ≠ second.rowid := fun rowid =>
    different (Table.eq_of_rowid_eq (index.lineage.backends.view txn).table.sorted inFirst inSecond rowid)
  rcases separated.apart first inFirst second inSecond (free first inFirst alive)
      (free second inSecond alive') apart same with yields | yields
  · exact alive.not_yields tells formed inFirst inSecond alive' yields
  · exact alive'.not_yields tells formed inSecond inFirst alive yields

/-- In every run of any number of backends whose rowids fit TIDs and whose table does not
outlive its xids, no two rows with one key are ever alive. -/
theorem unique_of_fits {events : List UniqueEvent} {index : UniqueIndex Key}
    (reached : run key start events = some index)
    (windowed : Transition.Meets (step key) Windowed start events)
    (fits : Transition.Meets (step key) Fits start events) : index.Unique key := by
  refine Inv.unique (Transition.run_invariant (fun index event next inv assumed stepped => ?_) .start
    (Transition.meets_and_iff.mpr ⟨windowed, fits⟩) reached)
  exact inv.step assumed.1 assumed.2 stepped

/-- The second transaction waits for the first one, which has written the key and aborts. -/
def waiting : List UniqueEvent :=
  [.backends (.begin 1 false), .backends (.assign 1), .backends (.doTupleInsert 1 [7]), .indexInsert 1,
    .backends (.preCommit 1), .backends (.begin 2 false), .backends (.assign 2),
    .backends (.doTupleInsert 2 [7]), .indexInsert 2, .backends (.abort 1), .indexInsert 2,
    .indexInsert 2, .backends (.preCommit 2), .backends (.commit 2)]

theorem unique_waiting : ∃ index, run (id : Bytes → Bytes) start waiting = some index ∧ index.Unique id :=
  ⟨_, rfl, @unique_of_fits _ _ id waiting _ rfl (by decide) (by decide)⟩

/-! ## More rows than TIDs -/

/-- The number that a tuple holds. -/
def rowKey (tuple : Bytes) : Nat := Nat.ofDigits 256 (tuple.map UInt8.toNat)

def rowOf (n : Nat) : Bytes := (Nat.digits 256 n).map UInt8.ofNat

theorem rowKey_rowOf (n : Nat) : rowKey (rowOf n) = n := by
  have bytes : ((Nat.digits 256 n).map UInt8.ofNat).map UInt8.toNat = Nat.digits 256 n := by
    rw [List.map_map]
    refine (List.map_congr_left fun digit member => ?_).trans (List.map_id _)
    exact UInt8.toNat_ofNat_of_lt (Nat.digits_lt_base (by decide) member)
  rw [rowKey, rowOf, bytes, Nat.ofDigits_digits]

/-- The relation after the first rows of one INSERT. -/
def filledRel : Nat → Relation
  | 0 => Relation.empty
  | n + 1 => (filledRel n).doTupleInsert ⟨1, 3⟩ 0 (rowOf (n + 1))

def filledTrace : Nat → Trace
  | 0 => Trace.empty
  | n + 1 => (filledTrace n).doTupleInsert ⟨1, 3⟩ 0 (rowOf (n + 1)) (filledRel n).table.nextRowid

def filledEntries : Nat → List (IndexEntry Nat)
  | 0 => []
  | n + 1 => filledEntries n ++ [⟨n + 1, rowidToTid (n + 1)⟩]

def begun : Backends :=
  { Backends.start.setXact 1 ⟨false, 0, false⟩ with
    history := (History.start.setStatus 1 .running).assignXid 1 false }

def filled (n : Nat) : UniqueIndex Nat :=
  ⟨⟨{ begun with writer := some (1, filledRel n) }, Trace.empty, filledTrace n⟩, filledEntries n, [], 0,
    false⟩

theorem nextRowid_filledRel (n : Nat) : (filledRel n).table.nextRowid = n + 1 := by
  induction n with
  | zero => rfl
  | succ n ih =>
      have next : (filledRel (n + 1)).table.nextRowid = (filledRel n).table.nextRowid + 1 :=
        Table.nextRowid_insertRow _ _ _ _
      rw [next, ih]
      rfl

theorem key_le_of_mem_filledEntries {n : Nat} {entry : IndexEntry Nat}
    (member : entry ∈ filledEntries n) : entry.key ≤ n := by
  induction n with
  | zero => cases member
  | succ n ih =>
      rcases List.mem_append.mp member with old | new
      · exact Nat.le_succ_of_le (ih old)
      · rw [List.mem_singleton.mp new]

theorem equal_filledEntries (n : Nat) :
    (filledEntries n).filter (fun entry => entry.key = rowKey (rowOf (n + 1))) = [] := by
  refine List.filter_eq_nil_iff.mpr fun entry member => ?_
  have bound := key_le_of_mem_filledEntries member
  rw [rowKey_rowOf, decide_eq_true_eq]
  omega

theorem run_first :
    run rowKey start [.backends (.begin 1 false), .backends (.assign 1),
      .backends (.doTupleInsert 1 (rowOf 1)), .indexInsert 1] = some (filled 1) := by
  let written : UniqueIndex Nat := { filled 1 with entries := [], pending := [(rowOf 1, 1)] }
  have ran : run rowKey start [.backends (.begin 1 false), .backends (.assign 1),
      .backends (.doTupleInsert 1 (rowOf 1))] = some written := rfl
  refine Transition.run_append_iff.mpr ⟨written, ran, Transition.run_cons_iff.mpr ⟨_, ?_, rfl⟩⟩
  change some (written.indexInsert rowKey 1 _ _) = _
  have none : written.equal rowKey (rowOf 1) = [] := rfl
  rw [indexInsert_of_checked rowKey (congrArg (·[0]?) none), rowKey_rowOf]
  rfl

theorem run_next (n : Nat) :
    run rowKey (filled n) [.backends (.doTupleInsert 1 (rowOf (n + 1))), .indexInsert 1] =
      some (filled (n + 1)) := by
  let written : UniqueIndex Nat := { filled (n + 1) with
    entries := filledEntries n
    pending := [(rowOf (n + 1), (filledRel n).table.nextRowid)] }
  refine Transition.run_cons_iff.mpr ⟨written, rfl, Transition.run_cons_iff.mpr ⟨_, ?_, rfl⟩⟩
  have none : written.equal rowKey (rowOf (n + 1)) = [] := equal_filledEntries n
  change some (written.indexInsert rowKey 1 _ _) = _
  rw [indexInsert_of_checked rowKey (congrArg (·[0]?) none), rowKey_rowOf, nextRowid_filledRel]
  rfl

/-- One INSERT of rows with different keys. -/
def fill (first : Nat) : Nat → List UniqueEvent
  | 0 => []
  | count + 1 =>
      [.backends (.doTupleInsert 1 (rowOf (first + 1))), .indexInsert 1] ++ fill (first + 1) count

theorem run_fill (first count : Nat) :
    run rowKey (filled first) (fill first count) = some (filled (first + count)) := by
  induction count generalizing first with
  | zero => rfl
  | succ count ih =>
      have rest := ih (first + 1)
      rw [Nat.add_assoc, Nat.add_comm 1] at rest
      exact Transition.run_append_iff.mpr ⟨_, run_next first, rest⟩

def deletedRel (n : Nat) : Relation := ((filledRel n).tupleDelete ⟨1, 3⟩ 1 1).1

def lastRel (n : Nat) : Relation := (deletedRel n).doTupleInsert ⟨1, 3⟩ 2 (rowOf (n + 1))

def lastTrace (n : Nat) (rowid : Int) : Trace :=
  ((filledTrace n).tupleDelete ⟨1, 3⟩ 1 1 ((filledRel n).hits 1)).doTupleInsert ⟨1, 3⟩ 2 (rowOf (n + 1))
    rowid

def last (n : Nat) : UniqueIndex Nat :=
  ⟨⟨{ (begun.setXact 1 ⟨false, 1, false⟩).setXact 1 ⟨false, 2, false⟩ with
        snaps := [⟨0, 1, begun.history, 1, false⟩], writer := some (1, lastRel n) },
      Trace.empty, lastTrace n (n + 1)⟩, filledEntries (n + 1), [], 0, false⟩

theorem nextRowid_deletedRel (n : Nat) : (deletedRel n).table.nextRowid = n + 1 := by
  rw [deletedRel, Relation.tupleDelete_table, Table.nextRowid_stampRow]
  exact nextRowid_filledRel n

def replaceFirst (n : Nat) : List UniqueEvent :=
  [.backends (.commandCounterIncrement 1), .backends (.takeSnapshot 1 0),
    .backends (.tupleDelete 1 0 1), .backends (.commandCounterIncrement 1),
    .backends (.doTupleInsert 1 (rowOf (n + 1))), .indexInsert 1]

theorem run_replaceFirst (n : Nat) : run rowKey (filled n) (replaceFirst n) = some (last n) := by
  let written : UniqueIndex Nat := { last n with
    lineage := { (last n).lineage with work := lastTrace n (deletedRel n).table.nextRowid }
    entries := filledEntries n
    pending := [(rowOf (n + 1), (deletedRel n).table.nextRowid)] }
  have ran : run rowKey (filled n) [.backends (.commandCounterIncrement 1),
      .backends (.takeSnapshot 1 0), .backends (.tupleDelete 1 0 1),
      .backends (.commandCounterIncrement 1), .backends (.doTupleInsert 1 (rowOf (n + 1)))] =
      some written := rfl
  refine Transition.run_append_iff.mpr ⟨written, ran, Transition.run_cons_iff.mpr ⟨_, ?_, rfl⟩⟩
  have none : written.equal rowKey (rowOf (n + 1)) = [] := equal_filledEntries n
  change some (written.indexInsert rowKey 1 _ _) = _
  rw [indexInsert_of_checked rowKey (congrArg (·[0]?) none), rowKey_rowOf]
  simp only [written, nextRowid_deletedRel]
  rfl

/-- The cluster when the second transaction has its xid. -/
def secondRunning : History :=
  ((begun.history.finish 1 .committed).setStatus 2 .running).assignXid 2 false

/-- The second transaction has inserted a row with the key of the last one. -/
def doubledRel (n : Nat) : Relation := (lastRel n).doTupleInsert ⟨2, 4⟩ 0 (rowOf (n + 1))

def doubled (n : Nat) : UniqueIndex Nat :=
  ⟨⟨⟨secondRunning, ((((begun.setXact 1 ⟨false, 1, false⟩).setXact 1 ⟨false, 2, false⟩).setXact 1
          ⟨true, 2, false⟩).setXact 2 ⟨false, 0, false⟩).xact, [], [], lastRel n,
        some (2, doubledRel n)⟩,
      lastTrace n (n + 1), (lastTrace n (n + 1)).doTupleInsert ⟨2, 4⟩ 0 (rowOf (n + 1))
        (lastRel n).table.nextRowid⟩,
    filledEntries (n + 1) ++ [⟨n + 1, rowidToTid (lastRel n).table.nextRowid⟩], [], 0, false⟩

theorem first_mem_filledRel (n : Nat) :
    (⟨⟨1, 3#32, 0#32, 0#32, 0#32⟩, rowOf 1⟩ : StoredRow) ∈ (filledRel (n + 1)).table.rows := by
  induction n with
  | zero => exact .head _
  | succ n ih => exact List.mem_append_left _ ih

variable {n : Nat}

/-- The TID of the last row leads to the first one, which is dead. -/
theorem checkUnique_doubledRel (wraps : tidToRowid (rowidToTid ((n + 1 : Nat) + 1)) = 1) :
    checkUnique (secondRunning.xacts 2) (doubledRel (n + 1)).table (rowidToTid ((n + 1 : Nat) + 1)) =
      .passes := by
  let row : StoredRow := ⟨⟨1, 3#32, 0#32, 3#32, 1#32⟩, rowOf 1⟩
  have deleted : row ∈ (deletedRel (n + 1)).table.rows := by
    rw [deletedRel, Relation.tupleDelete_table]
    exact List.mem_map.mpr ⟨_, first_mem_filledRel n, rfl⟩
  have member : row ∈ (doubledRel (n + 1)).table.rows :=
    List.mem_append_left _ (List.mem_append_left _ deleted)
  have fetched : (doubledRel (n + 1)).table.selectOne 1 = some row := Table.selectOne_of_mem member
  rw [checkUnique, wraps, fetched]
  rfl

theorem equal_last (n : Nat) :
    (filledEntries (n + 1)).filter (fun entry => entry.key = rowKey (rowOf (n + 1))) =
      [⟨n + 1, rowidToTid (n + 1)⟩] := by
  rw [filledEntries, List.filter_append, equal_filledEntries, rowKey_rowOf]
  simp

def insertAgain (n : Nat) : List UniqueEvent :=
  [.backends (.preCommit 1), .backends (.commit 1), .backends (.begin 2 false), .backends (.assign 2),
    .backends (.doTupleInsert 2 (rowOf (n + 1))), .indexInsert 2, .indexInsert 2]

theorem run_insertAgain (wraps : tidToRowid (rowidToTid ((n + 1 : Nat) + 1)) = 1) :
    run rowKey (last (n + 1)) (insertAgain (n + 1)) = some (doubled (n + 1)) := by
  let written : UniqueIndex Nat := { doubled (n + 1) with
    entries := filledEntries (n + 1 + 1)
    pending := [(rowOf (n + 1 + 1), (lastRel (n + 1)).table.nextRowid)] }
  have ran : run rowKey (last (n + 1)) [.backends (.preCommit 1), .backends (.commit 1),
      .backends (.begin 2 false), .backends (.assign 2),
      .backends (.doTupleInsert 2 (rowOf (n + 1 + 1)))] = some written := rfl
  have equal (count : Nat) : ({ written with checked := count }).equal rowKey (rowOf (n + 1 + 1)) =
      [⟨n + 1 + 1, rowidToTid ((n + 1 : Nat) + 1)⟩] := equal_last (n + 1)
  refine Transition.run_append_iff.mpr ⟨written, ran, Transition.run_cons_iff.mpr
    ⟨{ written with checked := 1 }, ?_, Transition.run_cons_iff.mpr ⟨_, ?_, rfl⟩⟩⟩
  · have next : (written.equal rowKey (rowOf (n + 1 + 1)))[0]? =
        some ⟨n + 1 + 1, rowidToTid ((n + 1 : Nat) + 1)⟩ := congrArg (·[0]?) (equal 0)
    exact congrArg some (indexInsert_of_passes rowKey next (checkUnique_doubledRel wraps))
  · change some (({ written with checked := 1 }).indexInsert rowKey 2 _ _) = _
    rw [indexInsert_of_checked rowKey (congrArg (·[1]?) (equal 1)), rowKey_rowOf]
    rfl

/-- The first transaction fills the file up to the last rowid that fits a TID, deletes its
first row and inserts one more, and the second transaction inserts that one's key again. -/
def overflow (n : Nat) : List UniqueEvent :=
  [.backends (.begin 1 false), .backends (.assign 1), .backends (.doTupleInsert 1 (rowOf 1)),
      .indexInsert 1] ++
    (fill 1 n ++ (replaceFirst (n + 1) ++ (insertAgain (n + 1) ++
      [.backends (.preCommit 2), .backends (.commit 2)])))

theorem run_fill_one (n : Nat) : run rowKey (filled 1) (fill 1 n) = some (filled (n + 1)) :=
  Nat.add_comm 1 n ▸ run_fill 1 n

theorem not_unique_overflow (wraps : tidToRowid (rowidToTid ((n + 1 : Nat) + 1)) = 1) :
    ∃ index, run rowKey start (overflow n) = some index ∧ ¬ index.Unique rowKey := by
  obtain ⟨index, finished, file, free, history⟩ : ∃ index, run rowKey (doubled (n + 1))
      [.backends (.preCommit 2), .backends (.commit 2)] = some index ∧
        index.lineage.backends.file = doubledRel (n + 1) ∧ index.lineage.backends.writer = none ∧
          index.lineage.backends.history = secondRunning.finish 2 .committed := ⟨_, rfl, rfl, rfl, rfl⟩
  have reached : run rowKey start (overflow n) = some index :=
    Transition.run_append_iff.mpr ⟨_, run_first, Transition.run_append_iff.mpr
      ⟨_, run_fill_one n, Transition.run_append_iff.mpr ⟨_, run_replaceFirst (n + 1),
        Transition.run_append_iff.mpr ⟨_, run_insertAgain wraps, finished⟩⟩⟩⟩
  refine ⟨index, reached, fun unique => ?_⟩
  have view : index.lineage.backends.view 0 = doubledRel (n + 1) := by
    rw [Backends.view_of_free free, file]
  have apart := unique 0 0
  rw [view, history] at apart
  have same := apart _ (List.mem_append_left _ (List.mem_append_right _ List.mem_cons_self))
    _ (List.mem_append_right _ List.mem_cons_self) ⟨rfl, rfl⟩ ⟨rfl, rfl⟩ rfl
  have later : (lastRel (n + 1)).table.nextRowid = (deletedRel (n + 1)).table.nextRowid + 1 :=
    Table.nextRowid_insertRow _ _ _ _
  have rowids : (deletedRel (n + 1)).table.nextRowid = (lastRel (n + 1)).table.nextRowid :=
    congrArg (fun row : StoredRow => row.rowid) same
  omega

def assigns : UniqueEvent → Bool
  | .backends (.assign _) => true
  | _ => false

theorem meets_windowed {events : List UniqueEvent}
    (calm : events.any assigns = false) (index : UniqueIndex Nat) :
    Transition.Meets (step rowKey) Windowed index events := by
  induction events generalizing index with
  | nil => trivial
  | cons event rest ih =>
      obtain ⟨first, calm⟩ := Bool.or_eq_false_iff.mp calm
      refine ⟨?_, fun next _ => ih calm next⟩
      cases event with
      | indexInsert txn => trivial
      | backends event =>
          cases event with
          | assign txn => cases first
          | _ => trivial

theorem calm_fill (first count : Nat) : (fill first count).any assigns = false := by
  induction count generalizing first with
  | zero => rfl
  | succ count ih =>
      rw [fill, List.any_append, ih (first + 1)]
      rfl

theorem windowed_overflow : Transition.Meets (step rowKey) Windowed start (overflow n) := by
  obtain ⟨opened, begins, firstXid⟩ : ∃ opened, run rowKey start [.backends (.begin 1 false)] =
      some opened ∧ opened.Windowed (.backends (.assign 1)) := ⟨_, rfl, by decide⟩
  obtain ⟨middle, commits, history, snaps⟩ : ∃ middle, run rowKey (last (n + 1))
      [.backends (.preCommit 1), .backends (.commit 1), .backends (.begin 2 false)] = some middle ∧
        middle.lineage.backends.history =
          (begun.history.finish 1 .committed).setStatus 2 .running ∧
        middle.lineage.backends.snaps = [] := ⟨_, rfl, rfl, rfl⟩
  have secondXid : middle.Windowed (.backends (.assign 2)) := by
    change advanceXid middle.lineage.backends.history.nextXid ≤
      middle.lineage.backends.history.xmin + 2 ^ 31 ∧ ∀ snap ∈ middle.lineage.backends.snaps, _
    rw [history, snaps]
    exact ⟨by decide, nofun⟩
  refine (Transition.meets_append_iff run_first).mpr ⟨?_, ?_⟩
  · exact (Transition.meets_append_iff begins).mpr ⟨meets_windowed rfl _, firstXid, fun _ _ => meets_windowed rfl _⟩
  · refine (Transition.meets_append_iff (run_fill_one n)).mpr ⟨meets_windowed (calm_fill 1 n) _, ?_⟩
    refine (Transition.meets_append_iff (run_replaceFirst (n + 1))).mpr ⟨meets_windowed rfl _, ?_⟩
    exact (Transition.meets_append_iff commits).mpr ⟨meets_windowed rfl _, secondXid, fun _ _ => meets_windowed rfl _⟩

/-- Beyond `2 ^ 40` rows a TID leads to another row, and the check passes over a live one. -/
theorem doubled_beyond_tids :
    Transition.Meets (step rowKey) Windowed start (overflow (2 ^ 40 - 1)) ∧
      ∃ index, run rowKey start (overflow (2 ^ 40 - 1)) = some index ∧ ¬ index.Unique rowKey :=
  ⟨windowed_overflow, not_unique_overflow (by decide)⟩

end UniqueIndex

end SqliteHeap
