import SqliteHeap.SnapshotIsolation

/-! ANALYZE beside the backends. `acquire_sample_rows` asks for the blocks that the relation's
size promises, and in a block for rows until there are none; other transactions write between
two of its calls. The access method counts a row as live if it has no `xmax`. -/

set_option autoImplicit false

namespace SqliteHeap

open Versions

def blcksz : Nat := 8192

/-- `relation_size`: the main fork is one block, and the other forks are empty. -/
def relationSize (mainFork : Bool) : Nat := if mainFork then blcksz else 0

/-- The blocks that the sampler reads of a relation with fewer of them than it wants rows. -/
def readStream : List Nat := List.range (relationSize true / blcksz)

/-- The scan of ANALYZE, with its `ReadStream` and the counts that it reports. -/
structure AnalyzeScan where
  cursor : SqliteCursor
  stream : List Nat
  liverows : Nat
  deadrows : Nat

namespace AnalyzeScan

def begin : AnalyzeScan := ⟨SqliteCursor.alloc, readStream, 0, 0⟩

def scanAnalyzeNextBlock (scan : AnalyzeScan) : Bool × AnalyzeScan :=
  match scan.stream with
  | [] => (false, scan)
  | _ :: rest => (true, { scan with stream := rest, cursor := { scan.cursor with pos := 0 } })

def advance (scan : AnalyzeScan) : AnalyzeScan :=
  { scan with cursor := { scan.cursor with pos := scan.cursor.pos + 1 } }

/-- The loop of `scan_analyze_next_tuple` over the rows from the position on. -/
def nextLive : List StoredRow → AnalyzeScan → Option StoredRow × AnalyzeScan
  | [], scan => (none, scan)
  | row :: rest, scan =>
      if row.xmax = 0#32 then (some row, { scan.advance with liverows := scan.liverows + 1 })
      else nextLive rest { scan.advance with deadrows := scan.deadrows + 1 }

def scanAnalyzeNextTuple (table : Table) (scan : AnalyzeScan) : Option StoredRow × AnalyzeScan :=
  let loaded := { scan with cursor := scan.cursor.ensureRowsLoaded table }
  nextLive (loaded.cursor.rows.drop loaded.cursor.pos) loaded

end AnalyzeScan

/-- What `acquire_sample_rows` has done. -/
structure Analysis where
  txn : TxnId
  scan : AnalyzeScan
  haveBlock : Bool
  /-- The relation as it was when its rows were loaded. -/
  source : Relation
  /-- The rows that it may take into its sample. -/
  offered : List StoredRow
  calls : Nat
  finished : Bool

namespace Analysis

def start (txn : TxnId) (rel : Relation) : Analysis := ⟨txn, .begin, false, rel, [], 0, false⟩

/-- The next callback of `acquire_sample_rows`. -/
def acquire (rel : Relation) (analysis : Analysis) : Analysis :=
  if analysis.haveBlock then
    let (found, scan) := analysis.scan.scanAnalyzeNextTuple rel.table
    { analysis with
      scan := scan
      haveBlock := found.isSome
      source := if analysis.scan.cursor.rowsLoaded then analysis.source else rel
      offered := analysis.offered ++ found.toList
      calls := analysis.calls + 1 }
  else
    let (more, scan) := analysis.scan.scanAnalyzeNextBlock
    { analysis with scan := scan, haveBlock := more, calls := analysis.calls + 1, finished := !more }

end Analysis

structure Analyzing where
  backends : Backends
  analysis : Option Analysis

inductive AnalyzeEvent where
  | backends (event : BackendsEvent)
  | analyze (txn : TxnId)
  | acquire

namespace Analyzing

def start : Analyzing := ⟨Backends.start, none⟩

def step (state : Analyzing) : AnalyzeEvent → Option Analyzing
  | .backends event => (state.backends.step event).map fun backends => { state with backends := backends }
  | .analyze txn =>
      if state.backends.active txn then
        some { state with analysis := some (.start txn (state.backends.view txn)) }
      else none
  | .acquire =>
      match state.analysis with
      | none => none
      | some analysis =>
          if analysis.finished then none
          else some { state with analysis := some (analysis.acquire (state.backends.view analysis.txn)) }

def run : Analyzing → List AnalyzeEvent → Option Analyzing := Transition.run step

def Allowed (state : Analyzing) : AnalyzeEvent → Prop
  | .backends event => state.backends.Allowed event
  | .analyze _ | .acquire => True

instance (state : Analyzing) : DecidablePred state.Allowed
  | .backends event => inferInstanceAs (Decidable (state.backends.Allowed event))
  | .analyze _ | .acquire => isTrue trivial

end Analyzing

/-! ## Rows without `xmax` -/

namespace Relation

variable {rel : Relation}

def liveRow (row : StoredRow) : Bool := row.xmax = 0#32

end Relation

/-! ## What ANALYZE has counted -/

namespace AnalyzeScan

variable {scan after : AnalyzeScan} {found : Option StoredRow}

/-- A call passes over dead rows, up to a live one or to the end. -/
theorem nextLive_spec {rest : List StoredRow} (next : nextLive rest scan = (found, after)) :
    ∃ passed ≤ rest.length,
      after.cursor = { scan.cursor with pos := scan.cursor.pos + passed } ∧ after.stream = scan.stream ∧
      (rest.take passed).filter Relation.liveRow = found.toList ∧
      after.liverows = scan.liverows + found.toList.length ∧
      after.deadrows = scan.deadrows + (rest.take passed).countP (fun row => !Relation.liveRow row) ∧
      (found = none → passed = rest.length) := by
  induction rest generalizing scan with
  | nil =>
      cases next
      exact ⟨0, Nat.le_refl 0, rfl, rfl, rfl, rfl, rfl, fun _ => rfl⟩
  | cons row rest ih =>
      rw [nextLive] at next
      split at next
      · next live =>
          cases next
          have own : Relation.liveRow row = true := decide_eq_true live
          refine ⟨1, Nat.succ_le_succ (Nat.zero_le _), rfl, rfl, ?_, rfl, ?_, nofun⟩
          · simp [own]
          · simp [advance, own]
      · next dead =>
          have own : Relation.liveRow row = false := decide_eq_false dead
          obtain ⟨passed, few, cursor, stream, kept, live, counted, ended⟩ := ih next
          refine ⟨passed + 1, Nat.succ_le_succ few, ?_, stream, ?_, live, ?_, fun none => ?_⟩
          · rw [cursor]
            simp only [advance, SqliteCursor.mk.injEq, true_and]
            omega
          · simpa [own] using kept
          · rw [counted, List.take_succ_cons, List.countP_cons]
            simp only [own, Bool.not_false, ↓reduceIte]
            omega
          · rw [ended none, List.length_cons]

end AnalyzeScan

namespace Analysis

variable {analysis : Analysis} {rel : Relation}

/-- Where `acquire_sample_rows` is: before the block, in it or after it. -/
inductive Phase (analysis : Analysis) : Prop where
  | before (haveBlock : analysis.haveBlock = false) (stream : analysis.scan.stream = [0])
      (unfinished : analysis.finished = false) (calls : analysis.calls = 0)
      (cursor : analysis.scan.cursor = SqliteCursor.alloc)
  | within (haveBlock : analysis.haveBlock = true) (stream : analysis.scan.stream = [])
      (unfinished : analysis.finished = false) (calls : analysis.calls = analysis.offered.length + 1)
  | behind (haveBlock : analysis.haveBlock = false) (stream : analysis.scan.stream = [])
      (calls : analysis.calls = analysis.offered.length + if analysis.finished then 3 else 2)
      (loaded : analysis.scan.cursor.rowsLoaded = true)
      (all : analysis.scan.cursor.rows.length ≤ analysis.scan.cursor.pos)

/-- The counts and the rows offered are those of the rows before the position. -/
structure Counted (analysis : Analysis) : Prop where
  rows : analysis.scan.cursor.rowsLoaded = true → analysis.scan.cursor.rows = analysis.source.table.rows
  offered : analysis.offered =
    (analysis.scan.cursor.rows.take analysis.scan.cursor.pos).filter Relation.liveRow
  live : analysis.scan.liverows = analysis.offered.length
  dead : analysis.scan.deadrows = (analysis.scan.cursor.rows.take analysis.scan.cursor.pos).countP
    fun row => !Relation.liveRow row
  unread : analysis.scan.cursor.rowsLoaded = false → analysis.scan.cursor = SqliteCursor.alloc
  phase : analysis.Phase

theorem counted_start (txn : TxnId) (rel : Relation) : (start txn rel).Counted where
  rows := nofun
  offered := rfl
  live := rfl
  dead := rfl
  unread _ := rfl
  phase := .before rfl rfl rfl rfl rfl

theorem Counted.nextBlock (counted : analysis.Counted) (haveBlock : analysis.haveBlock = false)
    (unfinished : analysis.finished = false) : (analysis.acquire rel).Counted := by
  obtain ⟨txn, ⟨cursor, stream, live, dead⟩, inBlock, source, offered, calls, finished⟩ := analysis
  dsimp only at haveBlock unfinished
  subst haveBlock unfinished
  cases counted.phase with
  | within inBlock => cases inBlock
  | before _ stream _ calls cursor =>
      dsimp only at stream calls cursor
      subst stream calls cursor
      obtain rfl : offered = [] := counted.offered
      exact ⟨counted.rows, counted.offered, counted.live, counted.dead, counted.unread, .within rfl rfl rfl rfl⟩
  | behind _ stream calls' loaded all =>
      dsimp only at stream
      subst stream
      obtain rfl : calls = offered.length + 2 := calls'
      exact ⟨counted.rows, counted.offered, counted.live, counted.dead, counted.unread,
        .behind rfl rfl rfl loaded all⟩

/-- The rows are loaded at the first call for one. -/
theorem Counted.ensureRowsLoaded (counted : analysis.Counted) (rel : Relation) :
    let cursor := analysis.scan.cursor.ensureRowsLoaded rel.table
    let source := if analysis.scan.cursor.rowsLoaded then analysis.source else rel
    cursor.rowsLoaded = true ∧ cursor.rows = source.table.rows ∧ cursor.pos = analysis.scan.cursor.pos ∧
      analysis.offered = (cursor.rows.take cursor.pos).filter Relation.liveRow ∧
      analysis.scan.deadrows = (cursor.rows.take cursor.pos).countP fun row => !Relation.liveRow row := by
  cases loaded : analysis.scan.cursor.rowsLoaded with
  | true =>
      have same : analysis.scan.cursor.ensureRowsLoaded rel.table = analysis.scan.cursor := by
        simp [SqliteCursor.ensureRowsLoaded, loaded]
      dsimp only
      rw [same]
      exact ⟨loaded, counted.rows loaded, rfl, counted.offered, counted.dead⟩
  | false =>
      have fresh := counted.unread loaded
      have offered := counted.offered
      have dead := counted.dead
      rw [fresh] at offered dead ⊢
      exact ⟨rfl, rfl, rfl, offered, dead⟩

theorem Counted.nextTuple (counted : analysis.Counted) (haveBlock : analysis.haveBlock = true) :
    (analysis.acquire rel).Counted := by
  have entered := counted.ensureRowsLoaded rel
  have live := counted.live
  obtain ⟨stream, unfinished, calls⟩ : analysis.scan.stream = [] ∧ analysis.finished = false ∧
      analysis.calls = analysis.offered.length + 1 := by
    cases counted.phase with
    | within _ stream unfinished calls => exact ⟨stream, unfinished, calls⟩
    | before outside | behind outside =>
        rw [haveBlock] at outside
        cases outside
  rw [acquire, if_pos haveBlock]
  unfold AnalyzeScan.scanAnalyzeNextTuple
  generalize analysis.scan.cursor.ensureRowsLoaded rel.table = cursor at entered
  generalize (if analysis.scan.cursor.rowsLoaded then analysis.source else rel) = source at entered ⊢
  obtain ⟨loaded, rows, _, offered, dead⟩ := entered
  dsimp only
  generalize next : AnalyzeScan.nextLive (cursor.rows.drop cursor.pos) { analysis.scan with cursor := cursor } =
    result
  obtain ⟨found, after⟩ := result
  obtain ⟨passed, few, moved, stream', kept, live', dead', ended⟩ := AnalyzeScan.nextLive_spec next
  dsimp only at moved stream' live' dead'
  have taken : cursor.rows.take (cursor.pos + passed) =
      cursor.rows.take cursor.pos ++ (cursor.rows.drop cursor.pos).take passed := List.take_add
  refine ⟨fun _ => ?_, ?_, ?_, ?_, fun unread => ?_, ?_⟩
  · change after.cursor.rows = _
    rw [moved]
    exact rows
  · change analysis.offered ++ found.toList = (after.cursor.rows.take after.cursor.pos).filter _
    rw [moved]
    change _ = (cursor.rows.take (cursor.pos + passed)).filter _
    rw [taken, List.filter_append, ← offered, kept]
  · change after.liverows = (analysis.offered ++ found.toList).length
    rw [live', live, List.length_append]
  · change after.deadrows = (after.cursor.rows.take after.cursor.pos).countP _
    rw [moved]
    change _ = (cursor.rows.take (cursor.pos + passed)).countP _
    rw [taken, List.countP_append, ← dead, dead']
  · change after.cursor.rowsLoaded = false at unread
    rw [moved, loaded] at unread
    cases unread
  · cases found with
    | some row =>
        refine .within rfl (stream'.trans stream) unfinished ?_
        change analysis.calls + 1 = (analysis.offered ++ [row]).length + 1
        rw [calls, List.length_append]
        rfl
    | none =>
        refine .behind rfl (stream'.trans stream) ?_ ?_ ?_
        · change analysis.calls + 1 = (analysis.offered ++ []).length + if analysis.finished then 3 else 2
          rw [calls, unfinished, List.append_nil]
          rfl
        · change after.cursor.rowsLoaded = true
          rw [moved]
          exact loaded
        · change after.cursor.rows.length ≤ after.cursor.pos
          rw [moved, ended rfl, List.length_drop]
          change cursor.rows.length ≤ cursor.pos + (cursor.rows.length - cursor.pos)
          omega

theorem Counted.acquire (counted : analysis.Counted) (unfinished : analysis.finished = false)
    (rel : Relation) : (analysis.acquire rel).Counted := by
  cases haveBlock : analysis.haveBlock with
  | true => exact counted.nextTuple haveBlock
  | false => exact counted.nextBlock haveBlock unfinished

/-- At the end every row of the relation has been counted. -/
theorem Counted.finished (counted : analysis.Counted) (finished : analysis.finished = true) :
    analysis.offered = analysis.source.table.rows.filter Relation.liveRow ∧
      analysis.scan.liverows + analysis.scan.deadrows = analysis.source.table.rows.length := by
  obtain ⟨loaded, all⟩ : analysis.scan.cursor.rowsLoaded = true ∧
      analysis.scan.cursor.rows.length ≤ analysis.scan.cursor.pos := by
    cases counted.phase with
    | before _ _ unfinished | within _ _ unfinished =>
        rw [finished] at unfinished
        cases unfinished
    | behind _ _ _ loaded all => exact ⟨loaded, all⟩
  have offered := counted.offered
  have dead := counted.dead
  rw [List.take_of_length_le all, counted.rows loaded] at offered dead
  refine ⟨offered, ?_⟩
  rw [counted.live, offered, dead, ← List.countP_eq_length_filter]
  have split : analysis.source.table.rows.length = _ := List.length_eq_countP_add_countP Relation.liveRow
  simpa using split.symm

end Analysis

/-! ## In every run -/

namespace Analyzing

variable {state next : Analyzing} {analysis : Analysis}

structure Sound (analysis : Analysis) : Prop where
  counted : analysis.Counted
  stores : analysis.source.Stores
  small : SmallXids analysis.source.log

structure Inv (state : Analyzing) : Prop where
  backends : state.backends.Inv
  sound : ∀ analysis ∈ state.analysis, Sound analysis

theorem Inv.start : Analyzing.start.Inv := ⟨.start, fun _ running => by cases running⟩

theorem source_acquire (analysis : Analysis) (rel : Relation) :
    (analysis.acquire rel).source = analysis.source ∨ (analysis.acquire rel).source = rel := by
  unfold Analysis.acquire
  split
  · dsimp only
    split
    · exact .inl rfl
    · exact .inr rfl
  · exact .inl rfl

inductive Does (state : Analyzing) : AnalyzeEvent → Analyzing → Prop where
  | backends {event : BackendsEvent} {backends : Backends}
      (stepped : state.backends.step event = some backends) :
      Does state (.backends event) { state with backends := backends }
  | analyze (txn : TxnId) :
      Does state (.analyze txn)
        { state with analysis := some (.start txn (state.backends.view txn)) }
  | acquire {analysis : Analysis} (running : state.analysis = some analysis)
      (unfinished : analysis.finished = false) :
      Does state .acquire
        { state with analysis := some (analysis.acquire (state.backends.view analysis.txn)) }

theorem does_of_step {event : AnalyzeEvent} (stepped : state.step event = some next) :
    state.Does event next := by
  cases event with
  | backends event =>
      obtain ⟨backends, ran, rfl⟩ := Option.map_eq_some_iff.mp stepped
      exact .backends ran
  | analyze txn =>
      obtain ⟨_, same⟩ := Option.ite_none_right_eq_some.mp stepped
      exact Option.some.inj same ▸ .analyze txn
  | acquire =>
      cases running : state.analysis with
      | none => simp [step, running] at stepped
      | some analysis =>
          simp only [step, running] at stepped
          obtain ⟨unfinished, same⟩ := Option.ite_none_left_eq_some.mp stepped
          exact Option.some.inj same ▸ .acquire running (Bool.eq_false_iff.mpr unfinished)

theorem stores_view (inv : state.Inv) (txn : TxnId) :
    (state.backends.view txn).Stores ∧ SmallXids (state.backends.view txn).log := by
  have sound := inv.backends.sound_view txn
  exact ⟨sound.stores, .of_known inv.backends.postgres sound.known⟩

theorem Inv.step (inv : state.Inv) {event : AnalyzeEvent} (allowed : state.Allowed event)
    (stepped : state.step event = some next) : next.Inv := by
  cases does_of_step stepped with
  | backends ran => exact ⟨inv.backends.step (inv.backends.steps_of_step allowed ran), inv.sound⟩
  | analyze txn =>
      obtain ⟨stores, small⟩ := stores_view inv txn
      refine ⟨inv.backends, fun analysis same => ?_⟩
      obtain rfl := Option.some.inj same
      exact ⟨Analysis.counted_start _ _, stores, small⟩
  | @acquire analysis running unfinished =>
      obtain ⟨counted, stores, small⟩ := inv.sound analysis running
      obtain ⟨stores', small'⟩ := stores_view inv analysis.txn
      refine ⟨inv.backends, fun acquired same => ?_⟩
      obtain rfl := Option.some.inj same
      refine ⟨counted.acquire unfinished _, ?_, ?_⟩
      · cases source_acquire analysis (state.backends.view analysis.txn) with
        | inl same =>
            rw [same]
            exact stores
        | inr same =>
            rw [same]
            exact stores'
      · cases source_acquire analysis (state.backends.view analysis.txn) with
        | inl same =>
            rw [same]
            exact small
        | inr same =>
            rw [same]
            exact small'

/-- The rows that this ANALYZE reads are those of the relation at a moment when it has begun and
not come to its end. -/
def ReadDuring (events : List AnalyzeEvent) (analysis : Analysis) : Prop :=
  ∃ before rest middle running, events = before ++ rest ∧ (∀ txn, .analyze txn ∉ rest) ∧
    run start before = some middle ∧ middle.analysis = some running ∧ running.txn = analysis.txn ∧
    running.finished = false ∧ middle.backends.view analysis.txn = analysis.source

theorem ReadDuring.later {events : List AnalyzeEvent} {later : Analysis} (read : ReadDuring events analysis)
    {event : AnalyzeEvent} (same : ∀ txn, event ≠ .analyze txn) (txn : later.txn = analysis.txn)
    (source : later.source = analysis.source) : ReadDuring (events ++ [event]) later := by
  obtain ⟨before, rest, middle, running, rfl, own, reached, found, owner, unfinished, view⟩ := read
  refine ⟨before, rest ++ [event], middle, running, List.append_assoc .., fun txn => ?_, reached, found,
    owner.trans txn.symm, unfinished, ?_⟩
  · rw [List.mem_append, List.mem_singleton, not_or]
    exact ⟨own txn, (same txn).symm⟩
  · rw [txn, source]
    exact view

end Analyzing

end SqliteHeap
