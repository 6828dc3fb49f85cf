import SqliteHeap.IndexBuild
import SqliteHeap.Lib.Pool

/-! Parallel scans and parallel index builds. The participants hold a pointer to a shared
descriptor, but `scan_getnextslot` and `build_index` step over all rows of the relation
without a look at it. Each process has connections of its own: the leader reads what its
transaction has written, a worker the file as last committed. Neither changes meanwhile. In a
scan the leader may take part or not; in a build Postgres has it take part. -/

set_option autoImplicit false

namespace SqliteHeap

open Pull

inductive Process where
  | leader | worker
deriving DecidableEq

/-- The relation as the connections of the processes read it. -/
structure Connections where
  /-- With the uncommitted changes of the leader. -/
  own : Table
  file : Table

def Connections.read (conns : Connections) : Process → Table
  | .leader => conns.own
  | .worker => conns.file

def participants (leads : Bool) (workers : Nat) : List Process :=
  (if leads then [.leader] else []) ++ List.replicate workers .worker

/-- The participants of a parallel scan. What `parallelscan_initialize` writes in the
descriptor is up to Postgres. -/
structure ParallelScan (Desc : Type) where
  pscan : Desc
  scans : Pool (Process × SqliteScanState) StoredRow

namespace ParallelScan

variable {Desc Key : Type}

/-- `parallelscan_initialize`, and `scan_begin` in every participant. -/
def begin (parallelscanInitialize : Table → Desc) (conns : Connections) (leads : Bool) (workers : Nat) :
    ParallelScan Desc :=
  ⟨parallelscanInitialize conns.own,
    Pool.start ((participants leads workers).map fun process => (process, SqliteScanState.alloc))⟩

/-- `scan_getnextslot` in one process. -/
def getnext (visible : StoredHeader → Bool) (conns : Connections) :
    Process × SqliteScanState → Option StoredRow × (Process × SqliteScanState) :=
  Pool.ofKind fun process scan => scan.scanGetnextslot visible (conns.read process)

/-- A participant calls `scan_getnextslot`. -/
def step (visible : StoredHeader → Bool) (conns : Connections) (parallel : ParallelScan Desc)
    (participant : Nat) : Option (ParallelScan Desc) :=
  (parallel.scans.pull (getnext visible conns) participant).map fun scans => { parallel with scans := scans }

def run (visible : StoredHeader → Bool) (conns : Connections) :
    ParallelScan Desc → List Nat → Option (ParallelScan Desc) :=
  Transition.run (step visible conns)

/-- The rows that the loop of `build_index` still has to see; none before `select_all`. -/
abbrev BuildState := Option (List StoredRow)

/-- The loop of `build_index` up to its next call of the callback. -/
def nextEntry (key : Bytes → Key) : List StoredRow → Option (IndexEntry Key) × List StoredRow
  | [] => (none, [])
  | row :: rest =>
      if row.xmax ≠ 0#32 then nextEntry key rest
      else (some ⟨key row.tuple, rowidToTid row.rowid⟩, rest)

/-- A participant of a parallel build between two calls of the callback. -/
def buildNext (key : Bytes → Key) (table : Table) (state : BuildState) :
    Option (IndexEntry Key) × BuildState :=
  let (entry, rest) := nextEntry key (state.getD table.selectAll)
  (entry, some rest)

/-- `build_index` in one process. -/
def build (key : Bytes → Key) (conns : Connections) :
    Process × BuildState → Option (IndexEntry Key) × (Process × BuildState) :=
  Pool.ofKind fun process => buildNext key (conns.read process)

def beginBuild (workers : Nat) : Pool (Process × BuildState) (IndexEntry Key) :=
  Pool.start ((participants true workers).map fun process => (process, none))

variable {visible : StoredHeader → Bool} {conns : Connections} {table : Table} {key : Bytes → Key}

theorem scanGetnextslot_remaining :
    Remaining (fun scan => scan.scanGetnextslot visible table)
      (SqliteScanState.rest visible table) := by
  intro scan
  cases stepped : scan.scanGetnextslot visible table with
  | mk found after =>
      obtain ⟨items, ended, _⟩ := SqliteScanState.scanGetnextslot_spec stepped
      simp only [stepped]
      cases found with
      | none => exact ended rfl
      | some row => exact items

/-- The entries that the loop still makes. -/
def entriesOf (key : Bytes → Key) (table : Table) (state : BuildState) : List (IndexEntry Key) :=
  ((state.getD table.rows).filter fun row => row.xmax = 0#32).map (IndexBuild.entryOf key)

theorem nextEntry_spec {rows rest : List StoredRow} {entry : Option (IndexEntry Key)}
    (stepped : nextEntry key rows = (entry, rest)) :
    entriesOf key table (some rows) = entry.toList ++ entriesOf key table (some rest) ∧
      (entry = none → entriesOf key table (some rows) = []) := by
  induction rows with
  | nil =>
      cases stepped
      simp [entriesOf]
  | cons row rows ih =>
      rw [nextEntry] at stepped
      by_cases stamped : row.xmax = 0#32
      · rw [if_neg (by simpa using stamped)] at stepped
        cases stepped
        simp [entriesOf, stamped, IndexBuild.entryOf]
      · rw [if_pos stamped] at stepped
        have skipped : entriesOf key table (some (row :: rows)) = entriesOf key table (some rows) := by
          simp [entriesOf, stamped]
        rw [skipped]
        exact ih stepped

theorem buildNext_remaining : Remaining (buildNext key table) (entriesOf key table) := by
  intro state
  cases stepped : nextEntry key (state.getD table.selectAll) with
  | mk entry rest =>
      obtain ⟨items, ended⟩ := @nextEntry_spec Key table key _ rest entry stepped
      have loaded : entriesOf key table (some (state.getD table.selectAll)) = entriesOf key table state := rfl
      rw [loaded] at items ended
      simp only [buildNext, stepped]
      cases entry with
      | none => exact ended rfl
      | some entry => exact items

/-- The calls run as if there were no descriptor. -/
theorem run_eq (parallel : ParallelScan Desc) (calls : List Nat) :
    run visible conns parallel calls =
      (Pool.run (getnext visible conns) parallel.scans calls).map
        fun scans => { parallel with scans := scans } := by
  induction calls generalizing parallel with
  | nil => rfl
  | cons participant calls ih =>
      change (step visible conns parallel participant).bind (fun next => run visible conns next calls) =
        ((Pool.pull _ parallel.scans participant).bind fun next => Pool.run _ next calls).map _
      rw [step]
      cases pulled : Pool.pull (getnext visible conns) parallel.scans participant with
      | none => rfl
      | some scans => exact ih { parallel with scans := scans }

theorem getnext_remaining : Remaining (getnext visible conns)
    fun source => source.2.rest visible (conns.read source.1) :=
  Pool.ofKind_remaining fun _ => scanGetnextslot_remaining

theorem build_remaining : Remaining (build key conns)
    fun source => entriesOf key (conns.read source.1) source.2 :=
  Pool.ofKind_remaining fun _ => buildNext_remaining

/-- Whatever the participants have called, each can be called on until it returns false. -/
theorem calls_end (parallel : ParallelScan Desc) :
    ∃ calls after, run visible conns parallel calls = some after ∧ after.scans.Done := by
  obtain ⟨calls, scans, reached, done⟩ :=
    Pool.exists_done (@getnext_remaining visible conns) parallel.scans
  exact ⟨calls, { parallel with scans := scans }, by rw [run_eq, reached]; rfl, done⟩

/-- What the participants make together: the leader's items, if it takes part, and those of one
worker as often as there are workers. -/
theorem flatMap_participants {State Item : Type} (remaining : Process × State → List Item) (leads : Bool)
    (workers : Nat) (state : State) :
    ((participants leads workers).map fun process => (process, state)).flatMap remaining =
      (if leads then remaining (.leader, state) else []) ++
        (List.replicate workers (Process.worker, state)).flatMap remaining := by
  cases leads <;> simp [participants]

def Blank (visible : StoredHeader → Bool) (table : Table) : Prop :=
  ∀ row ∈ table.rows, visible row.toStoredHeader = false

/-- One participant returns what is visible to the leader: the leader beside workers that have
nothing to return, or a single worker that reads the same visible rows. -/
def Single (visible : StoredHeader → Bool) (conns : Connections) : Bool → Nat → Prop
  | true, workers => workers = 0 ∨ Blank visible conns.file
  | false, workers =>
      workers = 1 ∧ (∀ row : StoredRow, visible row.toStoredHeader = true →
        (row ∈ conns.file.rows ↔ row ∈ conns.own.rows)) ∨
      Blank visible conns.own ∧ (workers = 0 ∨ Blank visible conns.file)

theorem blank_iff (visible : StoredHeader → Bool) (table : Table) :
    (table.rows.filter fun row => visible row.toStoredHeader) = [] ↔ Blank visible table := by
  rw [List.filter_eq_nil_iff]
  exact forall₂_congr fun row _ => Bool.eq_false_iff.symm

theorem visible_perm_iff (visible : StoredHeader → Bool) (first second : Table) :
    (first.rows.filter fun row => visible row.toStoredHeader).Perm
        (second.rows.filter fun row => visible row.toStoredHeader) ↔
      ∀ row : StoredRow, visible row.toStoredHeader = true → (row ∈ first.rows ↔ row ∈ second.rows) := by
  rw [List.perm_ext_iff_of_nodup (first.rows_nodup.filter _) (second.rows_nodup.filter _)]
  refine forall_congr' fun row => ?_
  rw [List.mem_filter, List.mem_filter, and_congr_left_iff]

/-- The participants of a scan together return every row that is visible to the leader exactly
once if and only if a single one returns them; those of a build make every entry exactly once if
and only if there are no workers or they find no entry to make. -/
theorem once_iff (parallelscanInitialize : Table → Desc) (visible : StoredHeader → Bool)
    (conns : Connections) (key : Bytes → Key) (leads : Bool) (workers : Nat) {calls buildCalls : List Nat}
    {scan : ParallelScan Desc} {built : Pool (Process × BuildState) (IndexEntry Key)}
    (scanned : run visible conns (begin parallelscanInitialize conns leads workers) calls = some scan)
    (ended : scan.scans.Done)
    (entered : Pool.run (build key conns) (beginBuild workers) buildCalls = some built)
    (finished : built.Done) :
    (scan.scans.returned.Perm (conns.own.rows.filter fun row => visible row.toStoredHeader) ↔
        Single visible conns leads workers) ∧
      (built.returned.Perm (buildIndex key conns.own).1 ↔
        workers = 0 ∨ ∀ row ∈ conns.file.rows, row.xmax ≠ 0#32) := by
  rw [run_eq] at scanned
  obtain ⟨scans, called, rfl⟩ := Option.map_eq_some_iff.mp scanned
  have rows := Pool.returned_perm getnext_remaining called ended
  have entries := Pool.returned_perm build_remaining entered finished
  rw [flatMap_participants] at rows entries
  constructor
  · rw [rows.congr_left]
    cases leads with
    | true =>
        refine Pool.append_perm_self_iff.trans ((Pool.replicate_eq_nil_iff _ _ _).trans ?_)
        exact or_congr_right (blank_iff visible conns.file)
    | false =>
        refine (Pool.replicate_perm_iff (conns.own.rows_nodup.filter _)).trans ?_
        refine or_congr (and_congr_right fun _ => visible_perm_iff visible conns.file conns.own) ?_
        exact and_congr (blank_iff visible conns.own) (or_congr_right (blank_iff visible conns.file))
  · rw [entries.congr_left, IndexBuild.buildIndex_entries]
    refine Pool.append_perm_self_iff.trans ((Pool.replicate_eq_nil_iff _ _ _).trans ?_)
    simp [entriesOf, Connections.read]

def oneRow : Table := Table.empty.insertRow 3#32 0#32 [1]
def committed : Connections := ⟨oneRow, oneRow⟩
def uncommitted : Connections := ⟨oneRow, Table.empty⟩

def scanned (conns : Connections) (leads : Bool) (workers : Nat) (calls : List Nat) : ParallelScan Unit :=
  (run (fun _ => true) conns (begin (fun _ => ()) conns leads workers) calls).getD
    (begin (fun _ => ()) conns false 0)

def built (workers : Nat) (calls : List Nat) : Pool (Process × BuildState) (IndexEntry Bytes) :=
  (Pool.run (build id committed) (beginBuild workers) calls).getD (beginBuild 0)

theorem oneParticipant_once :
    ((scanned committed true 0 [0, 0]).scans.returned.Perm (oneRow.rows.filter fun _ => true) ↔
        Single (fun _ => true) committed true 0) ∧
      ((built 0 [0, 0]).returned.Perm (buildIndex id oneRow).1 ↔
        0 = 0 ∨ ∀ row ∈ oneRow.rows, row.xmax ≠ 0#32) :=
  @once_iff Unit Bytes (fun _ => ()) (fun _ => true) committed id true 0 [0, 0] [0, 0]
    (scanned committed true 0 [0, 0]) (built 0 [0, 0]) rfl (by decide) rfl (by decide)

def turns : List Nat := [0, 1, 1, 0]

/-- The worker returns the row and makes its entry a second time. -/
theorem twoParticipants_twice :
    run (fun _ => true) committed (begin (fun _ => ()) committed true 1) turns =
        some (scanned committed true 1 turns) ∧
      (scanned committed true 1 turns).scans.Done ∧
      ¬ (scanned committed true 1 turns).scans.returned.Perm (oneRow.rows.filter fun _ => true) ∧
      Pool.run (build id committed) (beginBuild 1) turns = some (built 1 turns) ∧
      (built 1 turns).Done ∧ ¬ (built 1 turns).returned.Perm (buildIndex id oneRow).1 := by
  refine ⟨rfl, by decide, by decide, rfl, by decide, by decide⟩

/-- A worker by itself does not return a row that the leader has not committed. -/
example :
    run (fun _ => true) uncommitted (begin (fun _ => ()) uncommitted false 1) [0] =
        some (scanned uncommitted false 1 [0]) ∧
      (scanned uncommitted false 1 [0]).scans.Done ∧
      (scanned uncommitted false 1 [0]).scans.returned = [] :=
  ⟨rfl, by decide, by decide⟩

end ParallelScan

end SqliteHeap
