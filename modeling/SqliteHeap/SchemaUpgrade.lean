import Mathlib.Data.List.Infix
import SqliteHeap.Lib.Transition
import SqliteHeap.Storage

/-! `open_conn` and the upgrade of a file. The version is read, the DDL runs and the version
is stamped in separate statements, each committed by itself, while other backends open the
same file and any of them may crash. A statement is atomic and succeeds: that it waits for a
lock, and the `SQLITE_BUSY` that the switch to WAL gives while another backend is in the
file, are outside the model. -/

set_option autoImplicit false

namespace SqliteHeap

/-- Columns of `storage`, with the one that version 3 had in addition. -/
inductive Column where
  | rowid | xmin | cmin | xmax | cmax | tuple | prev
deriving DecidableEq

/-- The `storage` table: its columns and what the rows hold in all columns but `prev`. -/
structure StorageTable where
  columns : List Column
  rows : List StoredRow
deriving DecidableEq

/-- A file as SQLite keeps it. -/
structure SchemaFile where
  userVersion : Int
  wal : Bool
  storage : Option StorageTable
  metaTable : Bool
  storageDead : Bool
deriving DecidableEq

def schemaVersion : Int := 4

def freshColumns : List Column := [.rowid, .xmin, .cmin, .xmax, .cmax, .tuple]

/-- The statements of `install_schema` and `migrate_schema`. -/
inductive Ddl where
  | journalModeWal
  | createStorageIfNotExists
  | createMetaIfNotExists
  | dropIndexStorageDeadIfExists
  | dropColumnPrev
  | setUserVersion (version : Int)
deriving DecidableEq

def installSchema : List Ddl :=
  [.journalModeWal, .createStorageIfNotExists, .createMetaIfNotExists, .setUserVersion schemaVersion]

def migrateSchema (version : Int) : List Ddl :=
  (if version < 2 then [.dropIndexStorageDeadIfExists] else []) ++
    (if version = 3 then [.dropColumnPrev] else []) ++ [.setUserVersion schemaVersion]

/-- What `open_conn` does after it has read the version; `none` refuses the file. -/
def openConnStmts (current : Int) : Option (List Ddl) :=
  if current = 0 then some installSchema
  else if schemaVersion < current then none
  else if current < schemaVersion then some (migrateSchema current)
  else some []

/-- One statement; `none` is an error of SQLite. -/
def Ddl.exec (file : SchemaFile) : Ddl → Option SchemaFile
  | .journalModeWal => some { file with wal := true }
  | .createStorageIfNotExists =>
      some { file with storage := some (file.storage.getD ⟨freshColumns, []⟩) }
  | .createMetaIfNotExists => some { file with metaTable := true }
  | .dropIndexStorageDeadIfExists => some { file with storageDead := false }
  | .dropColumnPrev =>
      match file.storage with
      | none => none
      | some storage =>
          if .prev ∈ storage.columns then
            let kept := storage.columns.filter fun column => column ≠ .prev
            some { file with storage := some { storage with columns := kept } }
          else none
  | .setUserVersion version => some { file with userVersion := version }

/-- `read_user_version`: a step that gives no row counts as version 0. -/
def readUserVersion (row : Bool) (file : SchemaFile) : Int := if row then file.userVersion else 0

/-- A backend in `open_conn`. -/
inductive Opener where
  | notStarted
  /-- These statements are still to run. -/
  | running (rest : List Ddl)
  | completed
  /-- A statement failed or the version was refused. -/
  | failed
  | crashed
deriving DecidableEq

structure Upgrading where
  file : SchemaFile
  openers : Nat → Opener

inductive UpgradeEvent where
  /-- The opener reads the version; `row` says whether the step gives a row. -/
  | read (opener : Nat) (row : Bool)
  | exec (opener : Nat)
  | crash (opener : Nat)
deriving DecidableEq

namespace Upgrading

def setOpener (opener : Nat) (new : Opener) (state : Upgrading) : Upgrading :=
  { state with openers := Function.update state.openers opener new }

/-- Where an opener is that has these statements left. -/
def opening : List Ddl → Opener
  | [] => .completed
  | stmt :: rest => .running (stmt :: rest)

def step (state : Upgrading) : UpgradeEvent → Option Upgrading
  | .read opener row =>
      match state.openers opener with
      | .notStarted =>
          some (state.setOpener opener
            ((openConnStmts (readUserVersion row state.file)).elim .failed opening))
      | .running _ | .completed | .failed | .crashed => none
  | .exec opener =>
      match state.openers opener with
      | .running (stmt :: rest) =>
          match stmt.exec state.file with
          | some file => some { state.setOpener opener (opening rest) with file := file }
          | none => some (state.setOpener opener .failed)
      | .running [] | .notStarted | .completed | .failed | .crashed => none
  | .crash opener =>
      match state.openers opener with
      | .running _ => some (state.setOpener opener .crashed)
      | .notStarted | .completed | .failed | .crashed => none

def run : Upgrading → List UpgradeEvent → Option Upgrading := Transition.run step

def start (file : SchemaFile) : Upgrading := ⟨file, fun _ => .notStarted⟩

end Upgrading

namespace SchemaFile

def rows (file : SchemaFile) : List StoredRow := (file.storage.elim [] StorageTable.rows)

/-- The file still has the column of version 3. -/
def HasPrev (file : SchemaFile) : Prop := ∃ storage ∈ file.storage, .prev ∈ storage.columns

instance (file : SchemaFile) : Decidable file.HasPrev :=
  inferInstanceAs (Decidable (∃ _ ∈ file.storage, _))

/-- A file that some version wrote, with any rows. -/
structure OnDisk (file : SchemaFile) : Prop where
  version : file.userVersion ∈ [0, 1, 2, 3, 4]
  created : file.storage = none → file.userVersion = 0
  columns : ∀ storage ∈ file.storage,
    storage.columns.filter (fun column => column ≠ .prev) = freshColumns
  prev : file.HasPrev ↔ file.userVersion = 3

end SchemaFile

/-- What an upgrade must keep and reach: the rows are those of the start, no opener has failed,
and after an opener that completed the file is as a fresh install makes it. -/
structure Upgrading.Fine (rows : List StoredRow) (state : Upgrading) : Prop where
  rows : state.file.rows = rows
  opens : ∀ opener, state.openers opener ≠ .failed
  upgraded : ∀ opener, state.openers opener = .completed →
    state.file.userVersion = schemaVersion ∧
      ∃ storage, state.file.storage = some storage ∧ storage.columns = freshColumns

/-- The condition on a step: the column is there when it is dropped, and gone when the
version is stamped. -/
def Upgrading.Orderly (state : Upgrading) : UpgradeEvent → Prop
  | .read _ _ | .crash _ => True
  | .exec opener =>
      match state.openers opener with
      | .running (.dropColumnPrev :: _) => state.file.HasPrev
      | .running (.setUserVersion _ :: _) => ¬ state.file.HasPrev
      | _ => True

instance (state : Upgrading) : ∀ event, Decidable (state.Orderly event)
  | .read _ _ | .crash _ => isTrue trivial
  | .exec opener => by
      unfold Upgrading.Orderly
      dsimp only
      split <;> infer_instance

/-! ## Statements -/

namespace SchemaFile

/-- What holds of the file at any time. -/
structure Kept (rows : List StoredRow) (file : SchemaFile) : Prop where
  rows : file.rows = rows
  version : file.userVersion ∈ [0, 1, 2, 3, 4]
  created : file.storage = none → file.userVersion = 0
  columns : ∀ storage ∈ file.storage,
    storage.columns.filter (fun column => column ≠ .prev) = freshColumns
  prev : file.HasPrev → file.userVersion = 3

variable {rows : List StoredRow} {file after : SchemaFile} {stmt : Ddl}

theorem OnDisk.kept (onDisk : file.OnDisk) : file.Kept file.rows :=
  ⟨rfl, onDisk.version, onDisk.created, onDisk.columns, onDisk.prev.mp⟩

/-- Every statement but the stamp keeps rows and version, and brings no column back. -/
theorem Kept.exec (kept : file.Kept rows) (ran : stmt.exec file = some after)
    (noStamp : ∀ version, stmt ≠ .setUserVersion version) :
    after.Kept rows ∧ after.userVersion = file.userVersion ∧
      (file.storage ≠ none ∨ stmt = .createStorageIfNotExists → after.storage ≠ none) := by
  cases stmt with
  | setUserVersion version => exact absurd rfl (noStamp version)
  | journalModeWal | createMetaIfNotExists | dropIndexStorageDeadIfExists =>
      cases ran
      exact ⟨⟨kept.rows, kept.version, kept.created, kept.columns, kept.prev⟩, rfl, by simp⟩
  | createStorageIfNotExists =>
      cases ran
      cases found : file.storage with
      | some storage =>
          refine ⟨⟨?_, kept.version, by simp, ?_, ?_⟩, rfl, by simp⟩
          · simpa [SchemaFile.rows, found] using kept.rows
          · simpa [found] using kept.columns
          · simpa [HasPrev, found] using kept.prev
      | none =>
          refine ⟨⟨?_, kept.version, by simp, ?_, ?_⟩, rfl, by simp⟩
          · simpa [SchemaFile.rows, found] using kept.rows
          · simp [freshColumns]
          · simp [HasPrev, freshColumns]
  | dropColumnPrev =>
      cases found : file.storage with
      | none => simp [Ddl.exec, found] at ran
      | some storage =>
          simp only [Ddl.exec, found] at ran
          obtain ⟨present, same⟩ := Option.ite_none_right_eq_some.mp ran
          cases same
          refine ⟨⟨?_, kept.version, by simp, ?_, ?_⟩, rfl, by simp⟩
          · simpa [SchemaFile.rows, found] using kept.rows
          · simpa [found] using kept.columns
          · simp [HasPrev]

theorem Kept.stamp (kept : file.Kept rows) (gone : ¬ file.HasPrev) (created : file.storage ≠ none) :
    SchemaFile.Kept rows { file with userVersion := schemaVersion } :=
  ⟨kept.rows, by simp [schemaVersion], fun none => absurd none created, kept.columns,
    fun prev => absurd prev gone⟩

theorem Kept.fresh (kept : file.Kept rows) (stamped : file.userVersion = schemaVersion) :
    ∃ storage, file.storage = some storage ∧ storage.columns = freshColumns := by
  cases found : file.storage with
  | none =>
      have zero := kept.created found
      simp [stamped, schemaVersion] at zero
  | some storage =>
      refine ⟨storage, rfl, ?_⟩
      have gone : .prev ∉ storage.columns := by
        intro present
        have three := kept.prev ⟨storage, found, present⟩
        simp [stamped, schemaVersion] at three
      have columns := kept.columns storage found
      rwa [List.filter_eq_self.mpr] at columns
      intro column member
      exact decide_eq_true (ne_of_mem_of_not_mem member gone)

end SchemaFile

/-! ## Programs -/

/-- Everything that an opener can have to run. -/
def programs : List (List Ddl) := [installSchema, migrateSchema 1, migrateSchema 2, migrateSchema 3]

/-- A stamp of the current version ends the list, and only a stamp does. -/
def endsWithStamp : List Ddl → Bool
  | [] => true
  | .setUserVersion version :: rest => version = schemaVersion && rest.isEmpty
  | _ :: rest => !rest.isEmpty

theorem endsWithStamp_of_suffix {rest program : List Ddl} (known : program ∈ programs)
    (suffix : rest <:+ program) : endsWithStamp rest = true := by
  have checked : ∀ program ∈ programs, ∀ tail ∈ program.tails, endsWithStamp tail = true := by decide
  exact checked program known rest ((List.mem_tails _ _).mpr suffix)

/-- An opener that has the statements left: they end a program, and the table is there
unless its creation is among them. -/
structure Ready (rest : List Ddl) (file : SchemaFile) : Prop where
  program : ∃ program ∈ programs, rest <:+ program
  created : .createStorageIfNotExists ∈ rest ∨ file.storage ≠ none

namespace Upgrading

variable {rows : List StoredRow} {state next final : Upgrading} {event : UpgradeEvent}

structure Kept (rows : List StoredRow) (state : Upgrading) : Prop where
  file : state.file.Kept rows
  ready : ∀ opener rest, state.openers opener = .running rest → rest ≠ [] ∧ Ready rest state.file
  completed : ∀ opener, state.openers opener = .completed → state.file.userVersion = schemaVersion
  opens : ∀ opener, state.openers opener ≠ .failed

theorem Kept.start {file : SchemaFile} (onDisk : file.OnDisk) : (start file).Kept file.rows :=
  ⟨onDisk.kept, nofun, nofun, nofun⟩

theorem Kept.fine (kept : state.Kept rows) : state.Fine rows :=
  ⟨kept.file.rows, kept.opens, fun opener completed =>
    ⟨kept.completed opener completed, kept.file.fresh (kept.completed opener completed)⟩⟩

/-- One opener moves on while the file keeps what the others rely on. -/
theorem Kept.setOpener (kept : state.Kept rows) {file : SchemaFile} (fileKept : file.Kept rows)
    (version : state.file.userVersion = schemaVersion → file.userVersion = schemaVersion)
    (table : state.file.storage ≠ none → file.storage ≠ none)
    {opener : Nat} {new : Opener}
    (ready : ∀ rest, new = .running rest → rest ≠ [] ∧ Ready rest file)
    (completed : new = .completed → file.userVersion = schemaVersion) (opens : new ≠ .failed) :
    Kept rows { state.setOpener opener new with file := file } where
  file := fileKept
  ready other rest found := by
    by_cases same : other = opener
    · subst same
      exact ready rest (by simpa [Upgrading.setOpener] using found)
    · obtain ⟨some, program, created⟩ :=
        kept.ready other rest (by simpa [Upgrading.setOpener, same] using found)
      exact ⟨some, program, created.imp_right table⟩
  completed other found := by
    by_cases same : other = opener
    · subst same
      exact completed (by simpa [Upgrading.setOpener] using found)
    · exact version (kept.completed other (by simpa [Upgrading.setOpener, same] using found))
  opens other := by
    by_cases same : other = opener
    · subst same
      simpa [Upgrading.setOpener] using opens
    · simpa [Upgrading.setOpener, same] using kept.opens other

theorem opening_ready {file : SchemaFile} (kept : file.Kept rows) (row : Bool) :
    ∃ stmts, openConnStmts (readUserVersion row file) = some stmts ∧
      (stmts = [] → file.userVersion = schemaVersion) ∧ (stmts ≠ [] → Ready stmts file) := by
  have install : Ready installSchema file :=
    ⟨⟨installSchema, by decide, List.suffix_refl _⟩, .inl (by decide)⟩
  cases row with
  | false => exact ⟨installSchema, rfl, nofun, fun _ => install⟩
  | true =>
      have made : file.userVersion ≠ 0 → file.storage ≠ none :=
        fun old none => old (kept.created none)
      have version := kept.version
      simp only [List.mem_cons, List.not_mem_nil, or_false] at version
      rw [readUserVersion, if_pos rfl]
      rcases version with version | version | version | version | version <;> rw [version]
      · exact ⟨installSchema, rfl, nofun, fun _ => install⟩
      · exact ⟨migrateSchema 1, rfl, nofun,
          fun _ => ⟨⟨_, by decide, List.suffix_refl _⟩, .inr (made (by omega))⟩⟩
      · exact ⟨migrateSchema 2, rfl, nofun,
          fun _ => ⟨⟨_, by decide, List.suffix_refl _⟩, .inr (made (by omega))⟩⟩
      · exact ⟨migrateSchema 3, rfl, nofun,
          fun _ => ⟨⟨_, by decide, List.suffix_refl _⟩, .inr (made (by omega))⟩⟩
      · exact ⟨[], rfl, fun _ => rfl, fun some => absurd rfl some⟩

theorem exec_succeeds {file : SchemaFile} {stmt : Ddl}
    (orderly : stmt = .dropColumnPrev → file.HasPrev) : ∃ after, stmt.exec file = some after := by
  cases stmt with
  | dropColumnPrev =>
      obtain ⟨storage, found, present⟩ := orderly rfl
      rw [Option.mem_def] at found
      simp [Ddl.exec, found, present]
  | journalModeWal | createStorageIfNotExists | createMetaIfNotExists
  | dropIndexStorageDeadIfExists | setUserVersion => exact ⟨_, rfl⟩

/-- The next statement of an opener that is ready. -/
theorem Kept.exec (kept : state.Kept rows) {opener : Nat} {stmt : Ddl} {rest : List Ddl}
    (found : state.openers opener = .running (stmt :: rest)) (orderly : state.Orderly (.exec opener))
    (stepped : state.step (.exec opener) = some next) : next.Kept rows := by
  obtain ⟨_, ⟨program, known, suffix⟩, created⟩ := kept.ready opener _ found
  have ends := endsWithStamp_of_suffix known suffix
  have tail : rest <:+ program := (List.suffix_cons stmt rest).trans suffix
  have dropped : stmt = .dropColumnPrev → state.file.HasPrev := by
    rintro rfl
    simpa [Orderly, found] using orderly
  obtain ⟨file, ran⟩ := exec_succeeds dropped
  simp only [step, found, ran] at stepped
  obtain rfl := Option.some.inj stepped
  by_cases stamp : ∃ version, stmt = .setUserVersion version
  · obtain ⟨version, rfl⟩ := stamp
    have gone : ¬ state.file.HasPrev := by simpa [Orderly, found] using orderly
    simp only [endsWithStamp, Bool.and_eq_true, decide_eq_true_eq, List.isEmpty_iff] at ends
    obtain ⟨rfl, rfl⟩ := ends
    cases ran
    refine kept.setOpener (kept.file.stamp gone (created.resolve_left (by simp))) (fun _ => rfl)
      id nofun (fun _ => rfl) nofun
  · have noStamp : ∀ version, stmt ≠ .setUserVersion version := fun version same => stamp ⟨version, same⟩
    obtain ⟨fileKept, version, table⟩ := kept.file.exec ran noStamp
    have more : rest ≠ [] := by
      cases stmt with
      | setUserVersion version => exact absurd rfl (noStamp version)
      | journalModeWal | createStorageIfNotExists | createMetaIfNotExists
      | dropIndexStorageDeadIfExists | dropColumnPrev => simpa [endsWithStamp] using ends
    obtain ⟨second, later, rfl⟩ := List.exists_cons_of_ne_nil more
    refine kept.setOpener fileKept (fun stamped => version.trans stamped) (fun made => table (.inl made))
      (fun others same => ?_) nofun nofun
    obtain rfl := Opener.running.inj same
    refine ⟨more, ⟨program, known, tail⟩, ?_⟩
    rcases created with inside | made
    · rcases List.mem_cons.mp inside with same | inside
      · exact .inr (table (.inr same.symm))
      · exact .inl inside
    · exact .inr (table (.inl made))

theorem Kept.step (kept : state.Kept rows) (orderly : state.Orderly event)
    (stepped : state.step event = some next) : next.Kept rows := by
  cases event with
  | read opener row =>
      obtain ⟨stmts, opens, done, ready⟩ := opening_ready kept.file row
      simp only [Upgrading.step, opens] at stepped
      cases found : state.openers opener with
      | notStarted =>
          rw [found] at stepped
          obtain rfl := Option.some.inj stepped
          cases stmts with
          | nil => exact kept.setOpener kept.file id id nofun (fun _ => done rfl) nofun
          | cons stmt rest =>
              refine kept.setOpener kept.file id id (fun others same => ?_) nofun nofun
              obtain rfl := Opener.running.inj same
              exact ⟨nofun, ready nofun⟩
      | running | completed | failed | crashed =>
          rw [found] at stepped
          cases stepped
  | exec opener =>
      cases found : state.openers opener with
      | running stmts =>
          cases stmts with
          | nil => exact absurd rfl (kept.ready opener [] found).1
          | cons stmt rest => exact kept.exec found orderly stepped
      | notStarted | completed | failed | crashed => simp [Upgrading.step, found] at stepped
  | crash opener =>
      cases found : state.openers opener with
      | running stmts =>
          simp only [Upgrading.step, found] at stepped
          obtain rfl := Option.some.inj stepped
          exact kept.setOpener kept.file id id nofun nofun nofun
      | notStarted | completed | failed | crashed => simp [Upgrading.step, found] at stepped

/-- After a step that is not orderly an opener has failed, or has stamped the version of
a file that still has the column. -/
theorem orderly_of_fine (kept : state.Kept rows) (stepped : state.step event = some next)
    (fine : next.Fine rows) : state.Orderly event := by
  cases event with
  | read | crash => trivial
  | exec opener =>
      cases found : state.openers opener with
      | notStarted | completed | failed | crashed => simp [step, found] at stepped
      | running stmts =>
          cases stmts with
          | nil => exact absurd rfl (kept.ready opener [] found).1
          | cons stmt rest =>
              obtain ⟨_, ⟨program, known, suffix⟩, _⟩ := kept.ready opener _ found
              cases stmt with
              | journalModeWal | createStorageIfNotExists | createMetaIfNotExists
              | dropIndexStorageDeadIfExists => simp [Orderly, found]
              | dropColumnPrev =>
                  simp only [Orderly, found]
                  cases ran : Ddl.exec state.file .dropColumnPrev with
                  | none =>
                      simp only [step, found, ran] at stepped
                      obtain rfl := Option.some.inj stepped
                      exact absurd (by simp [setOpener]) (fine.opens opener)
                  | some after =>
                      cases storage : state.file.storage with
                      | none => simp [Ddl.exec, storage] at ran
                      | some table =>
                          simp only [Ddl.exec, storage] at ran
                          exact ⟨table, storage, (Option.ite_none_right_eq_some.mp ran).1⟩
              | setUserVersion version =>
                  have ends := endsWithStamp_of_suffix known suffix
                  simp only [endsWithStamp, Bool.and_eq_true, List.isEmpty_iff] at ends
                  obtain ⟨_, rfl⟩ := ends
                  simp only [Orderly, found]
                  simp only [step, found, Ddl.exec] at stepped
                  obtain rfl := Option.some.inj stepped
                  obtain ⟨_, table, storage, columns⟩ := fine.upgraded opener (by simp [setOpener, opening])
                  rintro ⟨other, member, present⟩
                  obtain rfl : table = other := Option.some.inj (storage.symm.trans member)
                  rw [columns] at present
                  simp [freshColumns] at present

/-- In a run of openers, with crashes anywhere, every state reached is fine if and only if
the column is there whenever it is dropped and gone whenever the version is stamped. -/
theorem fine_iff_orderly {file : SchemaFile} (onDisk : file.OnDisk) {events : List UpgradeEvent}
    {final : Upgrading} (reached : run (start file) events = some final) :
    (∀ before, before <+: events → ∀ state, run (start file) before = some state →
        state.Fine file.rows) ↔
      Transition.Meets step Orderly (start file) events := by
  refine @Transition.good_iff_meets _ _ Upgrading.step Orderly (fun _ _ => True) (Kept file.rows)
    (Fine file.rows) ?_ (fun _ kept => kept.fine) ?_ _ _ _ (Kept.start onDisk)
    (Transition.meets_trivial _ _) reached
  · exact fun _ _ _ kept _ orderly stepped => kept.step orderly stepped
  · exact fun _ _ _ kept _ stepped fine => orderly_of_fine kept stepped fine

/-- A crash between the drop of the column and the stamp has ended every open. -/
structure Stranded (state : Upgrading) : Prop where
  version : state.file.userVersion = 3
  gone : ¬ state.file.HasPrev
  openers : ∀ opener, state.openers opener ≠ .completed ∧
    ∀ rest, state.openers opener = .running rest → ∃ later, rest = .dropColumnPrev :: later

def Reads (_ : Upgrading) : UpgradeEvent → Prop
  | .read _ row => row = true
  | .exec _ | .crash _ => True

theorem Stranded.step (stranded : state.Stranded) (reads : Reads state event)
    (stepped : state.step event = some next) : next.Stranded := by
  have moved (opener : Nat) {new : Opener} (some : new ≠ .completed)
      (shape : ∀ rest, new = .running rest → ∃ later, rest = .dropColumnPrev :: later) :
      (state.setOpener opener new).Stranded := by
    refine ⟨stranded.version, stranded.gone, fun other => ?_⟩
    by_cases same : other = opener
    · subst same
      simpa [setOpener] using ⟨some, shape⟩
    · simpa [setOpener, same] using stranded.openers other
  cases event with
  | read opener row =>
      obtain rfl : row = true := reads
      cases found : state.openers opener with
      | notStarted =>
          simp only [Upgrading.step, found, readUserVersion, stranded.version] at stepped
          obtain rfl := Option.some.inj stepped
          exact moved opener nofun fun rest same => ⟨_, (Opener.running.inj same).symm⟩
      | running | completed | failed | crashed => simp [Upgrading.step, found] at stepped
  | exec opener =>
      cases found : state.openers opener with
      | running stmts =>
          obtain ⟨later, rfl⟩ := (stranded.openers opener).2 stmts found
          have refused : Ddl.exec state.file .dropColumnPrev = none := by
            cases storage : state.file.storage with
            | none => simp [Ddl.exec, storage]
            | some table =>
                have absent : .prev ∉ table.columns := fun present => stranded.gone ⟨table, storage, present⟩
                simp [Ddl.exec, storage, absent]
          simp only [Upgrading.step, found, refused] at stepped
          obtain rfl := Option.some.inj stepped
          exact moved opener nofun nofun
      | notStarted | completed | failed | crashed => simp [Upgrading.step, found] at stepped
  | crash opener =>
      cases found : state.openers opener with
      | running stmts =>
          simp only [Upgrading.step, found] at stepped
          obtain rfl := Option.some.inj stepped
          exact moved opener nofun nofun
      | notStarted | completed | failed | crashed => simp [Upgrading.step, found] at stepped

/-- From then on no open of the file completes. -/
theorem Stranded.run {events : List UpgradeEvent} (stranded : state.Stranded)
    (reads : Transition.Meets Upgrading.step Reads state events)
    (reached : Upgrading.run state events = some final) (opener : Nat) :
    final.openers opener ≠ .completed := by
  have stranded : final.Stranded :=
    Transition.run_invariant (fun _ _ _ stranded reads stepped => stranded.step reads stepped) stranded
      reads reached
  exact (stranded.openers opener).1

/-- One row in a file of version 3. -/
def versionThree : SchemaFile where
  userVersion := 3
  wal := true
  storage := some ⟨freshColumns ++ [.prev], [⟨⟨1, 3#32, 0#32, 0#32, 0#32⟩, [1]⟩]⟩
  metaTable := true
  storageDead := false

theorem versionThree_onDisk : versionThree.OnDisk :=
  ⟨by decide, by decide, by decide, by decide⟩

/-- A backend upgrades the file while another one opens it afterwards. -/
def oneAfterAnother : List UpgradeEvent := [.read 1 true, .exec 1, .exec 1, .read 2 true]

theorem oneAfterAnother_fine :
    ∃ final, run (start versionThree) oneAfterAnother = some final ∧
      ((∀ before, before <+: oneAfterAnother → ∀ state,
          run (start versionThree) before = some state → state.Fine versionThree.rows) ↔
        Transition.Meets step Orderly (start versionThree) oneAfterAnother) :=
  ⟨_, rfl, fine_iff_orderly versionThree_onDisk rfl⟩

/-- The first backend crashes after it dropped the column, or has not stamped the version
when a second one has read it; the second open fails. -/
theorem interrupted_fails :
    (∃ state, run (start versionThree) [.read 1 true, .exec 1, .crash 1, .read 2 true, .exec 2] =
        some state ∧ state.Stranded ∧ state.openers 2 = .failed) ∧
      ∃ state, run (start versionThree) [.read 1 true, .read 2 true, .exec 1, .exec 1, .exec 2] =
        some state ∧ state.openers 1 = .completed ∧ state.openers 2 = .failed := by
  refine ⟨⟨_, rfl, ⟨rfl, by decide, fun opener => ?_⟩, rfl⟩, _, rfl, rfl, rfl⟩
  by_cases first : opener = 1
  · subst first
    exact ⟨nofun, nofun⟩
  · by_cases second : opener = 2
    · subst second
      exact ⟨nofun, nofun⟩
    · simp [setOpener, start, first, second]

end Upgrading

end SqliteHeap
