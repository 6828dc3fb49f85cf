import SqliteHeap.Ffi
import SqliteHeap.SessionContents
import SqliteHeap.Visibility

/-! An index over one relation. Postgres keeps `(key, TID)` entries apart from the
SQLite file and outside its transactions, and removes only entries that
`index_delete_tuples` marked. SQLite gives the rowid after the highest one present,
so a rowid can come back when the highest row leaves the file before its entry. -/

set_option autoImplicit false

namespace SqliteHeap

namespace Table

/-- `deletable` of one entry in `index_delete_tuples`, from its `xmax` if the row is
still there. -/
def deletable (xacts : Xacts) (oldest : TransactionId) : Option TransactionId → Bool
  | none => true
  | some xmax =>
      if xmax = 0#32 then false
      else Visibility.didCommit xacts xmax && xacts.precedes xmax oldest

/-- `index_delete_tuples`: the `knowndeletable` flags, none at all when `ndeltids` is
set to zero, and the newest reclaimed xid. -/
def indexDeleteTuples (xacts : Xacts) (oldest : TransactionId) (deltids : List Tid) (table : Table) :
    List Bool × TransactionId :=
  let xmaxMap := table.selectXmaxBatch (deltids.map tidToRowid)
  let xmaxes := deltids.map fun tid =>
    (xmaxMap.find? fun found => found.1 = tidToRowid tid).map Prod.snd
  let flags := xmaxes.map (deletable xacts oldest)
  let latestRemoved := (xmaxes.filter (deletable xacts oldest)).foldl
    (fun latest xmax =>
      match xmax with
      | none => latest
      | some xmax => if xmax ≠ 0#32 && xacts.follows xmax latest then xmax else latest) 0#32
  (if flags.any id then flags else [], latestRemoved)

end Table

namespace Write

/-- The rows a call inserts with the rowids it returns, which are stamped on the slots. -/
def newRows (table : Table) : Write → List (Bytes × Int)
  | .insert xmin cmin tuple => [(tuple, (table.insert xmin cmin tuple).2)]
  | .insertBatch xmin cmin tuples => tuples.zip (table.insertBatch xmin cmin tuples).2
  | .updateRow oldRowid xid cid tuple => [(tuple, (table.updateRow oldRowid xid cid tuple).2)]
  | .setXmax _ _ _ | .physicalDelete _ | .reset | .metaSet _ _ | .deleteDead _ => []

def inserts : Write → Nat
  | .insert _ _ _ | .updateRow _ _ _ _ => 1
  | .insertBatch _ _ tuples => tuples.length
  | .setXmax _ _ _ | .physicalDelete _ | .reset | .metaSet _ _ | .deleteDead _ => 0

/-- The rows that are left by a call that takes rows out of the file. -/
def remaining (table : Table) (write : Write) : Option Table :=
  match write with
  | .physicalDelete _ | .reset | .deleteDead _ => some (write.apply table)
  | .insert _ _ _ | .insertBatch _ _ _ | .setXmax _ _ _ | .updateRow _ _ _ _ | .metaSet _ _ => none

end Write

/-! ## What statements do to rowids -/

namespace Table

/-- The row is one of the table, possibly stamped since. -/
def Has (table : Table) (row : StoredRow) : Prop :=
  ∃ old ∈ table.rows, old.rowid = row.rowid ∧ old.tuple = row.tuple

theorem Has.of_mem {table : Table} {row : StoredRow} (member : row ∈ table.rows) : table.Has row :=
  ⟨row, member, rfl, rfl⟩

theorem has_of_stampRow {rowid : Int} {xmax : TransactionId} {cmax : CommandId} {table : Table}
    {row : StoredRow} (member : row ∈ (table.stampRow rowid xmax cmax).rows) : table.Has row := by
  obtain ⟨old, inTable, rfl⟩ := List.mem_map.mp member
  refine ⟨old, inTable, (stamp_rowid _ _ _ _).symm, ?_⟩
  unfold stamp
  split <;> rfl

theorem has_of_keepRows {keep : StoredRow → Bool} {table : Table} {row : StoredRow}
    (member : row ∈ (table.keepRows keep).rows) : table.Has row :=
  Has.of_mem (List.mem_filter.mp member).1

theorem has_of_insertRow {xmin : TransactionId} {cmin : CommandId} {tuple : Bytes} {table : Table}
    {row : StoredRow} (member : row ∈ (table.insertRow xmin cmin tuple).rows) :
    table.Has row ∨ row.rowid = maxRowid table.rows + 1 := by
  rcases List.mem_append.mp member with old | added
  · exact .inl (Has.of_mem old)
  · rw [List.mem_singleton.mp added]
    exact .inr rfl

end Table

namespace Table

theorem maxRowid_keepRows_le (keep : StoredRow → Bool) (table : Table) :
    maxRowid (table.keepRows keep).rows ≤ maxRowid table.rows := by
  cases last : (table.keepRows keep).rows.getLast? with
  | none =>
      rw [maxRowid, last]
      exact maxRowid_nonneg table.positive
  | some row =>
      rw [maxRowid, last]
      exact rowid_le_maxRowid table.sorted (List.mem_filter.mp (List.mem_of_getLast? last)).1

theorem maxRowid_foldl_insertRow (xmin : TransactionId) (cmin : CommandId) (tuples : List Bytes)
    (table : Table) :
    maxRowid table.rows ≤ maxRowid ((tuples.map (Stmt.insertRow xmin cmin)).foldl
      (fun table stmt => table.exec stmt) table).rows := by
  induction tuples generalizing table with
  | nil => exact Int.le_refl _
  | cons tuple rest ih =>
      have first := maxRowid_insertRow xmin cmin tuple table
      have later : maxRowid (table.insertRow xmin cmin tuple).rows ≤ _ :=
        ih (table.exec (.insertRow xmin cmin tuple))
      rw [List.map_cons, List.foldl_cons]
      omega

end Table

namespace Write

/-- The row has one of the rowids that inserting `count` rows gives. -/
def AtNewRowid (table : Table) (count : Nat) (row : StoredRow) : Prop :=
  Table.maxRowid table.rows < row.rowid ∧ row.rowid ≤ Table.maxRowid table.rows + count

instance (table : Table) (count : Nat) (row : StoredRow) : Decidable (AtNewRowid table count row) :=
  inferInstanceAs (Decidable (_ ∧ _))

theorem foldl_insertRow {xmin : TransactionId} {cmin : CommandId} {tuples : List Bytes}
    {table : Table} {row : StoredRow}
    (member : row ∈ ((tuples.map (Table.Stmt.insertRow xmin cmin)).foldl
      (fun table stmt => table.exec stmt) table).rows) :
    table.Has row ∨ AtNewRowid table tuples.length row := by
  induction tuples generalizing table with
  | nil => exact .inl (Table.Has.of_mem member)
  | cons tuple rest ih =>
      have max := Table.maxRowid_insertRow xmin cmin tuple table
      rcases ih member with ⟨old, inAfter, rowid, tuple⟩ | ⟨above, below⟩
      · rcases Table.has_of_insertRow inAfter with ⟨older, inTable, same⟩ | new
        · exact .inl ⟨older, inTable, same.1.trans rowid, same.2.trans tuple⟩
        · refine .inr ⟨?_, ?_⟩
          · omega
          · rw [List.length_cons]
            omega
      · change Table.maxRowid (table.insertRow xmin cmin tuple).rows < _ at above
        change _ ≤ Table.maxRowid (table.insertRow xmin cmin tuple).rows + _ at below
        refine .inr ⟨?_, ?_⟩
        · omega
        · rw [List.length_cons]
          omega

theorem first_of_one {ran : List Table.Stmt} {stmt : Table.Stmt} (first : ran <+: [stmt]) :
    ran = [] ∨ ran = [stmt] := by
  rcases List.prefix_cons_iff.mp first with none | ⟨rest, rfl, tail⟩
  · exact .inl none
  · rw [List.prefix_nil.mp tail]
    exact .inr rfl

/-- Every row after the first statements of a call was there before, or has one of
the call's new rowids. -/
theorem rows_of_first {write : Write} {ran : List Table.Stmt} (first : ran <+: write.stmts)
    {table : Table} {row : StoredRow}
    (member : row ∈ (ran.foldl (fun table stmt => table.exec stmt) table).rows) :
    table.Has row ∨ AtNewRowid table write.inserts row := by
  cases write with
  | insert xmin cmin tuple =>
      rcases first_of_one first with rfl | rfl
      · exact .inl (Table.Has.of_mem member)
      · rcases Table.has_of_insertRow member with old | new
        · exact .inl old
        · exact .inr ⟨by omega, by simp only [inserts]; omega⟩
  | insertBatch xmin cmin tuples =>
      have taken : ran = (tuples.take ran.length).map (Table.Stmt.insertRow xmin cmin) := by
        rw [List.map_take]
        exact List.prefix_iff_eq_take.mp first
      rw [taken] at member
      rcases foldl_insertRow member with old | ⟨above, below⟩
      · exact .inl old
      · refine .inr ⟨above, ?_⟩
        simp only [inserts, List.length_take] at below ⊢
        omega
  | updateRow oldRowid xid cid tuple =>
      rcases List.prefix_cons_iff.mp first with rfl | ⟨rest, rfl, tail⟩
      · exact .inl (Table.Has.of_mem member)
      · rcases first_of_one tail with rfl | rfl
        · exact .inl (Table.has_of_stampRow member)
        · rcases Table.has_of_insertRow member with ⟨old, inStamped, rowid, tuple⟩ | new
          · obtain ⟨older, inTable, same⟩ := Table.has_of_stampRow inStamped
            exact .inl ⟨older, inTable, same.1.trans rowid, same.2.trans tuple⟩
          · have max := Table.maxRowid_stampRow oldRowid xid cid table
            change row.rowid = Table.maxRowid (table.stampRow oldRowid xid cid).rows + 1 at new
            exact .inr ⟨by omega, by simp only [inserts]; omega⟩
  | setXmax rowid xmax cmax =>
      rcases first_of_one first with rfl | rfl
      · exact .inl (Table.Has.of_mem member)
      · exact .inl (Table.has_of_stampRow member)
  | metaSet key value =>
      rcases first_of_one first with rfl | rfl <;> exact .inl (Table.Has.of_mem member)
  | physicalDelete | reset | deleteDead =>
      rcases first_of_one first with rfl | rfl
      · exact .inl (Table.Has.of_mem member)
      · exact .inl (Table.has_of_keepRows member)

/-- However far a call gets, the largest rowid does not go below that of the rows it
means to leave. -/
theorem maxRowid_of_first {write : Write} {ran : List Table.Stmt} (first : ran <+: write.stmts)
    (table : Table) {left : Table} (leaves : left = (write.remaining table).getD table) :
    Table.maxRowid left.rows ≤
      Table.maxRowid (ran.foldl (fun table stmt => table.exec stmt) table).rows := by
  subst leaves
  cases write with
  | insert xmin cmin tuple =>
      have grown := Table.maxRowid_insertRow xmin cmin tuple table
      rcases first_of_one first with rfl | rfl
      · exact Int.le_refl _
      · change Table.maxRowid table.rows ≤ Table.maxRowid (table.insertRow xmin cmin tuple).rows
        omega
  | insertBatch xmin cmin tuples =>
      have taken : ran = (tuples.take ran.length).map (Table.Stmt.insertRow xmin cmin) := by
        rw [List.map_take]
        exact List.prefix_iff_eq_take.mp first
      rw [taken]
      exact Table.maxRowid_foldl_insertRow xmin cmin _ table
  | updateRow oldRowid xid cid tuple =>
      have stamped := Table.maxRowid_stampRow oldRowid xid cid table
      rcases List.prefix_cons_iff.mp first with rfl | ⟨rest, rfl, tail⟩
      · exact Int.le_refl _
      · rcases first_of_one tail with rfl | rfl
        · exact Int.le_of_eq stamped.symm
        · have grown := Table.maxRowid_insertRow xid cid tuple (table.stampRow oldRowid xid cid)
          change Table.maxRowid table.rows ≤
            Table.maxRowid ((table.stampRow oldRowid xid cid).insertRow xid cid tuple).rows
          omega
  | setXmax rowid xmax cmax =>
      rcases first_of_one first with rfl | rfl
      · exact Int.le_refl _
      · exact Int.le_of_eq (Table.maxRowid_stampRow rowid xmax cmax table).symm
  | metaSet key value =>
      rcases first_of_one first with rfl | rfl <;> exact Int.le_refl _
  | physicalDelete | reset | deleteDead =>
      rcases first_of_one first with rfl | rfl
      · exact Table.maxRowid_keepRows_le _ table
      · exact Int.le_refl _

theorem mem_insertBatch {xmin : TransactionId} {cmin : CommandId} {tuples : List Bytes}
    {table : Table} {row : StoredRow} (member : row ∈ table.rows) :
    row ∈ (table.insertBatch xmin cmin tuples).1.rows := by
  induction tuples generalizing table with
  | nil => exact member
  | cons tuple rest ih => exact ih (List.mem_append_left _ member)

theorem insertBatch_spec {xmin : TransactionId} {cmin : CommandId} {tuples : List Bytes}
    {table : Table} {tuple : Bytes} {rowid : Int}
    (member : (tuple, rowid) ∈ tuples.zip (table.insertBatch xmin cmin tuples).2) :
    Table.maxRowid table.rows < rowid ∧ rowid ≤ Table.maxRowid table.rows + tuples.length ∧
      ∃ row ∈ (table.insertBatch xmin cmin tuples).1.rows, row.rowid = rowid ∧ row.tuple = tuple := by
  induction tuples generalizing table with
  | nil => cases member
  | cons first rest ih =>
      have max := Table.maxRowid_insertRow xmin cmin first table
      rcases List.mem_cons.mp member with same | later
      · obtain ⟨rfl, rfl⟩ := Prod.mk.inj same
        refine ⟨Int.lt_succ _, ?_, ?_⟩
        · simp only [Table.nextRowid, List.length_cons]
          omega
        · have inserted : (⟨⟨table.nextRowid, xmin, cmin, 0#32, 0#32⟩, tuple⟩ : StoredRow) ∈
              (table.insertRow xmin cmin tuple).rows :=
            List.mem_append_right _ List.mem_cons_self
          have kept : (⟨⟨table.nextRowid, xmin, cmin, 0#32, 0#32⟩, tuple⟩ : StoredRow) ∈
              ((table.insertRow xmin cmin tuple).insertBatch xmin cmin rest).1.rows :=
            mem_insertBatch inserted
          exact ⟨_, kept, rfl, rfl⟩
      · obtain ⟨above, below, row, inFinal, found⟩ := ih later
        rw [max] at above below
        refine ⟨by omega, ?_, row, inFinal, found⟩
        simp only [List.length_cons]
        omega

theorem newRows_spec {write : Write} {table : Table} {tuple : Bytes} {rowid : Int}
    (member : (tuple, rowid) ∈ write.newRows table) :
    Table.maxRowid table.rows < rowid ∧
      rowid ≤ Table.maxRowid table.rows + write.inserts ∧
      ∃ row ∈ (write.apply table).rows, row.rowid = rowid ∧ row.tuple = tuple := by
  cases write with
  | insert xmin cmin first =>
      obtain ⟨rfl, rfl⟩ := Prod.mk.inj (List.mem_singleton.mp member)
      exact ⟨Int.lt_succ _, Int.le_refl _, _, List.mem_append_right _ List.mem_cons_self, rfl, rfl⟩
  | insertBatch xmin cmin tuples => exact insertBatch_spec member
  | updateRow oldRowid xid cid first =>
      obtain ⟨rfl, rfl⟩ := Prod.mk.inj (List.mem_singleton.mp member)
      have max := Table.maxRowid_stampRow oldRowid xid cid table
      refine ⟨?_, ?_, _, List.mem_append_right _ List.mem_cons_self, rfl, rfl⟩
      · rw [← max]
        exact Int.lt_succ _
      · rw [← max]
        exact Int.le_refl _
  | setXmax | physicalDelete | reset | metaSet | deleteDead => cases member

end Write

/-! ## The index beside the session -/

/-- An index entry: the key of a tuple and the TID stamped on its slot. -/
structure IndexEntry (Key : Type) where
  key : Key
  tid : Tid
deriving DecidableEq

/-- A session with the index of one relation. -/
structure Indexed (Key : Type) where
  session : Session
  index : List (IndexEntry Key)

inductive IndexEvent (Key : Type) where
  | session (event : Event)
  /-- btree asks about `deltids` and drops `removed`, all of them marked. -/
  | indexDelete (fails : Faults) (xacts : Xacts) (oldest : TransactionId) (deltids : List Tid)
      (removed : List (IndexEntry Key))

namespace Indexed

variable {Key : Type}

section Step

variable (key : Bytes → Key) (rel : RelId)

/-- The entries that Postgres adds after a call that returned. -/
def newEntries (table : Table) (write : Write) : List (IndexEntry Key) :=
  (write.newRows table).map fun new => ⟨key new.1, rowidToTid new.2⟩

/-- The entries that an event of the session adds to the index. -/
def added (session next : Session) : Event → List (IndexEntry Key)
  | .call target write _ =>
      if target = rel ∧ next.failed = false then newEntries key (session.view rel).table write
      else []
  | _ => []

/-- `index_delete_tuples` marks the TID. -/
def marked (xacts : Xacts) (oldest : TransactionId) (deltids : List Tid) (table : Table)
    (tid : Tid) : Bool :=
  (deltids.zip (table.indexDeleteTuples xacts oldest deltids).1).any fun status =>
    status.1 = tid && status.2

def step [DecidableEq Key] (indexed : Indexed Key) : IndexEvent Key → Option (Indexed Key)
  | .session event =>
      (indexed.session.step event).map fun next =>
        ⟨next, indexed.index ++ added key rel indexed.session next event⟩
  | .indexDelete fails xacts oldest deltids removed =>
      match indexed.session.step (.read rel fails) with
      | none => none
      | some next =>
          if next.failed = false ∧ ∀ entry ∈ removed,
              marked xacts oldest deltids (indexed.session.view rel).table entry.tid = true then
            some ⟨next, indexed.index.filter fun entry => entry ∉ removed⟩
          else none

def start (files : RelId → Option Table) : Indexed Key := ⟨Session.start files, []⟩

def run [DecidableEq Key] : Indexed Key → List (IndexEvent Key) → Option (Indexed Key) :=
  Transition.run (step key rel)

end Step

/-- The entry resolves through `tid_to_rowid` and `fetch_one_ref` to no row, or to a
row version with its key. -/
def Resolves (key : Bytes → Key) (table : Table) (entry : IndexEntry Key) : Prop :=
  ∀ row, table.selectOne (tidToRowid entry.tid) = some row → key row.tuple = entry.key

/-- The contents that the connection can still read or return to, listed. -/
def reachable (conn : RelConn) : List Contents :=
  conn.db.file :: match conn.db.txn with
    | none => []
    | some txn => txn.work :: txn.saves.map SavepointStack.Savepoint.contents

theorem mem_reachable_iff {conn : RelConn} {contents : Contents} :
    contents ∈ reachable conn ↔ conn.Reaches contents := by
  cases opened : conn.db.txn with
  | none => simp [reachable, opened, RelConn.reaches_of_txn_none opened]
  | some txn => simp [reachable, opened, RelConn.reaches_of_txn_some opened, eq_comm]

/-- Every rowid in the index is at most the largest one in the table. -/
def Bounds (table : Table) (index : List (IndexEntry Key)) : Prop :=
  ∀ entry ∈ index, tidToRowid entry.tid ≤ Table.maxRowid table.rows

instance (table : Table) (index : List (IndexEntry Key)) : Decidable (Bounds table index) :=
  inferInstanceAs (Decidable (∀ entry ∈ index, _))

/-- A call takes no row out of the file that leaves the index above the largest rowid,
and inserts none while a rollback can bring back a row above the largest rowid. The
new rowids fit a TID. An unlink leaves no entry. -/
def KeepsTop (rel : RelId) (indexed : Indexed Key) : Event → Prop
  | .call target write _ =>
      target = rel →
        let table := (indexed.session.view rel).table
        (∀ left ∈ write.remaining table, Bounds left indexed.index) ∧
          (0 < write.inserts →
            Table.maxRowid table.rows + write.inserts ≤ maxTidRowid ∧
              ∀ contents ∈ reachable (indexed.session.conn rel),
                Table.maxRowid contents.table.rows ≤ Table.maxRowid table.rows)
  | .commit => rel ∈ indexed.session.backend.drops → indexed.index = []
  | _ => True

/-- No row leaves the file, by a call or by a rollback, that is above the rows left
there and still in the index. -/
def KeepsRowids (rel : RelId) (indexed : Indexed Key) : IndexEvent Key → Prop
  | .session event =>
      (∀ contents ∈ indexed.session.returns rel event, Bounds contents.table indexed.index) ∧
        KeepsTop rel indexed event
  | .indexDelete _ _ _ _ _ => True

instance (rel : RelId) (indexed : Indexed Key) : ∀ event, Decidable (KeepsTop rel indexed event)
  | .call _ _ _ => inferInstanceAs (Decidable (_ → _ ∧ (_ → _ ∧ _)))
  | .commit => match indexed with
      | ⟨session, []⟩ => isTrue fun _ => rfl
      | ⟨session, entry :: rest⟩ =>
          decidable_of_iff (rel ∉ session.backend.drops) (by simp [KeepsTop])
  | .begin | .read _ _ | .drop _ | .startSub _ _ | .commitSub _ | .abortSub _ | .preCommit _ _
  | .abort _ => isTrue trivial

instance (rel : RelId) (indexed : Indexed Key) : ∀ event, Decidable (KeepsRowids rel indexed event)
  | .session _ => inferInstanceAs (Decidable (_ ∧ _))
  | .indexDelete _ _ _ _ _ => isTrue trivial

/-- No contents give a rowid of the index to a row with another key, and the rows that
are read reach as high as the index. -/
structure Faithful (key : Bytes → Key) (rel : RelId) (indexed : Indexed Key) : Prop where
  keyed : ∀ entry ∈ indexed.index, ∀ contents, (indexed.session.conn rel).Reaches contents →
    ∀ row ∈ contents.table.rows, row.rowid = tidToRowid entry.tid → key row.tuple = entry.key
  bounded : Bounds (indexed.session.view rel).table indexed.index

namespace Faithful

variable {key : Bytes → Key} {rel : RelId} {indexed next : Indexed Key} {event : IndexEvent Key}

theorem start (files : RelId → Option Table) :
    (Indexed.start files : Indexed Key).Faithful key rel where
  keyed := by simp [Indexed.start]
  bounded := by simp [Indexed.start, Bounds]

theorem table_append (contents : Contents) (ran : List Entry) :
    (contents.append ran).table =
      (ran.map Entry.stmt).foldl (fun table stmt => table.exec stmt) contents.table := by
  rw [Contents.append_table, List.foldl_map]

/-- What a step of the session can bring into view: nothing new, an empty file, or
the rows of a call. -/
theorem rows_of_step {session : Session} {event : Event}
    (stepped : indexed.session.step event = some session) {contents : Contents}
    (reaches : (session.conn rel).Reaches contents) :
    (indexed.session.conn rel).Reaches contents ∨ contents.table.rows = [] ∨
      ∃ write fails, event = .call rel write fails ∧
        (∀ row ∈ contents.table.rows, (indexed.session.view rel).table.Has row ∨
          Write.AtNewRowid (indexed.session.view rel).table write.inserts row) ∧
        (session.failed = false → contents.table = write.apply (indexed.session.view rel).table) := by
  rcases Session.reaches_of_step stepped reaches with
    old | ⟨_, rfl⟩ | ⟨write, fails, ran, called, rfl, extended⟩
  · exact .inl old
  · exact .inr (.inl rfl)
  · refine .inr (.inr ⟨write, fails, called, fun row member => ?_, fun sane => ?_⟩)
    · rw [table_append] at member
      exact Write.rows_of_first extended.first member
    · rw [table_append, extended.whole sane, Write.foldl_stmts]

theorem reaches_view (session : Session) : (session.conn rel).Reaches (session.view rel) := by
  rw [Session.view_eq]
  exact RelConn.reaches_view _

theorem keyed_old (faithful : indexed.Faithful key rel) {session : Session} {event : Event}
    (stepped : indexed.session.step event = some session) {entry : IndexEntry Key}
    (member : entry ∈ indexed.index) {contents : Contents}
    (reaches : (session.conn rel).Reaches contents) {row : StoredRow}
    (inContents : row ∈ contents.table.rows) (same : row.rowid = tidToRowid entry.tid) :
    key row.tuple = entry.key := by
  rcases rows_of_step stepped reaches with old | none | ⟨write, fails, rfl, rows, _⟩
  · exact faithful.keyed entry member contents old row inContents same
  · rw [none] at inContents
    cases inContents
  · rcases rows row inContents with ⟨before, inView, rowid, tuple⟩ | ⟨above, _⟩
    · rw [← tuple]
      exact faithful.keyed entry member _ (reaches_view _) before inView (rowid.trans same)
    · -- a new row is above everything in the index
      have below := faithful.bounded entry member
      omega

/-- An entry made by a call: its rowid is new, and the row has its key. -/
theorem added_of_call {session : Session} {event : Event} {entry : IndexEntry Key}
    (allowed : KeepsTop rel indexed event)
    (member : entry ∈ added key rel indexed.session session event) :
    ∃ write fails row, event = .call rel write fails ∧ session.failed = false ∧
      row ∈ (write.apply (indexed.session.view rel).table).rows ∧
      row.rowid = tidToRowid entry.tid ∧ key row.tuple = entry.key ∧
      Table.maxRowid (indexed.session.view rel).table.rows < row.rowid ∧
      ∀ contents, (indexed.session.conn rel).Reaches contents →
        Table.maxRowid contents.table.rows < row.rowid := by
  cases event with
  | call target write fails =>
      dsimp only [added] at member
      split at member
      · next succeeded =>
          obtain ⟨rfl, sane⟩ := succeeded
          obtain ⟨⟨tuple, rowid⟩, inNew, rfl⟩ := List.mem_map.mp member
          obtain ⟨above, below, row, inTable, newRowid, newTuple⟩ := Write.newRows_spec inNew
          obtain ⟨fits, restorable⟩ := (allowed rfl).2 (by omega)
          have positive : 1 ≤ rowid := by
            have bound := Table.maxRowid_nonneg (indexed.session.view target).table.positive
            omega
          refine ⟨write, fails, row, rfl, sane, inTable, ?_, by rw [newTuple], by omega,
            fun contents reaches => ?_⟩
          · rw [newRowid, tidToRowid_rowidToTid positive (by omega)]
          · have bound := restorable contents (mem_reachable_iff.mpr reaches)
            omega
      · cases member
  | begin | read | drop | startSub | commitSub | abortSub | preCommit | commit | abort => cases member

theorem keyed_new {session : Session} {event : Event} (allowed : KeepsTop rel indexed event)
    (stepped : indexed.session.step event = some session) {entry : IndexEntry Key}
    (member : entry ∈ added key rel indexed.session session event) {contents : Contents}
    (reaches : (session.conn rel).Reaches contents) {row : StoredRow}
    (inContents : row ∈ contents.table.rows) (same : row.rowid = tidToRowid entry.tid) :
    key row.tuple = entry.key := by
  obtain ⟨write, fails, new, rfl, sane, inTable, rowid, keyed, _, above⟩ :=
    added_of_call allowed member
  rcases rows_of_step stepped reaches with old | none | ⟨other, _, called, _, whole⟩
  · have bound := Table.rowid_le_maxRowid contents.table.sorted inContents
    have higher := above contents old
    omega
  · rw [none] at inContents
    cases inContents
  · cases called
    rw [← whole sane] at inTable
    rw [Table.eq_of_rowid_eq contents.table.sorted inContents inTable (same.trans rowid.symm), keyed]

/-- The entries that were there stay below the rows that are read. -/
theorem bounded_old (faithful : indexed.Faithful key rel) {session : Session} {event : Event}
    (allowed : KeepsRowids rel indexed (.session event))
    (stepped : indexed.session.step event = some session) :
    Bounds (session.view rel).table indexed.index := by
  cases Session.view_of_step stepped rel with
  | same unchanged =>
      rw [unchanged]
      exact faithful.bounded
  | unlinked dropped =>
      rw [show indexed.index = [] from allowed.2 dropped]
      exact nofun
  | @wrote write fails ran appended extended =>
      intro entry member
      have kept := Write.maxRowid_of_first extended.first (indexed.session.view rel).table rfl
      rw [← table_append, ← appended] at kept
      refine Int.le_trans ?_ kept
      cases left : write.remaining (indexed.session.view rel).table with
      | none => exact faithful.bounded entry member
      | some table => exact (allowed.2 rfl).1 table left entry member
  | returned _ back => exact allowed.1 _ back
  | unset back => exact allowed.1 _ back
  | unreleased back => exact allowed.1 _ back
  | undone back => exact allowed.1 _ back
  | aborted back => exact allowed.1 _ back

/-- A new entry is for a row that is read. -/
theorem bounded_new {session : Session} {event : Event} (allowed : KeepsTop rel indexed event)
    (stepped : indexed.session.step event = some session) :
    Bounds (session.view rel).table (added key rel indexed.session session event) := by
  intro entry member
  obtain ⟨write, fails, row, rfl, sane, inTable, rowid, _, above, _⟩ := added_of_call allowed member
  rw [← rowid]
  refine Table.rowid_le_maxRowid (session.view rel).table.sorted ?_
  rwa [Session.table_of_call stepped sane]

theorem step_session (faithful : indexed.Faithful key rel) {session : Session} {event : Event}
    (allowed : KeepsRowids rel indexed (.session event))
    (stepped : indexed.session.step event = some session) :
    (⟨session, indexed.index ++ added key rel indexed.session session event⟩ :
      Indexed Key).Faithful key rel where
  keyed entry member contents reaches row inContents same := by
    rcases List.mem_append.mp member with old | new
    · exact faithful.keyed_old stepped old reaches inContents same
    · exact keyed_new allowed.2 stepped new reaches inContents same
  bounded entry member := by
    rcases List.mem_append.mp member with old | new
    · exact faithful.bounded_old allowed stepped entry old
    · exact bounded_new allowed.2 stepped entry new

theorem step [DecidableEq Key] (faithful : indexed.Faithful key rel)
    (allowed : KeepsRowids rel indexed event) (stepped : indexed.step key rel event = some next) :
    next.Faithful key rel := by
  cases event with
  | session event =>
      obtain ⟨session, taken, rfl⟩ := Option.map_eq_some_iff.mp stepped
      exact faithful.step_session allowed taken
  | indexDelete fails xacts oldest deltids removed =>
      dsimp only [Indexed.step] at stepped
      split at stepped
      · cases stepped
      · next session taken =>
          split at stepped
          · next marked =>
              cases stepped
              have view : session.view rel = indexed.session.view rel := by
                cases Session.view_of_step taken rel with
                | same unchanged => exact unchanged
                | returned panicked =>
                    rw [marked.1] at panicked
                    cases panicked
              constructor
              case keyed =>
                intro entry member contents reaches row inContents same
                exact faithful.keyed_old taken (List.mem_filter.mp member).1 reaches inContents same
              case bounded =>
                intro entry member
                rw [show (_ : Indexed Key).session.view rel = _ from view]
                exact faithful.bounded entry (List.mem_filter.mp member).1
          · cases stepped

theorem run [DecidableEq Key] {files : RelId → Option Table} {events : List (IndexEvent Key)}
    (reached : Indexed.run key rel (Indexed.start files) events = some indexed)
    (allowed : Transition.Meets (Indexed.step key rel) (KeepsRowids rel) (Indexed.start files)
      events) : indexed.Faithful key rel :=
  Transition.run_invariant (fun _ _ _ faithful allowed stepped => faithful.step allowed stepped)
    (start files) allowed reached

end Faithful

/-- In every run where no row above all others leaves the file before its index entry,
every index entry resolves to no row or to one with its key, in whatever contents of
the relation are read or can come back. -/
theorem entries_resolve [DecidableEq Key] {key : Bytes → Key} {rel : RelId}
    {files : RelId → Option Table} {events : List (IndexEvent Key)} {indexed : Indexed Key}
    (reached : run key rel (start files) events = some indexed)
    (allowed : Transition.Meets (step key rel) (KeepsRowids rel) (start files) events) :
    ∀ entry ∈ indexed.index, ∀ contents, (indexed.session.conn rel).Reaches contents →
      Resolves key contents.table entry := by
  intro entry member contents reaches row found
  have faithful := Faithful.run reached allowed
  obtain ⟨inRows, same⟩ := Table.selectOne_eq_some_iff.mp found
  exact faithful.keyed entry member contents reaches row inRows same

def twoInserts : List (IndexEvent Bytes) :=
  [.session .begin, .session (.call 1 (.insert 100#32 0#32 [1]) Session.noFaults),
    .session (.preCommit [1] Session.noFaults), .session .commit, .session .begin,
    .session (.call 1 (.insert 101#32 0#32 [2]) Session.noFaults)]

theorem twoInserts_resolve :
    ∃ indexed : Indexed Bytes, run id 1 (start Session.noFiles) twoInserts = some indexed ∧
      indexed.index.length = 2 ∧ ∀ entry ∈ indexed.index,
        Resolves id (indexed.session.view 1).table entry := by
  have ends : ∃ indexed : Indexed Bytes,
      run id 1 (start Session.noFiles) twoInserts = some indexed ∧ indexed.index.length = 2 :=
    ⟨_, rfl, by decide⟩
  obtain ⟨indexed, reached, length⟩ := ends
  refine ⟨indexed, reached, length, fun entry member => ?_⟩
  refine entries_resolve reached (by decide) entry member _ ?_
  rw [Session.view_eq]
  exact RelConn.reaches_view _

/-- The first insert is rolled back, and its rowid goes to another row while the
index still has the entry. -/
def abortThenInsert : List (IndexEvent Bytes) :=
  [.session .begin, .session (.call 1 (.insert 100#32 0#32 [1]) Session.noFaults),
    .session (.abort Session.noFaults), .session .begin,
    .session (.call 1 (.insert 101#32 0#32 [2]) Session.noFaults)]

theorem abortThenInsert_foreign :
    ∃ indexed : Indexed Bytes, run id 1 (start Session.noFiles) abortThenInsert = some indexed ∧
      ∃ entry ∈ indexed.index, ¬ Resolves id (indexed.session.view 1).table entry := by
  refine ⟨_, rfl, ⟨[1], rowidToTid 1⟩, by decide, fun resolves => ?_⟩
  have same := resolves ⟨⟨1, 101#32, 0#32, 0#32, 0#32⟩, [2]⟩ (by decide)
  revert same
  decide

end Indexed

end SqliteHeap
