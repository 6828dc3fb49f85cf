import Mathlib.Data.List.Zip
import SqliteHeap.TableScan
import SqliteHeap.Vacuum

/-! Two tables of which the first has further rows, the residue of one transaction.
The other rows correspond in order and are equal apart from their rowids. Statements
on the residue, and statements on corresponding rows of both tables, keep it so. -/

set_option autoImplicit false

namespace SqliteHeap

namespace StoredRow

/-- A row apart from where it is stored. -/
def unplaced (row : StoredRow) : StoredRow := { row with rowid := 0 }

/-- The transaction with this xid inserted the row. -/
def insertedBy (xid : TransactionId) (row : StoredRow) : Bool := row.xmin = xid

@[simp] theorem insertedBy_stamp (xid : TransactionId) (rowid : Int) (xmax : TransactionId)
    (cmax : CommandId) (row : StoredRow) :
    (Table.stamp rowid xmax cmax row).insertedBy xid = row.insertedBy xid := by
  unfold Table.stamp
  split <;> rfl

end StoredRow

/-- The rows that others than this transaction inserted. -/
def othersRows (xid : TransactionId) (rows : List StoredRow) : List StoredRow :=
  rows.filter fun row => !row.insertedBy xid

/-- Apart from the rows of one transaction the tables hold the same. -/
structure Residue (xid : TransactionId) (table twin : Table) : Prop where
  rows : (othersRows xid table.rows).map StoredRow.unplaced = twin.rows.map StoredRow.unplaced
  metaRows : table.metaRows = twin.metaRows

namespace Residue

variable {xid : TransactionId} {table twin : Table}

theorem of_empty (xid : TransactionId) : Residue xid Table.empty Table.empty := ⟨rfl, rfl⟩

/-! ## Corresponding rows -/

def pairs (xid : TransactionId) (table twin : Table) : List (StoredRow × StoredRow) :=
  (othersRows xid table.rows).zip twin.rows

/-- The rowid of the row that corresponds to the one at `rowid`, zero if there is none. -/
def counterpart (xid : TransactionId) (table twin : Table) (rowid : Int) : Int :=
  (((pairs xid table twin).find? fun pair => pair.1.rowid = rowid).map
    fun pair => pair.2.rowid).getD 0

theorem same_of_mem_zip {α β γ : Type} {f : α → γ} {g : β → γ} {first : List α} {second : List β}
    (same : first.map f = second.map g) {pair : α × β} (member : pair ∈ first.zip second) :
    f pair.1 = g pair.2 := by
  induction first generalizing second with
  | nil => cases member
  | cons head tail ih =>
      cases second with
      | nil => cases member
      | cons head' tail' =>
          obtain ⟨heads, tails⟩ := List.cons.inj same
          rcases List.mem_cons.mp member with rfl | later
          · exact heads
          · exact ih tails later

theorem length_eq (residue : Residue xid table twin) :
    (othersRows xid table.rows).length = twin.rows.length := by
  simpa using congrArg List.length residue.rows

theorem pairs_fst (residue : Residue xid table twin) :
    (pairs xid table twin).map Prod.fst = othersRows xid table.rows :=
  List.map_fst_zip residue.length_eq.le

theorem pairs_snd (residue : Residue xid table twin) :
    (pairs xid table twin).map Prod.snd = twin.rows :=
  List.map_snd_zip residue.length_eq.ge

theorem same_of_mem (residue : Residue xid table twin) {pair : StoredRow × StoredRow}
    (member : pair ∈ pairs xid table twin) : pair.1.unplaced = pair.2.unplaced :=
  same_of_mem_zip residue.rows member

theorem pairs_pairwise (residue : Residue xid table twin) :
    (pairs xid table twin).Pairwise fun first second =>
      first.1.rowid < second.1.rowid ∧ first.2.rowid < second.2.rowid := by
  refine List.pairwise_and_iff.mpr ⟨?_, ?_⟩
  · have sorted : (othersRows xid table.rows).Pairwise _ := table.sorted.filter _
    rw [← residue.pairs_fst, List.pairwise_map] at sorted
    exact sorted
  · have sorted := twin.sorted
    rw [← residue.pairs_snd, List.pairwise_map] at sorted
    exact sorted

theorem rowid_eq_iff_of_mem (residue : Residue xid table twin)
    {first second : StoredRow × StoredRow} (inPairs : first ∈ pairs xid table twin)
    (inPairs' : second ∈ pairs xid table twin) :
    first.1.rowid = second.1.rowid ↔ first.2.rowid = second.2.rowid := by
  let Agree (first second : StoredRow × StoredRow) : Prop :=
    first.1.rowid = second.1.rowid ↔ first.2.rowid = second.2.rowid
  have apart : (pairs xid table twin).Pairwise Agree :=
    residue.pairs_pairwise.imp fun order => iff_of_false order.1.ne order.2.ne
  have converse : (pairs xid table twin).Pairwise (flip Agree) :=
    residue.pairs_pairwise.imp fun order => iff_of_false order.1.ne' order.2.ne'
  exact apart.forall_of_forall_of_flip (fun _ _ => ⟨fun _ => rfl, fun _ => rfl⟩) converse inPairs inPairs'

theorem rowid_eq_iff (residue : Residue xid table twin) {rowid : Int}
    {pair : StoredRow × StoredRow} (member : pair ∈ pairs xid table twin) :
    pair.1.rowid = rowid ↔ pair.2.rowid = counterpart xid table twin rowid := by
  unfold counterpart
  cases found : (pairs xid table twin).find? fun pair => pair.1.rowid = rowid with
  | none =>
      have absent := List.find?_eq_none.mp found pair member
      have inTwin : pair.2 ∈ twin.rows := by
        rw [← residue.pairs_snd]
        exact List.mem_map_of_mem member
      have positive := twin.positive pair.2 inTwin
      simp only [decide_eq_true_eq] at absent
      simp only [Option.map_none, Option.getD_none]
      omega
  | some first =>
      have stored : first.1.rowid = rowid := by simpa using List.find?_some found
      rw [Option.map_some, Option.getD_some, ← stored]
      exact residue.rowid_eq_iff_of_mem member (List.mem_of_find?_eq_some found)

/-! ## Statements -/

theorem of_pairs {table' twin' : Table} {change change' : StoredRow → StoredRow}
    (residue : Residue xid table twin)
    (rows : othersRows xid table'.rows = (othersRows xid table.rows).map change)
    (twinRows : twin'.rows = twin.rows.map change')
    (same : ∀ pair ∈ pairs xid table twin, (change pair.1).unplaced = (change' pair.2).unplaced)
    (metaRows : table'.metaRows = twin'.metaRows) : Residue xid table' twin' where
  rows := by
    rw [rows, twinRows, ← residue.pairs_fst, ← residue.pairs_snd, List.map_map, List.map_map,
      List.map_map, List.map_map]
    exact List.map_congr_left same
  metaRows := metaRows

theorem insertRow_own (residue : Residue xid table twin) (cmin : CommandId) (tuple : Bytes) :
    Residue xid (table.insertRow xid cmin tuple) twin where
  rows := by
    rw [← residue.rows]
    simp [othersRows, Table.insertRow, StoredRow.insertedBy]
  metaRows := residue.metaRows

theorem insertRow_both (residue : Residue xid table twin) {xmin : TransactionId}
    (foreign : xmin ≠ xid) (cmin : CommandId) (tuple : Bytes) :
    Residue xid (table.insertRow xmin cmin tuple) (twin.insertRow xmin cmin tuple) where
  rows := by
    have new : othersRows xid (table.insertRow xmin cmin tuple).rows =
        othersRows xid table.rows ++ [⟨⟨table.nextRowid, xmin, cmin, 0#32, 0#32⟩, tuple⟩] := by
      simp [othersRows, Table.insertRow, StoredRow.insertedBy, foreign]
    rw [new, List.map_append, residue.rows]
    simp [Table.insertRow, StoredRow.unplaced]
  metaRows := residue.metaRows

theorem insertBatch_own (residue : Residue xid table twin) (cmin : CommandId)
    (tuples : List Bytes) : Residue xid (table.insertBatch xid cmin tuples).1 twin := by
  induction tuples generalizing table with
  | nil => exact residue
  | cons tuple rest ih => exact ih (residue.insertRow_own cmin tuple)

theorem insertBatch_both (residue : Residue xid table twin) {xmin : TransactionId}
    (foreign : xmin ≠ xid) (cmin : CommandId) (tuples : List Bytes) :
    Residue xid (table.insertBatch xmin cmin tuples).1 (twin.insertBatch xmin cmin tuples).1 := by
  induction tuples generalizing table twin with
  | nil => exact residue
  | cons tuple rest ih => exact ih (residue.insertRow_both foreign cmin tuple)

theorem othersRows_stamp (xid : TransactionId) (rowid : Int) (xmax : TransactionId)
    (cmax : CommandId) (rows : List StoredRow) :
    othersRows xid (rows.map (Table.stamp rowid xmax cmax)) =
      (othersRows xid rows).map (Table.stamp rowid xmax cmax) := by
  simp [othersRows, List.filter_map, Function.comp_def]

theorem stampRow_own (residue : Residue xid table twin) {rowid : Int} (xmax : TransactionId)
    (cmax : CommandId)
    (own : ∀ row ∈ table.rows, Table.isLive rowid row = true → row.insertedBy xid = true) :
    Residue xid (table.stampRow rowid xmax cmax) twin where
  rows := by
    have unchanged : ∀ row ∈ othersRows xid table.rows, Table.stamp rowid xmax cmax row = row := by
      intro row member
      obtain ⟨inRows, others⟩ := List.mem_filter.mp member
      refine if_neg fun live => ?_
      simp [own row inRows live] at others
    have kept : othersRows xid (table.stampRow rowid xmax cmax).rows = othersRows xid table.rows :=
      (othersRows_stamp xid rowid xmax cmax table.rows).trans
        ((List.map_congr_left unchanged).trans (List.map_id _))
    rw [kept, residue.rows]
  metaRows := residue.metaRows

theorem isLive_pair (residue : Residue xid table twin) {pair : StoredRow × StoredRow}
    (member : pair ∈ pairs xid table twin) (rowid : Int) :
    Table.isLive rowid pair.1 = Table.isLive (counterpart xid table twin rowid) pair.2 := by
  have xmax : pair.1.unplaced.xmax = pair.2.unplaced.xmax := by rw [residue.same_of_mem member]
  change pair.1.xmax = pair.2.xmax at xmax
  simp only [Table.isLive, xmax, residue.rowid_eq_iff member]

theorem stampRow_both (residue : Residue xid table twin) (rowid : Int) (xmax : TransactionId)
    (cmax : CommandId) :
    Residue xid (table.stampRow rowid xmax cmax)
      (twin.stampRow (counterpart xid table twin rowid) xmax cmax) := by
  refine residue.of_pairs (othersRows_stamp xid rowid xmax cmax table.rows) rfl
    (fun pair member => ?_) residue.metaRows
  have same := residue.same_of_mem member
  simp only [Table.stamp, residue.isLive_pair member rowid]
  split
  · exact congrArg (fun row : StoredRow => { row with xmax := xmax, cmax := cmax }) same
  · exact same

/-- The stamp affects as many rows in both tables, unless it finds a row of the residue. -/
theorem affected_eq (residue : Residue xid table twin) {rowid : Int}
    (others : ∀ row ∈ table.rows, Table.isLive rowid row = true → row.insertedBy xid = false) :
    table.rows.countP (Table.isLive rowid) =
      twin.rows.countP (Table.isLive (counterpart xid table twin rowid)) := by
  have live : table.rows.countP (Table.isLive rowid) =
      (othersRows xid table.rows).countP (Table.isLive rowid) := by
    rw [othersRows, List.countP_filter]
    refine List.countP_congr fun row member => ?_
    constructor
    · intro found
      simp [found, others row member found]
    · intro both
      exact (Bool.and_eq_true_iff.mp both).1
  rw [live, ← residue.pairs_fst, ← residue.pairs_snd, List.countP_map, List.countP_map]
  refine List.countP_congr fun pair member => ?_
  rw [Function.comp_apply, Function.comp_apply, residue.isLive_pair member]

theorem keepRows_both (residue : Residue xid table twin) {keep : StoredRow → Bool}
    (unplaced : ∀ row, keep row = keep row.unplaced) :
    Residue xid (table.keepRows keep) (twin.keepRows keep) where
  rows := by
    have commutes : ∀ rows : List StoredRow,
        (rows.filter keep).map StoredRow.unplaced = (rows.map StoredRow.unplaced).filter keep := by
      intro rows
      rw [List.filter_map, Function.comp_def]
      simp only [← unplaced]
    calc (othersRows xid (table.rows.filter keep)).map StoredRow.unplaced
        = ((othersRows xid table.rows).filter keep).map StoredRow.unplaced := by
          rw [othersRows, othersRows, List.filter_comm]
      _ = (twin.rows.map StoredRow.unplaced).filter keep := by rw [commutes, residue.rows]
      _ = (twin.rows.filter keep).map StoredRow.unplaced := (commutes twin.rows).symm
  metaRows := residue.metaRows

theorem reset_own (residue : Residue xid table twin)
    (own : ∀ row ∈ table.rows, row.insertedBy xid = true) : Residue xid table.reset twin where
  rows := by
    have none : othersRows xid table.rows = [] :=
      List.filter_eq_nil_iff.mpr fun row member => by simp [own row member]
    rw [← residue.rows, none]
    simp [othersRows, Table.reset, Table.keepRows]
  metaRows := residue.metaRows

theorem reset_both (residue : Residue xid table twin) : Residue xid table.reset twin.reset :=
  residue.keepRows_both fun _ => rfl

theorem upsertMeta_both (residue : Residue xid table twin) (key : String) (value : Bytes) :
    Residue xid (table.upsertMeta key value) (twin.upsertMeta key value) where
  rows := residue.rows
  metaRows := by
    change _ :: _ = _ :: _
    rw [residue.metaRows]

theorem lastVacuumXmin_eq (residue : Residue xid table twin) :
    table.lastVacuumXmin = twin.lastVacuumXmin := by
  rw [Table.lastVacuumXmin, Table.lastVacuumXmin, Table.metaGet, Table.metaGet, residue.metaRows]

theorem relationVacuum_both (residue : Residue xid table twin) (oldest : TransactionId) :
    Residue xid (relationVacuum oldest table) (relationVacuum oldest twin) := by
  unfold relationVacuum Table.vacuumDead
  rw [residue.lastVacuumXmin_eq]
  split
  · exact residue
  · exact (residue.keepRows_both fun _ => rfl).upsertMeta_both _ _

/-! ## Scans -/

/-- A scan that sees no row of the residue returns corresponding rows. -/
theorem filter_visible {visible : StoredHeader → Bool}
    (unplaced : ∀ row : StoredRow, visible row.toStoredHeader = visible row.unplaced.toStoredHeader)
    (unseen : ∀ row : StoredRow, row.insertedBy xid = true → visible row.toStoredHeader = false)
    {rows twinRows : List StoredRow}
    (same : (othersRows xid rows).map StoredRow.unplaced = twinRows.map StoredRow.unplaced) :
    (rows.filter fun row => visible row.toStoredHeader).map StoredRow.unplaced =
      (twinRows.filter fun row => visible row.toStoredHeader).map StoredRow.unplaced := by
  have commutes : ∀ rows : List StoredRow,
      (rows.filter fun row => visible row.toStoredHeader).map StoredRow.unplaced =
        (rows.map StoredRow.unplaced).filter fun row => visible row.toStoredHeader := by
    intro rows
    rw [List.filter_map, Function.comp_def]
    simp only [← unplaced]
  have others : (rows.filter fun row => visible row.toStoredHeader) =
      (othersRows xid rows).filter fun row => visible row.toStoredHeader := by
    rw [othersRows, List.filter_filter]
    refine List.filter_congr fun row _ => ?_
    cases mine : row.insertedBy xid with
    | true => simp [unseen row mine]
    | false => simp
  rw [others, commutes, same, ← commutes]

theorem nextVisible_both {visible : StoredHeader → Bool}
    (unplaced : ∀ row : StoredRow, visible row.toStoredHeader = visible row.unplaced.toStoredHeader)
    (unseen : ∀ row : StoredRow, row.insertedBy xid = true → visible row.toStoredHeader = false)
    {rows twinRows : List StoredRow} {pos twinPos after twinAfter : Nat}
    {found twinFound : Option StoredRow}
    (same : (othersRows xid rows).map StoredRow.unplaced = twinRows.map StoredRow.unplaced)
    (next : SqliteCursor.nextVisible visible rows pos = (found, after))
    (twinNext : SqliteCursor.nextVisible visible twinRows twinPos = (twinFound, twinAfter)) :
    found.map StoredRow.unplaced = twinFound.map StoredRow.unplaced ∧
      (othersRows xid (rows.drop (after - pos))).map StoredRow.unplaced =
        (twinRows.drop (twinAfter - twinPos)).map StoredRow.unplaced := by
  induction rows generalizing pos twinRows twinPos with
  | nil =>
      obtain rfl : twinRows = [] := List.map_eq_nil_iff.mp same.symm
      cases next
      cases twinNext
      exact ⟨rfl, by simp [othersRows]⟩
  | cons row rest ih =>
      rw [SqliteCursor.nextVisible] at next
      cases mine : row.insertedBy xid with
      | true =>
          rw [if_neg (by simp [unseen row mine])] at next
          have skipped : othersRows xid (row :: rest) = othersRows xid rest := by
            simp [othersRows, mine]
          obtain ⟨first, later⟩ := ih (skipped ▸ same) next twinNext
          have steps : after - pos = (after - (pos + 1)) + 1 := by
            have advanced := (SqliteCursor.nextVisible_spec next).1
            omega
          rw [steps, List.drop_succ_cons]
          exact ⟨first, later⟩
      | false =>
          have kept : othersRows xid (row :: rest) = row :: othersRows xid rest := by
            simp [othersRows, mine]
          rw [kept] at same
          cases twinRows with
          | nil => cases same
          | cons twinRow twinRest =>
              obtain ⟨heads, tails⟩ := List.cons.inj same
              have alike : visible twinRow.toStoredHeader = visible row.toStoredHeader := by
                rw [unplaced, unplaced row, heads]
              rw [SqliteCursor.nextVisible, alike] at twinNext
              split at next
              · next seen =>
                  rw [if_pos seen] at twinNext
                  cases next
                  cases twinNext
                  exact ⟨congrArg some heads, by simpa using tails⟩
              · next unseen =>
                  rw [if_neg unseen] at twinNext
                  obtain ⟨first, later⟩ := ih tails next twinNext
                  have advanced := (SqliteCursor.nextVisible_spec next).1
                  have twinAdvanced := (SqliteCursor.nextVisible_spec twinNext).1
                  have steps : after - pos = (after - (pos + 1)) + 1 := by omega
                  have twinSteps : twinAfter - twinPos = (twinAfter - (twinPos + 1)) + 1 := by omega
                  rw [steps, twinSteps, List.drop_succ_cons, List.drop_succ_cons]
                  exact ⟨first, later⟩

end Residue

/-- Two cursors whose rows correspond, as do the rows that they have not reached. -/
structure CursorTwins (xid : TransactionId) (cursor twin : SqliteCursor) : Prop where
  rowsLoaded : cursor.rowsLoaded = twin.rowsLoaded
  unloaded : cursor.rowsLoaded = false → cursor.pos = 0 ∧ twin.pos = 0
  rows : (othersRows xid cursor.rows).map StoredRow.unplaced = twin.rows.map StoredRow.unplaced
  rest : (othersRows xid (cursor.rows.drop cursor.pos)).map StoredRow.unplaced =
    (twin.rows.drop twin.pos).map StoredRow.unplaced

namespace CursorTwins

variable {xid : TransactionId} {cursor twin : SqliteCursor} {table twinTable : Table}

theorem alloc (xid : TransactionId) : CursorTwins xid SqliteCursor.alloc SqliteCursor.alloc :=
  ⟨rfl, fun _ => ⟨rfl, rfl⟩, rfl, rfl⟩

theorem scanRescan (twins : CursorTwins xid cursor twin) :
    CursorTwins xid cursor.scanRescan twin.scanRescan :=
  ⟨twins.rowsLoaded, fun _ => ⟨rfl, rfl⟩, twins.rows, twins.rows⟩

theorem ensureRowsLoaded (twins : CursorTwins xid cursor twin)
    (residue : Residue xid table twinTable) :
    CursorTwins xid (cursor.ensureRowsLoaded table) (twin.ensureRowsLoaded twinTable) := by
  unfold SqliteCursor.ensureRowsLoaded
  rw [← twins.rowsLoaded]
  cases loaded : cursor.rowsLoaded with
  | true => exact twins
  | false =>
      obtain ⟨first, twinFirst⟩ := twins.unloaded loaded
      refine ⟨rfl, (fun unloaded => nomatch unloaded), residue.rows, ?_⟩
      simpa [first, twinFirst, Table.selectAll] using residue.rows

/-- A step of both cursors returns corresponding rows. -/
theorem doScanGetnext (twins : CursorTwins xid cursor twin) (residue : Residue xid table twinTable)
    {visible : StoredHeader → Bool}
    (unplaced : ∀ row : StoredRow, visible row.toStoredHeader = visible row.unplaced.toStoredHeader)
    (unseen : ∀ row : StoredRow, row.insertedBy xid = true → visible row.toStoredHeader = false) :
    (cursor.doScanGetnext visible table).1.map StoredRow.unplaced =
        (twin.doScanGetnext visible twinTable).1.map StoredRow.unplaced ∧
      CursorTwins xid (cursor.doScanGetnext visible table).2
        (twin.doScanGetnext visible twinTable).2 := by
  have loaded := twins.ensureRowsLoaded residue
  have already := SqliteCursor.ensureRowsLoaded_loaded table cursor
  unfold SqliteCursor.doScanGetnext
  generalize cursor.ensureRowsLoaded table = state at loaded already ⊢
  generalize twin.ensureRowsLoaded twinTable = twinState at loaded ⊢
  cases next : SqliteCursor.nextVisible visible (state.rows.drop state.pos) state.pos with
  | mk found after =>
      cases twinNext : SqliteCursor.nextVisible visible (twinState.rows.drop twinState.pos)
          twinState.pos with
      | mk twinFound twinAfter =>
          obtain ⟨first, later⟩ :=
            Residue.nextVisible_both unplaced unseen loaded.rest next twinNext
          have advanced := (SqliteCursor.nextVisible_spec next).1
          have twinAdvanced := (SqliteCursor.nextVisible_spec twinNext).1
          rw [List.drop_drop, List.drop_drop, Nat.add_sub_cancel' advanced,
            Nat.add_sub_cancel' twinAdvanced] at later
          simp only [next, twinNext]
          exact ⟨first, loaded.rowsLoaded, fun unloaded => absurd unloaded (by simp [already]),
            loaded.rows, later⟩

end CursorTwins

end SqliteHeap
