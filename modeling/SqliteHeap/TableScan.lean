import SqliteHeap.Storage

/-! `tam.rs`: the sequential scan. A cursor loads the whole relation at its first use
and then steps over the rows that its snapshot does not see. -/

set_option autoImplicit false

namespace SqliteHeap

/-- The fields of `SqliteCursor` that a sequential scan uses. -/
structure SqliteCursor where
  rows : List StoredRow
  rowsLoaded : Bool
  pos : Nat

namespace SqliteCursor

/-- `SqliteScanState::alloc`. -/
def alloc : SqliteCursor := ⟨[], false, 0⟩

def ensureRowsLoaded (table : Table) (cursor : SqliteCursor) : SqliteCursor :=
  if !cursor.rowsLoaded then { cursor with rows := table.selectAll, rowsLoaded := true }
  else cursor

/-- The loop of `do_scan_getnext` over the rows from the position on. -/
def nextVisible (visible : StoredHeader → Bool) : List StoredRow → Nat → Option StoredRow × Nat
  | [], pos => (none, pos)
  | row :: rest, pos =>
      if visible row.toStoredHeader then (some row, pos + 1)
      else nextVisible visible rest (pos + 1)

/-- `do_scan_getnext`; no row is `false`. -/
def doScanGetnext (visible : StoredHeader → Bool) (table : Table) (cursor : SqliteCursor) :
    Option StoredRow × SqliteCursor :=
  let loaded := cursor.ensureRowsLoaded table
  let (found, pos) := nextVisible visible (loaded.rows.drop loaded.pos) loaded.pos
  (found, { loaded with pos := pos })

def scanRescan (cursor : SqliteCursor) : SqliteCursor := { cursor with pos := 0 }

/-- Call `do_scan_getnext` until it returns false. -/
def drain (visible : StoredHeader → Bool) (table : Table) : Nat → SqliteCursor → List StoredRow
  | 0, _ => []
  | fuel + 1, cursor =>
      match cursor.doScanGetnext visible table with
      | (none, _) => []
      | (some row, next) => row :: drain visible table fuel next

/-- The rows that a loaded cursor has not returned yet. -/
def remaining (visible : StoredHeader → Bool) (cursor : SqliteCursor) : List StoredRow :=
  (cursor.rows.drop cursor.pos).filter fun row => visible row.toStoredHeader

theorem nextVisible_spec {visible : StoredHeader → Bool} {rest : List StoredRow} {pos after : Nat}
    {found : Option StoredRow} (next : nextVisible visible rest pos = (found, after)) :
    pos ≤ after ∧
      rest.filter (fun row => visible row.toStoredHeader) =
        found.toList ++ (rest.drop (after - pos)).filter (fun row => visible row.toStoredHeader) ∧
      (found = none → rest.drop (after - pos) = []) := by
  induction rest generalizing pos with
  | nil =>
      cases next
      simp
  | cons row rest ih =>
      rw [nextVisible] at next
      split at next
      · next seen =>
          cases next
          simp [seen]
      · next unseen =>
          obtain ⟨later, kept, ended⟩ := ih next
          have steps : after - pos = (after - (pos + 1)) + 1 := by omega
          refine ⟨by omega, ?_, fun none => ?_⟩
          · rw [steps, List.drop_succ_cons, List.filter_cons, if_neg unseen, kept]
          · rw [steps, List.drop_succ_cons, ended none]

theorem ensureRowsLoaded_loaded (table : Table) (cursor : SqliteCursor) :
    (cursor.ensureRowsLoaded table).rowsLoaded = true := by
  unfold ensureRowsLoaded
  split
  · rfl
  · next already => simpa using already

theorem doScanGetnext_spec {visible : StoredHeader → Bool} {table : Table}
    {cursor after : SqliteCursor} {found : Option StoredRow}
    (next : cursor.doScanGetnext visible table = (found, after)) :
    (cursor.ensureRowsLoaded table).remaining visible = found.toList ++ after.remaining visible ∧
      (found = none → after.remaining visible = []) ∧
      after.rows = (cursor.ensureRowsLoaded table).rows ∧ after.rowsLoaded = true := by
  have loaded := ensureRowsLoaded_loaded table cursor
  unfold doScanGetnext at next
  generalize cursor.ensureRowsLoaded table = state at loaded next ⊢
  cases advanced : nextVisible visible (state.rows.drop state.pos) state.pos with
  | mk first pos =>
      simp only [advanced] at next
      obtain ⟨rfl, rfl⟩ := Prod.mk.inj next
      obtain ⟨later, kept, ended⟩ := nextVisible_spec advanced
      have drops : (state.rows.drop state.pos).drop (pos - state.pos) = state.rows.drop pos := by
        rw [List.drop_drop, Nat.add_sub_cancel' later]
      rw [drops] at kept ended
      refine ⟨kept, fun none => ?_, rfl, loaded⟩
      rw [remaining, ended none]
      rfl

theorem drain_eq_remaining {visible : StoredHeader → Bool} {table : Table} {fuel : Nat}
    {cursor : SqliteCursor} (enough : ((cursor.ensureRowsLoaded table).remaining visible).length < fuel) :
    cursor.drain visible table fuel = (cursor.ensureRowsLoaded table).remaining visible := by
  induction fuel generalizing cursor with
  | zero => omega
  | succ fuel ih =>
      rw [drain]
      split
      · next after next =>
          obtain ⟨rows, ended, _⟩ := doScanGetnext_spec next
          rw [rows, ended rfl]
          rfl
      · next row after next =>
          obtain ⟨rows, _, _, loaded⟩ := doScanGetnext_spec next
          have already : after.ensureRowsLoaded table = after := by simp [ensureRowsLoaded, loaded]
          rw [rows] at enough ⊢
          simp only [Option.toList_some, List.cons_append, List.nil_append, List.length_cons] at enough
          rw [ih (by rw [already]; omega), already]
          rfl

end SqliteCursor

/-- A full scan: from `scan_begin` until `do_scan_getnext` returns false. -/
def fullScan (visible : StoredHeader → Bool) (table : Table) : List StoredRow :=
  SqliteCursor.alloc.drain visible table (table.rows.length + 1)

/-- A full scan returns exactly the visible rows, in rowid order. -/
theorem fullScan_eq (visible : StoredHeader → Bool) (table : Table) :
    fullScan visible table = table.rows.filter fun row => visible row.toStoredHeader := by
  have rows : (SqliteCursor.alloc.ensureRowsLoaded table).remaining visible =
      table.rows.filter fun row => visible row.toStoredHeader := rfl
  rw [fullScan, SqliteCursor.drain_eq_remaining]
  · exact rows
  · rw [rows]
    exact Nat.lt_succ_of_le (List.length_filter_le _ _)

end SqliteHeap
