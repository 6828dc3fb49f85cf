import SqliteHeap.Backends
import SqliteHeap.SubtransactionVisibility

/-! What a scan of a relation returns. The rows are the versions that the relation's
log makes, less those that VACUUM has removed, and `row_visible` shows a version
exactly when the snapshot sees its creator and not its deleter. -/

set_option autoImplicit false

namespace SqliteHeap

open Versions

abbrev RowVersion := Version Writer Nat Bytes

/-- A row as a version of a logical row, apart from its TID. -/
structure RowImage where
  header : StoredHeader
  tuple : Bytes
  key : Nat
deriving DecidableEq

def RowImage.entry (image : RowImage) : Nat × Bytes := (image.key, image.tuple)

/-- The row that a version is stored as. -/
def RowImage.ofVersion (version : RowVersion) : RowImage where
  header :=
    { rowid := 0
      xmin := storedXid version.creator.txn.xid
      cmin := storedCid version.creator.cid
      xmax := (version.deleter.map fun deleter => storedXid deleter.txn.xid).getD 0#32
      cmax := (version.deleter.map fun deleter => storedCid deleter.cid).getD 0#32 }
  tuple := version.value
  key := version.creator.key

namespace Relation

def image (rel : Relation) (row : StoredRow) : RowImage :=
  ⟨{ row.toStoredHeader with rowid := 0 }, row.tuple, rel.named row.rowid⟩

/-- The last horizon that VACUUM reached. -/
def watermark (rel : Relation) : Nat := rel.table.lastVacuumXmin.toNat

/-- VACUUM has not removed the version. -/
def keeps (rel : Relation) (version : RowVersion) : Bool :=
  version.deleter.all fun deleter => rel.watermark ≤ deleter.txn.xid

/-- The rows are the remaining versions of the log. -/
def Stores (rel : Relation) : Prop :=
  rel.table.rows.map rel.image = ((versions rel.log).filter rel.keeps).map RowImage.ofVersion

theorem Stores.version_of_mem {rel : Relation} (stores : rel.Stores) {row : StoredRow}
    (member : row ∈ rel.table.rows) :
    ∃ version ∈ versions rel.log, RowImage.ofVersion version = rel.image row := by
  have stored : rel.image row ∈ ((versions rel.log).filter rel.keeps).map RowImage.ofVersion := by
    rw [← stores]
    exact List.mem_map_of_mem member
  obtain ⟨version, kept, same⟩ := List.mem_map.mp stored
  exact ⟨version, (List.mem_filter.mp kept).1, same⟩

end Relation

/-- A command that carries its transaction's xid. -/
structure Known (history : History) (op : Command) : Prop where
  assigned : ⟨op.txn.xid, op.txn.txn, false⟩ ∈ history.assigned
  cid : op.cid < 2 ^ 32

/-- What Postgres has handed out: no subtransaction xids, and less than half the circle. -/
structure TopLevel (history : History) : Prop where
  formed : history.WellFormed
  top : ∀ assigned ∈ history.assigned, assigned.sub = false
  near : history.nextXid ≤ 2 ^ 31

theorem Known.since {history later : History} {op : Command} (known : Known history op)
    (since : history.Since later) : Known later op :=
  ⟨since.kept _ known.assigned (.inl rfl), known.cid⟩

namespace Known

variable {history : History} {op : Command}

theorem named_of_recent (known : Known history op) (formed : history.WellFormed)
    (recent : history.nextXid ≤ op.txn.xid + 2 ^ 32) :
    history.named (storedXid op.txn.xid) = some ⟨op.txn.xid, op.txn.txn, false⟩ :=
  formed.named_iff.mpr ⟨known.assigned, rfl, recent⟩

theorem lt_nextXid (known : Known history op) (postgres : TopLevel history) :
    op.txn.xid < history.nextXid := postgres.formed.below _ known.assigned

theorem storedXid_ne_zero (known : Known history op) (formed : history.WellFormed) :
    storedXid op.txn.xid ≠ 0#32 := by
  have normal : 3 ≤ op.txn.xid % 2 ^ 32 := formed.normal _ known.assigned
  intro zero
  have value : op.txn.xid % 2 ^ 32 = 0 := by simpa [storedXid] using congrArg BitVec.toNat zero
  omega

end Known

theorem storedCid_lt_iff {cid curcid : Nat} (fits : cid < 2 ^ 32) (fits' : curcid < 2 ^ 32) :
    storedCid cid < storedCid curcid ↔ cid < curcid := by
  rw [BitVec.lt_def, storedCid, storedCid, BitVec.toNat_ofNat, BitVec.toNat_ofNat,
    Nat.mod_eq_of_lt fits, Nat.mod_eq_of_lt fits']

namespace Snap

variable {snap : Snap} {history : History}

/-- What `row_visible` counts as done for the snapshot is what the snapshot sees, up to half
the circle of xids later. -/
theorem counts_iff_sees (use : History.InUse snap.taken history snap.owner) (fits : snap.curcid < 2 ^ 32)
    {op : Command} (known : Known history op) (recent : history.nextXid ≤ op.txn.xid + 2 ^ 31) :
    History.Happened snap.taken history snap.owner (storedCid snap.curcid) (storedXid op.txn.xid)
          (storedCid op.cid) ∧ ¬ History.TooOld snap.taken history (storedXid op.txn.xid) ∨
        History.CommittedSince snap.taken history snap.owner (storedXid op.txn.xid) ↔
      snap.sees op = true := by
  have named := known.named_of_recent use.formedNow (by omega)
  have bound := use.formed.xmin_le_nextXid
  have grown := use.since.nextXid
  have near : ¬ History.TooOld snap.taken history (storedXid op.txn.xid) := by
    simp only [History.TooOld, named, Option.some.injEq, exists_eq_left']
    omega
  have top : ¬ History.CommittedSince snap.taken history snap.owner (storedXid op.txn.xid) := by
    simp [History.CommittedSince, named]
  simp [near, top, History.Happened, History.CommittedWhenTaken, History.Own, named,
    (use.formedNow.not_permanent named).1, sees, storedCid_lt_iff known.cid fits]

/-- `row_visible` shows a stored version when the snapshot sees its creator and not its
deleter. -/
theorem rowVisible_ofVersion (use : History.InUse snap.taken history snap.owner)
    (postgres : TopLevel history) (fits : snap.curcid < 2 ^ 32) {version : RowVersion}
    (creator : Known history version.creator)
    (deleter : ∀ op, version.deleter = some op → Known history op) :
    (Visibility.rowVisible (history.xacts snap.owner) (RowImage.ofVersion version).header
      snap.snapshot).1 = version.visible snap.sees := by
  have counts : ∀ op, Known history op → _ := fun op known =>
    snap.counts_iff_sees use fits known (Nat.le_trans postgres.near (Nat.le_add_left _ _))
  rw [Bool.eq_iff_iff]
  change (Visibility.rowVisible _ _ (snap.taken.snapshot snap.owner (storedCid snap.curcid))).1 =
    true ↔ _
  rw [use.rowVisible_iff]
  cases ended : version.deleter with
  | none =>
      have undeleted : ¬ (History.Happened snap.taken history snap.owner (storedCid snap.curcid)
          0#32 0#32 ∧ ¬ History.TooOld snap.taken history 0#32 ∨
            History.CommittedSince snap.taken history snap.owner 0#32) :=
        fun counts => use.nonzero_of_counts counts rfl
      simp only [RowImage.ofVersion, ended, Version.visible, counts version.creator creator,
        Option.map_none, Option.getD_none, Option.any_none, Bool.not_false, Bool.and_true]
      exact and_iff_left undeleted
  | some op =>
      simp [RowImage.ofVersion, ended, Version.visible, counts version.creator creator,
        counts op (deleter op ended)]

end Snap

/-- A relation that a snapshot can scan. -/
structure Readable (history : History) (snap : Snap) (rel : Relation) : Prop where
  stores : rel.Stores
  known : ∀ op ∈ rel.log, Known history op
  closed : ClosedFor snap.sees rel.log
  /-- What VACUUM removed was deleted for the snapshot. -/
  reclaimed : ∀ op ∈ rel.log, op.txn.xid < rel.watermark → snap.sees op = true

namespace Readable

variable {history : History} {snap : Snap} {rel : Relation}

theorem since {later : History} (readable : Readable history snap rel) (since : history.Since later) :
    Readable later snap rel :=
  { readable with known := fun op member => (readable.known op member).since since }

/-- The row is stored from a version whose fate decides its visibility. -/
theorem rowVisible_eq (readable : Readable history snap rel)
    (use : History.InUse snap.taken history snap.owner) (postgres : TopLevel history)
    (fits : snap.curcid < 2 ^ 32) {version : RowVersion} (member : version ∈ versions rel.log) :
    (Visibility.rowVisible (history.xacts snap.owner) (RowImage.ofVersion version).header
      snap.snapshot).1 = version.visible snap.sees := by
  obtain ⟨creator, deleter⟩ := mem_log member
  exact Snap.rowVisible_ofVersion use postgres fits (readable.known _ creator)
    fun op ended => readable.known op (deleter op ended).1

/-- The visible rows of a relation are the snapshot-isolation store at the snapshot. -/
theorem visible_rows (readable : Readable history snap rel)
    (use : History.InUse snap.taken history snap.owner) (postgres : TopLevel history)
    (fits : snap.curcid < 2 ^ 32) :
    (rel.table.rows.filter fun row => (Visibility.rowVisible (history.xacts snap.owner)
      row.toStoredHeader snap.snapshot).1).map rel.entry = snap.store rel.log := by
  let seen : RowImage → Bool := fun image =>
    (Visibility.rowVisible (history.xacts snap.owner) image.header snap.snapshot).1
  have visible : ∀ version ∈ versions rel.log, seen (RowImage.ofVersion version) =
      version.visible snap.sees :=
    fun version member => readable.rowVisible_eq use postgres fits member
  have kept : ∀ version ∈ versions rel.log,
      (version.visible snap.sees && rel.keeps version) = version.visible snap.sees := by
    intro version member
    rw [Bool.and_eq_left_iff_imp]
    intro shown
    cases ended : version.deleter with
    | none => simp [Relation.keeps, ended]
    | some op =>
        have unseen : snap.sees op = false := by
          simpa [ended] using (Bool.and_eq_true_iff.mp shown).2
        have reclaimed := readable.reclaimed op ((mem_log member).2 op ended).1
        simp only [Relation.keeps, ended, Option.all_some, decide_eq_true_eq]
        by_contra below
        rw [reclaimed (by omega)] at unseen
        cases unseen
  calc (rel.table.rows.filter (seen ∘ rel.image)).map (RowImage.entry ∘ rel.image)
      = ((rel.table.rows.map rel.image).filter seen).map RowImage.entry := by
        rw [List.filter_map, List.map_map]
    _ = ((((versions rel.log).filter rel.keeps).map RowImage.ofVersion).filter seen).map
          RowImage.entry := by rw [readable.stores]
    _ = (((versions rel.log).filter rel.keeps).filter (seen ∘ RowImage.ofVersion)).map
          Version.entry := by
        rw [List.filter_map, List.map_map]
        rfl
    _ = ((versions rel.log).filter (Version.visible snap.sees)).map Version.entry := by
        rw [List.filter_filter]
        congr 1
        refine List.filter_congr fun version member => ?_
        rw [Function.comp_apply, visible version member, kept version member]
    _ = snap.store rel.log := visible_eq_store readable.closed

theorem rowVisible_since {later : History} (readable : Readable history snap rel)
    (use : History.InUse snap.taken history snap.owner) (postgres : TopLevel history)
    (use' : History.InUse snap.taken later snap.owner) (postgres' : TopLevel later)
    (since : history.Since later) (fits : snap.curcid < 2 ^ 32) {row : StoredRow}
    (member : row ∈ rel.table.rows) :
    (Visibility.rowVisible (later.xacts snap.owner) row.toStoredHeader snap.snapshot).1 =
      (Visibility.rowVisible (history.xacts snap.owner) row.toStoredHeader snap.snapshot).1 := by
  obtain ⟨version, inVersions, same⟩ := readable.stores.version_of_mem member
  have now := readable.rowVisible_eq use postgres fits inVersions
  have afterwards := (readable.since since).rowVisible_eq use' postgres' fits inVersions
  rw [same] at now afterwards
  exact afterwards.trans now.symm

end Readable

end SqliteHeap
