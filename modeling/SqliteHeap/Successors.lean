import SqliteHeap.Lineage

/-! The successors of row versions. `update_row` guards its stamp and not its insert, so two
updates of one version leave it one stamp and two successors. While every UPDATE stamps the
version that it replaces, the versions of an inserted row form a chain: each was ended by a
command that the next one follows, and no snapshot sees two of them. -/

set_option autoImplicit false

namespace SqliteHeap

open Versions

namespace Trace

variable {trace : Trace} {backends next : Backends} {op : Command} {rowid : Int}

theorem Tells.rowVisible_iff {table : Table} {snap : Snap}
    (tells : trace.Tells (Lineage.Recent (2 ^ 31) backends.history) backends.history table)
    (use : History.InUse snap.taken backends.history snap.owner) (fits : snap.curcid < 2 ^ 32)
    {row : StoredRow} (member : row ∈ table.rows) :
    backends.rowVisible snap row.toStoredHeader = true ↔
      snap.sees (trace.creator (trace.ids row.rowid)) = true ∧
        ∀ op, trace.deleter (trace.ids row.rowid) = some op → snap.sees op = false := by
  have below := tells.below row member
  obtain ⟨xmin, cmin, recent⟩ := tells.inserted row member
  have created := Snap.counts_iff_sees use fits (tells.created _ below) recent
  change (Visibility.rowVisible _ _ (snap.taken.snapshot snap.owner (storedCid snap.curcid))).1 =
    true ↔ _
  rw [use.rowVisible_iff, xmin, cmin, created]
  refine and_congr_right fun _ => ?_
  cases ended : trace.deleter (trace.ids row.rowid) with
  | none =>
      have live := tells.undeleted row member ended
      refine iff_of_true (fun counts => use.nonzero_of_counts counts live) fun op found => nomatch found
  | some op =>
      obtain ⟨xmax, cmax, recent'⟩ := tells.deleted row member op ended
      have deleted := Snap.counts_iff_sees use fits (tells.ended _ below op ended) recent'
      rw [xmax, cmax, deleted]
      simp

/-- The versions of every inserted row form a chain, and every link stamped its old version. -/
structure Chained (backends : Backends) (trace : Trace) : Prop where
  chain : ∀ first second, first < second → second < trace.count →
    (trace.creator first).key = (trace.creator second).key →
      ∃ op, trace.deleter first = some op ∧ backends.Follows op (trace.creator second)
  fresh : ∀ id < trace.count, (trace.creator id).key ≤ id
  linked : ∀ link ∈ trace.links, link.old < trace.count ∧ trace.deleter link.old ≠ none
  single : trace.links.Pairwise fun first second => first.old ≠ second.old
  stamped : ∀ link ∈ trace.links, link.stamped = true

namespace Chained

theorem empty (backends : Backends) : Trace.empty.Chained backends :=
  ⟨nofun, nofun, nofun, .nil, nofun⟩

theorem transfer (chained : trace.Chained backends)
    (follows : ∀ earlier later, backends.Follows earlier later → next.Follows earlier later) :
    trace.Chained next :=
  { chained with
    chain := fun first second before below same => by
      obtain ⟨op, ended, ordered⟩ := chained.chain first second before below same
      exact ⟨op, ended, follows _ _ ordered⟩ }

/-- A new version, whose command follows those that ended the earlier versions of its row. -/
theorem insert (chained : trace.Chained backends) (fresh : op.key ≤ trace.count)
    (builds : ∀ id < trace.count, (trace.creator id).key = op.key →
      ∃ ended, trace.deleter id = some ended ∧ backends.Follows ended op) (rowid : Int) :
    (trace.insert op rowid).Chained backends := by
  refine ⟨fun first second before below same => ?_, fun id below => ?_, fun link member => ?_,
    chained.single, chained.stamped⟩
  · rcases Nat.lt_succ_iff_lt_or_eq.mp below with old | rfl
    · rw [creator_insert_of_lt _ _ _ (before.trans old), creator_insert_of_lt _ _ _ old] at same
      rw [deleter_insert_of_lt _ _ _ (before.trans old), creator_insert_of_lt _ _ _ old]
      exact chained.chain first second before old same
    · rw [creator_insert_of_lt _ _ _ before, creator_insert_self] at same
      rw [deleter_insert_of_lt _ _ _ before, creator_insert_self]
      exact builds first before same
  · rcases Nat.lt_succ_iff_lt_or_eq.mp below with old | rfl
    · rw [creator_insert_of_lt _ _ _ old]
      exact chained.fresh id old
    · rw [creator_insert_self]
      exact fresh
  · obtain ⟨old, ended⟩ := chained.linked link member
    exact ⟨Nat.lt_succ_of_lt old, deleter_insert_of_lt op rowid trace old ▸ ended⟩

/-- A stamp ends the last version of its row. -/
theorem stamp (chained : trace.Chained backends) (live : trace.deleter (trace.ids rowid) = none)
    (op : Command) : (trace.stamp op rowid).Chained backends := by
  have unlike {id : VersionId} (ended : trace.deleter id ≠ none) : id ≠ trace.ids rowid := by
    rintro rfl
    exact ended live
  refine ⟨fun first second before below same => ?_, chained.fresh, fun link member => ?_,
    chained.single, chained.stamped⟩
  · obtain ⟨ended, found, follows⟩ := chained.chain first second before below same
    rw [deleter_stamp_of_ne _ _ _ (unlike (found ▸ Option.some_ne_none ended))]
    exact ⟨ended, found, follows⟩
  · obtain ⟨below, ended⟩ := chained.linked link member
    exact ⟨below, deleter_stamp_of_ne op rowid trace (unlike ended) ▸ ended⟩

theorem link (chained : trace.Chained backends) {link : Link} (below : link.old < trace.count)
    (ended : trace.deleter link.old ≠ none) (first : ∀ other ∈ trace.links, other.old ≠ link.old)
    (stamped : link.stamped = true) : ({ trace with links := trace.links ++ [link] }).Chained backends where
  chain := chained.chain
  fresh := chained.fresh
  linked := List.forall_mem_append.mpr ⟨chained.linked, List.forall_mem_singleton.mpr ⟨below, ended⟩⟩
  single := by
    refine List.pairwise_append.mpr ⟨chained.single, List.pairwise_singleton _ _, ?_⟩
    exact fun other member => List.forall_mem_singleton.mpr (first other member)
  stamped := List.forall_mem_append.mpr ⟨chained.stamped, List.forall_mem_singleton.mpr stamped⟩

theorem unlinked (chained : trace.Chained backends) {id : VersionId} (live : trace.deleter id = none) :
    ∀ other ∈ trace.links, other.old ≠ id := by
  rintro other member rfl
  exact (chained.linked other member).2 live

theorem multiInsert (chained : trace.Chained backends) (writer : Writer) (cid : Nat) (tuples : List Bytes)
    (rowid : Int) : (trace.multiInsert writer cid tuples rowid).Chained backends := by
  induction tuples generalizing trace rowid with
  | nil => exact chained
  | cons tuple rest ih =>
      refine ih (chained.insert (Nat.le_refl _) (fun id below same => ?_) rowid) (rowid + 1)
      exact absurd same (Nat.lt_of_le_of_lt (chained.fresh id below) below).ne

theorem tupleDelete (chained : trace.Chained backends) (below : trace.ids rowid < trace.count)
    (live : trace.deleter (trace.ids rowid) = none) (writer : Writer) (cid : Nat) :
    (trace.tupleDelete writer cid rowid true).Chained backends := by
  refine (chained.stamp live ⟨writer, cid, trace.origin rowid, none⟩).link below ?_
    (chained.unlinked live) rfl
  rw [deleter_stamp_self]
  exact Option.some_ne_none _

/-- An UPDATE stamps the last version of its row, and its snapshot sees what made it. -/
theorem tupleUpdate (chained : trace.Chained backends) (snapshots : backends.Snapshots)
    (below : trace.ids rowid < trace.count) (live : trace.deleter (trace.ids rowid) = none)
    {writer : Writer} {cid : Nat} {tuple : Bytes} {snap : Snap}
    (executes : backends.Executes snap ⟨writer, cid, trace.origin rowid, some tuple⟩)
    (seen : snap.sees (trace.creator (trace.ids rowid)) = true) (newRowid : Int) :
    (trace.tupleUpdate writer cid rowid tuple newRowid true).Chained backends := by
  let op : Command := ⟨writer, cid, trace.origin rowid, some tuple⟩
  let ended := trace.stamp op rowid
  have self : ended.deleter (trace.ids rowid) = some op := trace.deleter_stamp_self op rowid
  have stamped : ended.Chained backends := chained.stamp live op
  have fresh : op.key ≤ ended.count := (chained.fresh _ below).trans below.le
  have inserted : (ended.insert op newRowid).Chained backends := by
    refine stamped.insert fresh (fun id old same => ?_) newRowid
    rcases Nat.lt_trichotomy id (trace.ids rowid) with before | rfl | after
    · obtain ⟨ender, found, follows⟩ := stamped.chain id _ before below same
      exact ⟨ender, found, .of_sees snapshots executes (follows.closed snap executes.member seen)⟩
    · exact ⟨op, self, .refl backends op⟩
    · obtain ⟨ender, found, _⟩ := chained.chain _ id after old same.symm
      rw [live] at found
      cases found
  refine inserted.link (Nat.lt_succ_of_lt below) ?_ (chained.unlinked live) rfl
  change (ended.insert op newRowid).deleter (trace.ids rowid) ≠ none
  rw [deleter_insert_of_lt op newRowid ended below, self]
  exact Option.some_ne_none op

end Chained

end Trace

namespace Lineage

variable {lineage next : Lineage} {txn : TxnId} {event : BackendsEvent}

/-- Postgres passes `tuple_update` a version that a snapshot of its transaction sees. -/
def Aimed (lineage : Lineage) : BackendsEvent → Prop
  | .tupleUpdate txn snapId rowid _ =>
      ∃ snap ∈ lineage.backends.snaps, snap.id = snapId ∧ snap.owner = txn ∧
        ∃ row ∈ (lineage.backends.view txn).table.rows, row.rowid = rowid ∧
          lineage.backends.rowVisible snap row.toStoredHeader = true
  | _ => True

/-- What Postgres promises of its calls. -/
def Promised (lineage : Lineage) (event : BackendsEvent) : Prop :=
  lineage.Windowed event ∧ lineage.Aimed event

/-- The version that `tuple_update` replaces has no `xmax` when its UPDATE runs. -/
def Stamps (lineage : Lineage) : BackendsEvent → Prop
  | .tupleUpdate txn _ rowid _ => (lineage.backends.view txn).hits rowid = true
  | _ => True

instance (lineage : Lineage) : DecidablePred lineage.Aimed
  | .tupleUpdate _ _ _ _ => inferInstanceAs (Decidable (∃ snap ∈ lineage.backends.snaps, _))
  | .begin _ _ | .assign _ | .commandCounterIncrement _ | .takeSnapshot _ _ | .releaseSnapshot _
  | .doTupleInsert _ _ | .multiInsert _ _ | .tupleDelete _ _ _ | .relationVacuum _ _ | .reset _
  | .preCommit _ | .commit _ | .abort _ | .scanBegin _ _ | .scanGetnext _ | .scanRescan _ =>
      isTrue trivial

instance (lineage : Lineage) : DecidablePred lineage.Promised :=
  fun _ => inferInstanceAs (Decidable (_ ∧ _))

/-- A version has one committed successor or deletion at most, every new version's UPDATE
stamped the old one, and no snapshot sees two versions of an inserted row. -/
structure OneSuccessor (lineage : Lineage) : Prop where
  single : ∀ txn, (lineage.view txn).links.Pairwise fun first second =>
    lineage.backends.history.status first.txn = .committed →
      lineage.backends.history.status second.txn = .committed → first.old ≠ second.old
  stamped : ∀ txn, ∀ link ∈ (lineage.view txn).links, link.new ≠ none → link.stamped = true
  seen : ∀ snap ∈ lineage.backends.snaps,
    ∀ first ∈ (lineage.backends.view snap.owner).table.rows,
    ∀ second ∈ (lineage.backends.view snap.owner).table.rows,
      lineage.backends.rowVisible snap first.toStoredHeader = true →
      lineage.backends.rowVisible snap second.toStoredHeader = true →
      (lineage.view snap.owner).origin first.rowid = (lineage.view snap.owner).origin second.rowid →
        first = second

structure Unbranched (lineage : Lineage) : Prop where
  told : lineage.Told (2 ^ 31)
  chained : lineage.Whole fun trace _ => trace.Chained lineage.backends

theorem Acts.follows (driven : lineage.backends.Driven) (acts : lineage.Acts event next)
    {earlier later : Command} (follows : lineage.backends.Follows earlier later) :
    next.backends.Follows earlier later := by
  rcases acts.moves_or_takes driven with moves | ⟨txn, id, running, same⟩
  · exact follows.transfer moves.since (fun snap member => (moves.snaps snap member).1)
      fun snap member => (moves.xact snap member).1
  · rw [same]
    exact follows.takeSnapshot driven.snapshots running id

namespace Unbranched

theorem start : Lineage.start.Unbranched := ⟨.start _, ⟨.empty _, nofun⟩⟩

theorem alters (inv : lineage.Unbranched) (aimed : lineage.Aimed event) (stamps : lineage.Stamps event)
    {trace : Trace} {table : Table} (alters : lineage.Alters txn event trace table) :
    trace.Chained lineage.backends := by
  have chained := inv.chained.view txn
  have tells := inv.told.tells.view txn
  have driven := inv.told.driven
  have version {rowid : Int} (hit : (lineage.backends.view txn).hits rowid = true) :
      (lineage.view txn).ids rowid < (lineage.view txn).count ∧
        (lineage.view txn).deleter ((lineage.view txn).ids rowid) = none := by
    obtain ⟨target, inTable, isLive⟩ := List.any_eq_true.mp hit
    obtain ⟨rfl, live⟩ := Relation.isLive_iff.mp isLive
    exact ⟨tells.below target inTable, (tells.deleter_eq_none_iff driven.formed inTable).mpr live⟩
  cases alters with
  | inserts _ writes => exact chained.multiInsert _ _ event.tuples _
  | deletes writes snap rowid hit => exact chained.tupleDelete (version hit).1 (version hit).2 _ _
  | updates writes snapId rowid tuple =>
      obtain ⟨snap, member, _, owner, row, inTable, rfl, visible⟩ := aimed
      have hit : (lineage.backends.view txn).hits row.rowid = true := stamps
      obtain ⟨below, live⟩ := version hit
      have use := driven.snapshots.use snap member
      have fits := Nat.lt_of_le_of_lt (driven.snapshots.curcid snap member) (driven.cids snap.owner)
      have seen := ((tells.rowVisible_iff use fits inTable).mp visible).1
      rw [hit]
      exact chained.tupleUpdate driven.snapshots below live ⟨member, owner, writes.running, rfl⟩ seen _
  | misses _ _ _ | removes _ _ _ => exact chained

theorem step (inv : lineage.Unbranched) (promised : lineage.Promised event)
    (unworn : lineage.Unworn (2 ^ 31) event) (stamps : lineage.Stamps event)
    (stepped : lineage.step event = some next) : next.Unbranched := by
  have driven := inv.told.driven
  have acts := acts_of_step driven stepped
  have transfer {trace : Trace} (chained : trace.Chained lineage.backends) :
      trace.Chained next.backends := chained.transfer fun _ _ follows => acts.follows driven follows
  refine ⟨inv.told.acts (Nat.le_refl _) promised.1 unworn acts, inv.chained.acts acts ?_ ?_⟩
  · exact inv.chained.imp fun _ _ _ chained => transfer chained
  · exact fun altered _ => transfer (inv.alters promised.2 stamps altered)

/-- Two visible versions of an inserted row are one: a snapshot that sees the later one sees
what ended the earlier one. -/
theorem seen (inv : lineage.Unbranched) {snap : Snap} (member : snap ∈ lineage.backends.snaps)
    {first second : StoredRow} (inFirst : first ∈ (lineage.backends.view snap.owner).table.rows)
    (inSecond : second ∈ (lineage.backends.view snap.owner).table.rows)
    (visible : lineage.backends.rowVisible snap first.toStoredHeader = true)
    (visible' : lineage.backends.rowVisible snap second.toStoredHeader = true)
    (same : (lineage.view snap.owner).origin first.rowid =
      (lineage.view snap.owner).origin second.rowid) :
    ¬ (lineage.view snap.owner).ids first.rowid < (lineage.view snap.owner).ids second.rowid := by
  intro before
  have tells := inv.told.tells.view snap.owner
  have driven := inv.told.driven
  have use := driven.snapshots.use snap member
  have fits := Nat.lt_of_le_of_lt (driven.snapshots.curcid snap member) (driven.cids snap.owner)
  obtain ⟨op, ended, follows⟩ := (inv.chained.view snap.owner).chain _ _ before
    (tells.below second inSecond) same
  have seenLater := ((tells.rowVisible_iff use fits inSecond).mp visible').1
  have unseen := ((tells.rowVisible_iff use fits inFirst).mp visible).2 op ended
  rw [follows.closed snap member seenLater] at unseen
  cases unseen

theorem oneSuccessor (inv : lineage.Unbranched) : lineage.OneSuccessor where
  single txn := (inv.chained.view txn).single.imp fun different _ _ => different
  stamped txn link member _ := (inv.chained.view txn).stamped link member
  seen snap member first inFirst second inSecond visible visible' same := by
    have tells := inv.told.tells.view snap.owner
    rcases Nat.lt_trichotomy ((lineage.view snap.owner).ids first.rowid)
        ((lineage.view snap.owner).ids second.rowid) with before | equal | after
    · exact absurd before (inv.seen member inFirst inSecond visible visible' same)
    · exact Table.eq_of_rowid_eq (lineage.backends.view snap.owner).table.sorted inFirst inSecond
        (tells.distinct first inFirst second inSecond equal)
    · exact absurd after (inv.seen member inSecond inFirst visible' visible same.symm)

end Unbranched

theorem stamps_of_stamped {snap : Nat} {rowid : Int} {tuple : Bytes}
    (stepped : lineage.step (.tupleUpdate txn snap rowid tuple) = some next)
    (stamped : ∀ link ∈ (next.view txn).links, link.new ≠ none → link.stamped = true) :
    (lineage.backends.view txn).hits rowid = true := by
  obtain ⟨backends, ran, rfl⟩ := Option.map_eq_some_iff.mp stepped
  obtain ⟨rel, held⟩ : ∃ rel, backends.writer = some (txn, rel) := by
    cases Backends.does_of_step ran with
    | tupleUpdate => exact ⟨_, rfl⟩
  have view : Lineage.view ⟨backends, lineage.file,
      (lineage.written (.tupleUpdate txn snap rowid tuple)).getD lineage.work⟩ txn =
        (lineage.written (.tupleUpdate txn snap rowid tuple)).getD lineage.work := by
    simp [Lineage.view, held]
  have new := stamped ⟨(lineage.view txn).ids rowid, some (lineage.view txn).count, txn,
    (lineage.backends.view txn).hits rowid⟩
  refine new ?_ (Option.some_ne_none _)
  change _ ∈ (Lineage.view ⟨backends, lineage.file, _⟩ txn).links
  rw [view]
  exact List.mem_append_right _ List.mem_cons_self

/-- In every run of any number of backends, the versions keep one successor at most exactly
while every UPDATE finds the version that it replaces without `xmax`. -/
theorem one_successor_iff {events : List BackendsEvent} {lineage : Lineage}
    (reached : run start events = some lineage)
    (promised : Transition.Meets step Promised start events)
    (unworn : Transition.Meets step (Unworn (2 ^ 31)) start events) :
    (∀ before, before <+: events → ∀ middle, run start before = some middle → middle.OneSuccessor) ↔
      Transition.Meets step Stamps start events := by
  refine @Transition.good_iff_meets _ _ step Stamps
    (fun lineage event => lineage.Promised event ∧ lineage.Unworn (2 ^ 31) event) Unbranched
    OneSuccessor ?_ (fun _ inv => inv.oneSuccessor) ?_ _ _ _ .start
    (Transition.meets_and_iff.mpr ⟨promised, unworn⟩) reached
  · exact fun lineage event next inv assumed stamps stepped =>
      inv.step assumed.1 assumed.2 stamps stepped
  · intro lineage event next inv _ stepped good
    cases event with
    | tupleUpdate txn snap rowid tuple => exact stamps_of_stamped stepped (good.stamped txn)
    | _ => trivial

theorem one_successor_updated :
    let events : List BackendsEvent :=
      [.begin 1 false, .assign 1, .doTupleInsert 1 [7], .preCommit 1, .commit 1, .begin 2 false,
        .assign 2, .takeSnapshot 2 0, .tupleUpdate 2 0 1 [8], .preCommit 2, .commit 2]
    (∀ before, before <+: events → ∀ middle, run start before = some middle → middle.OneSuccessor) ↔
      Transition.Meets step Stamps start events :=
  one_successor_iff rfl (by decide) (by decide)

/-- Two transactions update the version that both have read, one after the other. -/
def contended : List BackendsEvent :=
  [.begin 1 false, .assign 1, .doTupleInsert 1 [7], .preCommit 1, .commit 1, .begin 2 false,
    .begin 3 false, .takeSnapshot 2 2, .takeSnapshot 3 3, .assign 2, .tupleUpdate 2 2 1 [8],
    .preCommit 2, .commit 2, .assign 3, .tupleUpdate 3 3 1 [9], .preCommit 3, .commit 3,
    .begin 4 false, .takeSnapshot 4 4]

/-- The second UPDATE stamps nothing and inserts its version all the same, and a later
transaction reads the row twice. -/
theorem contended_branches :
    Transition.Meets step Promised start contended ∧
      Transition.Meets step (Unworn (2 ^ 31)) start contended ∧
      ∃ lineage, run start contended = some lineage ∧ ¬ lineage.OneSuccessor := by
  refine ⟨by decide, by decide, _, rfl, fun one => ?_⟩
  have rows := one.seen _ (.head _) ⟨⟨2, 4#32, 0#32, 0#32, 0#32⟩, [8]⟩ (.tail _ (.head _))
    ⟨⟨3, 5#32, 0#32, 0#32, 0#32⟩, [9]⟩ (.tail _ (.tail _ (.head _))) (by decide) (by decide)
    (by decide)
  cases rows

end Lineage

end SqliteHeap
