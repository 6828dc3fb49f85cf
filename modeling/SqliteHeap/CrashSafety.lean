import SqliteHeap.Serializability

/-! Crashes. `on_precommit` commits the SQLite files before Postgres writes its commit record, so
a crash at any moment leaves SQLite ahead of Postgres and never behind: what Postgres has
committed is in the files, whatever the other backends were doing. -/

set_option autoImplicit false

namespace SqliteHeap.Server

open Session

section Step

variable {server next : Server} {event : ServerEvent} {passed : Passed}

/-- A committed transaction keeps its place in the serial run, and all its statements. -/
theorem committed_step (committed : passed.stage = .committed) (member : passed ∈ server.serial)
    (stepped : server.step event = some next) : passed ∈ next.serial := by
  have ended : passed.stage ≠ .pending := by
    rw [committed]
    decide
  have finished (backend : BackendId) (stage : Stage) :
      passed ∈ server.serial.map (Passed.finish backend stage) :=
    List.mem_map.mpr ⟨passed, member, Passed.finish_of_not fun both => ended both.2⟩
  cases event with
  | crash =>
      cases stepped
      refine List.mem_map.mpr ⟨passed, member, ?_⟩
      rw [Passed.crash, Passed.survives, if_neg ended, if_neg ended]
  | commitNext backend =>
      rw [step] at stepped
      cases queue : server.committing backend with
      | nil =>
          rw [queue] at stepped
          cases stepped
      | cons rel rest =>
          rw [queue] at stepped
          cases stepped
          exact member
  | session backend event =>
      cases event with
      | drop rel => cases stepped
      | begin | call | read | startSub | commitSub | abortSub =>
          obtain ⟨_, mapped⟩ := Option.ite_none_right_eq_some.mp stepped
          obtain ⟨after, _, rfl⟩ := Option.map_eq_some_iff.mp mapped
          exact member
      | preCommit order fails =>
          obtain ⟨_, mapped⟩ := Option.ite_none_right_eq_some.mp stepped
          obtain ⟨after, _, rfl⟩ := Option.map_eq_some_iff.mp mapped
          rw [settle, record]
          split
          · exact member
          · exact List.mem_append_left _ member
      | commit | abort =>
          obtain ⟨_, mapped⟩ := Option.ite_none_right_eq_some.mp stepped
          obtain ⟨after, _, rfl⟩ := Option.map_eq_some_iff.mp mapped
          exact finished backend _

theorem committed_run {events : List ServerEvent} (committed : passed.stage = .committed)
    (member : passed ∈ server.serial) (reached : Server.run server events = some next) :
    passed ∈ next.serial := by
  have kept : ∀ before event after, passed ∈ before.serial → True →
      Server.step before event = some after → passed ∈ after.serial :=
    fun _ _ _ member _ stepped => committed_step committed member stepped
  exact Transition.run_invariant kept member (Transition.meets_trivial _ _) reached

end Step

variable {initial : RelId → Contents} {server : Server} {backend : BackendId}

/-- The commit record makes the pending transaction of the backend a committed one. -/
theorem Serial.commit {next : Server} (serial : server.Serial initial)
    (stepped : server.step (.session backend .commit) = some next) :
    ∃ passed ∈ next.serial, passed.stage = .committed ∧
      passed.ran = (server.sessions backend).precommitted := by
  obtain ⟨_, mapped⟩ := Option.ite_none_right_eq_some.mp stepped
  obtain ⟨after, taken, rfl⟩ := Option.map_eq_some_iff.mp mapped
  cases steps_of_step taken with
  | commit ready =>
      obtain ⟨passed, member, own, still⟩ := serial.present backend ready
      have ran := (serial.opened passed member still).2
      rw [own] at ran
      refine ⟨passed.finish backend .committed, List.mem_map_of_mem member, ?_, ?_⟩
      · rw [Passed.finish, if_pos ⟨own, still⟩]
      · rw [Passed.finish_ran, ran]

/-- A committed transaction is in every file as a whole. -/
theorem Serial.contains (serial : server.Serial initial) {passed : Passed}
    (member : passed ∈ server.serial) (committed : passed.stage = .committed) (rel : RelId) :
    statementsOn rel passed.ran <:+: (server.files rel).log := by
  obtain ⟨before, after, split⟩ := List.append_of_mem member
  have whole : passed.survives server.committing = passed.ran := by
    rw [Passed.survives, if_neg]
    rw [committed]
    decide
  rw [serial.kept rel, survived, Contents.append_log, split, List.flatMap_append, List.flatMap_cons, whole,
    statementsOn_append, statementsOn_append, ← List.append_assoc]
  exact ⟨_, _, List.append_assoc _ _ _⟩

/-- Once Postgres has committed a transaction, the file of each relation has all the statements
that it executed there and that no aborted subtransaction undid, in their order and with none
of another transaction between them, after any further steps of any backends and any number of
crashes. -/
theorem committed_survive {files : RelId → Option Table} {before after : List ServerEvent}
    {middle final : Server} (reached : Server.run (Server.start files) before = some middle)
    (committed : Server.run middle (.session backend .commit :: after) = some final)
    (allowed : Transition.Meets Server.step Server.Allowed (Server.start files)
      (before ++ .session backend .commit :: after)) (rel : RelId) :
    statementsOn rel (middle.sessions backend).precommitted <:+: (final.files rel).log := by
  obtain ⟨allowedBefore, allowedAfter⟩ := (Transition.meets_append_iff reached).mp allowed
  have serial := (Serial.start files).run reached allowedBefore
  have later := serial.run committed allowedAfter
  obtain ⟨recorded, stepped, finished⟩ := Transition.run_cons_iff.mp committed
  obtain ⟨passed, member, stage, ran⟩ := serial.commit stepped
  rw [← ran]
  exact later.contains (committed_run stage member finished) stage rel

/-- The first backend commits one relation, and a crash finds the second one between its two
COMMITs. -/
def crashed : List ServerEvent :=
  [.session 2 .begin, .session 2 (.call 8 insertOne noFaults), .session 2 (.call 7 insertOne noFaults),
    .session 2 (.preCommit [8, 7] noFaults), .commitNext 2, .crash]

def firstCommits : List ServerEvent :=
  [.session 1 .begin, .session 1 (.call 7 insertOne noFaults), .session 1 (.preCommit [7] noFaults),
    .commitNext 1]

theorem crashed_survives :
    ∃ middle final, Server.run (Server.start noFiles) firstCommits = some middle ∧
      Server.run middle (.session 1 .commit :: crashed) = some final ∧
      (statementsOn 7 (middle.sessions 1).precommitted).length = 1 ∧
      (final.files 7).log.length = 1 ∧ (final.files 8).log.length = 1 ∧
      statementsOn 7 (middle.sessions 1).precommitted <:+: (final.files 7).log := by
  obtain ⟨middle, final, reached, committed, one, seven, eight⟩ : ∃ middle final,
      Server.run (Server.start noFiles) firstCommits = some middle ∧
        Server.run middle (.session 1 .commit :: crashed) = some final ∧
        (statementsOn 7 (middle.sessions 1).precommitted).length = 1 ∧
        (final.files 7).log.length = 1 ∧ (final.files 8).log.length = 1 :=
    ⟨_, _, rfl, rfl, by decide, by decide, by decide⟩
  exact ⟨middle, final, reached, committed, one, seven, eight,
    committed_survive reached committed (by decide) 7⟩

end SqliteHeap.Server
