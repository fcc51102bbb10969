import IncidentPlatform.Platform.Capabilities
import IncidentPlatform.Platform.Rows

namespace IncidentPlatform.Properties

open Concurrency Models Platform Services Storage Workers

/-! # Terminal statuses are absorbing

A writer that updates a row by id alone relies on what it read of the row
before.  While that still holds when the update runs, a committed terminal
status is left only by a replay of a dead letter or by an operator.
-/

/-- The statuses a role has made sure of before it updates a row: a delivery
has claimed it, the others have read it. -/
def checkedBy (status : JobStatus) : Role → Bool
  | .deliver _ | .redeliver _ => status = .running
  | .forceDeadLetter _ _ => !status.terminal
  | .coordinateSaga _ _ => status = .waiting || status = .pending
  | .replay _ _ _ | .replayEach _ _ _ | .promoteDlqReplay => status = .failed || status = .deadLetter
  | _ => true

def resolves : Role → Bool
  | .resolveIncident _ _ _ => true
  | _ => false

/-- An `update_status` call without a guard finds its row as its writer left it. -/
def findsChecked (job : Uuid) (entry : PlatformEntry) : Bool :=
  match entry.operation with
  | .statement (.updateStatus id _ none) =>
      id ≠ job || (entry.before.jobs.visible entry.pid job).all fun row =>
        checkedBy row.status entry.role
  | _ => true

def ChecksHold (job : Uuid) (pool : PlatformPool) : Prop :=
  ∀ entry ∈ pool.log, findsChecked job entry

instance (job : Uuid) (pool : PlatformPool) : Decidable (ChecksHold job pool) :=
  inferInstanceAs (Decidable (∀ entry ∈ pool.log, _))

/-- The changes of a terminal status that a role may make. -/
def MayLeave (role : Role) (old new : JobStatus) : Prop :=
  new = old ∨ resolves role ∨ (role.replays ∧ old = .deadLetter ∧ new = .pending)

theorem mayLeave_of_checked {role : Role} {id : Uuid} {write : StatusWrite} {status : JobStatus}
    (may : role.MayUpdate id write none) (checked : checkedBy status role)
    (terminal : status.terminal) : MayLeave role status write.status := by
  have replayed : write = replayWrite → role.replays →
      (status = .failed ∨ status = .deadLetter) → MayLeave role status write.status := by
    rintro rfl replays (rfl | rfl)
    · cases terminal
    · exact .inr (.inr ⟨replays, rfl, rfl⟩)
  cases role with
  | resolveIncident target user tenant => exact .inr (.inl rfl)
  | replay target tenant principal =>
      refine replayed may.2.1 rfl ?_
      simpa [checkedBy] using checked
  | replayEach ids tenant principal =>
      refine replayed may.1 rfl ?_
      simpa [checkedBy] using checked
  | promoteDlqReplay =>
      refine replayed may.1 rfl ?_
      simpa [checkedBy] using checked
  | deliver target =>
      simp only [checkedBy, decide_eq_true_eq] at checked
      rw [checked] at terminal
      cases terminal
  | redeliver target =>
      simp only [checkedBy, decide_eq_true_eq] at checked
      rw [checked] at terminal
      cases terminal
  | forceDeadLetter target error =>
      simp only [checkedBy, terminal] at checked
      cases checked
  | coordinateSaga topic target =>
      simp only [checkedBy, Bool.or_eq_true, decide_eq_true_eq] at checked
      rcases checked with rfl | rfl <;> cases terminal
  | sweepStaleRunning =>
      obtain ⟨_, scanned, absurd⟩ := may
      cases absurd
  | _ => exact may.elim

theorem running_of_guard {role : Role} {id : Uuid} {write : StatusWrite} {guard : Job → Bool}
    {row : Job} (may : role.MayUpdate id write (some guard)) (holds : guard row = true) :
    row.status = .running := by
  cases role with
  | sweepStaleRunning =>
      obtain ⟨_, scanned, equal⟩ := may
      cases equal
      simp only [unmovedSince, Bool.and_eq_true, decide_eq_true_eq] at holds
      exact holds.1.1
  | replay target tenant principal => cases may.2.2
  | replayEach ids tenant principal => cases may.2
  | promoteDlqReplay => cases may.2
  | resolveIncident target user tenant => cases may.2.2
  | deliver target => cases may.2.1
  | redeliver target => cases may.2.1
  | forceDeadLetter target error => cases may.2.1
  | coordinateSaga topic target => cases may.2
  | _ => exact may.elim

theorem mayLeave_of_writes {world : World} {job : Uuid} {pid : Pid} {role : Role} {operation : Op}
    {reply : Reply operation} {row new : Job} (may : role.may operation)
    (checked : findsChecked job ⟨pid, role, operation, reply, world⟩)
    (seen : world.jobs.visible pid job = some row)
    (writes : operation.Writes world job (some row) new reply)
    (terminal : row.status.terminal) : MayLeave role row.status new.status := by
  cases operation with
  | statement statement =>
      cases statement with
      | updateStatus id write guard =>
          obtain ⟨_, rfl, found, equal, holds, rfl⟩ := writes
          cases equal
          cases guard with
          | some guard =>
              rw [running_of_guard may holds] at terminal
              cases terminal
          | none =>
              simp only [findsChecked, ne_eq, not_true_eq_false, decide_false, Bool.false_or, seen,
                Option.all_some] at checked
              exact mayLeave_of_checked may checked terminal
      | claimForRunning id =>
          obtain ⟨_, _, found, equal, pending, _⟩ := writes
          cases equal
          rw [pending] at terminal
          cases terminal
      | promoteWaitingToPending id =>
          obtain ⟨_, _, found, equal, waiting, _⟩ := writes
          cases equal
          rw [waiting] at terminal
          cases terminal
      | cancelBlocked ids reason stamp =>
          obtain ⟨_, found, equal, waiting, _⟩ := writes
          cases equal
          rw [waiting] at terminal
          cases terminal
      | stampRequeued id stamp =>
          obtain ⟨_, found, equal, rfl⟩ := writes
          cases equal
          exact .inl rfl
      | renewRunningLeases ids oldest stamp =>
          obtain ⟨_, found, equal, running, _⟩ := writes
          cases equal
          rw [running] at terminal
          cases terminal
      | insertJob draft => cases writes.1
      | _ => exact writes.elim
  | _ => exact writes.elim

/-- Whoever holds a row that is committed in a terminal status has written
nothing over it that its role may not. -/
def TerminalHeld (job : Uuid) (pool : PlatformPool) : Prop :=
  ∀ pid version row, (pool.world.jobs.slot job).holder = some (pid, version) →
    (pool.world.jobs.slot job).committed = some row → row.status.terminal →
    ∃ process, pool.process pid = some process ∧ MayLeave process.role row.status version.status

theorem replayed_unwritten {world : World} {job : Uuid} {pid : Pid} {role : Role} {operation : Op}
    {reply : Reply operation} {version new : Job} (may : role.may operation)
    (checked : findsChecked job ⟨pid, role, operation, reply, world⟩) (replays : role.replays)
    (seen : world.jobs.visible pid job = some version) (pending : version.status = .pending) :
    ¬ operation.Writes world job (some version) new reply := by
  intro writes
  cases operation with
  | statement statement =>
      cases statement with
      | updateStatus id write guard =>
          obtain ⟨_, rfl, found, equal, holds, rfl⟩ := writes
          cases equal
          cases guard with
          | some guard =>
              rw [running_of_guard may holds] at pending
              cases pending
          | none =>
              simp only [findsChecked, ne_eq, not_true_eq_false, decide_false, Bool.false_or, seen,
                Option.all_some, pending] at checked
              cases role <;> first
                | exact Bool.false_ne_true replays
                | exact Bool.false_ne_true checked
      | claimForRunning id =>
          cases role <;> first
            | exact Bool.false_ne_true replays
            | exact Bool.false_ne_true may
      | promoteWaitingToPending id =>
          cases role <;> first
            | exact Bool.false_ne_true replays
            | exact Bool.false_ne_true may
      | cancelBlocked ids reason stamp =>
          obtain ⟨_, found, equal, waiting, _⟩ := writes
          cases equal
          rw [pending] at waiting
          cases waiting
      | stampRequeued id stamp =>
          cases may
          cases replays
      | renewRunningLeases ids oldest stamp =>
          obtain ⟨_, found, equal, running, _⟩ := writes
          cases equal
          rw [pending] at running
          cases running
      | insertJob draft => cases writes.1
      | _ => exact writes.elim
  | _ => exact writes.elim

theorem mayLeave_trans {world : World} {job : Uuid} {pid : Pid} {role : Role} {operation : Op}
    {reply : Reply operation} {version new : Job} {status : JobStatus} (may : role.may operation)
    (checked : findsChecked job ⟨pid, role, operation, reply, world⟩)
    (seen : world.jobs.visible pid job = some version)
    (writes : operation.Writes world job (some version) new reply)
    (terminal : status.terminal) (left : MayLeave role status version.status) :
    MayLeave role status new.status := by
  rcases left with same | resolved | ⟨replays, dead, pending⟩
  · rw [← same] at terminal ⊢
    exact mayLeave_of_writes may checked seen writes terminal
  · exact .inr (.inl resolved)
  · exact absurd writes (replayed_unwritten may checked replays seen pending)

section Step

variable {job : Uuid} {before : PlatformPool} {pid : Pid} {role : Role} {operation : Op}
  {next : Reply operation → Prog Unit} {reply : Reply operation} {world : World}

theorem terminalHeld_operate (held : TerminalHeld job before) (may : role.may operation)
    (checked : findsChecked job ⟨pid, role, operation, reply, before.world⟩)
    (found : before.process pid = some { role, program := .call operation next })
    (operated : World.operate pid operation before.world = some (reply, world)) :
    TerminalHeld job (before.record pid role operation reply (next reply) world) := by
  have carry : ∀ other status version, (∃ process, before.process other = some process ∧
      MayLeave process.role status version) → ∃ process,
      (before.record pid role operation reply (next reply) world).process other = some process ∧
      MayLeave process.role status version := by
    rintro other status version ⟨process, present, left⟩
    obtain ⟨after, kept, same⟩ := Pool.record_role found present
    exact ⟨after, kept, same ▸ left⟩
  intro owner version row holds stored terminal
  rw [Pool.record_world] at holds stored
  rcases operate_slot operated job with ⟨new, writes, free, slot⟩ | ⟨_, slot⟩ | ⟨_, slot⟩ |
    ⟨_, _, _, slot⟩
  · rw [slot] at holds stored
    simp only [Slot.write_holder, Option.some.injEq, Prod.mk.injEq] at holds
    obtain ⟨rfl, rfl⟩ := holds
    refine carry pid row.status new.status ⟨_, found, ?_⟩
    cases current : (before.world.jobs.slot job).holder with
    | none =>
        have seen : before.world.jobs.visible pid job = some row := by
          rw [← Table.slot_visible, Slot.visible_of_free (by simp [current])]
          exact stored
        rw [seen] at writes
        exact mayLeave_of_writes may checked seen writes terminal
    | some entry =>
        obtain ⟨holder, own⟩ := entry
        obtain rfl := free holder own current
        have seen : before.world.jobs.visible holder job = some own := by
          rw [← Table.slot_visible, Slot.visible_of_held current]
        obtain ⟨process, present, left⟩ := held holder own row current stored terminal
        rw [found] at present
        cases present
        rw [seen] at writes
        exact mayLeave_trans may checked seen writes terminal left
  · rcases (before.world.jobs.slot job).commit_cases pid with ⟨_, _, equal⟩ | ⟨_, equal⟩
    · rw [slot, equal] at holds
      cases holds
    · rw [slot, equal] at holds stored
      exact carry owner _ _ (held owner version row holds stored terminal)
  · rcases (before.world.jobs.slot job).rollback_cases pid with ⟨_, _, equal⟩ | ⟨_, equal⟩
    · rw [slot, equal] at holds
      cases holds
    · rw [slot, equal] at holds stored
      exact carry owner _ _ (held owner version row holds stored terminal)
  · rw [slot] at holds stored
    exact carry owner _ _ (held owner version row holds stored terminal)

end Step

theorem terminalHeld_of_reaches {settings : Settings} {job : Uuid} {pool : PlatformPool}
    (reachable : Reachable settings pool) (checks : ChecksHold job pool) : TerminalHeld job pool := by
  have permitted := logged_may reachable
  obtain ⟨outside, reached⟩ := reachable
  revert checks
  revert permitted
  refine reached.invariant (motive := fun pool => (∀ entry ∈ pool.log, entry.role.may entry.operation) →
    ChecksHold job pool → TerminalHeld job pool) ?_ ?_ ?_ ?_
  · intro _ _ pid version row holds
    cases holds
  · intro before pid role world _ ih unused accepted permitted checks owner version row holds stored
      terminal
    rw [Pool.start_world, accept_jobs accepted] at holds stored
    obtain ⟨process, present, left⟩ := ih permitted checks owner version row holds stored terminal
    have different : owner ≠ pid := by
      rintro rfl
      rw [unused] at present
      cases present
    exact ⟨process, by rw [Pool.start_process, Pool.setProcess_other _ _ different, present], left⟩
  · intro before pid role operation next reply world _ ih found operated permitted checks
    refine terminalHeld_operate (ih ?_ ?_) (permitted _ List.mem_cons_self)
      (checks _ List.mem_cons_self) found operated
    · exact fun entry member => permitted entry (List.mem_cons_of_mem _ member)
    · exact fun entry member => checks entry (List.mem_cons_of_mem _ member)
  · intro before change world _ ih changed permitted checks owner version row holds stored terminal
    rw [change_slot changed] at holds stored
    exact ih permitted checks owner version row holds stored terminal

/-- In every run in which each unguarded status write of the job finds what its
writer checked, a committed terminal status changes only when a replay commits
PENDING over DEAD_LETTER or an operator's resolution commits. -/
theorem terminal_status_absorbing {settings : Settings} {job : Uuid} {before after : PlatformPool}
    {label : Label Role Change} {row : Job} (reachable : Reachable settings before)
    (checks : ChecksHold job before) (stepped : (platform settings).step label before = some after)
    (stored : before.world.jobs.committed job = some row) (terminal : row.status.terminal) :
    ∃ now, after.world.jobs.committed job = some now ∧
      (now.status = row.status ∨ ∃ pid role next, label = .run pid ∧
        before.process pid = some { role, program := .call .commit next } ∧
        (resolves role ∨
          (role.replays ∧ row.status = .deadLetter ∧ now.status = .pending))) := by
  have held := terminalHeld_of_reaches reachable checks
  rcases step_committed stepped job with same | ⟨pid, role, next, version, ran, found, holds, kept⟩
  · exact ⟨row, same.trans stored, .inl rfl⟩
  · obtain ⟨process, present, left⟩ := held pid version row holds stored terminal
    rw [found] at present
    cases present
    refine ⟨version, kept, ?_⟩
    rcases left with same | resolved | replayed
    · exact .inl same
    · exact .inr ⟨pid, role, next, ran, found, .inl resolved⟩
    · exact .inr ⟨pid, role, next, ran, found, .inr replayed⟩

def claimedOnce : List (Label Role Change) :=
  [.spawn 1 (.createJob { userId := 7, tenantId := 8, jobType := "csv_upload" })] ++ turns 1 4 ++
  [.spawn 2 .outboxRelay] ++ turns 2 6 ++ [.spawn 3 (.deliver 1)] ++ turns 3 6

/-- It overruns its deadline, is replayed, and the replay is about to commit. -/
def replayBeforeCommit : List (Label Role Change) :=
  claimedOnce ++ turns 3 1 ++ tick 2 .timedOut ++ turns 3 7 ++
  [.spawn 4 (.replay 1 8 { kind := "user", requestingUserId := some 7 })] ++
  turns 4 3 ++ tick 3 .timedOut ++ turns 4 4

/-- The sweep dead-letters it after half an hour; the processor then returns,
and the delivery is about to commit COMPLETED. -/
def lateCompletion : List (Label Role Change) :=
  claimedOnce ++ tick (seconds 1800) .timedOut ++ [.spawn 4 .sweepStaleRunning] ++ turns 4 12 ++
  tick (seconds 1801) (.returned .null) ++ turns 3 5

theorem terminal_status_absorbing_at_replay : ∃ before after row now,
    Reachable .defaults before ∧ (platform .defaults).step (.run 4) before = some after ∧
    before.world.jobs.committed 1 = some row ∧ row.status.terminal ∧
    after.world.jobs.committed 1 = some now ∧
    (now.status = row.status ∨ ∃ pid role next, (Label.run 4 : Label Role Change) = .run pid ∧
      before.process pid = some { role, program := .call .commit next } ∧
      (resolves role ∨
        (role.replays ∧ row.status = .deadLetter ∧ now.status = .pending))) := by
  obtain ⟨before, reachable, checked⟩ : ∃ pool, Reachable .defaults pool ∧
      decide (ChecksHold 1 pool ∧ ((platform .defaults).step (.run 4) pool).isSome ∧
        (pool.world.jobs.committed 1).any fun row => row.status.terminal) = true :=
    exists_reachable replayBeforeCommit (by decide +kernel)
  obtain ⟨checks, enabled, dead⟩ := of_decide_eq_true checked
  obtain ⟨after, stepped⟩ := Option.isSome_iff_exists.mp enabled
  obtain ⟨row, stored, terminal⟩ := (Option.any_eq_true _ _).mp dead
  obtain ⟨now, kept, left⟩ := terminal_status_absorbing reachable checks stepped stored terminal
  exact ⟨before, after, row, now, reachable, stepped, stored, terminal, kept, left⟩

theorem late_completion_leaves_dead_letter : ¬ ∀ before after label row,
    Reachable .defaults before → (platform .defaults).step label before = some after →
    before.world.jobs.committed 1 = some row → row.status.terminal →
    ∃ now, after.world.jobs.committed 1 = some now ∧
      (now.status = row.status ∨ ∃ pid role next, label = .run pid ∧
        before.process pid = some { role, program := .call .commit next } ∧
        (resolves role ∨
          (role.replays ∧ row.status = .deadLetter ∧ now.status = .pending))) := by
  intro absorbing
  obtain ⟨before, reachable, checked⟩ : ∃ pool, Reachable .defaults pool ∧
      decide ((pool.process 3).any (fun process => process.role.delivers 1) ∧
        (pool.world.jobs.committed 1).any (fun row => row.status = .deadLetter) ∧
        ((platform .defaults).step (.run 3) pool).any fun after =>
          (after.world.jobs.committed 1).any fun row => row.status = .completed) = true :=
    exists_reachable lateCompletion (by decide +kernel)
  obtain ⟨delivering, dead, completes⟩ := of_decide_eq_true checked
  obtain ⟨process, present, delivers⟩ := (Option.any_eq_true _ _).mp delivering
  obtain ⟨row, stored, status⟩ := (Option.any_eq_true _ _).mp dead
  obtain ⟨after, stepped, final⟩ := (Option.any_eq_true _ _).mp completes
  obtain ⟨last, kept, completed⟩ := (Option.any_eq_true _ _).mp final
  simp only [decide_eq_true_eq] at status completed
  obtain ⟨now, found, left⟩ :=
    absorbing before after (.run 3) row reachable stepped stored (by rw [status]; rfl)
  rw [kept] at found
  cases found
  rcases left with same | ⟨pid, role, next, ran, running, left⟩
  · rw [status, completed] at same
    cases same
  · cases ran
    rw [present] at running
    cases running
    cases role <;> first
      | exact Bool.false_ne_true delivers
      | (rcases left with resolved | ⟨replays, _⟩
         · exact Bool.false_ne_true resolved
         · exact Bool.false_ne_true replays)

end IncidentPlatform.Properties
