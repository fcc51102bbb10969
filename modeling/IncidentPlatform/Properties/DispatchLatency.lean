import IncidentPlatform.Platform.Capabilities
import IncidentPlatform.Platform.Transactions
import IncidentPlatform.Services.Slo

namespace IncidentPlatform.Properties

open Concurrency Models Platform Services Storage

/-! # Which dispatch the latency objective reads

`started_at` is the instant of the last claim that committed.  The objective reads
it as the first, so it is right as long as no later claim crosses the threshold.
-/

variable {job : Uuid} {pid : Pid} {entry : PlatformEntry} {older : List PlatformEntry}

def claimedBy (entry : PlatformEntry) : Option Uuid :=
  match actOf entry with
  | ⟨.statement (.claimForRunning id), true⟩ => some id
  | _ => none

def claimOf (job : Uuid) (entry : PlatformEntry) : Option Time :=
  if claimedBy entry = some job then some entry.before.outside.clock else none

/-- The last claim of the job in the open transaction of `pid`. -/
def openClaim (job : Uuid) (pid : Pid) (log : List PlatformEntry) : Option Time :=
  (transaction pid log).findSome? (claimOf job)

def logsCommit (entry : PlatformEntry) : Bool :=
  match entry.operation with
  | .commit => true
  | _ => false

/-- The claims of the job that committed, newest first. -/
def dispatches (job : Uuid) : List PlatformEntry → List Time
  | [] => []
  | entry :: older =>
      if logsCommit entry then (openClaim job entry.pid older).toList ++ dispatches job older
      else dispatches job older

def firstDispatch (job : Uuid) (log : List PlatformEntry) : Option Time := (dispatches job log).getLast?

/-- The instant is later after the creation than the threshold allows. -/
def late (threshold created instant : Time) : Bool := threshold < instant - created

/-- A claim of a job that was dispatched before is on the same side of the
threshold as its first dispatch. -/
def claimKeepsSide (threshold : Time) (entry : PlatformEntry) (older : List PlatformEntry) : Prop :=
  ∀ job ∈ claimedBy entry, ∀ first ∈ firstDispatch job older,
    ∀ row ∈ entry.before.jobs.visible entry.pid job,
      late threshold row.createdAt entry.before.outside.clock = late threshold row.createdAt first

instance (threshold : Time) (entry : PlatformEntry) (older : List PlatformEntry) :
    Decidable (claimKeepsSide threshold entry older) :=
  inferInstanceAs (Decidable (∀ job ∈ claimedBy entry, ∀ first ∈ firstDispatch job older,
    ∀ row ∈ entry.before.jobs.visible entry.pid job,
      late threshold row.createdAt entry.before.outside.clock = late threshold row.createdAt first))

/-- Every claim that was logged keeps to the side of the first dispatch. -/
def ClaimsKeepSide (threshold : Time) : List PlatformEntry → Prop
  | [] => True
  | entry :: older => claimKeepsSide threshold entry older ∧ ClaimsKeepSide threshold older

instance ClaimsKeepSide.decidable (threshold : Time) :
    (log : List PlatformEntry) → Decidable (ClaimsKeepSide threshold log)
  | [] => inferInstanceAs (Decidable True)
  | entry :: older =>
      have := decidable threshold older
      inferInstanceAs (Decidable (claimKeepsSide threshold entry older ∧ ClaimsKeepSide threshold older))

/-- The objective counts a job by its first dispatch. -/
structure CountsFirstDispatch (slo : SLODefinition) (threshold : Time) (pool : PlatformPool) : Prop where
  prompt : ∀ job row first now, pool.world.jobs.committed job = some row →
    firstDispatch job pool.log = some first → late threshold row.createdAt first = false →
    countsAsFailed slo now row = false
  slow : ∀ job row first now, pool.world.jobs.committed job = some row →
    firstDispatch job pool.log = some first → late threshold row.createdAt first = true →
    dispatchedInWindow (slo.since now) row = true → countsAsFailed slo now row = true

theorem openClaim_cons (job : Uuid) (queried : Pid) (entry : PlatformEntry) (older : List PlatformEntry) :
    openClaim job queried (entry :: older) =
      if entry.pid = queried then
        if entry.operation.ends then none else (claimOf job entry).or (openClaim job queried older)
      else openClaim job queried older := by
  simp only [openClaim, transaction]
  split
  · split
    · rfl
    · rw [List.findSome?_cons]
      cases claimOf job entry <;> rfl
  · rfl

theorem dispatches_cons_of_open (opened : entry.operation.ends = false) :
    dispatches job (entry :: older) = dispatches job older := by
  have other : logsCommit entry = false := by
    unfold logsCommit
    split
    · rename_i commit
      rw [commit] at opened
      cases opened
    · rfl
  simp [dispatches, other]

theorem dispatches_cons_of_rollback (rolled : entry.operation = .rollback) :
    dispatches job (entry :: older) = dispatches job older := by
  simp [dispatches, logsCommit, rolled]

theorem dispatches_cons_of_commit (committed : entry.operation = .commit) :
    dispatches job (entry :: older) = (openClaim job entry.pid older).toList ++ dispatches job older := by
  simp [dispatches, logsCommit, committed]

theorem written_started {role : Role} {world : World} {operation : Op} {reply : Reply operation}
    {old : Option Job} {new : Job} (may : role.may operation)
    (writes : operation.Writes world job old new reply) :
    (claimedBy ⟨pid, role, operation, reply, world⟩ = some job ∧ new.startedAt = some world.outside.clock ∧
      ∃ row, old = some row ∧ new.createdAt = row.createdAt) ∨
    claimedBy ⟨pid, role, operation, reply, world⟩ = none ∧
      ((∃ row, old = some row ∧ new.startedAt = row.startedAt ∧ new.createdAt = row.createdAt) ∨
        old = none ∧ new.startedAt = none) := by
  cases operation with
  | statement issued =>
      cases issued with
      | updateStatus id write guard =>
          obtain ⟨_, _, row, seen, _, rfl⟩ := writes
          have other : write.status ≠ .running := may.not_running
          exact .inr ⟨rfl, .inl ⟨row, seen, by simp [StatusWrite.apply, other], rfl⟩⟩
      | claimForRunning id =>
          obtain ⟨rfl, rfl, row, seen, _, rfl⟩ := writes
          exact .inl ⟨rfl, rfl, row, seen, rfl⟩
      | promoteWaitingToPending id =>
          obtain ⟨_, _, row, seen, _, rfl⟩ := writes
          exact .inr ⟨rfl, .inl ⟨row, seen, rfl, rfl⟩⟩
      | cancelBlocked ids reason stamp =>
          obtain ⟨_, row, seen, _, _, rfl⟩ := writes
          exact .inr ⟨rfl, .inl ⟨row, seen, rfl, rfl⟩⟩
      | stampRequeued id stamp =>
          obtain ⟨_, row, seen, rfl⟩ := writes
          exact .inr ⟨rfl, .inl ⟨row, seen, rfl, rfl⟩⟩
      | renewRunningLeases ids oldest stamp =>
          obtain ⟨_, row, seen, _, rfl⟩ := writes
          exact .inr ⟨rfl, .inl ⟨row, seen, rfl, rfl⟩⟩
      | insertJob draft =>
          obtain ⟨absent, _, _, rfl⟩ := writes
          exact .inr ⟨rfl, .inr ⟨absent, rfl⟩⟩
      | _ => exact writes.elim
  | _ => exact writes.elim

theorem claimOf_of_unwritten {role : Role} {world after : World} {operation : Op} {reply : Reply operation}
    (operated : World.operate pid operation world = some (reply, after))
    (unwritten : ∀ new, ¬ operation.Writes world job (world.jobs.visible pid job) new reply) :
    claimOf job ⟨pid, role, operation, reply, world⟩ = none := by
  rw [claimOf, if_neg]
  intro claims
  unfold claimedBy at claims
  split at claims
  · rename_i id acted
    cases acted
    cases claims
    obtain ⟨new, writes⟩ := claim_writes operated
    exact unwritten new writes
  · cases claims

structure StartStamped (job : Uuid) (pool : PlatformPool) : Prop where
  committed : ∀ row, (pool.world.jobs.slot job).committed = some row →
    row.startedAt = (dispatches job pool.log).head?
  absent : (pool.world.jobs.slot job).committed = none → dispatches job pool.log = []
  held : ∀ owner row, (pool.world.jobs.slot job).holder = some (owner, row) →
    row.startedAt = (openClaim job owner pool.log).or (dispatches job pool.log).head?
  opened : ∀ owner instant, openClaim job owner pool.log = some instant →
    ∃ row, (pool.world.jobs.slot job).holder = some (owner, row)
  created : ∀ stored owner row, (pool.world.jobs.slot job).committed = some stored →
    (pool.world.jobs.slot job).holder = some (owner, row) → row.createdAt = stored.createdAt

section Step

variable {before : PlatformPool} {role : Role} {operation : Op} {reply : Reply operation} {rest : Prog Unit}
  {world : World} {row : Job}

theorem StartStamped.unopened (stamped : StartStamped job before)
    (unheld : ∀ row, (before.world.jobs.slot job).holder ≠ some (pid, row)) :
    openClaim job pid before.log = none := by
  cases opened : openClaim job pid before.log with
  | none => rfl
  | some instant =>
      obtain ⟨row, held⟩ := stamped.opened pid instant opened
      exact absurd held (unheld row)

theorem StartStamped.visible (stamped : StartStamped job before)
    (seen : (before.world.jobs.slot job).visible pid = some row) :
    row.startedAt = (openClaim job pid before.log).or (dispatches job before.log).head? ∧
      ∀ stored, (before.world.jobs.slot job).committed = some stored → row.createdAt = stored.createdAt := by
  by_cases held : ∃ version, (before.world.jobs.slot job).holder = some (pid, version)
  · obtain ⟨version, held⟩ := held
    cases (Slot.visible_of_held held).symm.trans seen
    exact ⟨stamped.held pid row held, fun stored committed => stamped.created stored pid row committed held⟩
  · have unheld : ∀ version, (before.world.jobs.slot job).holder ≠ some (pid, version) :=
      fun version mine => held ⟨version, mine⟩
    rw [Slot.visible_of_free unheld] at seen
    rw [stamped.unopened unheld, Option.none_or]
    refine ⟨stamped.committed row seen, fun stored committed => ?_⟩
    cases seen.symm.trans committed
    rfl

theorem StartStamped.unseen (stamped : StartStamped job before)
    (absent : (before.world.jobs.slot job).visible pid = none) :
    openClaim job pid before.log = none ∧ dispatches job before.log = [] ∧
      (before.world.jobs.slot job).committed = none := by
  have unheld : ∀ version, (before.world.jobs.slot job).holder ≠ some (pid, version) := by
    intro version held
    cases (Slot.visible_of_held held).symm.trans absent
  rw [Slot.visible_of_free unheld] at absent
  exact ⟨stamped.unopened unheld, stamped.absent absent, absent⟩

theorem openClaim_record_open (opened : operation.ends = false) :
    openClaim job pid (before.record pid role operation reply rest world).log =
      (claimOf job ⟨pid, role, operation, reply, before.world⟩).or (openClaim job pid before.log) := by
  rw [Pool.record_log, openClaim_cons, if_pos rfl, opened]
  rfl

theorem openClaim_record_ended (ends : operation.ends = true) :
    openClaim job pid (before.record pid role operation reply rest world).log = none := by
  rw [Pool.record_log, openClaim_cons, if_pos rfl, if_pos ends]

theorem openClaim_record_other {owner : Pid} (different : owner ≠ pid) :
    openClaim job owner (before.record pid role operation reply rest world).log =
      openClaim job owner before.log := by
  rw [Pool.record_log, openClaim_cons, if_neg (Ne.symm different)]

theorem dispatches_record_open (opened : operation.ends = false) :
    dispatches job (before.record pid role operation reply rest world).log = dispatches job before.log :=
  dispatches_cons_of_open opened

theorem claimOf_of_claims (claims : claimedBy entry = some job) :
    claimOf job entry = some entry.before.outside.clock := if_pos claims

theorem claimOf_of_not_claims (other : claimedBy entry = none) : claimOf job entry = none := by
  simp [claimOf, other]

theorem head_of_appended (opened : Option Time) (earlier : List Time) :
    (opened.toList ++ earlier).head? = opened.or earlier.head? := by
  cases opened <;> rfl

theorem StartStamped.write {new : Job} (stamped : StartStamped job before) (may : role.may operation)
    (writes : operation.Writes before.world job (before.world.jobs.visible pid job) new reply)
    (free : (before.world.jobs.slot job).Free pid)
    (slot : world.jobs.slot job = (before.world.jobs.slot job).write pid new) :
    StartStamped job (before.record pid role operation reply rest world) := by
  have opened := writes.open
  have cases := @written_started _ pid _ _ _ _ _ _ may writes
  rw [← Table.slot_visible] at cases
  constructor
  · rw [Pool.record_world, slot, dispatches_record_open opened]
    exact stamped.committed
  · rw [Pool.record_world, slot, dispatches_record_open opened]
    exact stamped.absent
  · intro owner row held
    rw [Pool.record_world, slot, Slot.write_holder] at held
    cases held
    rw [openClaim_record_open opened, dispatches_record_open opened]
    obtain ⟨claims, started, _⟩ | ⟨other, ⟨row, seen, started, _⟩ | ⟨absent, started⟩⟩ := cases
    · rw [claimOf_of_claims claims, started]
      rfl
    · rw [claimOf_of_not_claims other, started, Option.none_or]
      exact (stamped.visible seen).1
    · obtain ⟨unopened, none, _⟩ := stamped.unseen absent
      rw [claimOf_of_not_claims other, started, unopened, none]
      rfl
  · intro owner instant claimed
    rw [Pool.record_world, slot, Slot.write_holder]
    by_cases own : owner = pid
    · exact ⟨new, by rw [own]⟩
    · rw [openClaim_record_other own] at claimed
      obtain ⟨row, held⟩ := stamped.opened owner instant claimed
      exact absurd (free owner row held) own
  · intro stored owner row committed held
    rw [Pool.record_world, slot] at committed held
    cases held
    obtain ⟨_, _, row, seen, created⟩ | ⟨_, ⟨row, seen, _, created⟩ | ⟨absent, _⟩⟩ := cases
    · exact created.trans ((stamped.visible seen).2 stored committed)
    · exact created.trans ((stamped.visible seen).2 stored committed)
    · cases (stamped.unseen absent).2.2.symm.trans committed

theorem StartStamped.end_other (stamped : StartStamped job before) (ends : operation.ends = true)
    (unheld : ∀ row, (before.world.jobs.slot job).holder ≠ some (pid, row))
    (slot : world.jobs.slot job = before.world.jobs.slot job) :
    StartStamped job (before.record pid role operation reply rest world) := by
  have unopened := stamped.unopened unheld
  have same : dispatches job (before.record pid role operation reply rest world).log =
      dispatches job before.log := by
    obtain committed | rolled := Op.ends_cases ends
    · rw [Pool.record_log, dispatches_cons_of_commit committed]
      simp only [unopened, Option.toList_none, List.nil_append]
    · exact dispatches_cons_of_rollback rolled
  constructor
  · rw [Pool.record_world, slot, same]
    exact stamped.committed
  · rw [Pool.record_world, slot, same]
    exact stamped.absent
  · intro owner row held
    rw [Pool.record_world, slot] at held
    have different : owner ≠ pid := by
      intro own
      subst own
      exact unheld row held
    rw [same, openClaim_record_other different]
    exact stamped.held owner row held
  · intro owner instant claimed
    rw [Pool.record_world, slot]
    by_cases own : owner = pid
    · subst own
      rw [openClaim_record_ended ends] at claimed
      cases claimed
    · rw [openClaim_record_other own] at claimed
      exact stamped.opened owner instant claimed
  · rw [Pool.record_world, slot]
    exact stamped.created

theorem StartStamped.end_own (stamped : StartStamped job before) (ends : operation.ends = true)
    (held : (before.world.jobs.slot job).holder = some (pid, row))
    (none : (world.jobs.slot job).holder = none)
    (committed : ∀ row, (world.jobs.slot job).committed = some row → row.startedAt =
      (dispatches job (before.record pid role operation reply rest world).log).head?)
    (absent : (world.jobs.slot job).committed = Option.none →
      dispatches job (before.record pid role operation reply rest world).log = []) :
    StartStamped job (before.record pid role operation reply rest world) := by
  refine ⟨committed, absent, fun owner row holds => ?_, fun owner instant claimed => ?_,
    fun stored owner row _ holds => ?_⟩
  · cases none.symm.trans holds
  · by_cases own : owner = pid
    · subst own
      rw [openClaim_record_ended ends] at claimed
      cases claimed
    · rw [openClaim_record_other own] at claimed
      obtain ⟨version, holds⟩ := stamped.opened owner instant claimed
      cases held.symm.trans holds
      exact absurd rfl own
  · cases none.symm.trans holds

theorem StartStamped.commit (stamped : StartStamped job before) {replied : Unit}
    (slot : world.jobs.slot job = (before.world.jobs.slot job).commit pid) :
    StartStamped job (before.record pid role .commit replied rest world) := by
  obtain ⟨row, held, equal⟩ | ⟨unheld, equal⟩ := (before.world.jobs.slot job).commit_cases pid
  · have logged : dispatches job (before.record pid role .commit replied rest world).log =
        (openClaim job pid before.log).toList ++ dispatches job before.log :=
      dispatches_cons_of_commit rfl
    refine stamped.end_own rfl held (by rw [slot, equal]) (fun stored committed => ?_) fun absent => ?_
    · rw [slot, equal] at committed
      cases committed
      rw [logged, head_of_appended]
      exact stamped.held pid row held
    · rw [slot, equal] at absent
      cases absent
  · exact stamped.end_other rfl unheld (slot.trans equal)

theorem StartStamped.rollback (stamped : StartStamped job before) {replied : Unit}
    (slot : world.jobs.slot job = (before.world.jobs.slot job).rollback pid) :
    StartStamped job (before.record pid role .rollback replied rest world) := by
  obtain ⟨row, held, equal⟩ | ⟨unheld, equal⟩ := (before.world.jobs.slot job).rollback_cases pid
  · have logged : dispatches job (before.record pid role .rollback replied rest world).log =
        dispatches job before.log := dispatches_cons_of_rollback rfl
    refine stamped.end_own rfl held (by rw [slot, equal]) ?_ ?_
    · rw [slot, equal, logged]
      exact stamped.committed
    · rw [slot, equal, logged]
      exact stamped.absent
  · exact stamped.end_other rfl unheld (slot.trans equal)

theorem openClaim_kept (operated : World.operate pid operation before.world = some (reply, world))
    (unwritten : ∀ new, ¬ operation.Writes before.world job (before.world.jobs.visible pid job) new reply)
    (opened : operation.ends = false) (owner : Pid) :
    openClaim job owner (before.record pid role operation reply rest world).log =
      openClaim job owner before.log := by
  by_cases own : owner = pid
  · subst own
    rw [openClaim_record_open opened, claimOf_of_unwritten operated unwritten, Option.none_or]
  · exact openClaim_record_other own

theorem StartStamped.keep (stamped : StartStamped job before)
    (operated : World.operate pid operation before.world = some (reply, world))
    (unwritten : ∀ new, ¬ operation.Writes before.world job (before.world.jobs.visible pid job) new reply)
    (opened : operation.ends = false) (slot : world.jobs.slot job = before.world.jobs.slot job) :
    StartStamped job (before.record pid role operation reply rest world) := by
  have logged : dispatches job (before.record pid role operation reply rest world).log =
      dispatches job before.log := dispatches_record_open opened
  constructor
  · rw [Pool.record_world, slot, logged]
    exact stamped.committed
  · rw [Pool.record_world, slot, logged]
    exact stamped.absent
  · simp only [Pool.record_world, slot, openClaim_kept operated unwritten opened, logged]
    exact stamped.held
  · simp only [Pool.record_world, slot, openClaim_kept operated unwritten opened]
    exact stamped.opened
  · rw [Pool.record_world, slot]
    exact stamped.created

end Step

theorem started_stamped {settings : Settings} {pool : PlatformPool} (reachable : Reachable settings pool)
    (job : Uuid) : StartStamped job pool := by
  obtain ⟨outside, reached⟩ := reachable
  refine reached.invariant (motive := fun pool => StartStamped job pool) ?_ ?_ ?_ ?_
  · constructor
    · intro row stored
      cases stored
    · exact fun _ => rfl
    · intro owner row held
      cases held
    · intro owner instant claimed
      cases claimed
    · intro stored owner row committed
      cases committed
  · intro before pid role world _ stamped _ accepted
    have same := accept_jobs accepted
    obtain ⟨committed, absent, held, opened, created⟩ := stamped
    constructor
    all_goals
      rw [Pool.start_world, same]
      assumption
  · intro before pid role operation next reply world earlier stamped found operated
    have may := next_may ⟨outside, earlier⟩ found
    obtain ⟨new, writes, free, slot⟩ | ⟨rfl, slot⟩ | ⟨rfl, slot⟩ | ⟨unwritten, uncommitted, unrolled, slot⟩ :=
      operate_slot operated job
    · exact stamped.write may writes free slot
    · exact stamped.commit slot
    · exact stamped.rollback slot
    · exact stamped.keep operated unwritten (ends_eq_false uncommitted unrolled) slot
  · intro before change world _ stamped changed
    obtain ⟨committed, absent, held, opened, created⟩ := stamped
    constructor
    all_goals
      simp only [change_slot changed]
      assumption

/-- The dispatches of the job, and the claim in the transaction that holds it, are
on the side of the first dispatch. -/
structure SameSide (threshold : Time) (job : Uuid) (pool : PlatformPool) : Prop where
  committed : ∀ row, (pool.world.jobs.slot job).committed = some row →
    ∀ first, firstDispatch job pool.log = some first → ∀ instant ∈ dispatches job pool.log,
      late threshold row.createdAt instant = late threshold row.createdAt first
  held : ∀ owner row, (pool.world.jobs.slot job).holder = some (owner, row) →
    ∀ first, firstDispatch job pool.log = some first → ∀ instant, openClaim job owner pool.log = some instant →
      late threshold row.createdAt instant = late threshold row.createdAt first

theorem firstDispatch_of_same {log : List PlatformEntry} (same : dispatches job log = dispatches job older) :
    firstDispatch job log = firstDispatch job older := by
  rw [firstDispatch, same, firstDispatch]

section Sides

variable {threshold : Time} {before : PlatformPool} {role : Role} {operation : Op} {reply : Reply operation}
  {rest : Prog Unit} {world : World} {row : Job}

theorem SameSide.write {new : Job} (sides : SameSide threshold job before) (stamped : StartStamped job before)
    (keeps : claimKeepsSide threshold ⟨pid, role, operation, reply, before.world⟩ before.log)
    (may : role.may operation)
    (writes : operation.Writes before.world job (before.world.jobs.visible pid job) new reply)
    (slot : world.jobs.slot job = (before.world.jobs.slot job).write pid new) :
    SameSide threshold job (before.record pid role operation reply rest world) := by
  have opened := writes.open
  have logged : dispatches job (before.record pid role operation reply rest world).log =
      dispatches job before.log := dispatches_record_open opened
  constructor
  · rw [Pool.record_world, slot, logged, firstDispatch_of_same logged]
    exact sides.committed
  · intro owner row held first isFirst instant claimed
    rw [Pool.record_world, slot, Slot.write_holder] at held
    cases held
    rw [firstDispatch_of_same logged] at isFirst
    rw [openClaim_record_open opened] at claimed
    obtain ⟨claims, _, row, seen, created⟩ | ⟨other, kept⟩ := @written_started _ pid _ _ _ _ _ _ may writes
    · rw [claimOf_of_claims claims] at claimed
      cases claimed
      rw [created]
      exact keeps job claims first isFirst row seen
    · rw [claimOf_of_not_claims other, Option.none_or] at claimed
      obtain ⟨version, held⟩ := stamped.opened pid instant claimed
      have seen : before.world.jobs.visible pid job = some version := by
        rw [← Table.slot_visible]
        exact Slot.visible_of_held held
      obtain ⟨row, visible, _, created⟩ | ⟨absent, _⟩ := kept
      · cases seen.symm.trans visible
        rw [created]
        exact sides.held pid version held first isFirst instant claimed
      · cases seen.symm.trans absent

theorem SameSide.commit (sides : SameSide threshold job before) (stamped : StartStamped job before)
    {replied : Unit} (slot : world.jobs.slot job = (before.world.jobs.slot job).commit pid) :
    SameSide threshold job (before.record pid role .commit replied rest world) := by
  have logged : dispatches job (before.record pid role .commit replied rest world).log =
      (openClaim job pid before.log).toList ++ dispatches job before.log := dispatches_cons_of_commit rfl
  obtain ⟨row, held, equal⟩ | ⟨unheld, equal⟩ := (before.world.jobs.slot job).commit_cases pid
  · constructor
    · intro stored committed first isFirst instant member
      rw [Pool.record_world, slot, equal] at committed
      cases committed
      rw [logged] at member
      rw [firstDispatch, logged] at isFirst
      by_cases fresh : dispatches job before.log = []
      · -- The commit is of the first dispatch.
        rw [fresh, List.append_nil] at member isFirst
        cases claimed : openClaim job pid before.log with
        | none => simp [claimed] at member
        | some claim =>
            simp only [claimed, Option.toList_some, List.mem_singleton, List.getLast?_singleton,
              Option.some.injEq] at member isFirst
            rw [member, isFirst]
      · rw [List.getLast?_append_of_ne_nil _ fresh] at isFirst
        obtain new | old := List.mem_append.mp member
        · exact sides.held pid row held first isFirst instant (Option.mem_toList.mp new)
        · cases present : (before.world.jobs.slot job).committed with
          | none => exact absurd (stamped.absent present) fresh
          | some stored =>
              rw [stamped.created stored pid row present held]
              exact sides.committed stored present first isFirst instant old
    · intro owner version holds
      rw [Pool.record_world, slot, equal] at holds
      cases holds
  · rw [stamped.unopened unheld, Option.toList_none, List.nil_append] at logged
    constructor
    · rw [Pool.record_world, slot, equal, logged, firstDispatch_of_same logged]
      exact sides.committed
    · intro owner row held
      rw [Pool.record_world, slot, equal] at held
      have different : owner ≠ pid := by
        intro own
        subst own
        exact unheld row held
      rw [firstDispatch_of_same logged, openClaim_record_other different]
      exact sides.held owner row held

theorem SameSide.rollback (sides : SameSide threshold job before) {replied : Unit}
    (slot : world.jobs.slot job = (before.world.jobs.slot job).rollback pid) :
    SameSide threshold job (before.record pid role .rollback replied rest world) := by
  have logged : dispatches job (before.record pid role .rollback replied rest world).log =
      dispatches job before.log := dispatches_cons_of_rollback rfl
  constructor
  · rw [Pool.record_world, slot, Slot.rollback_committed, logged, firstDispatch_of_same logged]
    exact sides.committed
  · intro owner row held first isFirst instant claimed
    rw [Pool.record_world, slot] at held
    rw [firstDispatch_of_same logged] at isFirst
    by_cases own : owner = pid
    · subst own
      rw [openClaim_record_ended rfl] at claimed
      cases claimed
    · rw [openClaim_record_other own] at claimed
      exact sides.held owner row (Slot.holder_of_rollback held) first isFirst instant claimed

theorem SameSide.keep (sides : SameSide threshold job before)
    (operated : World.operate pid operation before.world = some (reply, world))
    (unwritten : ∀ new, ¬ operation.Writes before.world job (before.world.jobs.visible pid job) new reply)
    (opened : operation.ends = false) (slot : world.jobs.slot job = before.world.jobs.slot job) :
    SameSide threshold job (before.record pid role operation reply rest world) := by
  have logged : dispatches job (before.record pid role operation reply rest world).log =
      dispatches job before.log := dispatches_record_open opened
  constructor
  · rw [Pool.record_world, slot, logged, firstDispatch_of_same logged]
    exact sides.committed
  · simp only [Pool.record_world, slot, firstDispatch_of_same logged, openClaim_kept operated unwritten opened]
    exact sides.held

end Sides

section Runs

variable {settings : Settings} {pool : PlatformPool} {threshold : Time}

theorem sides_kept (reachable : Reachable settings pool) (keeps : ClaimsKeepSide threshold pool.log) (job : Uuid) :
    SameSide threshold job pool := by
  obtain ⟨outside, reached⟩ := reachable
  revert keeps
  refine reached.invariant (motive := fun pool => ClaimsKeepSide threshold pool.log →
    SameSide threshold job pool) ?_ ?_ ?_ ?_
  · intro _
    constructor
    · intro row stored
      cases stored
    · intro owner row held
      cases held
  · intro before pid role world _ sides _ accepted keeps
    obtain ⟨committed, held⟩ := sides keeps
    constructor
    all_goals
      rw [Pool.start_world, accept_jobs accepted]
      assumption
  · intro before pid role operation next reply world earlier sides found operated keeps
    have reachable : Reachable settings before := ⟨outside, earlier⟩
    have stamped := started_stamped reachable job
    have sides := sides keeps.2
    obtain ⟨new, writes, _, slot⟩ | ⟨rfl, slot⟩ | ⟨rfl, slot⟩ | ⟨unwritten, uncommitted, unrolled, slot⟩ :=
      operate_slot operated job
    · exact sides.write stamped keeps.1 (next_may reachable found) writes slot
    · exact sides.commit stamped slot
    · exact sides.rollback slot
    · exact sides.keep operated unwritten (ends_eq_false uncommitted unrolled) slot
  · intro before change world _ sides changed keeps
    obtain ⟨committed, held⟩ := sides keeps
    constructor
    all_goals
      simp only [change_slot changed]
      assumption

theorem missesLatency_of_reachable (reachable : Reachable settings pool) {row : Job}
    (stored : pool.world.jobs.committed job = some row) :
    missesLatency threshold row = (dispatches job pool.log).head?.all (late threshold row.createdAt) := by
  have started := (started_stamped reachable job).committed row stored
  unfold missesLatency
  rw [started]
  cases (dispatches job pool.log).head? <;> rfl

theorem missesLatency_of_first (reachable : Reachable settings pool)
    (keeps : ClaimsKeepSide threshold pool.log) {row : Job}
    (stored : pool.world.jobs.committed job = some row) :
    missesLatency threshold row = (firstDispatch job pool.log).all (late threshold row.createdAt) := by
  have sides := (sides_kept reachable keeps job).committed row stored
  rw [missesLatency_of_reachable reachable stored]
  cases dispatched : dispatches job pool.log with
  | nil => simp [firstDispatch, dispatched]
  | cons last earlier =>
      obtain ⟨first, isFirst⟩ : ∃ first, firstDispatch job pool.log = some first := by
        rw [firstDispatch, dispatched]
        exact ⟨_, List.getLast?_eq_some_getLast (by simp)⟩
      have same := sides first isFirst last (by simp [dispatched])
      simp [isFirst, same]

theorem latency_of_first_dispatch (reachable : Reachable settings pool)
    (keeps : ClaimsKeepSide (seconds 30) pool.log) :
    CountsFirstDispatch jobDispatchLatency (seconds 30) pool := by
  constructor
  · intro job row first now stored isFirst prompt
    have judged := missesLatency_of_first reachable keeps stored
    simp [countsAsFailed, jobDispatchLatency, judged, isFirst, prompt]
  · intro job row first now stored isFirst slow counted
    have judged := missesLatency_of_first reachable keeps stored
    simp only [countsAsFailed, counted, Bool.true_and]
    simp [jobDispatchLatency, judged, isFirst, slow]

/-- What an evaluation counts as failed are the jobs of its window whose first
dispatch was late or that were never dispatched. -/
theorem failures_of_first_dispatches (reachable : Reachable settings pool)
    (keeps : ClaimsKeepSide (seconds 30) pool.log) {evaluator : Pid}
    (reads : ∀ id row, (pool.world.jobs.slot id).holder ≠ some (evaluator, row)) {now : Time} {state : SLOState}
    (computed : computeLatencySlo jobDispatchLatency now (pool.world.jobs.rows evaluator) = some state) :
    state.failed = (pool.world.jobs.rows evaluator).countP fun row =>
      dispatchedInWindow (jobDispatchLatency.since now) row &&
        (firstDispatch row.id pool.log).all (late (seconds 30) row.createdAt) := by
  rw [computeLatencySlo_failed computed]
  refine List.countP_congr fun row member => ?_
  obtain ⟨id, seen⟩ := Table.mem_rows_iff.mp member
  rw [← Table.slot_visible, Slot.visible_of_free (reads id)] at seen
  have keyed : row.id = id := (rows_keyed reachable id).committed row seen
  have judged := missesLatency_of_first reachable keeps seen
  rw [countsAsFailed, jobDispatchLatency, Option.any_some, judged, keyed]

end Runs

section Instances

def dispatchedAtOnce : List (Label Role Change) :=
  [.spawn 1 (.createJob { userId := 7, tenantId := 8, jobType := "csv_upload" })] ++ turns 1 4 ++
  [.spawn 2 .outboxRelay] ++ turns 2 6 ++ tick 2 .timedOut ++ [.spawn 3 (.deliver 1)] ++ turns 3 14

def replayedAt (instant : Time) : List (Label Role Change) :=
  tick instant .timedOut ++
  [.spawn 4 (.replay 1 8 { kind := "user", requestingUserId := some 7 })] ++ turns 4 8

def dispatchedAgainAt (instant : Time) : List (Label Role Change) :=
  dispatchedAtOnce ++ replayedAt instant ++ tick (instant + 1) .timedOut ++ [.spawn 5 .outboxRelay] ++ turns 5 6 ++
  [.spawn 6 (.deliver 1)] ++ turns 6 6

theorem latency_of_last_dispatch : ∃ pool row first now, Reachable .defaults pool ∧
    pool.world.jobs.committed 1 = some row ∧ firstDispatch 1 pool.log = some first ∧
    late (seconds 30) row.createdAt first = false ∧ countsAsFailed jobDispatchLatency now row = true := by
  obtain ⟨pool, reachable, checked⟩ : ∃ pool, Reachable .defaults pool ∧
      ((pool.world.jobs.committed 1).any fun row => (firstDispatch 1 pool.log).any fun first =>
        !late (seconds 30) row.createdAt first &&
          countsAsFailed jobDispatchLatency (seconds 41) row) = true :=
    exists_reachable (dispatchedAgainAt (seconds 40)) (by decide +kernel)
  obtain ⟨row, stored, checked⟩ := (Option.any_eq_true _ _).mp checked
  obtain ⟨first, isFirst, checked⟩ := (Option.any_eq_true _ _).mp checked
  obtain ⟨prompt, failed⟩ := Bool.and_eq_true_iff.mp checked
  exact ⟨pool, row, first, seconds 41, reachable, stored, isFirst, by simpa using prompt, failed⟩

theorem latency_of_first_dispatch_at_twenty : ∃ pool, Reachable .defaults pool ∧
    dispatches 1 pool.log = [seconds 20 + 1, 2] ∧
    CountsFirstDispatch jobDispatchLatency (seconds 30) pool := by
  obtain ⟨pool, reachable, checked⟩ : ∃ pool, Reachable .defaults pool ∧
      (decide (dispatches 1 pool.log = [seconds 20 + 1, 2]) &&
        decide (ClaimsKeepSide (seconds 30) pool.log)) = true :=
    exists_reachable (dispatchedAgainAt (seconds 20)) (by decide +kernel)
  obtain ⟨twice, keeps⟩ := Bool.and_eq_true_iff.mp checked
  exact ⟨pool, reachable, of_decide_eq_true twice,
    latency_of_first_dispatch reachable (of_decide_eq_true keeps)⟩

end Instances

end IncidentPlatform.Properties
