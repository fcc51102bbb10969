import IncidentPlatform.Properties.LiveExecutions

namespace IncidentPlatform.Properties

open Concurrency Models Platform Services Storage

/-! # The run ceiling

Between two resets of its lifecycle a job is started at most `max_attempts`
times.  The retry count a delivery writes back is the one it read before its
claim, so the ceiling rests on the claim finding that count unchanged.
-/

def startsProcessor (job : Uuid) (entry : PlatformEntry) : Bool :=
  match entry.operation with
  | .reading (.execute _ _) => entry.role.delivers job
  | _ => false

def failsProcessor (job : Uuid) (entry : PlatformEntry) : Bool :=
  match entry with
  | ⟨_, role, .reading (.execute _ _), outcome, _⟩ =>
      role.delivers job && match outcome with
        | .returned _ => false
        | .timedOut | .raised _ => true
  | _ => false

def starts (job : Uuid) (log : List PlatformEntry) : Nat := log.countP (startsProcessor job)

def failures (job : Uuid) (log : List PlatformEntry) : Nat := log.countP (failsProcessor job)

/-- A claim that is won finds the retry count that its delivery has read. -/
def claimFindsRead (job : Uuid) (entry : PlatformEntry) (older : List PlatformEntry) : Bool :=
  match entry with
  | ⟨pid, _, .statement (.claimForRunning id), won, before⟩ =>
      match attemptOf job pid older with
      | .idle (some read) => id ≠ job || won = false ||
          (before.jobs.visible pid job).all fun row => row.retryCount = read.retryCount
      | _ => true
  | _ => true

/-- The same of every claim after `earlier`. -/
def ClaimsFindRead (job : Uuid) (earlier : List PlatformEntry) : List PlatformEntry → Prop
  | [] => True
  | entry :: older =>
      claimFindsRead job entry (older ++ earlier) = true ∧ ClaimsFindRead job earlier older

/-- How a row stands that nobody is executing, after `started` runs of which
`failed` failed. -/
def Standing (ceiling started failed : Nat) (row : Job) : Prop :=
  failed ≤ started ∧
    match row.status with
    | .waiting => started = 0 ∧ row.retryCount < ceiling
    | .pending => started ≤ row.retryCount ∧ row.retryCount < ceiling
    | .completed => failed < started ∧ started ≤ ceiling
    | .deadLetter => started ≤ ceiling
    | .cancelled => started = 0
    | .running | .failed => False

def Within (ceiling started failed : Nat) (slot : Slot Job) (pid : Pid) : Attempt → Prop
  | .idle _ | .finished => True
  | .claimed read | .running read => ∃ row, read = some row ∧ row.maxAttempts = ceiling ∧
      started ≤ row.retryCount ∧ row.retryCount < ceiling ∧ failed ≤ started
  | .failed read => ∃ row, read = some row ∧ row.maxAttempts = ceiling ∧
      started ≤ row.retryCount + 1 ∧ row.retryCount < ceiling ∧ failed ≤ started
  | .succeeded read => ∃ row, read = some row ∧ row.maxAttempts = ceiling ∧
      started ≤ row.retryCount + 1 ∧ row.retryCount < ceiling ∧ failed < started
  | .settled _ => ∀ version, slot.holder = some (pid, version) →
      Standing ceiling started failed version

/-- Every version of the row, and every row a delivery has read, has the
`max_attempts` of the committed row. -/
structure SameCeiling (job : Uuid) (pool : PlatformPool) : Prop where
  versions : ∀ owner version row, (pool.world.jobs.slot job).holder = some (owner, version) →
    (pool.world.jobs.slot job).committed = some row → version.maxAttempts = row.maxAttempts
  reads : ∀ pid process read, pool.process pid = some process → process.role.delivers job →
    (attemptOf job pid pool.log).read = some read →
    ∃ row, (pool.world.jobs.slot job).committed = some row ∧ row.maxAttempts = read.maxAttempts

theorem attemptOf_record (job : Uuid) (pool : PlatformPool) (pid : Pid) (role : Role)
    (operation : Op) (reply : Reply operation) (rest : Prog Unit) (world : World) (queried : Pid) :
    attemptOf job queried (pool.record pid role operation reply rest world).log =
      if pid = queried then (attemptOf job queried pool.log).advance job operation reply
      else attemptOf job queried pool.log := rfl

theorem read_advance {job : Uuid} {attempt : Attempt} {operation : Op} {reply : Reply operation}
    {row : Job} (unread : ∀ id, operation ≠ .query (.job id))
    (carried : (attempt.advance job operation reply).read = some row) : attempt.read = some row := by
  cases operation with
  | query query =>
      cases query with
      | job id => exact absurd rfl (unread id)
      | _ => cases attempt <;> exact carried
  | statement statement =>
      cases statement with
      | claimForRunning id =>
          cases attempt with
          | idle read =>
              simp only [Attempt.advance] at carried
              split at carried <;> exact carried
          | _ => exact carried
      | updateStatus id write guard =>
          cases attempt with
          | running read =>
              simp only [Attempt.advance] at carried
              split at carried <;> exact carried
          | failed read =>
              simp only [Attempt.advance] at carried
              split at carried <;> exact carried
          | succeeded read =>
              simp only [Attempt.advance] at carried
              split at carried <;> exact carried
          | _ => exact carried
      | _ => cases attempt <;> exact carried
  | reading reading =>
      cases reading with
      | execute type payload =>
          cases attempt with
          | running read => cases reply <;> exact carried
          | _ => exact carried
      | _ => cases attempt <;> exact carried
  | commit =>
      cases attempt with
      | settled read => cases carried
      | _ => exact carried
  | rollback => cases attempt <;> exact carried
  | command command => cases attempt <;> exact carried
  | publishRaw row => cases attempt <;> exact carried

theorem read_advance_job {job id : Uuid} {attempt : Attempt} {found : Option Job} {row : Job}
    (carried : (attempt.advance job (.query (.job id)) found).read = some row) :
    attempt.read = some row ∨ id = job ∧ found = some row := by
  cases attempt with
  | idle read =>
      simp only [Attempt.advance, Attempt.read] at carried
      split at carried
      · exact .inr ⟨‹_›, carried⟩
      · exact .inl carried
  | _ => exact .inl carried

section SameCeiling

variable {job : Uuid} {before : PlatformPool} {pid : Pid} {role : Role} {operation : Op}
  {next : Reply operation → Prog Unit} {reply : Reply operation} {world : World}

theorem SameCeiling.rows (same : SameCeiling job before)
    (operated : World.operate pid operation before.world = some (reply, world)) :
    (∀ owner version row, (world.jobs.slot job).holder = some (owner, version) →
      (world.jobs.slot job).committed = some row → version.maxAttempts = row.maxAttempts) ∧
    (∀ row, (before.world.jobs.slot job).committed = some row →
      ∃ now, (world.jobs.slot job).committed = some now ∧ now.maxAttempts = row.maxAttempts) := by
  rcases operate_slot operated job with ⟨new, writes, free, slot⟩ | ⟨_, slot⟩ | ⟨_, slot⟩ |
    ⟨_, _, _, slot⟩
  · rw [slot]
    refine ⟨?_, fun row stored => ⟨row, stored, rfl⟩⟩
    intro owner version row held stored
    cases held
    have stored : (before.world.jobs.slot job).committed = some row := stored
    cases current : (before.world.jobs.slot job).holder with
    | none =>
        rw [← Table.slot_visible, Slot.visible_of_free (by simp [current]), stored] at writes
        exact writes.sameJob.maxAttempts
    | some entry =>
        obtain ⟨holder, own⟩ := entry
        obtain rfl := free holder own current
        rw [← Table.slot_visible, Slot.visible_of_held current] at writes
        exact writes.sameJob.maxAttempts.trans (same.versions holder own row current stored)
  · rw [slot]
    rcases (before.world.jobs.slot job).commit_cases pid with ⟨version, held, equal⟩ | ⟨_, equal⟩
    · rw [equal]
      refine ⟨fun _ _ _ held => (by cases held), fun row stored => ?_⟩
      exact ⟨version, rfl, same.versions pid version row held stored⟩
    · rw [equal]
      exact ⟨same.versions, fun row stored => ⟨row, stored, rfl⟩⟩
  · rw [slot]
    rcases (before.world.jobs.slot job).rollback_cases pid with ⟨version, held, equal⟩ | ⟨_, equal⟩
    · rw [equal]
      exact ⟨fun _ _ _ held => (by cases held), fun row stored => ⟨row, stored, rfl⟩⟩
    · rw [equal]
      exact ⟨same.versions, fun row stored => ⟨row, stored, rfl⟩⟩
  · rw [slot]
    exact ⟨same.versions, fun row stored => ⟨row, stored, rfl⟩⟩

theorem not_inserts_of_delivers {role : Role} (delivers : role.delivers job) : ¬ role.inserts := by
  cases role <;> first
    | exact Bool.false_ne_true
    | exact absurd delivers Bool.false_ne_true

theorem SameCeiling.seen {settings : Settings} (reachable : Reachable settings before)
    (same : SameCeiling job before) {row : Job}
    (found : before.process pid = some { role, program := .call operation next })
    (delivers : role.delivers job) (seen : before.world.jobs.visible pid job = some row) :
    ∃ stored, (before.world.jobs.slot job).committed = some stored ∧
      stored.maxAttempts = row.maxAttempts := by
  rw [← Table.slot_visible] at seen
  cases current : (before.world.jobs.slot job).holder with
  | none =>
      rw [Slot.visible_of_free (by simp [current])] at seen
      exact ⟨row, seen, rfl⟩
  | some entry =>
      obtain ⟨holder, own⟩ := entry
      by_cases mine : holder = pid
      · subst mine
        rw [Slot.visible_of_held current] at seen
        cases seen
        obtain ⟨stored, committed⟩ :=
          stored_of_held reachable current found (not_inserts_of_delivers delivers)
        exact ⟨stored, committed, (same.versions holder row stored current committed).symm⟩
      · rw [Slot.visible_of_free (by simp [current, mine])] at seen
        exact ⟨row, seen, rfl⟩

theorem SameCeiling.operate {settings : Settings} (reachable : Reachable settings before)
    (same : SameCeiling job before)
    (found : before.process pid = some { role, program := .call operation next })
    (operated : World.operate pid operation before.world = some (reply, world)) :
    SameCeiling job (before.record pid role operation reply (next reply) world) := by
  obtain ⟨versions, kept⟩ := same.rows operated
  refine ⟨versions, ?_⟩
  · intro queried process read present delivers carried
    obtain ⟨earlier, present, sameRole⟩ := Pool.role_of_record found present
    have delivers : earlier.role.delivers job := sameRole ▸ delivers
    have through : (∃ row, (before.world.jobs.slot job).committed = some row ∧
        row.maxAttempts = read.maxAttempts) → ∃ row, (world.jobs.slot job).committed = some row ∧
        row.maxAttempts = read.maxAttempts := by
      rintro ⟨row, stored, agrees⟩
      obtain ⟨now, committed, unchanged⟩ := kept row stored
      exact ⟨now, committed, unchanged.trans agrees⟩
    rw [attemptOf_record] at carried
    by_cases own : pid = queried
    · subst own
      rw [if_pos rfl] at carried
      rw [found] at present
      cases present
      by_cases reads : ∃ id, operation = .query (.job id)
      · obtain ⟨id, rfl⟩ := reads
        rcases read_advance_job carried with before | ⟨rfl, answered⟩
        · exact through (same.reads pid _ read found delivers before)
        · cases operated
          exact through (same.seen reachable found delivers answered)
      · have earlier := read_advance (fun id equal => reads ⟨id, equal⟩) carried
        exact through (same.reads pid _ read found delivers earlier)
    · rw [if_neg own] at carried
      exact through (same.reads queried earlier read present delivers carried)

end SameCeiling

theorem sameCeiling_of_reachable {settings : Settings} {pool : PlatformPool}
    (reachable : Reachable settings pool) (job : Uuid) : SameCeiling job pool := by
  obtain ⟨outside, reached⟩ := reachable
  refine reached.invariant (motive := SameCeiling job) ?_ ?_ ?_ ?_
  · exact ⟨fun _ _ _ held => (by cases held), fun _ _ _ present => (by cases present)⟩
  · intro before pid role world earlier same unused accepted
    have slot : world.jobs.slot job = before.world.jobs.slot job := by rw [accept_jobs accepted]
    refine ⟨?_, ?_⟩
    · rw [Pool.start_world, slot]
      exact same.versions
    · rw [Pool.start_world, slot]
      intro queried process read present delivers carried
      have different : queried ≠ pid := by
        intro own
        have unlogged : ∀ entry ∈ before.log, entry.pid ≠ queried := by
          intro entry member logged
          obtain ⟨process, running, _⟩ := logged_started ⟨outside, earlier⟩ entry member
          rw [logged, own, unused] at running
          cases running
        rw [Pool.start_log, attemptOf_unlogged unlogged] at carried
        cases carried
      rw [Pool.start_process, Pool.setProcess_other _ _ different] at present
      exact same.reads queried process read present delivers carried
  · intro before pid role operation next reply world earlier same found operated
    exact SameCeiling.operate ⟨outside, earlier⟩ same found operated
  · intro before change world earlier same changed
    have slot := change_slot changed job
    exact ⟨by rw [slot]; exact same.versions, by rw [slot]; exact same.reads⟩

/-- The counts of the period and the state of the job agree. -/
structure Ceiling (job : Uuid) (ceiling started failed : Nat) (pool : PlatformPool) : Prop where
  attempts : ∀ pid, Within ceiling started failed (pool.world.jobs.slot job) pid
    (attemptOf job pid pool.log)
  quiet : (∀ pid, ¬ Live job pid pool) →
    (pool.world.jobs.slot job).All (Standing ceiling started failed)
  rows : (pool.world.jobs.slot job).All fun row => row.maxAttempts = ceiling
  stored : ∃ row, (pool.world.jobs.slot job).committed = some row

theorem live_iff_attempt {job : Uuid} {pid : Pid} {pool : PlatformPool} :
    Live job pid pool ↔ (attemptOf job pid pool.log).execution.live = true := by
  rw [Live, attemptOf_execution]

theorem within_of_not_live {job : Uuid} {pid : Pid} {pool : PlatformPool} {slot : Slot Job}
    {ceiling started failed : Nat} (idle : ¬ Live job pid pool) :
    Within ceiling started failed slot pid (attemptOf job pid pool.log) := by
  rw [live_iff_attempt] at idle
  cases attempt : attemptOf job pid pool.log with
  | idle read => exact trivial
  | finished => exact trivial
  | _ =>
      rw [attempt] at idle
      exact absurd rfl idle

theorem standing_of_still {world : World} {job : Uuid} {operation : Op} {reply : Reply operation}
    {row new : Job} {ceiling started failed : Nat}
    (writes : operation.Writes world job (some row) new reply) (still : Still operation)
    (standing : Standing ceiling started failed row) : Standing ceiling started failed new := by
  obtain ⟨bounded, status⟩ := standing
  refine ⟨bounded, ?_⟩
  cases operation with
  | statement statement =>
      cases statement with
      | updateStatus id write guard => exact still.elim
      | claimForRunning id => exact still.elim
      | promoteWaitingToPending id =>
          obtain ⟨_, _, _, equal, waiting, rfl⟩ := writes
          cases equal
          rw [waiting] at status
          have begun : started ≤ row.retryCount := by omega
          exact ⟨begun, status.2⟩
      | cancelBlocked ids reason stamp =>
          obtain ⟨_, _, equal, waiting, _, rfl⟩ := writes
          cases equal
          rw [waiting] at status
          exact status.1
      | stampRequeued id stamp =>
          obtain ⟨_, _, equal, rfl⟩ := writes
          cases equal
          exact status
      | renewRunningLeases ids oldest stamp =>
          obtain ⟨_, _, equal, running, rfl⟩ := writes
          cases equal
          rw [running] at status
          exact status.elim
      | insertJob draft => cases writes.1
      | _ => exact writes.elim
  | _ => exact writes.elim

theorem standing_of_settles {attempt : Attempt} {write : StatusWrite} {slot : Slot Job} {pid : Pid}
    {ceiling started failed : Nat} {now : Time} {row : Job} (settles : attempt.Settles write)
    (within : Within ceiling started failed slot pid attempt) :
    Standing ceiling started failed (write.apply now row) := by
  cases attempt with
  | running read =>
      obtain ⟨seen, _, _, begun, below, bounded⟩ := within
      refine ⟨bounded, ?_⟩
      have dead : write.status = .deadLetter := settles
      rw [StatusWrite.apply_status, dead]
      show started ≤ ceiling
      omega
  | failed read =>
      obtain ⟨seen, known, same, begun, below, bounded⟩ := within
      refine ⟨bounded, ?_⟩
      rcases settles with dead | ⟨pending, again, shown, counted, owed⟩
      · rw [StatusWrite.apply_status, dead]
        show started ≤ ceiling
        omega
      · rw [known] at shown
        cases shown
        rw [StatusWrite.apply_status, pending]
        have count : (write.apply now row).retryCount = seen.retryCount + 1 := by
          rw [StatusWrite.apply_retryCount, counted]
          rfl
        show started ≤ (write.apply now row).retryCount ∧ (write.apply now row).retryCount < ceiling
        omega
  | succeeded read =>
      obtain ⟨seen, _, _, begun, below, bounded⟩ := within
      refine ⟨by omega, ?_⟩
      have completed : write.status = .completed := settles
      rw [StatusWrite.apply_status, completed]
      show failed < started ∧ started ≤ ceiling
      omega
  | _ => exact settles.elim

section Step

variable {job : Uuid} {before : PlatformPool} {pid : Pid} {role : Role} {operation : Op}
  {reply : Reply operation} {rest : Prog Unit} {world : World} {ceiling started failed : Nat}

theorem other_of_record (queried : Pid) (different : queried ≠ pid) :
    attemptOf job queried (before.record pid role operation reply rest world).log =
      attemptOf job queried before.log := by
  rw [attemptOf_record, if_neg (Ne.symm different)]

theorem live_other (queried : Pid) (different : queried ≠ pid) :
    Live job queried (before.record pid role operation reply rest world) ↔ Live job queried before := by
  rw [live_iff_attempt, live_iff_attempt, other_of_record queried different]

theorem ceiling_of_live (attempt : Within ceiling started failed (world.jobs.slot job) pid
      (attemptOf job pid (before.record pid role operation reply rest world).log))
    (live : Live job pid (before.record pid role operation reply rest world))
    (others : ∀ other, other ≠ pid → ¬ Live job other before)
    (rows : (world.jobs.slot job).All fun row => row.maxAttempts = ceiling)
    (stored : ∃ row, (world.jobs.slot job).committed = some row) :
    Ceiling job ceiling started failed (before.record pid role operation reply rest world) := by
  refine ⟨?_, fun idle => absurd live (idle pid), rows, stored⟩
  intro queried
  by_cases own : queried = pid
  · subst own
    exact attempt
  · rw [other_of_record queried own]
    exact within_of_not_live (others queried own)

theorem ceiling_of_same (held : Ceiling job ceiling started failed before)
    (same : ∀ queried, attemptOf job queried (before.record pid role operation reply rest world).log =
      attemptOf job queried before.log)
    (settled : ∀ queried read version, attemptOf job queried before.log = .settled read →
      (world.jobs.slot job).holder = some (queried, version) → Standing ceiling started failed version)
    (standing : (before.world.jobs.slot job).All (Standing ceiling started failed) →
      (world.jobs.slot job).All (Standing ceiling started failed))
    (rows : (world.jobs.slot job).All fun row => row.maxAttempts = ceiling)
    (stored : ∃ row, (world.jobs.slot job).committed = some row) :
    Ceiling job ceiling started failed (before.record pid role operation reply rest world) := by
  refine ⟨?_, ?_, rows, stored⟩
  · intro queried
    have earlier := held.attempts queried
    rw [same]
    cases attempt : attemptOf job queried before.log with
    | settled read => exact fun version holds => settled queried read version attempt holds
    | _ =>
        rw [attempt] at earlier
        exact earlier
  · intro idle
    apply standing
    apply held.quiet
    intro queried live
    apply idle queried
    rw [live_iff_attempt, same]
    exact live_iff_attempt.mp live

theorem Ceiling.of_same {after : PlatformPool} (held : Ceiling job ceiling started failed before)
    (sameLog : after.log = before.log)
    (sameSlot : after.world.jobs.slot job = before.world.jobs.slot job) :
    Ceiling job ceiling started failed after where
  attempts := by
    intro pid
    rw [sameLog, sameSlot]
    exact held.attempts pid
  quiet := by
    intro idle
    rw [sameSlot]
    apply held.quiet
    intro pid live
    apply idle pid
    rw [Live, sameLog]
    exact live
  rows := by
    rw [sameSlot]
    exact held.rows
  stored := by
    rw [sameSlot]
    exact held.stored

theorem Ceiling.started_le (held : Ceiling job ceiling started failed before)
    (exclusive : ExclusiveExecution job before) : started ≤ ceiling := by
  have standing_le : ∀ row, Standing ceiling started failed row → started ≤ ceiling := by
    rintro row ⟨bounded, status⟩
    cases current : row.status with
    | running =>
        rw [current] at status
        exact status.elim
    | failed =>
        rw [current] at status
        exact status.elim
    | _ =>
        rw [current] at status
        simp only at status
        omega
  by_cases nobody : ∀ queried, ¬ Live job queried before
  · obtain ⟨row, stored⟩ := held.stored
    exact standing_le row ((held.quiet nobody).committed row stored)
  · simp only [not_forall, not_not] at nobody
    obtain ⟨queried, live⟩ := nobody
    have within := held.attempts queried
    rw [live_iff_attempt] at live
    cases attempt : attemptOf job queried before.log with
    | idle read =>
        rw [attempt] at live
        cases live
    | finished =>
        rw [attempt] at live
        cases live
    | settled read =>
        have state : executionOf job queried before.log = .settled := by
          rw [← attemptOf_execution, attempt]
          rfl
        obtain ⟨version, holds⟩ := exclusive.settled queried state
        rw [attempt] at within
        exact standing_le version (within version holds)
    | _ =>
        rw [attempt] at within
        obtain ⟨row, _, _, begun, below, _⟩ := within
        omega

theorem ceiling_start {type : String} {payload : Json} {outcome : Outcome} {row : Job}
    (held : Ceiling job ceiling started failed before) (exclusive : ExclusiveExecution job before)
    (delivers : role.delivers job) (running : attemptOf job pid before.log = .running (some row))
    (slot : world.jobs.slot job = before.world.jobs.slot job) :
    Ceiling job ceiling
      (started + if startsProcessor job
        ⟨pid, role, .reading (.execute type payload), outcome, before.world⟩ then 1 else 0)
      (failed + if failsProcessor job
        ⟨pid, role, .reading (.execute type payload), outcome, before.world⟩ then 1 else 0)
      (before.record pid role (.reading (.execute type payload)) outcome rest world) := by
  have own : Live job pid before := by
    rw [live_iff_attempt, running]
    rfl
  have within := held.attempts pid
  rw [running] at within
  obtain ⟨seen, known, same, begun, below, bounded⟩ := within
  have after : attemptOf job pid
      (before.record pid role (.reading (.execute type payload)) outcome rest world).log =
      .started (some row) outcome := by
    rw [attemptOf_record, if_pos rfl, running]
    rfl
  refine ceiling_of_live ?_ ?_ ?_ (by rw [slot]; exact held.rows) (by rw [slot]; exact held.stored)
  · rw [after]
    cases outcome with
    | returned result =>
        refine ⟨seen, known, same, ?_, below, ?_⟩
        · simp only [startsProcessor, delivers, if_true]
          omega
        · simp only [startsProcessor, failsProcessor, delivers, if_true, Bool.and_false,
            Bool.false_eq_true, if_false]
          omega
    | timedOut =>
        refine ⟨seen, known, same, ?_, below, ?_⟩
        · simp only [startsProcessor, delivers, if_true]
          omega
        · simp only [startsProcessor, failsProcessor, delivers, if_true, Bool.and_true]
          omega
    | raised error =>
        refine ⟨seen, known, same, ?_, below, ?_⟩
        · simp only [startsProcessor, delivers, if_true]
          omega
        · simp only [startsProcessor, failsProcessor, delivers, if_true, Bool.and_true]
          omega
  · rw [live_iff_attempt, after]
    cases outcome <;> rfl
  · intro other different live
    exact different (exclusive.unique other pid live own)

theorem ceiling_outcome {write : StatusWrite} {guard : Option (Job → Bool)} {changed : Bool}
    {new : Job} (held : Ceiling job ceiling started failed before)
    (exclusive : ExclusiveExecution job before)
    (settles : (attemptOf job pid before.log).Settles write)
    (writes : (Op.statement (.updateStatus job write guard)).Writes before.world job
      (before.world.jobs.visible pid job) new changed)
    (slot : world.jobs.slot job = (before.world.jobs.slot job).write pid new) :
    Ceiling job ceiling started failed
      (before.record pid role (.statement (.updateStatus job write guard)) changed rest world) := by
  obtain ⟨accepted, _, row, seen, _, written⟩ := writes
  have within := held.attempts pid
  have standing : Standing ceiling started failed new := by
    rw [written]
    exact standing_of_settles settles within
  have kept : new.maxAttempts = ceiling := by
    rw [written, StatusWrite.apply_maxAttempts]
    rw [← Table.slot_visible] at seen
    exact held.rows.visible seen
  have running : (attemptOf job pid before.log).execution = .running ∧
      ∃ read, (attemptOf job pid before.log).advance job
        (.statement (.updateStatus job write guard)) changed = .settled read := by
    cases attempt : attemptOf job pid before.log with
    | running read => exact ⟨rfl, read, by simp [Attempt.advance, accepted]⟩
    | failed read => exact ⟨rfl, read, by simp [Attempt.advance, accepted]⟩
    | succeeded read => exact ⟨rfl, read, by simp [Attempt.advance, accepted]⟩
    | _ =>
        rw [attempt] at settles
        exact settles.elim
  obtain ⟨running, read, settled⟩ := running
  have own : Live job pid before := by
    rw [live_iff_attempt, running]
    rfl
  have after : attemptOf job pid
      (before.record pid role (.statement (.updateStatus job write guard)) changed rest world).log =
      .settled read := by
    rw [attemptOf_record, if_pos rfl, settled]
  refine ceiling_of_live ?_ ?_ ?_ ?_ ?_
  · rw [after, slot]
    intro version holds
    cases holds
    exact standing
  · rw [live_iff_attempt, after]
    rfl
  · intro other different live
    exact different (exclusive.unique other pid live own)
  · rw [slot]
    exact held.rows.write kept
  · rw [slot]
    exact held.stored

theorem ceiling_claim {won : Bool} {new read : Job} {next : Reply (.statement (.claimForRunning job)) → Prog Unit}
    (held : Ceiling job ceiling started failed before) (exclusive : ExclusiveExecution job before)
    (same : SameCeiling job before)
    (found : before.process pid = some { role, program := .call (.statement (.claimForRunning job)) next })
    (delivers : role.delivers job) (idle : attemptOf job pid before.log = .idle (some read))
    (fresh : claimFindsRead job ⟨pid, role, .statement (.claimForRunning job), won, before.world⟩
      before.log)
    (writes : (Op.statement (.claimForRunning job)).Writes before.world job
      (before.world.jobs.visible pid job) new won)
    (free : (before.world.jobs.slot job).Free pid)
    (slot : world.jobs.slot job = (before.world.jobs.slot job).write pid new) :
    Ceiling job ceiling started failed
      (before.record pid role (.statement (.claimForRunning job)) won rest world) := by
  have kept := writes
  obtain ⟨accepted, _, row, seen, pending, written⟩ := writes
  have others : ∀ other, ¬ Live job other before := by
    intro other live
    by_cases own : other = pid
    · rw [own, live_iff_attempt, idle] at live
      cases live
    · obtain ⟨_, shown, sees, running⟩ := exclusive.visible_running live own free
      rw [seen] at sees
      cases sees
      rw [pending] at running
      cases running
  have standing : Standing ceiling started failed row := by
    rw [← Table.slot_visible] at seen
    exact (held.quiet others).visible seen
  have counted : row.retryCount = read.retryCount := by
    simp only [claimFindsRead, idle, accepted, ne_eq, not_true_eq_false, decide_false,
      Bool.false_or, Bool.true_eq_false, seen, Option.all_some, decide_eq_true_eq] at fresh
    exact fresh
  have limit : read.maxAttempts = ceiling := by
    obtain ⟨stored, committed, agrees⟩ := same.reads pid _ read found delivers (by rw [idle]; rfl)
    rw [← agrees]
    exact held.rows.committed stored committed
  have after : attemptOf job pid
      (before.record pid role (.statement (.claimForRunning job)) won rest world).log =
      .claimed (some read) := by
    rw [attemptOf_record, if_pos rfl, idle]
    simp [Attempt.advance, accepted]
  obtain ⟨bounded, status⟩ := standing
  rw [pending] at status
  refine ceiling_of_live ?_ ?_ (fun other _ => others other) ?_ ?_
  · rw [after]
    exact ⟨read, rfl, limit, counted ▸ status.1, counted ▸ status.2, bounded⟩
  · rw [live_iff_attempt, after]
    rfl
  · rw [slot]
    rw [seen] at kept
    apply held.rows.write
    rw [kept.sameJob.maxAttempts]
    rw [← Table.slot_visible] at seen
    exact held.rows.visible seen
  · rw [slot]
    exact held.stored

theorem ceiling_stamp {new : Job} (held : Ceiling job ceiling started failed before)
    (exclusive : ExclusiveExecution job before) (still : Still operation) (neutral : Neutral operation)
    (writes : operation.Writes before.world job (before.world.jobs.visible pid job) new reply)
    (free : (before.world.jobs.slot job).Free pid)
    (slot : world.jobs.slot job = (before.world.jobs.slot job).write pid new) :
    Ceiling job ceiling started failed (before.record pid role operation reply rest world) := by
  obtain ⟨committed, stored⟩ := held.stored
  have visible : ∃ row, before.world.jobs.visible pid job = some row := by
    rw [← Table.slot_visible]
    cases current : (before.world.jobs.slot job).holder with
    | none => exact ⟨committed, by rw [Slot.visible_of_free (by simp [current]), stored]⟩
    | some entry =>
        obtain ⟨owner, version⟩ := entry
        obtain rfl := free owner version current
        exact ⟨version, Slot.visible_of_held current⟩
  obtain ⟨row, seen⟩ := visible
  rw [seen] at writes
  rw [← Table.slot_visible] at seen
  refine ceiling_of_same held ?_ ?_ ?_ ?_ ?_
  · intro queried
    rw [attemptOf_record, advance_of_neutral neutral]
    split <;> rfl
  · intro queried read version attempt holds
    rw [slot] at holds
    cases holds
    have within := held.attempts pid
    rw [attempt] at within
    apply standing_of_still writes still
    apply within
    have state : executionOf job pid before.log = .settled := by
      rw [← attemptOf_execution, attempt]
      rfl
    obtain ⟨own, current⟩ := exclusive.settled pid state
    rw [Slot.visible_of_held current] at seen
    cases seen
    exact current
  · intro standing
    rw [slot]
    exact standing.write (standing_of_still writes still (standing.visible seen))
  · rw [slot]
    apply held.rows.write
    rw [writes.sameJob.maxAttempts]
    exact held.rows.visible seen
  · rw [slot]
    exact held.stored

theorem ceiling_commit (held : Ceiling job ceiling started failed before)
    (exclusive : ExclusiveExecution job before)
    (slot : world.jobs.slot job = (before.world.jobs.slot job).commit pid) :
    Ceiling job ceiling started failed (before.record pid role .commit () rest world) := by
  have stored : ∃ row, (world.jobs.slot job).committed = some row := by
    rw [slot]
    rcases (before.world.jobs.slot job).commit_cases pid with ⟨version, _, equal⟩ | ⟨_, equal⟩
    · exact ⟨version, by rw [equal]⟩
    · rw [equal]
      exact held.stored
  refine ⟨?_, ?_, by rw [Pool.record_world, slot]; exact held.rows.commit, stored⟩
  · intro queried
    have within := held.attempts queried
    rw [attemptOf_record, Pool.record_world, slot]
    by_cases own : pid = queried
    · rw [if_pos own]
      cases attempt : attemptOf job queried before.log with
      | settled read => exact trivial
      | _ =>
          rw [attempt] at within
          exact within
    · rw [if_neg own]
      cases attempt : attemptOf job queried before.log with
      | settled read =>
          rw [attempt] at within
          exact fun version holds => within version (Slot.holder_of_commit holds)
      | _ =>
          rw [attempt] at within
          exact within
  · intro idle
    rw [Pool.record_world, slot]
    by_cases nobody : ∀ queried, ¬ Live job queried before
    · exact (held.quiet nobody).commit
    · -- The one execution that was live has just committed its outcome.
      simp only [not_forall, not_not] at nobody
      obtain ⟨queried, live⟩ := nobody
      have own : queried = pid := by
        by_contra different
        exact idle queried ((live_other queried different).mpr live)
      subst own
      have ended := idle queried
      rw [live_iff_attempt, attemptOf_record, if_pos rfl] at ended
      rw [live_iff_attempt] at live
      have within := held.attempts queried
      cases attempt : attemptOf job queried before.log with
      | settled read =>
          rw [attempt] at within
          have state : executionOf job queried before.log = .settled := by
            rw [← attemptOf_execution, attempt]
            rfl
          obtain ⟨version, holds⟩ := exclusive.settled queried state
          rcases (before.world.jobs.slot job).commit_cases queried with
            ⟨last, mine, equal⟩ | ⟨unheld, _⟩
          · rw [equal]
            refine ⟨?_, fun _ _ holds => (by cases holds)⟩
            intro row committed
            cases committed
            exact within last mine
          · exact absurd holds (unheld version)
      | idle read =>
          rw [attempt] at live
          cases live
      | finished =>
          rw [attempt] at live
          cases live
      | _ =>
          rw [attempt] at ended
          exact absurd rfl ended

theorem ceiling_rollback (held : Ceiling job ceiling started failed before) {read : Option Job}
    (idle : attemptOf job pid before.log = .idle read)
    (slot : world.jobs.slot job = (before.world.jobs.slot job).rollback pid) :
    Ceiling job ceiling started failed (before.record pid role .rollback () rest world) := by
  have stored : (world.jobs.slot job).committed = (before.world.jobs.slot job).committed := by
    rw [slot]
    rcases (before.world.jobs.slot job).rollback_cases pid with ⟨_, _, equal⟩ | ⟨_, equal⟩ <;>
      rw [equal]
  refine ceiling_of_same held ?_ ?_ ?_ ?_ (by rw [stored]; exact held.stored)
  · intro queried
    rw [attemptOf_record]
    split
    · rename_i own
      rw [← own, idle]
      rfl
    · rfl
  · intro queried settled version attempt holds
    have within := held.attempts queried
    rw [attempt] at within
    rw [slot] at holds
    exact within version (Slot.holder_of_rollback holds)
  · intro standing
    rw [slot]
    exact standing.rollback
  · rw [slot]
    exact held.rows.rollback

theorem attempt_unwritten {attempt : Attempt}
    (operated : World.operate pid operation before.world = some (reply, world))
    (unwritten : ∀ new, ¬ operation.Writes before.world job (before.world.jobs.visible pid job) new reply)
    (uncommitted : operation ≠ .commit) (kept : operation ≠ .rollback)
    (unstarted : ∀ type payload, operation = .reading (.execute type payload) →
      ∃ read, attempt = .idle read) :
    attempt.advance job operation reply = attempt ∨
      ∃ earlier later, attempt = .idle earlier ∧ attempt.advance job operation reply = .idle later := by
  cases operation with
  | commit => exact absurd rfl uncommitted
  | rollback => exact absurd rfl kept
  | statement statement =>
      cases statement with
      | claimForRunning id =>
          have lost : ¬ (id = job ∧ reply = true) := by
            rintro ⟨same, won⟩
            subst same won
            obtain ⟨new, writes⟩ := claim_writes operated
            exact unwritten new writes
          cases attempt <;> simp [Attempt.advance, lost]
      | updateStatus id write guard =>
          have refused : ¬ (id = job ∧ reply = true) := by
            rintro ⟨same, changed⟩
            subst same changed
            obtain ⟨new, writes⟩ := update_writes operated
            exact unwritten new writes
          cases attempt <;> simp [Attempt.advance, refused]
      | _ =>
          left
          apply advance_of_neutral
          exact trivial
  | reading reading =>
      cases reading with
      | execute type payload =>
          obtain ⟨read, rfl⟩ := unstarted type payload rfl
          exact .inl rfl
      | _ =>
          left
          apply advance_of_neutral
          exact trivial
  | query query =>
      cases query with
      | job id =>
          cases attempt with
          | idle read => exact .inr ⟨read, _, rfl, rfl⟩
          | _ => exact .inl rfl
      | _ =>
          left
          apply advance_of_neutral
          exact trivial
  | _ =>
      left
      apply advance_of_neutral
      exact trivial

theorem ceiling_unwritten (held : Ceiling job ceiling started failed before)
    (kept : (attemptOf job pid before.log).advance job operation reply = attemptOf job pid before.log ∨
      ∃ earlier later, attemptOf job pid before.log = .idle earlier ∧
        (attemptOf job pid before.log).advance job operation reply = .idle later)
    (slot : world.jobs.slot job = before.world.jobs.slot job) :
    Ceiling job ceiling started failed (before.record pid role operation reply rest world) := by
  rcases kept with same | ⟨earlier, later, idle, moved⟩
  · refine ceiling_of_same held ?_ ?_ ?_ ?_ ?_
    · intro queried
      rw [attemptOf_record]
      split
      · rename_i own
        rw [← own, same]
      · rfl
    · intro queried settled version attempt holds
      have within := held.attempts queried
      rw [attempt] at within
      rw [slot] at holds
      exact within version holds
    · rw [slot]
      exact id
    · rw [slot]
      exact held.rows
    · rw [slot]
      exact held.stored
  · refine ⟨?_, ?_, by rw [Pool.record_world, slot]; exact held.rows,
      by rw [Pool.record_world, slot]; exact held.stored⟩
    · intro queried
      rw [Pool.record_world, slot]
      by_cases own : queried = pid
      · rw [own, attemptOf_record, if_pos rfl, moved]
        exact trivial
      · rw [other_of_record queried own]
        exact held.attempts queried
    · intro quiet
      rw [Pool.record_world, slot]
      apply held.quiet
      intro queried live
      by_cases own : queried = pid
      · rw [own, live_iff_attempt, idle] at live
        cases live
      · exact quiet queried ((live_other queried own).mpr live)

theorem counts_of_not_started (entry : PlatformEntry)
    (unstarted : ∀ type payload, entry.operation = .reading (.execute type payload) →
      ¬ entry.role.delivers job) :
    startsProcessor job entry = false ∧ failsProcessor job entry = false := by
  obtain ⟨pid, role, operation, reply, world⟩ := entry
  cases operation with
  | reading reading =>
      cases reading with
      | execute type payload =>
          have other := eq_false_of_ne_true (unstarted type payload rfl)
          exact ⟨other, by simp [failsProcessor, other]⟩
      | _ => exact ⟨rfl, rfl⟩
  | _ => exact ⟨rfl, rfl⟩

theorem neutral_of_writes {old : Option Job} {new : Job}
    (writes : operation.Writes before.world job old new reply) (still : Still operation) :
    Neutral operation := by
  cases operation with
  | statement statement =>
      cases statement with
      | claimForRunning id => exact still.elim
      | updateStatus id write guard => exact still.elim
      | _ => exact trivial
  | _ => exact writes.elim

theorem ceiling_operate {settings : Settings} {next : Reply operation → Prog Unit}
    (reachable : Reachable settings before) (held : Ceiling job ceiling started failed before)
    (exclusive : ExclusiveExecution job before)
    (found : before.process pid = some { role, program := .call operation next })
    (operated : World.operate pid operation before.world = some (reply, world))
    (writers : writesStatus job ⟨pid, role, operation, reply, before.world⟩ → role.delivers job)
    (fresh : claimFindsRead job ⟨pid, role, operation, reply, before.world⟩ before.log) :
    Ceiling job ceiling
      (started + if startsProcessor job ⟨pid, role, operation, reply, before.world⟩ then 1 else 0)
      (failed + if failsProcessor job ⟨pid, role, operation, reply, before.world⟩ then 1 else 0)
      (before.record pid role operation reply (next reply) world) := by
  have allowed := attempt_allowed reachable job found
  by_cases begins : (∃ type payload, operation = .reading (.execute type payload)) ∧ role.delivers job
  · obtain ⟨⟨type, payload, rfl⟩, delivers⟩ := begins
    obtain ⟨row, running⟩ := allowed.1 delivers
    have slot : world.jobs.slot job = before.world.jobs.slot job := by
      cases operated
      rfl
    exact ceiling_start held exclusive delivers running slot
  · have unstarted : ∀ type payload, operation = .reading (.execute type payload) →
        ¬ role.delivers job :=
      fun type payload equal delivers => begins ⟨⟨type, payload, equal⟩, delivers⟩
    obtain ⟨unbegun, unfailed⟩ :=
      counts_of_not_started ⟨pid, role, operation, reply, before.world⟩ unstarted
    rw [unbegun, unfailed]
    rcases operate_slot operated job with ⟨new, writes, free, slot⟩ | ⟨rfl, slot⟩ | ⟨rfl, slot⟩ |
      ⟨unwritten, uncommitted, kept, slot⟩
    · rcases writes_cases writes with ⟨write, guard, rfl⟩ | ⟨rfl, _⟩ | still
      · have delivers : role.delivers job := writers (decide_eq_true rfl)
        exact ceiling_outcome held exclusive ((allowed rfl).1 delivers) writes slot
      · obtain ⟨read, idle⟩ := allowed rfl
        have delivers : role.delivers job := next_may reachable found
        exact ceiling_claim held exclusive (sameCeiling_of_reachable reachable job) found delivers
          idle fresh writes free slot
      · exact ceiling_stamp held exclusive still (neutral_of_writes writes still) writes free slot
    · exact ceiling_commit held exclusive slot
    · obtain ⟨read, idle⟩ := allowed
      exact ceiling_rollback held idle slot
    · apply ceiling_unwritten held _ slot
      apply attempt_unwritten operated unwritten uncommitted kept
      intro type payload equal
      subst equal
      exact allowed.2 (unstarted type payload rfl)

end Step

theorem starts_cons (job : Uuid) (entry : PlatformEntry) (log : List PlatformEntry) :
    starts job (entry :: log) = starts job log + if startsProcessor job entry then 1 else 0 :=
  List.countP_cons

theorem failures_cons (job : Uuid) (entry : PlatformEntry) (log : List PlatformEntry) :
    failures job (entry :: log) = failures job log + if failsProcessor job entry then 1 else 0 :=
  List.countP_cons

/-- The status writes to the job come from its deliveries. -/
def OnlyRuns (job : Uuid) (log : List PlatformEntry) : Prop :=
  ∀ entry ∈ log, writesStatus job entry → entry.role.delivers job

instance (job : Uuid) (log : List PlatformEntry) : Decidable (OnlyRuns job log) :=
  inferInstanceAs (Decidable (∀ entry ∈ log, _))

/-- The lifecycle of a job is reset: it is committed with no attempts spent, and
no execution is left over from before. -/
structure Reset (job : Uuid) (row : Job) (pool : PlatformPool) : Prop where
  slot : pool.world.jobs.slot job = ⟨some row, none⟩
  status : row.status = .pending ∨ row.status = .waiting
  unspent : row.retryCount = 0
  quiet : ∀ pid, ¬ Live job pid pool

theorem Reset.ceiling {job : Uuid} {row : Job} {pool : PlatformPool} (reset : Reset job row pool)
    (positive : 1 ≤ row.maxAttempts) : Ceiling job row.maxAttempts 0 0 pool := by
  refine ⟨fun pid => within_of_not_live (reset.quiet pid), fun _ => ?_, ?_, ?_⟩
  · rw [reset.slot]
    refine ⟨?_, fun _ _ held => (by cases held)⟩
    intro stored committed
    cases committed
    refine ⟨Nat.le_refl 0, ?_⟩
    have unspent := reset.unspent
    rcases reset.status with status | status
    · rw [status]
      exact ⟨Nat.zero_le _, by omega⟩
    · rw [status]
      exact ⟨rfl, by omega⟩
  · rw [reset.slot]
    refine ⟨?_, fun _ _ held => (by cases held)⟩
    intro stored committed
    cases committed
    rfl
  · rw [reset.slot]
    exact ⟨row, rfl⟩

theorem ceiling_of_reaches {settings : Settings} {job : Uuid} {row : Job}
    {start pool : PlatformPool} (reachable : Reachable settings start) (reset : Reset job row start)
    (positive : 1 ≤ row.maxAttempts) (reached : (platform settings).Reaches start pool) :
    ∃ newer, pool.log = newer ++ start.log ∧ (OnlyRuns job newer →
      ClaimsFindRead job start.log newer → ExclusiveExecution job pool ∧
        Ceiling job row.maxAttempts (starts job newer) (failures job newer) pool) := by
  refine reached.invariant (motive := fun pool => ∃ newer, pool.log = newer ++ start.log ∧
    (OnlyRuns job newer → ClaimsFindRead job start.log newer → ExclusiveExecution job pool ∧
      Ceiling job row.maxAttempts (starts job newer) (failures job newer) pool)) ?_ ?_ ?_ ?_
  · exact ⟨[], rfl, fun _ _ => ⟨.of_idle reset.quiet, reset.ceiling positive⟩⟩
  · rintro before pid role world _ ⟨newer, logged, holds⟩ _ accepted
    refine ⟨newer, logged, fun writers fresh => ?_⟩
    obtain ⟨exclusive, held⟩ := holds writers fresh
    have slot : world.jobs.slot job = before.world.jobs.slot job := by rw [accept_jobs accepted]
    refine ⟨exclusive.of_same (fun _ => rfl) slot, ?_⟩
    exact held.of_same rfl slot
  · rintro before pid role operation next reply world earlier ⟨newer, logged, holds⟩ found operated
    refine ⟨⟨pid, role, operation, reply, before.world⟩ :: newer, by rw [Pool.record_log, logged]; rfl,
      fun writers fresh => ?_⟩
    have reachable := reachable.trans earlier
    have delivers := writers _ List.mem_cons_self
    obtain ⟨exclusive, held⟩ := holds
      (fun entry member => writers entry (List.mem_cons_of_mem _ member)) fresh.2
    constructor
    · refine exclusive_operate reachable exclusive found operated (fun writing => .inl (delivers writing)) ?_
      exact fun writing replays => absurd (delivers writing) (not_delivers_of_replays replays)
    · rw [starts_cons, failures_cons]
      refine ceiling_operate reachable held exclusive found operated delivers ?_
      rw [logged]
      exact fresh.1
  · rintro before change world _ ⟨newer, logged, holds⟩ changed
    refine ⟨newer, logged, fun writers fresh => ?_⟩
    obtain ⟨exclusive, held⟩ := holds writers fresh
    have slot := change_slot changed job
    exact ⟨exclusive.of_same (fun _ => rfl) slot, held.of_same rfl slot⟩

theorem deadLetter_of_standing {ceiling started failed : Nat} {row : Job}
    (standing : Standing ceiling started failed row) (positive : 1 ≤ ceiling)
    (reached : ceiling ≤ failed) : row.status = .deadLetter := by
  obtain ⟨bounded, status⟩ := standing
  cases current : row.status with
  | deadLetter => rfl
  | _ =>
      rw [current] at status
      first
        | exact status.elim
        | omega

/-- In every run from a reset of the job in which its status is written by
deliveries alone and each won claim finds the retry count its delivery read, the
processor starts at most `max_attempts` times, and once that many runs have
failed and the last outcome is committed the job is dead-lettered. -/
theorem run_ceiling {settings : Settings} {job : Uuid} {row : Job} {start pool : PlatformPool}
    (reachable : Reachable settings start) (reset : Reset job row start)
    (positive : 1 ≤ row.maxAttempts) (reached : (platform settings).Reaches start pool)
    (writers : OnlyRuns job (pool.since start))
    (fresh : ClaimsFindRead job start.log (pool.since start)) :
    starts job (pool.since start) ≤ row.maxAttempts ∧
      (row.maxAttempts ≤ failures job (pool.since start) → (∀ pid, ¬ Live job pid pool) →
        ∃ last, (pool.world.jobs.slot job).committed = some last ∧ last.status = .deadLetter) := by
  obtain ⟨newer, logged, holds⟩ := ceiling_of_reaches reachable reset positive reached
  rw [Pool.since_eq logged] at writers fresh ⊢
  obtain ⟨exclusive, held⟩ := holds writers fresh
  constructor
  · exact held.started_le exclusive
  · intro failed quiet
    obtain ⟨last, stored⟩ := held.stored
    have standing := (held.quiet quiet).committed last stored
    exact ⟨last, stored, deadLetter_of_standing standing positive failed⟩

theorem quiet_of_log {job : Uuid} {pool : PlatformPool}
    (idle : ∀ entry ∈ pool.log, ¬ Live job entry.pid pool) (pid : Pid) : ¬ Live job pid pool := by
  intro live
  by_cases logged : ∃ entry ∈ pool.log, entry.pid = pid
  · obtain ⟨entry, member, own⟩ := logged
    exact idle entry member (own ▸ live)
  · have unlogged : ∀ entry ∈ pool.log, entry.pid ≠ pid :=
      fun entry member own => logged ⟨entry, member, own⟩
    rw [live_iff_attempt, attemptOf_unlogged unlogged] at live
    cases live

/-- A decidable form of `Reset`. -/
def resets (job : Uuid) (row : Job) (pool : PlatformPool) : Bool :=
  (pool.world.jobs.slot job).holder.isNone &&
  (row.status = .pending || row.status = .waiting) && row.retryCount = 0 &&
  decide (∀ entry ∈ pool.log, ¬ Live job entry.pid pool)

theorem reset_of_resets {job : Uuid} {row : Job} {pool : PlatformPool}
    (stored : (pool.world.jobs.slot job).committed = some row)
    (passes : resets job row pool = true) : Reset job row pool := by
  simp only [resets, Bool.and_eq_true, Bool.or_eq_true, decide_eq_true_eq, Option.isNone_iff_eq_none]
    at passes
  obtain ⟨⟨⟨unheld, status⟩, unspent⟩, idle⟩ := passes
  refine ⟨?_, status, unspent, quiet_of_log idle⟩
  rw [← stored, ← unheld]

instance (job : Uuid) (earlier : List PlatformEntry) :
    (newer : List PlatformEntry) → Decidable (ClaimsFindRead job earlier newer)
  | [] => .isTrue trivial
  | _ :: older =>
      have := instDecidableClaimsFindRead job earlier older
      inferInstanceAs (Decidable (_ ∧ _))

def createdWithTwo : List (Label Role Change) :=
  [.spawn 1 (.createJob
    { userId := 7, tenantId := 8, jobType := "csv_upload", maxAttempts := some 2 })] ++ turns 1 4

def failsTwice : List (Label Role Change) :=
  [.spawn 2 .outboxRelay] ++ turns 2 6 ++
  [.spawn 3 (.deliver 1)] ++ turns 3 6 ++ tick 2 (.raised "refused") ++ turns 3 6 ++
  [.spawn 4 (.redeliver 1)] ++ turns 4 6 ++ tick 3 (.raised "refused") ++ turns 4 8

/-- Here the second delivery has read the row before the first one claims it. -/
def readsTooEarly : List (Label Role Change) :=
  [.spawn 2 .outboxRelay] ++ turns 2 6 ++
  [.spawn 3 (.deliver 1), .spawn 4 (.redeliver 1)] ++ turns 4 3 ++
  turns 3 6 ++ tick 2 (.raised "refused") ++ turns 3 6 ++
  turns 4 3 ++ tick 3 (.raised "refused") ++ turns 4 6 ++ [.spawn 5 (.redeliver 1)] ++ turns 5 7

theorem run_ceiling_after_two_failures : ∃ start pool row, Reachable .defaults start ∧
    Reset 1 row start ∧ (platform .defaults).Reaches start pool ∧ row.maxAttempts = 2 ∧
    starts 1 (pool.since start) = 2 ∧
    ∃ last, (pool.world.jobs.slot 1).committed = some last ∧ last.status = .deadLetter := by
  obtain ⟨start, pool, reachable, reached, checked⟩ : ∃ start pool, Reachable .defaults start ∧
      (platform .defaults).Reaches start pool ∧
      ((start.world.jobs.slot 1).committed.any fun row => resets 1 row start && row.maxAttempts = 2 &&
        decide (OnlyRuns 1 (pool.since start) ∧ ClaimsFindRead 1 start.log (pool.since start) ∧
          starts 1 (pool.since start) = 2 ∧ failures 1 (pool.since start) = 2 ∧
          ∀ entry ∈ pool.log, ¬ Live 1 entry.pid pool)) = true :=
    exists_reachable_then createdWithTwo failsTwice (by decide +kernel)
  obtain ⟨row, stored, checked⟩ := (Option.any_eq_true _ _).mp checked
  simp only [Bool.and_eq_true, decide_eq_true_eq] at checked
  obtain ⟨⟨passes, two⟩, writers, fresh, started, failed, idle⟩ := checked
  have reset := reset_of_resets stored passes
  obtain ⟨_, dead⟩ := run_ceiling reachable reset (by omega) reached writers fresh
  exact ⟨start, pool, row, reachable, reset, reached, two, started,
    dead (by omega) (quiet_of_log idle)⟩

theorem third_start_of_two_attempts : ¬ ∀ start pool row, Reachable .defaults start →
    Reset 1 row start → 1 ≤ row.maxAttempts → (platform .defaults).Reaches start pool →
    OnlyRuns 1 (pool.since start) → starts 1 (pool.since start) ≤ row.maxAttempts := by
  intro bounded
  obtain ⟨start, pool, reachable, reached, checked⟩ : ∃ start pool, Reachable .defaults start ∧
      (platform .defaults).Reaches start pool ∧
      ((start.world.jobs.slot 1).committed.any fun row => resets 1 row start && row.maxAttempts = 2 &&
        decide (OnlyRuns 1 (pool.since start) ∧ starts 1 (pool.since start) = 3)) = true :=
    exists_reachable_then createdWithTwo readsTooEarly (by decide +kernel)
  obtain ⟨row, stored, checked⟩ := (Option.any_eq_true _ _).mp checked
  simp only [Bool.and_eq_true, decide_eq_true_eq] at checked
  obtain ⟨⟨passes, two⟩, writers, started⟩ := checked
  have atMost := bounded start pool row reachable (reset_of_resets stored passes) (by omega) reached writers
  omega

end IncidentPlatform.Properties
