import IncidentPlatform.Platform.SagaSteps

namespace IncidentPlatform.Properties

open Concurrency Models Platform Repositories Services Storage Workers

/-! # COMPENSATED means undone

The coordinator takes stock of a saga's completed steps once, when it leaves
RUNNING, and mints one compensation for each.  Whatever completes a step after
that goes uncompensated.
-/

/-- `compensates_job_id` of a job's payload. -/
def compensatedStep (job : Job) : Option String :=
  match job.payload with
  | some (.object fields) =>
      match fields.lookup "compensates_job_id" with
      | some (.string id) => some id
      | _ => none
  | _ => none

/-- A `.compensate` job of `saga` for the step `step`. -/
structure Undoes (saga step : Uuid) (job : Job) : Prop where
  member : job.sagaId = some saga
  compensation : isCompensation job = true
  undoes : compensatedStep job = some (toString step)

/-- A step of `saga` that has COMPLETED. -/
structure CompletedStep (saga : Uuid) (job : Job) : Prop where
  member : job.sagaId = some saga
  step : job.sagaStepIndex.isSome
  completed : job.status = .completed

/-- The committed step has a compensation, and a COMPLETED one. -/
def HasCompensation (world : World) (saga step : Uuid) : Prop :=
  ∃ id job, world.jobs.committed id = some job ∧ Undoes saga step job

def IsUndone (world : World) (saga step : Uuid) : Prop :=
  ∃ id job, world.jobs.committed id = some job ∧ Undoes saga step job ∧ job.status = .completed

/-- Every COMPLETED step of the saga has a COMPLETED compensation. -/
def AllUndone (world : World) (saga : Uuid) : Prop :=
  ∀ step row, world.jobs.committed step = some row → CompletedStep saga row → IsUndone world saga step

/-- The transaction has read the saga as COMPENSATING, or taken stock of its
completed steps. -/
def Engaged (trace : List Act) (saga : Uuid) : Prop :=
  (∃ row, Reads trace row ∧ row.id = saga ∧ row.status = .compensating) ∨
    ∃ steps, (⟨.query (.completedSteps saga), steps⟩ : Act) ∈ trace

/-- Another transaction is in the middle of rolling the saga back. -/
def RollingBack (log : List PlatformEntry) (pid : Pid) (saga : Uuid) : Prop :=
  ∃ other, other ≠ pid ∧ Engaged (traceOf other log) saga

/-- What the open transaction of a coordinator has read of its event's job. -/
def Hears (log : List PlatformEntry) (pid : Pid) (held : Job) : Prop :=
  Opens (traceOf pid log) held ∧ ∃ entry ∈ transaction pid log, entry.role.coordinates

/-- Another coordinator is in the middle of an event about the job, which it has
read as COMPLETED. -/
def HeardDone (log : List PlatformEntry) (pid : Pid) (id : Uuid) : Prop :=
  ∃ other, other ≠ pid ∧ ∃ held, Hears log other held ∧ held.id = id ∧ held.status = .completed

/-- What a commit must leave alone: it completes no step of a saga under
rollback that has no COMPLETED compensation, and takes no compensation out of
COMPLETED while a settlement relies on it. -/
structure RespectsRollback (world : World) (log : List PlatformEntry) (pid : Pid) : Prop where
  completes : ∀ saga step row, world.jobs.visible pid step = some row → CompletedStep saga row →
    (∀ old, world.jobs.committed step = some old → old.status ≠ .completed) →
    IsUndone world saga step ∨ (¬ RollingBack log pid saga ∧
      ∀ stored, world.sagas.committed saga = some stored →
        stored.status ≠ .compensating ∧ stored.status ≠ .compensated)
  reopens : ∀ saga id job row, world.jobs.committed id = some job → job.sagaId = some saga →
    isCompensation job = true → job.status = .completed → world.jobs.visible pid id = some row →
    row.status ≠ .completed → ¬ RollingBack log pid saga ∧ ¬ HeardDone log pid id ∧
      ∀ stored, world.sagas.committed saga = some stored → stored.status ≠ .compensated

def AllRespectRollback (log : List PlatformEntry) : Prop :=
  ∀ newer entry older, log = newer ++ entry :: older → entry.operation = .commit →
    RespectsRollback entry.before older entry.pid

/-- `pid` has put something else in the place of a row. -/
def Overwritten (world : World) (pid : Pid) (id : Uuid) : Prop :=
  ∃ version, (world.jobs.slot id).holder = some (pid, version)

/-- What a coordinator has read of a job is still so: the row is there, COMPLETED
if it is a saga's compensation that was COMPLETED. -/
def StillDone (world : World) (held : Job) : Prop :=
  ∃ row, world.jobs.committed held.id = some row ∧ SameJob held row ∧
    ∀ saga, held.sagaId = some saga → isCompensation held = true → held.status = .completed →
      row.status = .completed

structure UndoneKept (pool : PlatformPool) : Prop where
  minted : ∀ saga row, pool.world.sagas.committed saga = some row → row.status = .compensating →
    ∀ step job, pool.world.jobs.committed step = some job → CompletedStep saga job →
      HasCompensation pool.world saga step
  undone : ∀ saga row, pool.world.sagas.committed saga = some row → row.status = .compensated →
    AllUndone pool.world saga
  read : ∀ pid saga, Reads (traceOf pid pool.log) saga → saga.status = .compensating →
    ∀ step job, pool.world.jobs.committed step = some job → CompletedStep saga.id job →
      HasCompensation pool.world saga.id step
  asked : ∀ pid saga steps, (⟨.query (.completedSteps saga), steps⟩ : Act) ∈ traceOf pid pool.log →
    ∀ step job, pool.world.jobs.committed step = some job → CompletedStep saga job →
      (∃ done ∈ steps, done.id = step) ∨ HasCompensation pool.world saga step ∨
        Overwritten pool.world pid step
  heard : ∀ pid held, Hears pool.log pid held → StillDone pool.world held
  bare : ∀ pid saga jobs held, (⟨.query (.sagaJobs saga), jobs⟩ : Act) ∈ traceOf pid pool.log →
    Hears pool.log pid held →
    (∀ job ∈ sessionRows held jobs, isCompensation job → job.status = .completed) →
    ∀ id version, (pool.world.jobs.slot id).holder = some (pid, version) →
      version.sagaId = some saga → isCompensation version = false
  settled : ∀ pid saga jobs held, (⟨.query (.sagaJobs saga), jobs⟩ : Act) ∈ traceOf pid pool.log →
    Hears pool.log pid held →
    (∀ job ∈ sessionRows held jobs, isCompensation job → job.status = .completed) →
    ((∃ row, Reads (traceOf pid pool.log) row ∧ row.id = saga ∧ row.status = .compensating) ∨
      (⟨.query (.completedSteps saga), []⟩ : Act) ∈ traceOf pid pool.log) →
    ∀ step row, pool.world.jobs.committed step = some row → CompletedStep saga row →
      Overwritten pool.world pid step ∨ IsUndone pool.world saga step

theorem isCompensation_same {job row : Job} (same : SameJob job row) :
    isCompensation row = isCompensation job := by
  rw [isCompensation, isCompensation, same.type]

theorem Undoes.same {saga step : Uuid} {job row : Job} (undoes : Undoes saga step job)
    (same : SameJob job row) : Undoes saga step row where
  member := same.sagaId.trans undoes.member
  compensation := (isCompensation_same same).trans undoes.compensation
  undoes := by
    rw [compensatedStep, same.payload]
    exact undoes.undoes

theorem CompletedStep.same {saga : Uuid} {job row : Job} (completed : CompletedStep saga row)
    (same : SameJob job row) (status : job.status = .completed) : CompletedStep saga job where
  member := same.sagaId.symm.trans completed.member
  step := by
    rw [← same.sagaStepIndex]
    exact completed.step
  completed := status

theorem IsUndone.hasCompensation {world : World} {saga step : Uuid} (undone : IsUndone world saga step) :
    HasCompensation world saga step := by
  obtain ⟨id, job, stored, undoes, _⟩ := undone
  exact ⟨id, job, stored, undoes⟩

theorem undoes_of_compensates {saga : Saga} {user : Uuid} {done job : Job}
    (compensates : Compensates saga user done job) : Undoes saga.id done.id job := by
  refine ⟨?_, isCompensation_of_compensates compensates, ?_⟩
  · obtain ⟨id, now, rfl⟩ := compensates
    rfl
  · obtain ⟨id, now, rfl⟩ := compensates
    rfl

section Step

variable {settings : Settings} {before : PlatformPool} {pid : Pid} {role : Role} {operation : Op}
  {next : Reply operation → Prog Unit} {reply : Reply operation} {world : World}
  {saga step : Uuid}

section Hearing

variable {held : Job} (reachable : Reachable settings before)
  (found : before.process pid = some { role, program := .call operation next })

theorem Hears.other {other : Pid} (different : pid ≠ other)
    (hears : Hears (before.record pid role operation reply (next reply) world).log other held) :
    Hears before.log other held := by
  obtain ⟨opens, entry, member, coordinates⟩ := hears
  rw [traceOf_record, if_neg different] at opens
  rw [Pool.record_log, transaction, if_neg different] at member
  exact ⟨opens, entry, member, coordinates⟩

include reachable found

theorem hears_of_opens (coordinates : role.coordinates) (opens : Opens (traceOf pid before.log) held) :
    Hears before.log pid held := by
  obtain ⟨id, first⟩ := opens
  obtain ⟨entry, logged, _⟩ := List.mem_map.mp (List.mem_of_getLast? first)
  refine ⟨⟨id, first⟩, entry, logged, ?_⟩
  rw [role_of_transaction reachable found logged]
  exact coordinates

theorem Hears.earlier (opened : operation.ends = false) (begun : traceOf pid before.log ≠ [])
    (hears : Hears (before.record pid role operation reply (next reply) world).log pid held) :
    Hears before.log pid held := by
  obtain ⟨⟨id, first⟩, entry, member, coordinates⟩ := hears
  rw [traceOf_record, if_pos rfl, extendTrace_of_open opened, List.getLast?_cons,
    List.getLast?_eq_some_getLast begun, Option.getD_some] at first
  refine hears_of_opens reachable found ?_ ⟨id, ?_⟩
  · rw [Pool.record_log, transaction, if_pos rfl, opened] at member
    rcases List.mem_cons.mp member with rfl | logged
    · exact coordinates
    · rw [role_of_transaction reachable found logged] at coordinates
      exact coordinates
  · rw [List.getLast?_eq_some_getLast begun]
    exact first

theorem begun_of_surveyed {jobs : List Job} (surveyed : (⟨.query (.sagaJobs saga), jobs⟩ : Act) ∈
      (⟨operation, reply⟩ : Act) :: traceOf pid before.log) : traceOf pid before.log ≠ [] := by
  rcases List.mem_cons.mp surveyed with same | earlier
  · cases same
    obtain ⟨first, ⟨id, last⟩, _⟩ := survey_rule reachable found
    intro none
    rw [none] at last
    cases last
  · exact List.ne_nil_of_mem earlier

end Hearing

theorem undone_of_surveyed (reachable : Reachable settings before) {jobs : List Job} {held : Job}
    (bare : ∀ id version, (before.world.jobs.slot id).holder = some (pid, version) →
      version.sagaId = some saga → isCompensation version = false)
    (heard : StillDone before.world held) (answered : jobs = before.world.sagaJobs pid saga)
    (all : ∀ job ∈ sessionRows held jobs, isCompensation job → job.status = .completed)
    (has : HasCompensation before.world saga step) : IsUndone before.world saga step := by
  obtain ⟨id, job, stored, undoes⟩ := has
  have unheld : ∀ version, (before.world.jobs.slot id).holder ≠ some (pid, version) := by
    intro version held
    have same := (insertions_kept reachable).versions id pid version job held stored
    have seen := undoes.same same
    have compensation := seen.compensation
    rw [bare id version held seen.member] at compensation
    cases compensation
  have seen : before.world.jobs.visible pid id = some job := by
    rw [← Table.slot_visible, Slot.visible_of_free unheld]
    exact stored
  have among : job ∈ jobs := by
    rw [answered]
    exact mem_sagaJobs.mpr ⟨⟨id, seen⟩, undoes.member⟩
  have keyed : job.id = id := (rows_keyed reachable id).committed job stored
  refine ⟨id, job, stored, undoes, ?_⟩
  by_cases event : id = held.id
  · -- The event's job, which the session has as it was read first.
    subst event
    obtain ⟨row, there, same, kept⟩ := heard
    rw [stored] at there
    cases there
    have compensation : isCompensation held = true := by
      rw [← isCompensation_same same]
      exact undoes.compensation
    exact kept saga (same.sagaId.symm.trans undoes.member) compensation
      (all held (held_mem_sessionRows among keyed) compensation)
  · exact all job (mem_sessionRows among (by rw [keyed]; exact event)) undoes.compensation

section Rows

variable (reachable : Reachable settings before)
  (operated : World.operate pid operation before.world = some (reply, world))

include reachable operated

theorem HasCompensation.kept (has : HasCompensation before.world saga step) :
    HasCompensation world saga step := by
  obtain ⟨id, job, stored, undoes⟩ := has
  obtain ⟨row, committed, same⟩ := committed_same reachable operated stored
  exact ⟨id, row, committed, undoes.same same⟩

theorem IsUndone.kept (undone : IsUndone before.world saga step)
    (relied : operation = .commit → RespectsRollback before.world before.log pid ∧
      (RollingBack before.log pid saga ∨ ∃ stored, before.world.sagas.committed saga = some stored ∧
        stored.status = .compensated)) : IsUndone world saga step := by
  obtain ⟨id, job, stored, undoes, completed⟩ := undone
  obtain ⟨row, committed⟩ := (operate_jobTurn operated id).committed_kept stored
  rcases committed_source operated committed with same | ⟨ends, held⟩
  · rw [stored] at same
    cases same
    exact ⟨id, job, committed, undoes, completed⟩
  · refine ⟨id, row, committed,
      undoes.same ((insertions_kept reachable).versions id pid row job held stored), ?_⟩
    by_contra reopened
    obtain ⟨respects, relied⟩ := relied ends
    have seen : before.world.jobs.visible pid id = some row := by
      rw [← Table.slot_visible]
      exact Slot.visible_of_held held
    obtain ⟨alone, _, unsettled⟩ :=
      respects.reopens saga id job row stored undoes.member undoes.compensation completed seen reopened
    rcases relied with rolling | ⟨settled, present, compensated⟩
    · exact alone rolling
    · exact unsettled settled present compensated

theorem completed_source {row : Job} (stored : world.jobs.committed step = some row)
    (completed : CompletedStep saga row) :
    (∃ old, before.world.jobs.committed step = some old ∧ CompletedStep saga old) ∨
      operation = .commit ∧ (before.world.jobs.slot step).holder = some (pid, row) ∧
        ∀ old, before.world.jobs.committed step = some old → old.status ≠ .completed := by
  rcases committed_source operated stored with same | ⟨ends, held⟩
  · exact .inl ⟨row, same, completed⟩
  · by_cases earlier : ∃ old, before.world.jobs.committed step = some old ∧ old.status = .completed
    · obtain ⟨old, present, status⟩ := earlier
      have same := (insertions_kept reachable).versions step pid row old held present
      exact .inl ⟨old, present, completed.same same status⟩
    · refine .inr ⟨ends, held, fun old present status => earlier ⟨old, present, status⟩⟩

theorem completed_under_rollback {row : Job} (respects : operation = .commit →
      RespectsRollback before.world before.log pid)
    (relied : operation = .commit → RollingBack before.log pid saga ∨
      ∃ stored, before.world.sagas.committed saga = some stored ∧
        (stored.status = .compensating ∨ stored.status = .compensated))
    (stored : world.jobs.committed step = some row) (completed : CompletedStep saga row) :
    (∃ old, before.world.jobs.committed step = some old ∧ CompletedStep saga old) ∨
      IsUndone before.world saga step := by
  rcases completed_source reachable operated stored completed with earlier | ⟨ends, held, fresh⟩
  · exact .inl earlier
  · have seen : before.world.jobs.visible pid step = some row := by
      rw [← Table.slot_visible]
      exact Slot.visible_of_held held
    rcases (respects ends).completes saga step row seen completed fresh with undone | ⟨alone, unsettled⟩
    · exact .inr undone
    · rcases relied ends with rolling | ⟨stored, present, under⟩
      · exact absurd rolling alone
      · rcases under with compensating | compensated
        · exact absurd compensating (unsettled stored present).1
        · exact absurd compensated (unsettled stored present).2

end Rows

variable (reachable : Reachable settings before)
  (found : before.process pid = some { role, program := .call operation next })
  (operated : World.operate pid operation before.world = some (reply, world))
  (kept : UndoneKept before)
  (respects : operation = .commit → RespectsRollback before.world before.log pid)

section Others

variable {other : Pid} (different : other ≠ pid)

include reachable operated kept respects different

theorem UndoneKept.read_other {saga : Saga} (reads : Reads (traceOf other before.log) saga)
    (compensating : saga.status = .compensating) {job : Job}
    (stored : world.jobs.committed step = some job) (completed : CompletedStep saga.id job) :
    HasCompensation world saga.id step := by
  have engaged : Engaged (traceOf other before.log) saga.id := .inl ⟨saga, reads, rfl, compensating⟩
  rcases completed_under_rollback reachable operated respects (fun _ => .inl ⟨other, different, engaged⟩)
    stored completed with ⟨old, present, earlier⟩ | undone
  · exact (kept.read other saga reads compensating step old present earlier).kept reachable operated
  · exact undone.hasCompensation.kept reachable operated

omit reachable kept respects in
theorem Overwritten.kept_other {id : Uuid} (overwritten : Overwritten before.world other id) :
    Overwritten world other id := by
  obtain ⟨version, held⟩ := overwritten
  exact ⟨version, by rw [(operate_jobTurn operated id).held_kept different held, held]⟩

theorem UndoneKept.asked_other {steps : List Job}
    (asked : (⟨.query (.completedSteps saga), steps⟩ : Act) ∈ traceOf other before.log) {job : Job}
    (stored : world.jobs.committed step = some job) (completed : CompletedStep saga job) :
    (∃ done ∈ steps, done.id = step) ∨ HasCompensation world saga step ∨ Overwritten world other step := by
  rcases completed_under_rollback reachable operated respects
    (fun _ => .inl ⟨other, different, .inr ⟨steps, asked⟩⟩) stored completed with
    ⟨old, present, earlier⟩ | undone
  · rcases kept.asked other saga steps asked step old present earlier with among | has | overwritten
    · exact .inl among
    · exact .inr (.inl (has.kept reachable operated))
    · exact .inr (.inr (overwritten.kept_other operated different))
  · exact .inr (.inl (undone.hasCompensation.kept reachable operated))

theorem UndoneKept.heard_other {held : Job} (hears : Hears before.log other held) :
    StillDone world held := by
  obtain ⟨old, stored, same, completed⟩ := kept.heard other held hears
  obtain ⟨row, committed, agrees⟩ := committed_same reachable operated stored
  refine ⟨row, committed, same.trans agrees, fun saga member compensation done => ?_⟩
  rcases committed_source operated committed with equal | ⟨ends, mine⟩
  · rw [stored] at equal
    cases equal
    exact completed saga member compensation done
  · have seen : before.world.jobs.visible pid held.id = some row := by
      rw [← Table.slot_visible]
      exact Slot.visible_of_held mine
    by_contra reopened
    obtain ⟨_, unheard, _⟩ := (respects ends).reopens saga held.id old row stored
      (same.sagaId.trans member) ((isCompensation_same same).trans compensation)
      (completed saga member compensation done) seen reopened
    exact unheard ⟨other, different, held, hears, rfl, done⟩

theorem UndoneKept.settled_other {jobs : List Job} {held : Job}
    (surveyed : (⟨.query (.sagaJobs saga), jobs⟩ : Act) ∈ traceOf other before.log)
    (hears : Hears before.log other held)
    (all : ∀ job ∈ sessionRows held jobs, isCompensation job → job.status = .completed)
    (rollback : (∃ row, Reads (traceOf other before.log) row ∧ row.id = saga ∧
      row.status = .compensating) ∨ (⟨.query (.completedSteps saga), []⟩ : Act) ∈ traceOf other before.log)
    {row : Job} (stored : world.jobs.committed step = some row) (completed : CompletedStep saga row) :
    Overwritten world other step ∨ IsUndone world saga step := by
  have engaged : Engaged (traceOf other before.log) saga := rollback.imp_right fun asked => ⟨[], asked⟩
  have rolling : RollingBack before.log pid saga := ⟨other, different, engaged⟩
  have relied : operation = .commit → RespectsRollback before.world before.log pid ∧
      (RollingBack before.log pid saga ∨ ∃ stored, before.world.sagas.committed saga = some stored ∧
        stored.status = .compensated) := fun ends => ⟨respects ends, .inl rolling⟩
  rcases completed_under_rollback reachable operated respects (fun _ => .inl rolling) stored completed with
    ⟨old, present, earlier⟩ | undone
  · rcases kept.settled other saga jobs held surveyed hears all rollback step old present earlier with
      overwritten | undone
    · exact .inl (overwritten.kept_other operated different)
    · exact .inr (undone.kept reachable operated relied)
  · exact .inr (undone.kept reachable operated relied)

end Others

section Own

variable (opened : operation.ends = false)

include operated opened

theorem committed_of_open {id : Uuid} {row : Job} (stored : world.jobs.committed id = some row) :
    before.world.jobs.committed id = some row := by
  rcases committed_source operated stored with same | ⟨ends, _⟩
  · exact same
  · exact absurd ends (continues_of_open opened).1

theorem committed_iff_of_open (id : Uuid) :
    world.jobs.committed id = before.world.jobs.committed id := by
  rcases (operate_jobTurn operated id).committed_cases with same | ⟨ends, _⟩
  · exact same
  · exact absurd ends (continues_of_open opened).1

theorem Overwritten.kept_own {id : Uuid} (overwritten : Overwritten before.world pid id) :
    Overwritten world pid id := by
  obtain ⟨version, held⟩ := overwritten
  obtain ⟨uncommitted, unrolled⟩ := continues_of_open opened
  exact ((operate_jobTurn operated id).own_kept uncommitted unrolled held).2

theorem HasCompensation.of_open (has : HasCompensation before.world saga step) :
    HasCompensation world saga step := by
  obtain ⟨id, job, stored, undoes⟩ := has
  exact ⟨id, job, by rw [committed_iff_of_open operated opened, stored], undoes⟩

theorem IsUndone.of_open (undone : IsUndone before.world saga step) : IsUndone world saga step := by
  obtain ⟨id, job, stored, undoes⟩ := undone
  exact ⟨id, job, by rw [committed_iff_of_open operated opened, stored], undoes⟩

include reachable found kept

theorem UndoneKept.read_own {saga : Saga}
    (reads : Reads (⟨operation, reply⟩ :: traceOf pid before.log) saga)
    (compensating : saga.status = .compensating) {job : Job}
    (stored : world.jobs.committed step = some job) (completed : CompletedStep saga.id job) :
    HasCompensation world saga.id step := by
  have present := committed_of_open operated opened stored
  apply HasCompensation.of_open operated opened
  obtain ⟨id, member⟩ := reads
  rcases List.mem_cons.mp member with same | earlier
  · cases same
    obtain ⟨target, row, alone⟩ := readSaga_rule reachable found
    have seen : (before.world.sagas.slot id).visible pid = some saga := by
      rw [Table.slot_visible]
      exact congrArg Prod.fst (Option.some.inj operated)
    have keyed : saga.id = id := (sagas_keyed reachable id).visible seen
    rw [← keyed, (sagas_kept reachable).visible] at seen
    · exact kept.minted saga.id saga seen compensating step job present completed
    · rw [alone]
      rintro ⟨_, _, _, among, _⟩
      simp at among
    · rw [alone]
      rfl
  · exact kept.read pid saga ⟨id, earlier⟩ compensating step job present completed

theorem UndoneKept.asked_own {steps : List Job}
    (asked : (⟨.query (.completedSteps saga), steps⟩ : Act) ∈
      (⟨operation, reply⟩ : Act) :: traceOf pid before.log) {job : Job}
    (stored : world.jobs.committed step = some job) (completed : CompletedStep saga job) :
    (∃ done ∈ steps, done.id = step) ∨ HasCompensation world saga step ∨ Overwritten world pid step := by
  have present := committed_of_open operated opened stored
  rcases List.mem_cons.mp asked with same | earlier
  · cases same
    have answered : steps = (before.world.sagaJobs pid saga).filter fun job => job.status = .completed :=
      (congrArg Prod.fst (Option.some.inj operated)).symm
    by_cases overwritten : Overwritten before.world pid step
    · exact .inr (.inr (overwritten.kept_own operated opened))
    · have seen : (before.world.jobs.slot step).visible pid = some job := by
        rw [Slot.visible_of_free fun version held => overwritten ⟨version, held⟩]
        exact present
      refine .inl ⟨job, ?_, (rows_keyed reachable step).visible seen⟩
      rw [Table.slot_visible] at seen
      rw [answered, List.mem_filter, decide_eq_true_eq]
      exact ⟨mem_sagaJobs.mpr ⟨⟨step, seen⟩, completed.member⟩, completed.completed⟩
  · rcases kept.asked pid saga steps earlier step job present completed with among | has | overwritten
    · exact .inl among
    · exact .inr (.inl (has.of_open operated opened))
    · exact .inr (.inr (overwritten.kept_own operated opened))

theorem UndoneKept.heard_own {held : Job}
    (hears : Hears (before.record pid role operation reply (next reply) world).log pid held) :
    StillDone world held := by
  suffices earlier : StillDone before.world held by
    obtain ⟨row, stored, heard⟩ := earlier
    exact ⟨row, by rw [committed_iff_of_open operated opened, stored], heard⟩
  by_cases begun : traceOf pid before.log = []
  · obtain ⟨⟨id, first⟩, entry, member, coordinates⟩ := hears
    rw [traceOf_record, if_pos rfl, extendTrace_of_open opened, begun] at first
    cases Option.some.inj first
    have seen : before.world.jobs.visible pid id = some held :=
      congrArg Prod.fst (Option.some.inj operated)
    have unheld : ∀ version, (before.world.jobs.slot id).holder ≠ some (pid, version) := by
      intro version mine
      have wrote := held_traced reachable mine
      rw [begun] at wrote
      cases wrote
    rw [← Table.slot_visible, Slot.visible_of_free unheld] at seen
    have keyed : held.id = id := (rows_keyed reachable id).committed held seen
    subst keyed
    exact ⟨held, seen, .refl held, fun _ _ _ done => done⟩
  · exact kept.heard pid held (hears.earlier reachable found opened begun)

theorem UndoneKept.bare_own {jobs : List Job} {held : Job}
    (surveyed : (⟨.query (.sagaJobs saga), jobs⟩ : Act) ∈
      (⟨operation, reply⟩ : Act) :: traceOf pid before.log)
    (hears : Hears before.log pid held)
    (all : ∀ job ∈ sessionRows held jobs, isCompensation job → job.status = .completed) {id : Uuid}
    {version : Job}
    (mine : (world.jobs.slot id).holder = some (pid, version)) (member : version.sagaId = some saga) :
    isCompensation version = false := by
  rcases List.mem_cons.mp surveyed with same | earlier
  · cases same
    have answered : jobs = before.world.sagaJobs pid saga :=
      (congrArg Prod.fst (Option.some.inj operated)).symm
    have unchanged : world = before.world := (congrArg Prod.snd (Option.some.inj operated)).symm
    rw [unchanged] at mine
    by_contra compensation
    rw [Bool.not_eq_false] at compensation
    have coordinates : role.coordinates := next_may reachable found
    have seen : (before.world.jobs.slot id).visible pid = some version := Slot.visible_of_held mine
    have keyed : version.id = id := (rows_keyed reachable id).visible seen
    have different : version.id ≠ held.id := by
      -- A coordinator that hears of a compensation has written none yet.
      intro event
      obtain ⟨row, stored, same, _⟩ := kept.heard pid held hears
      rw [← event, keyed] at stored
      have agrees := (insertions_kept reachable).versions id pid version row mine stored
      obtain ⟨first, opens, unwritten⟩ := survey_rule reachable found
      cases opens.unique hears.1
      have wrote := held_traced reachable mine
      rw [unwritten] at wrote
      · cases wrote
      · rw [← isCompensation_same same, ← isCompensation_same agrees, compensation]
    have among : version ∈ jobs := by
      rw [answered]
      exact mem_sagaJobs.mpr ⟨⟨id, by rw [← Table.slot_visible, seen]⟩, member⟩
    have completed := all version (mem_sessionRows among different) compensation
    rcases coordinator_holds reachable mine found coordinates with cancelled | pending
    · rw [completed] at cancelled
      cases cancelled
    · rw [completed] at pending
      cases pending
  · obtain ⟨unwritten, _⟩ := quiet_after_survey reachable found earlier
    rcases (operate_jobTurn operated id).holder_cases mine with ⟨_, writes, _⟩ | ⟨older, _⟩
    · exact absurd writes (unwritten _ _ _ _)
    · exact kept.bare pid saga jobs held earlier hears all id version older member

theorem UndoneKept.settled_own {jobs : List Job} {held : Job}
    (surveyed : (⟨.query (.sagaJobs saga), jobs⟩ : Act) ∈
      (⟨operation, reply⟩ : Act) :: traceOf pid before.log)
    (hears : Hears before.log pid held)
    (all : ∀ job ∈ sessionRows held jobs, isCompensation job → job.status = .completed)
    (rollback : (∃ row, Reads (⟨operation, reply⟩ :: traceOf pid before.log) row ∧ row.id = saga ∧
      row.status = .compensating) ∨ (⟨.query (.completedSteps saga), []⟩ : Act) ∈
        (⟨operation, reply⟩ : Act) :: traceOf pid before.log)
    {row : Job} (stored : world.jobs.committed step = some row) (completed : CompletedStep saga row) :
    Overwritten world pid step ∨ IsUndone world saga step := by
  have present := committed_of_open operated opened stored
  rcases List.mem_cons.mp surveyed with same | earlier
  · have bare : ∀ id version, (world.jobs.slot id).holder = some (pid, version) →
        version.sagaId = some saga → isCompensation version = false :=
      fun id version mine member =>
        kept.bare_own reachable found operated opened surveyed hears all mine member
    cases same
    have answered : jobs = before.world.sagaJobs pid saga :=
      (congrArg Prod.fst (Option.some.inj operated)).symm
    have unchanged : world = before.world := (congrArg Prod.snd (Option.some.inj operated)).symm
    subst unchanged
    have undone : HasCompensation before.world saga step → IsUndone before.world saga step :=
      undone_of_surveyed reachable bare (kept.heard pid held hears) answered all
    rcases rollback with ⟨read, ⟨id, member⟩, rfl, compensating⟩ | asked
    · have among : Reads (traceOf pid before.log) read := ⟨id, by simpa using member⟩
      exact .inr (undone (kept.read pid read among compensating step row present completed))
    · have among : (⟨.query (.completedSteps saga), []⟩ : Act) ∈ traceOf pid before.log := by
        simpa using asked
      rcases kept.asked pid saga [] among step row present completed with ⟨_, none, _⟩ | has | overwritten
      · cases none
      · exact .inr (undone has)
      · exact .inl overwritten
  · obtain ⟨_, unread, unasked⟩ := quiet_after_survey reachable found earlier
    have relied : (∃ row, Reads (traceOf pid before.log) row ∧ row.id = saga ∧
        row.status = .compensating) ∨
        (⟨.query (.completedSteps saga), []⟩ : Act) ∈ traceOf pid before.log := by
      rcases rollback with ⟨read, ⟨id, member⟩, rfl, compensating⟩ | asked
      · rcases List.mem_cons.mp member with same | older
        · cases same
          exact absurd rfl (unread id)
        · exact .inl ⟨read, ⟨id, older⟩, rfl, compensating⟩
      · rcases List.mem_cons.mp asked with same | older
        · cases same
          exact absurd rfl (unasked saga)
        · exact .inr older
    rcases kept.settled pid saga jobs held earlier hears all relied step row present completed with
      overwritten | undone
    · exact .inl (overwritten.kept_own operated opened)
    · exact .inr (undone.of_open operated opened)

end Own

section Sagas

include reachable found

theorem published_ground {row : Saga} (ends : operation = .commit)
    (held : (before.world.sagas.slot saga).holder = some (pid, row)) (left : row.status ≠ .running) :
    role.coordinates ∧ ∃ read, Reads (traceOf pid before.log) read ∧ read.id = saga ∧
      Ground (traceOf pid before.log) read row.status := by
  subst ends
  rcases (sagas_kept reachable).held saga pid row held with ⟨_, _, running⟩ | ⟨last, _⟩
  · exact absurd running left
  · have moved : moves (traceOf pid before.log) ≠ [] := by
      intro none
      rw [none] at last
      cases last
    obtain ⟨topic, id, rfl, handled⟩ := handled_of_moved reachable found moved
    exact ⟨rfl, handled.ground last⟩

include operated

theorem completed_before_commit (ends : operation = .commit) (coordinates : role.coordinates) {row : Job}
    (stored : world.jobs.committed step = some row) (completed : row.status = .completed) :
    before.world.jobs.committed step = some row ∧ ¬ Overwritten before.world pid step := by
  have unwritten : ∀ version, (before.world.jobs.slot step).holder = some (pid, version) →
      version.status ≠ .completed := by
    intro version held status
    rcases coordinator_holds reachable held found coordinates with cancelled | pending
    · rw [status] at cancelled
      cases cancelled
    · rw [status] at pending
      cases pending
  rcases committed_source operated stored with same | ⟨_, held⟩
  · refine ⟨same, ?_⟩
    rintro ⟨version, held⟩
    subst ends
    have published := published_of_held operated rfl held
    rw [stored] at published
    cases published
    exact unwritten row held completed
  · exact absurd completed (unwritten row held)

include kept respects

theorem UndoneKept.undone_record {row : Saga} (stored : world.sagas.committed saga = some row)
    (compensated : row.status = .compensated) : AllUndone world saga := by
  intro step job present completed
  rcases saga_source operated stored with same | ⟨ends, held⟩
  · have relied : operation = .commit → RespectsRollback before.world before.log pid ∧
        (RollingBack before.log pid saga ∨ ∃ stored, before.world.sagas.committed saga = some stored ∧
          stored.status = .compensated) := fun ends => ⟨respects ends, .inr ⟨row, same, compensated⟩⟩
    rcases completed_under_rollback reachable operated respects
      (fun _ => .inr ⟨row, same, .inr compensated⟩) present completed with ⟨old, there, earlier⟩ | undone
    · exact (kept.undone saga row same compensated step old there earlier).kept reachable operated relied
    · exact undone.kept reachable operated relied
  · obtain ⟨coordinates, read, reads, rfl, ground⟩ :=
      published_ground reachable found ends held (by simp [compensated])
    obtain ⟨first, jobs, opens, surveyed, all, rollback⟩ := ground.of_compensated compensated
    have hears := hears_of_opens reachable found coordinates opens
    obtain ⟨there, clear⟩ := completed_before_commit reachable found operated ends coordinates present
      completed.completed
    have grounds : (∃ row, Reads (traceOf pid before.log) row ∧ row.id = read.id ∧
        row.status = .compensating) ∨
        (⟨.query (.completedSteps read.id), []⟩ : Act) ∈ traceOf pid before.log :=
      rollback.imp_left fun compensating => ⟨read, reads, rfl, compensating⟩
    rcases kept.settled pid read.id jobs first surveyed hears all grounds step job there completed with
      overwritten | ⟨id, undoing, committed, undoes, done⟩
    · exact absurd overwritten clear
    · obtain ⟨now, later⟩ := (operate_jobTurn operated id).committed_kept committed
      rcases committed_source operated later with same | ⟨_, mine⟩
      · rw [committed] at same
        cases same
        exact ⟨id, undoing, later, undoes, done⟩
      · -- The coordinator holds no version of a compensation it found COMPLETED.
        have same := (insertions_kept reachable).versions id pid now undoing mine committed
        have seen := undoes.same same
        have compensation := seen.compensation
        rw [kept.bare pid read.id jobs first surveyed hears all id now mine seen.member] at compensation
        cases compensation

theorem UndoneKept.minted_record {row : Saga} (stored : world.sagas.committed saga = some row)
    (compensating : row.status = .compensating) {job : Job}
    (present : world.jobs.committed step = some job) (completed : CompletedStep saga job) :
    HasCompensation world saga step := by
  rcases saga_source operated stored with same | ⟨ends, held⟩
  · rcases completed_under_rollback reachable operated respects
      (fun _ => .inr ⟨row, same, .inl compensating⟩) present completed with ⟨old, there, earlier⟩ | undone
    · exact (kept.minted saga row same compensating step old there earlier).kept reachable operated
    · exact undone.hasCompensation.kept reachable operated
  · obtain ⟨coordinates, read, reads, rfl, ground⟩ :=
      published_ground reachable found ends held (by simp [compensating])
    obtain ⟨_, user, steps, asked, minted⟩ := ground.of_compensating compensating
    obtain ⟨there, clear⟩ := completed_before_commit reachable found operated ends coordinates present
      completed.completed
    rcases kept.asked pid read.id steps asked step job there completed with ⟨done, among, rfl⟩ | has | overwritten
    · obtain ⟨inserted, member⟩ := minted done among
      obtain ⟨made, rfl, compensates, listed⟩ := compensation_inserted reachable member
      obtain ⟨version, mine, same, _⟩ := (insertions_kept reachable).held pid made listed
      refine ⟨made.id, version, ?_, (undoes_of_compensates compensates).same same⟩
      exact published_of_held operated ends mine
    · exact has.kept reachable operated
    · exact absurd overwritten clear

end Sagas

include reachable found operated kept respects

theorem UndoneKept.record :
    UndoneKept (before.record pid role operation reply (next reply) world) := by
  have openedOf : ∀ {act : Act}, act ∈ extendTrace (traceOf pid before.log) operation reply →
      operation.ends = false := fun member => (mem_extendTrace member).1
  constructor
  · intro saga row stored compensating step job present completed
    exact kept.minted_record reachable found operated respects stored compensating present completed
  · intro saga row stored compensated
    exact kept.undone_record reachable found operated respects stored compensated
  · intro owner saga reads compensating step job present completed
    rw [traceOf_record] at reads
    split at reads
    · rename_i same
      subst same
      obtain ⟨id, member⟩ := reads
      have opened := openedOf member
      rw [extendTrace_of_open opened] at member
      exact kept.read_own reachable found operated opened ⟨id, member⟩ compensating present completed
    · rename_i different
      exact kept.read_other reachable operated respects (Ne.symm different) reads compensating present
        completed
  · intro owner saga steps asked step job present completed
    rw [traceOf_record] at asked
    split at asked
    · rename_i same
      subst same
      have opened := openedOf asked
      rw [extendTrace_of_open opened] at asked
      exact kept.asked_own reachable found operated opened asked present completed
    · rename_i different
      exact kept.asked_other reachable operated respects (Ne.symm different) asked present completed
  · intro owner held hears
    by_cases same : pid = owner
    · subst same
      obtain ⟨id, first⟩ := hears.1
      rw [traceOf_record, if_pos rfl] at first
      exact kept.heard_own reachable found operated (openedOf (List.mem_of_getLast? first)) hears
    · exact kept.heard_other reachable operated respects (Ne.symm same) (hears.other same)
  · intro owner saga jobs held surveyed hears all id version mine member
    rw [traceOf_record] at surveyed
    split at surveyed
    · rename_i same
      subst same
      have opened := openedOf surveyed
      rw [extendTrace_of_open opened] at surveyed
      have hears := hears.earlier reachable found opened (begun_of_surveyed reachable found surveyed)
      exact kept.bare_own reachable found operated opened surveyed hears all mine member
    · rename_i different
      exact kept.bare owner saga jobs held surveyed (hears.other different) all id version
        ((held_iff_other operated (Ne.symm different)).mp mine) member
  · intro owner saga jobs held surveyed hears all rollback step row present completed
    rw [traceOf_record] at surveyed rollback
    split at surveyed
    · rename_i same
      subst same
      have opened := openedOf surveyed
      rw [if_pos rfl] at rollback
      rw [extendTrace_of_open opened] at surveyed rollback
      have hears := hears.earlier reachable found opened (begun_of_surveyed reachable found surveyed)
      exact kept.settled_own reachable found operated opened surveyed hears all rollback present completed
    · rename_i different
      rw [if_neg different] at rollback
      exact kept.settled_other reachable operated respects (Ne.symm different) surveyed
        (hears.other different) all rollback present completed

end Step

theorem UndoneKept.of_same {before after : PlatformPool} (kept : UndoneKept before)
    (sameLog : after.log = before.log) (sameSagas : after.world.sagas = before.world.sagas)
    (sameSlots : ∀ job, after.world.jobs.slot job = before.world.jobs.slot job) : UndoneKept after := by
  have sameRows : ∀ id, after.world.jobs.committed id = before.world.jobs.committed id :=
    fun id => congrArg Slot.committed (sameSlots id)
  obtain ⟨minted, undone, read, asked, heard, bare, settled⟩ := kept
  constructor
  all_goals
    simp only [HasCompensation, AllUndone, IsUndone, Overwritten, StillDone, sameLog, sameSagas, sameSlots, sameRows]
    assumption

theorem AllRespectRollback.tail {entry : PlatformEntry} {log : List PlatformEntry}
    (respects : AllRespectRollback (entry :: log)) : AllRespectRollback log := by
  intro newer other older split commits
  exact respects (entry :: newer) other older (by rw [split, List.cons_append]) commits

theorem undone_kept {settings : Settings} {pool : PlatformPool} (reachable : Reachable settings pool)
    (respects : AllRespectRollback pool.log) : UndoneKept pool := by
  obtain ⟨outside, reached⟩ := reachable
  revert respects
  refine reached.invariant (motive := fun pool => AllRespectRollback pool.log → UndoneKept pool) ?_ ?_ ?_ ?_
  · intro _
    constructor
    · intro saga row stored
      cases stored
    · intro saga row stored
      cases stored
    · intro pid saga reads
      obtain ⟨_, member⟩ := reads
      cases member
    · intro pid saga steps member
      cases member
    · rintro pid held ⟨⟨id, first⟩, _⟩
      cases first
    · intro pid saga jobs held member
      cases member
    · intro pid saga jobs held member
      cases member
  · intro before pid role world _ kept _ accepted respects
    refine (kept respects).of_same rfl (accept_sagas accepted).1 fun job => ?_
    rw [Pool.start_world, accept_jobs accepted]
  · intro before pid role operation next reply world earlier kept found operated respects
    refine (kept respects.tail).record ⟨outside, earlier⟩ found operated fun ends => ?_
    exact respects [] _ before.log rfl ends
  · intro before change world _ kept changed respects
    exact (kept respects).of_same rfl (change_sagas changed).1 (change_slot changed)

/-- In every run whose commits respect rollbacks, a COMPENSATED saga has every
COMPLETED step undone. -/
theorem compensated_is_undone {settings : Settings} {pool : PlatformPool}
    (reachable : Reachable settings pool) (respects : AllRespectRollback pool.log) {saga : Uuid} {row : Saga}
    (stored : pool.world.sagas.committed saga = some row) (compensated : row.status = .compensated) :
    AllUndone pool.world saga :=
  (undone_kept reachable respects).undone saga row stored compensated

def UnderRollback (world : World) (job : Job) : Prop :=
  ∃ saga ∈ job.sagaId, ∃ stored ∈ world.sagas.committed saga,
    stored.status = .compensating ∨ stored.status = .compensated

instance (world : World) (job : Job) : Decidable (UnderRollback world job) :=
  inferInstanceAs (Decidable (∃ saga ∈ job.sagaId, _))

/-- What is enough where no other transaction is open: the commit completes no
step of a saga under rollback, and reopens no job. -/
structure RespectsAlone (world : World) (log : List PlatformEntry) (pid : Pid) : Prop where
  alone : ∀ entry ∈ log, entry.pid ≠ pid → (traceOf entry.pid log).isEmpty = true
  completes : ∀ key ∈ world.jobs.keys, ∀ row ∈ world.jobs.visible pid key,
    row.status = .completed → row.sagaStepIndex.isSome = true → UnderRollback world row →
    ∃ old ∈ world.jobs.committed key, old.status = .completed
  reopens : ∀ key ∈ world.jobs.keys, ∀ job ∈ world.jobs.committed key,
    ∀ row ∈ world.jobs.visible pid key, job.status = .completed → row.status = .completed

instance (world : World) (log : List PlatformEntry) (pid : Pid) : Decidable (RespectsAlone world log pid) :=
  decidable_of_iff (_ ∧ _ ∧ _)
    ⟨fun ⟨alone, completes, reopens⟩ => ⟨alone, completes, reopens⟩,
      fun ⟨alone, completes, reopens⟩ => ⟨alone, completes, reopens⟩⟩

theorem RespectsAlone.respects {world : World} {log : List PlatformEntry} {pid : Pid}
    (respects : RespectsAlone world log pid) : RespectsRollback world log pid := by
  obtain ⟨alone, completes, reopens⟩ := respects
  have idle : ∀ other act, other ≠ pid → act ∉ traceOf other log := by
    intro other act different member
    obtain ⟨entry, logged, _⟩ := List.mem_map.mp member
    obtain ⟨among, rfl⟩ := transaction_mem logged
    rw [List.isEmpty_iff.mp (alone entry among different)] at member
    cases member
  have unengaged : ∀ saga, ¬ RollingBack log pid saga := by
    rintro saga ⟨other, different, ⟨_, ⟨_, member⟩, _⟩ | ⟨_, member⟩⟩
    · exact idle other _ different member
    · exact idle other _ different member
  constructor
  · intro saga step row seen completed fresh
    refine .inr ⟨unengaged saga, fun stored present => ?_⟩
    by_contra rolled
    have under : UnderRollback world row := by
      refine ⟨saga, completed.member, stored, present, ?_⟩
      by_contra neither
      exact rolled (not_or.mp neither)
    obtain ⟨old, there, status⟩ :=
      completes step (Table.mem_keys_of_visible seen) row seen completed.completed completed.step under
    exact fresh old there status
  · intro saga id job row stored _ _ completed seen reopened
    exact absurd (reopens id (Table.mem_keys_of_visible seen) job stored row seen completed) reopened

def endsAlone : List PlatformEntry → Bool
  | [] => true
  | entry :: older =>
      (!entry.operation.ends || decide (RespectsAlone entry.before older entry.pid)) && endsAlone older

theorem respects_of_endsAlone {log : List PlatformEntry} (passes : endsAlone log = true) :
    AllRespectRollback log := by
  induction log with
  | nil =>
      intro newer entry older split
      cases newer <;> cases split
  | cons newest log rest =>
      simp only [endsAlone, Bool.and_eq_true, Bool.or_eq_true, decide_eq_true_eq] at passes
      obtain ⟨first, passes⟩ := passes
      intro newer entry older split commits
      cases newer with
      | nil =>
          cases split
          rcases first with continues | respects
          · rw [commits] at continues
            cases continues
          · exact respects.respects
      | cons _ newer =>
          cases split
          exact rest passes newer entry older rfl commits

/-- Saga 1 has a step that completes and one of an unregistered type, which
dead-letters; the coordinator mints a compensation of the first. -/
def rollsBack : List (Label Role Change) :=
  [.spawn 1 (.createSaga {
    userId := 7, tenantId := 8, name := "import",
    steps := [{ type := "csv_upload" }, { type := "unknown" }] })] ++ turns 1 5 ++
  tick 2 (.returned .null) ++ turns 1 5 ++
  [.spawn 2 .outboxRelay] ++ turns 2 6 ++ [.spawn 3 (.deliver 1)] ++ turns 3 12 ++
  tick 3 .timedOut ++ [.spawn 4 .outboxRelay] ++ turns 4 6 ++
  [.spawn 5 (.resolveDependents 1)] ++ turns 5 9 ++
  tick 4 .timedOut ++ [.spawn 6 .outboxRelay] ++ turns 6 6 ++ [.spawn 7 (.deliver 2)] ++ turns 7 14 ++
  tick 5 .timedOut ++ [.spawn 8 .outboxRelay] ++ turns 8 6 ++
  [.spawn 9 (.coordinateSaga .dlq 2)] ++ turns 9 9

/-- An operator resolves the compensation, and the coordinator hears of it. -/
def compensationResolved : List (Label Role Change) :=
  tick 6 .timedOut ++ [.spawn 10 .outboxRelay] ++ turns 10 6 ++
  tick 7 .timedOut ++ [.spawn 11 (.resolveIncident 5 7 8)] ++ turns 11 6 ++
  [.spawn 12 .outboxRelay] ++ turns 12 6 ++ [.spawn 13 (.coordinateSaga .completed 5)] ++ turns 13 7

theorem compensated_is_undone_of_resolved_compensation : ∃ pool row, Reachable .defaults pool ∧
    AllRespectRollback pool.log ∧ pool.world.sagas.committed 1 = some row ∧ row.status = .compensated ∧
    (∃ step, pool.world.jobs.committed 1 = some step ∧ CompletedStep 1 step) ∧
    AllUndone pool.world 1 := by
  obtain ⟨pool, reachable, checked⟩ : ∃ pool, Reachable .defaults pool ∧
      (endsAlone pool.log && (pool.world.sagas.committed 1).any (fun row => row.status = .compensated) &&
        (pool.world.jobs.committed 1).any fun step =>
          step.sagaId = some 1 && step.sagaStepIndex.isSome && step.status = .completed) = true :=
    exists_reachable (rollsBack ++ compensationResolved) (by decide +kernel)
  simp only [Bool.and_eq_true] at checked
  obtain ⟨⟨ends, settled⟩, completed⟩ := checked
  obtain ⟨row, stored, compensated⟩ := (Option.any_eq_true _ _).mp settled
  obtain ⟨step, present, completed⟩ := (Option.any_eq_true _ _).mp completed
  simp only [Bool.and_eq_true, decide_eq_true_eq] at compensated completed
  obtain ⟨⟨member, indexed⟩, status⟩ := completed
  have respects := respects_of_endsAlone ends
  exact ⟨pool, row, reachable, respects, stored, compensated, ⟨step, present, member, indexed, status⟩,
    compensated_is_undone reachable respects stored compensated⟩

/-- The only step of saga 1 dead-letters, so that the coordinator has nothing to
undo; then an operator resolves it. -/
def resolvedAfterRollback : List (Label Role Change) :=
  [.spawn 1 (.createSaga { userId := 7, tenantId := 8, name := "import", steps := [{ type := "unknown" }] })] ++
  turns 1 6 ++ [.spawn 2 .outboxRelay] ++ turns 2 6 ++
  tick 2 .timedOut ++ [.spawn 3 (.deliver 1)] ++ turns 3 13 ++ [.spawn 4 .outboxRelay] ++ turns 4 6 ++
  tick 3 .timedOut ++ [.spawn 5 (.coordinateSaga .dlq 1)] ++ turns 5 11 ++
  [.spawn 6 (.resolveIncident 1 7 8)] ++ turns 6 6

theorem compensated_with_completed_step : ¬ ∀ (settings : Settings) (pool : PlatformPool) (saga : Uuid)
    (row : Saga), Reachable settings pool → pool.world.sagas.committed saga = some row →
    row.status = .compensated → AllUndone pool.world saga := by
  intro undone
  obtain ⟨pool, reachable, checked⟩ : ∃ pool, Reachable .defaults pool ∧
      ((pool.world.sagas.committed 1).any (fun row => row.status = .compensated) &&
        (pool.world.jobs.committed 1).any (fun step =>
          step.sagaId = some 1 && step.sagaStepIndex.isSome && step.status = .completed) &&
        pool.world.jobs.keys.all fun key => (pool.world.jobs.committed key).all fun job =>
          (compensatedStep job).isNone) = true :=
    exists_reachable resolvedAfterRollback (by decide +kernel)
  simp only [Bool.and_eq_true] at checked
  obtain ⟨⟨settled, completed⟩, none⟩ := checked
  obtain ⟨row, stored, compensated⟩ := (Option.any_eq_true _ _).mp settled
  obtain ⟨step, present, completed⟩ := (Option.any_eq_true _ _).mp completed
  simp only [Bool.and_eq_true, decide_eq_true_eq] at compensated completed
  obtain ⟨⟨member, indexed⟩, status⟩ := completed
  obtain ⟨id, job, there, undoes, _⟩ :=
    undone .defaults pool 1 row reachable stored compensated 1 step present ⟨member, indexed, status⟩
  have listed : id ∈ pool.world.jobs.keys := by
    by_contra absent
    rw [(pool.world.jobs.listed id absent).1] at there
    cases there
  have plain := List.all_eq_true.mp none id listed
  rw [there, Option.all_some, undoes.undoes] at plain
  cases plain

end IncidentPlatform.Properties
