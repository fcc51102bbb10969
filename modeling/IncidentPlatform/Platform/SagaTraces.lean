import IncidentPlatform.Platform.Capabilities
import IncidentPlatform.Platform.Stores

namespace IncidentPlatform.Platform

open Concurrency Models Services Repositories Storage Workers

/-! # The transactions that sagas go through

`Handled` lists the traces that `handle_message` can commit.  The rule
`coordinating` says what has been done before each operation on the way, and
`creatingSaga` the same for `create_saga`.
-/

/-- The job `emit_compensation` inserts for a completed step. -/
def compensationDraft (saga : Saga) (user : Uuid) (done : Job) : JobDraft where
  tenantId := saga.tenantId
  userId := user
  type := done.type ++ compensateSuffix
  status := .pending
  payload := some (compensationPayload saga done)
  priority := done.priority
  maxAttempts := done.maxAttempts
  traceId := done.traceId
  sagaId := some saga.id

/-- The event that announces it. -/
def compensationEvent (saga : Saga) (user : Uuid) (done job : Job) : Event :=
  .submitted saga.tenantId job.id user (done.type ++ compensateSuffix)
    (compensationPayload saga done) done.priority done.traceId

def moveOf : Act → Option (Uuid × SagaStatus)
  | ⟨.statement (.updateSaga id status _), _⟩ => some (id, status)
  | _ => none

/-- The saga statuses written, newest first. -/
def moves (trace : List Act) : List (Uuid × SagaStatus) := trace.filterMap moveOf

def insertionOf : Act → Option Job
  | ⟨.statement (.insertJob _), inserted⟩ => inserted
  | _ => none

/-- The jobs inserted, newest first. -/
def insertions (trace : List Act) : List Job := trace.filterMap insertionOf

def submissionOf : Act → Option Uuid
  | ⟨.statement (.insertOutbox _ _ .submitted event), _⟩ => some event.jobId
  | _ => none

/-- The jobs that `job.submitted` rows were added for, newest first. -/
def submissions (trace : List Act) : List Uuid := trace.filterMap submissionOf

/-- The sagas read. -/
def Reads (trace : List Act) (saga : Saga) : Prop :=
  ∃ id, (⟨.query (.saga id), some saga⟩ : Act) ∈ trace

def surveys : Act → Bool
  | ⟨.query (.sagaJobs _), _⟩ => true
  | _ => false

/-- The statements that write jobs. -/
def writesJob : Act → Bool
  | ⟨.statement (.updateStatus _ _ _), _⟩ | ⟨.statement (.claimForRunning _), _⟩
  | ⟨.statement (.promoteWaitingToPending _), _⟩ | ⟨.statement (.cancelBlocked _ _ _), _⟩
  | ⟨.statement (.stampRequeued _ _), _⟩ | ⟨.statement (.renewRunningLeases _ _ _), _⟩
  | ⟨.statement (.insertJob _), _⟩ => true
  | _ => false

/-- The job that the transaction has read first. -/
def Opens (trace : List Act) (held : Job) : Prop :=
  ∃ id, trace.getLast? = some (⟨.query (.job id), some held⟩ : Act)

/-- The edges of the saga state machine. -/
def Moves : SagaStatus → SagaStatus → Bool
  | .running, .completed | .running, .compensating => true
  | .compensating, .compensated | .compensating, .failed => true
  | _, _ => false

/-- What cancelling the steps still to come does. -/
def Cancels (act : Act) : Prop :=
  match act.1 with
  | .query (.waitingSteps _) | .statement (.updateStatus _ _ _) => True
  | operation => operation.Settles

/-- The acts that mint compensations for `steps`, in their order. -/
inductive Mints (saga : Saga) (user : Uuid) : List Job → List Act → Prop where
  | nil : Mints saga user [] []
  | mint {steps : List Job} {acts : List Act} (done job : Job) : Mints saga user steps acts →
      Mints saga user (steps ++ [done])
        (⟨.statement (.insertOutbox saga.tenantId user .submitted
            (compensationEvent saga user done job)), ()⟩ ::
          ⟨.statement (.insertJob (compensationDraft saga user done)), some job⟩ :: acts)
  | refused {steps : List Job} {acts : List Act} (done : Job) : Mints saga user steps acts →
      Mints saga user (steps ++ [done])
        (⟨.statement (.insertJob (compensationDraft saga user done)), none⟩ :: acts)

/-- The status that settling gives a saga with these jobs. -/
def settledStatus (jobs : List Job) : SagaStatus :=
  if (jobs.filter isCompensation).countP (fun job => job.status ≠ .completed) = 0 then .compensated
  else .failed

inductive Completion (held : Job) (saga : Saga) : List Act → Prop where
  | pending (jobs : List Job)
      (left : sessionRows held jobs = [] ∨ ∃ job ∈ sessionRows held jobs, job.status ≠ .completed) :
      Completion held saga [⟨.query (.sagaJobs saga.id), jobs⟩]
  | completed (jobs : List Job) (now : Time) (entry : AuditEntry) (any : sessionRows held jobs ≠ [])
      (all : ∀ job ∈ sessionRows held jobs, job.status = .completed) :
      Completion held saga [⟨.statement (.insertAudit entry), ()⟩,
        ⟨.statement (.updateSaga saga.id .completed (some now)), ()⟩,
        ⟨.reading .now, now⟩, ⟨.query (.sagaJobs saga.id), jobs⟩]

inductive Settlement (held : Job) (saga : Saga) : List Act → Prop where
  | undrained (jobs : List Job)
      (left : ∃ job ∈ sessionRows held jobs, isCompensation job ∧ ¬ job.status.terminal) :
      Settlement held saga [⟨.query (.sagaJobs saga.id), jobs⟩]
  | settled (jobs : List Job) (now : Time) (entry : AuditEntry)
      (drained : ∀ job ∈ sessionRows held jobs, isCompensation job → job.status.terminal) :
      Settlement held saga [⟨.statement (.insertAudit entry), ()⟩,
        ⟨.statement (.updateSaga saga.id (settledStatus (sessionRows held jobs)) (some now)), ()⟩,
        ⟨.reading .now, now⟩, ⟨.query (.sagaJobs saga.id), jobs⟩]

/-- The status write and the cancellations that a rollback starts with. -/
def rollingBack (saga : Saga) (cancels : List Act) : List Act :=
  cancels ++ [⟨.statement (.updateSaga saga.id .compensating none), ()⟩]

inductive RolledBack (failed : Job) (saga : Saga) : List Act → Prop where
  | rolledBack (cancels mints rest : List Act) (steps : List Job) (entry : AuditEntry)
      (cancelling : ∀ act ∈ cancels, Cancels act)
      (minting : Mints saga failed.userId steps.reverse mints)
      (ending : steps = [] ∧ Settlement failed saga rest ∨ steps ≠ [] ∧ rest = []) :
      RolledBack failed saga (rest ++ ⟨.statement (.insertAudit entry), ()⟩ ::
        (mints ++ ⟨.query (.completedSteps saga.id), steps⟩ :: rollingBack saga cancels))

/-- What `route_saga_event` does. -/
inductive Routed (topic : Topic) (job : Job) (saga : Saga) : List Act → Prop where
  | completion {acts : List Act} (running : saga.status = .running) (step : isCompensation job = false)
      (done : topic = .completed) : Completion job saga acts → Routed topic job saga acts
  | failure {acts : List Act} (running : saga.status = .running) (step : isCompensation job = false)
      (dead : topic = .dlq) : RolledBack job saga acts → Routed topic job saga acts
  | settlement {acts : List Act} (compensating : saga.status = .compensating)
      (compensation : isCompensation job = true) (ended : topic = .completed ∨ topic = .dlq) :
      Settlement job saga acts → Routed topic job saga acts
  | ignored (step : ¬ (saga.status = .running ∧ isCompensation job = false ∧
        (topic = .completed ∨ topic = .dlq)))
      (compensation : ¬ (saga.status = .compensating ∧ isCompensation job = true ∧
        (topic = .completed ∨ topic = .dlq))) : Routed topic job saga []

/-- The reads that every message starts with. -/
def opening (id : Uuid) (job : Job) (sagaId : Uuid) (saga : Saga) : List Act :=
  [⟨.query (.saga sagaId), some saga⟩, ⟨.query (.job id), some job⟩]

/-- The traces that a message about `id` can commit. -/
inductive Handled (topic : Topic) (id : Uuid) : List Act → Prop where
  | jobless : Handled topic id [⟨.query (.job id), none⟩]
  | sagaless {job : Job} (alone : job.sagaId = none) :
      Handled topic id [⟨.query (.job id), some job⟩]
  | unknown {job : Job} {sagaId : Uuid} (member : job.sagaId = some sagaId) :
      Handled topic id [⟨.query (.saga sagaId), none⟩, ⟨.query (.job id), some job⟩]
  | routed {job : Job} {sagaId : Uuid} {saga : Saga} {acts : List Act}
      (member : job.sagaId = some sagaId) :
      Routed topic job saga acts → Handled topic id (acts ++ opening id job sagaId saga)

/-- The transaction that started with `base` has written COMPENSATING and cancels
what is still to come. -/
def RollingFrom (base trace : List Act) (saga : Saga) : Prop :=
  ∃ cancels, trace = rollingBack saga cancels ++ base ∧ ∀ act ∈ cancels, Cancels act

def RollingAt (trace : List Act) (saga : Saga) : Prop :=
  ∃ id job sagaId, RollingFrom (opening id job sagaId saga) trace saga ∧ saga.status = .running

/-- It has minted compensations for `before`, of the completed `steps`. -/
def MintingAt (trace : List Act) (saga : Saga) (user : Uuid) (steps before : List Job) : Prop :=
  ∃ mints earlier, trace = mints ++ ⟨.query (.completedSteps saga.id), steps⟩ :: earlier ∧
    Mints saga user before mints ∧ RollingAt earlier saga

/-- What the coordinator has done before each operation. -/
def coordinating (topic : Topic) (id : Uuid) (trace : List Act) : Op → Prop
  | .query (.saga _) => ∃ job, trace = [⟨.query (.job id), some job⟩]
  | .query (.completedSteps sagaId) => ∃ saga, saga.id = sagaId ∧ RollingAt trace saga
  | .query (.sagaJobs _) => ∃ held, Opens trace held ∧
      (isCompensation held = true → trace.any writesJob = false)
  | .statement (.updateStatus step _ _) => ∃ saga waiting, RollingAt trace saga ∧
      (⟨.query (.waitingSteps saga.id), waiting⟩ : Act) ∈ trace ∧ step ∈ waiting.map Job.id
  | .statement (.cancelBlocked _ _ _) => ∃ saga, RollingAt trace saga
  | .statement (.insertJob draft) => ∃ saga user steps before done after,
      MintingAt trace saga user steps before ∧ steps.reverse = before ++ done :: after ∧
        draft = compensationDraft saga user done
  | .statement (.updateSaga sagaId status _) => ∃ saga, Reads trace saga ∧ saga.id = sagaId ∧
      (moves trace = [] ∧ Moves saga.status status ∨
        moves trace = [(sagaId, .compensating)] ∧ Moves .compensating status)
  | .commit => Handled topic id trace
  | .rollback => False
  | _ => True

section Reading

variable {held : Job} {saga : Saga} {user : Uuid} {trace acts : List Act} {steps : List Job}

@[simp] theorem moves_append (first second : List Act) :
    moves (first ++ second) = moves first ++ moves second := List.filterMap_append

@[simp] theorem insertions_append (first second : List Act) :
    insertions (first ++ second) = insertions first ++ insertions second := List.filterMap_append

@[simp] theorem submissions_append (first second : List Act) :
    submissions (first ++ second) = submissions first ++ submissions second := List.filterMap_append

/-- Acts that change no saga, insert no job, submit none and survey none. -/
structure Quiet (acts : List Act) : Prop where
  moves : moves acts = []
  insertions : insertions acts = []
  submissions : submissions acts = []
  unsurveyed : acts.any surveys = false

theorem Cancels.quiet {act : Act} (cancels : Cancels act) :
    moveOf act = none ∧ insertionOf act = none ∧ submissionOf act = none ∧ surveys act = false := by
  obtain ⟨operation, reply⟩ := act
  cases operation with
  | query query => cases query <;> first | exact ⟨rfl, rfl, rfl, rfl⟩ | exact cancels.elim
  | statement issued =>
      cases issued with
      | insertOutbox tenant other topic event =>
          have terminal : topic = .completed ∨ topic = .dlq ∨ topic = .cancelled := cancels
          rcases terminal with rfl | rfl | rfl <;> exact ⟨rfl, rfl, rfl, rfl⟩
      | updateStatus id write guard => exact ⟨rfl, rfl, rfl, rfl⟩
      | cancelBlocked ids reason stamp => exact ⟨rfl, rfl, rfl, rfl⟩
      | _ => exact cancels.elim
  | reading reading => exact ⟨rfl, rfl, rfl, rfl⟩
  | _ => exact cancels.elim

theorem quiet_of_cancels (cancelling : ∀ act ∈ acts, Cancels act) : Quiet acts where
  moves := List.filterMap_eq_nil_iff.mpr fun act member => (cancelling act member).quiet.1
  insertions := List.filterMap_eq_nil_iff.mpr fun act member => (cancelling act member).quiet.2.1
  submissions := List.filterMap_eq_nil_iff.mpr fun act member => (cancelling act member).quiet.2.2.1
  unsurveyed := List.any_eq_false.mpr fun act member => by
    simp [(cancelling act member).quiet.2.2.2]

theorem quiet_opening (id : Uuid) (job : Job) (sagaId : Uuid) (saga : Saga) :
    Quiet (opening id job sagaId saga) := ⟨rfl, rfl, rfl, rfl⟩

theorem Mints.moves (mints : Mints saga user steps acts) : moves acts = [] := by
  induction mints with
  | nil => rfl
  | mint done job _ ih => exact ih
  | refused done _ ih => exact ih

theorem Mints.unsurveyed (mints : Mints saga user steps acts) : acts.any surveys = false := by
  induction mints with
  | nil => rfl
  | mint done job _ ih => exact ih
  | refused done _ ih => exact ih

theorem Mints.submissions (mints : Mints saga user steps acts) :
    submissions acts = (insertions acts).map Job.id := by
  induction mints with
  | nil => rfl
  | mint done job _ ih => exact congrArg (job.id :: ·) ih
  | refused done _ ih => exact ih

theorem RollingAt.facts (rolling : RollingAt trace saga) : moves trace = [(saga.id, .compensating)] ∧
    insertions trace = [] ∧ submissions trace = [] ∧ trace.any surveys = false ∧
    saga.status = .running ∧ Reads trace saga := by
  obtain ⟨id, job, sagaId, ⟨cancels, rfl, cancelling⟩, running⟩ := rolling
  have quiet := quiet_of_cancels cancelling
  refine ⟨?_, ?_, ?_, ?_, running, sagaId, ?_⟩
  · simp [rollingBack, quiet.moves]
    rfl
  · simp [rollingBack, quiet.insertions]
    rfl
  · simp [rollingBack, quiet.submissions]
    rfl
  · simp only [rollingBack, List.any_append, quiet.unsurveyed]
    rfl
  · simp [opening]

theorem MintingAt.facts {before : List Job} (minting : MintingAt trace saga user steps before) :
    moves trace = [(saga.id, .compensating)] ∧ trace.any surveys = false ∧
    saga.status = .running ∧ Reads trace saga ∧
    (⟨.query (.completedSteps saga.id), steps⟩ : Act) ∈ trace := by
  obtain ⟨mints, earlier, rfl, minting, rolling⟩ := minting
  obtain ⟨moved, _, _, unsurveyed, running, sagaId, read⟩ := rolling.facts
  refine ⟨?_, ?_, running, ⟨sagaId, by simp [read]⟩, by simp⟩
  · rw [moves_append, minting.moves]
    exact moved
  · rw [List.any_append, minting.unsurveyed]
    exact unsurveyed

theorem Mints.mem (mints : Mints saga user steps acts) {done : Job} (member : done ∈ steps) :
    ∃ reply, (⟨.statement (.insertJob (compensationDraft saga user done)), reply⟩ : Act) ∈ acts := by
  induction mints with
  | nil => cases member
  | mint last job _ ih =>
      rcases List.mem_append.mp member with earlier | same
      · obtain ⟨reply, among⟩ := ih earlier
        exact ⟨reply, List.mem_cons_of_mem _ (List.mem_cons_of_mem _ among)⟩
      · obtain rfl := List.mem_singleton.mp same
        exact ⟨some job, List.mem_cons_of_mem _ List.mem_cons_self⟩
  | refused last _ ih =>
      rcases List.mem_append.mp member with earlier | same
      · obtain ⟨reply, among⟩ := ih earlier
        exact ⟨reply, List.mem_cons_of_mem _ among⟩
      · obtain rfl := List.mem_singleton.mp same
        exact ⟨none, List.mem_cons_self⟩

theorem Mints.forall₂ {relation : Job → Job → Prop} (mints : Mints saga user steps acts)
    (accepted : ∀ done reply,
      (⟨.statement (.insertJob (compensationDraft saga user done)), reply⟩ : Act) ∈ acts →
      ∃ job, reply = some job ∧ relation done job) :
    List.Forall₂ relation steps (insertions acts).reverse := by
  induction mints with
  | nil => exact .nil
  | @mint steps acts done job minted ih =>
      obtain ⟨made, same, related⟩ := accepted done (some job) (by simp)
      cases same
      have added : insertions (⟨.statement (.insertOutbox saga.tenantId user .submitted
          (compensationEvent saga user done job)), ()⟩ ::
            ⟨.statement (.insertJob (compensationDraft saga user done)), some job⟩ :: acts) =
          job :: insertions acts := rfl
      rw [added, List.reverse_cons]
      refine List.rel_append (ih fun other reply member => ?_) (.cons related .nil)
      exact accepted other reply (List.mem_cons_of_mem _ (List.mem_cons_of_mem _ member))
  | refused done minted ih =>
      obtain ⟨made, same, _⟩ := accepted done none (by simp)
      cases same

theorem Mints.origin (mints : Mints saga user steps acts) {job : Job} (member : job ∈ insertions acts) :
    ∃ done ∈ steps,
      (⟨.statement (.insertJob (compensationDraft saga user done)), some job⟩ : Act) ∈ acts := by
  induction mints with
  | nil => cases member
  | mint last made _ ih =>
      rcases List.mem_cons.mp member with rfl | earlier
      · exact ⟨last, by simp, by simp⟩
      · obtain ⟨done, among, inserted⟩ := ih earlier
        exact ⟨done, List.mem_append_left _ among, by simp [inserted]⟩
  | refused last _ ih =>
      obtain ⟨done, among, inserted⟩ := ih member
      exact ⟨done, List.mem_append_left _ among, by simp [inserted]⟩

theorem Opens.append {held : Job} (opened : Opens trace held) (acts : List Act) :
    Opens (acts ++ trace) held := by
  obtain ⟨id, last⟩ := opened
  exact ⟨id, by rw [List.getLast?_append, last, Option.some_or]⟩

theorem Opens.unique {trace : List Act} {first second : Job} (left : Opens trace first)
    (right : Opens trace second) : first = second := by
  obtain ⟨_, left⟩ := left
  obtain ⟨_, right⟩ := right
  rw [left] at right
  cases right
  rfl

theorem opens_opening (id : Uuid) (job : Job) (sagaId : Uuid) (saga : Saga) :
    Opens (opening id job sagaId saga) job := ⟨id, rfl⟩

theorem settledStatus_ne_compensating (jobs : List Job) : settledStatus jobs ≠ .compensating := by
  unfold settledStatus
  split <;> simp

theorem Settlement.quiet (settlement : Settlement held saga acts) : insertions acts = [] ∧
    submissions acts = [] ∧ ∀ id, (id, .compensating) ∉ moves acts := by
  cases settlement with
  | undrained jobs left => exact ⟨rfl, rfl, fun id member => (by cases member)⟩
  | settled jobs now entry drained =>
      refine ⟨rfl, rfl, fun id member => ?_⟩
      have same := (Prod.mk.inj (List.mem_singleton.mp member)).2
      exact settledStatus_ne_compensating _ same.symm

theorem settledStatus_eq_compensated {jobs : List Job} (compensated : settledStatus jobs = .compensated)
    {job : Job} (member : job ∈ jobs) (compensation : isCompensation job) : job.status = .completed := by
  unfold settledStatus at compensated
  split at compensated
  · rename_i none
    have all := List.countP_eq_zero.mp none job (List.mem_filter.mpr ⟨member, compensation⟩)
    simpa using all
  · cases compensated

/-- What a committed transaction moved a saga to, and on what grounds. -/
inductive Ground (trace : List Act) (saga : Saga) : SagaStatus → Prop where
  | completed {held : Job} {jobs : List Job} (running : saga.status = .running)
      (opened : Opens trace held) (surveyed : (⟨.query (.sagaJobs saga.id), jobs⟩ : Act) ∈ trace)
      (all : ∀ job ∈ sessionRows held jobs, job.status = .completed) : Ground trace saga .completed
  | compensating {user : Uuid} {steps : List Job} (running : saga.status = .running)
      (asked : (⟨.query (.completedSteps saga.id), steps⟩ : Act) ∈ trace)
      (minted : ∀ done ∈ steps, ∃ reply,
        (⟨.statement (.insertJob (compensationDraft saga user done)), reply⟩ : Act) ∈ trace) :
      Ground trace saga .compensating
  | settled {held : Job} {jobs : List Job} (opened : Opens trace held)
      (surveyed : (⟨.query (.sagaJobs saga.id), jobs⟩ : Act) ∈ trace)
      (drained : ∀ job ∈ sessionRows held jobs, isCompensation job → job.status.terminal)
      (rollback : saga.status = .compensating ∨
        (⟨.query (.completedSteps saga.id), []⟩ : Act) ∈ trace) :
      Ground trace saga (settledStatus (sessionRows held jobs))

theorem Ground.of_compensating {status : SagaStatus} (ground : Ground trace saga status)
    (compensating : status = .compensating) : saga.status = .running ∧ ∃ user steps,
      (⟨.query (.completedSteps saga.id), steps⟩ : Act) ∈ trace ∧ ∀ done ∈ steps, ∃ reply,
        (⟨.statement (.insertJob (compensationDraft saga user done)), reply⟩ : Act) ∈ trace := by
  cases ground with
  | completed running opened surveyed all => cases compensating
  | compensating running asked minted => exact ⟨running, _, _, asked, minted⟩
  | settled opened surveyed drained rollback =>
      exact absurd compensating (settledStatus_ne_compensating _)

theorem Ground.of_compensated {status : SagaStatus} (ground : Ground trace saga status)
    (compensated : status = .compensated) : ∃ held jobs, Opens trace held ∧
      (⟨.query (.sagaJobs saga.id), jobs⟩ : Act) ∈ trace ∧
      (∀ job ∈ sessionRows held jobs, isCompensation job → job.status = .completed) ∧
      (saga.status = .compensating ∨ (⟨.query (.completedSteps saga.id), []⟩ : Act) ∈ trace) := by
  cases ground with
  | completed running opened surveyed all => cases compensated
  | compensating running asked minted => cases compensated
  | settled opened surveyed drained rollback =>
      exact ⟨_, _, opened, surveyed, fun job member => settledStatus_eq_compensated compensated member, rollback⟩

theorem Settlement.ground {base : List Act} {status : SagaStatus} {id : Uuid} {earlier : List Act}
    (settlement : Settlement held saga acts) (opened : Opens base held) (unmoved : moves earlier = [] ∨
      moves earlier = [(saga.id, .compensating)] ∧ Ground (acts ++ base) saga .compensating)
    (rollback : saga.status = .compensating ∨
      (⟨.query (.completedSteps saga.id), []⟩ : Act) ∈ base)
    (moved : (moves (acts ++ earlier)).head? = some (id, status)) :
    saga.id = id ∧ Ground (acts ++ base) saga status := by
  cases settlement with
  | undrained jobs left =>
      rcases unmoved with unmoved | ⟨unmoved, ground⟩
      · rw [moves_append, unmoved] at moved
        cases moved
      · rw [moves_append, unmoved] at moved
        cases moved
        exact ⟨rfl, ground⟩
  | settled jobs now entry drained =>
      cases moved
      refine ⟨rfl, .settled (opened.append _) ?_ drained (rollback.imp_right (List.mem_append_right _))⟩
      simp

theorem Handled.ground {topic : Topic} {id moved : Uuid} {status : SagaStatus}
    (handled : Handled topic id trace) (last : (moves trace).head? = some (moved, status)) :
    ∃ saga, Reads trace saga ∧ saga.id = moved ∧ Ground trace saga status := by
  cases handled with
  | jobless => cases last
  | sagaless alone => cases last
  | unknown member => cases last
  | @routed job sagaId saga acts member routed =>
      have reads : Reads (acts ++ opening id job sagaId saga) saga := ⟨sagaId, by simp [opening]⟩
      refine ⟨saga, reads, ?_⟩
      cases routed with
      | ignored step compensation => cases last
      | completion running step done completion =>
          cases completion with
          | pending jobs left => cases last
          | completed jobs now entry any all =>
              cases last
              exact ⟨rfl, .completed running ((opens_opening id job sagaId saga).append _) (by simp) all⟩
      | settlement compensating compensation ended settlement =>
          exact settlement.ground (opens_opening id job sagaId saga) (.inl rfl) (.inl compensating) last
      | failure running step dead rolled =>
          obtain ⟨cancels, mints, rest, steps, entry, cancelling, minting, ending⟩ := rolled
          have minted : ∀ more, Ground (more ++ ⟨.statement (.insertAudit entry), ()⟩ ::
              (mints ++ ⟨.query (.completedSteps saga.id), steps⟩ :: rollingBack saga cancels) ++
                opening id job sagaId saga) saga .compensating := by
            intro more
            refine @Ground.compensating _ saga job.userId steps running (by simp) fun done among => ?_
            obtain ⟨reply, inserted⟩ := minting.mem (List.mem_reverse.mpr among)
            exact ⟨reply, by simp [inserted]⟩
          have earlier : moves (⟨.statement (.insertAudit entry), ()⟩ ::
              (mints ++ ⟨.query (.completedSteps saga.id), steps⟩ :: rollingBack saga cancels) ++
                opening id job sagaId saga) = [(saga.id, .compensating)] := by
            change moves (mints ++ ⟨.query (.completedSteps saga.id), steps⟩ :: rollingBack saga cancels ++
              opening id job sagaId saga) = _
            rw [moves_append, moves_append, minting.moves]
            change moves (rollingBack saga cancels) ++ [] = _
            rw [rollingBack, moves_append, (quiet_of_cancels cancelling).moves]
            rfl
          rw [List.append_assoc] at last ⊢
          rcases ending with ⟨rfl, settlement⟩ | ⟨_, rfl⟩
          · refine settlement.ground ((opens_opening id job sagaId saga).append _) (.inr ⟨earlier, ?_⟩)
              (.inr (by simp)) last
            rw [← List.append_assoc]
            exact minted rest
          · rw [List.nil_append, earlier] at last
            cases last
            exact ⟨rfl, minted []⟩

theorem Handled.minting {topic : Topic} {id : Uuid} (handled : Handled topic id trace) :
    ((∀ saga, (saga, .compensating) ∉ moves trace) ∧ insertions trace = [] ∧ submissions trace = []) ∨
    topic = .dlq ∧ ∃ saga user steps mints, Reads trace saga ∧ saga.status = .running ∧
      (saga.id, .compensating) ∈ moves trace ∧
      (⟨.query (.completedSteps saga.id), steps⟩ : Act) ∈ trace ∧
      Mints saga user steps.reverse mints ∧ mints ⊆ trace ∧ insertions trace = insertions mints ∧
      submissions trace = submissions mints := by
  cases handled with
  | jobless => exact .inl ⟨fun saga member => (by cases member), rfl, rfl⟩
  | sagaless alone => exact .inl ⟨fun saga member => (by cases member), rfl, rfl⟩
  | unknown member => exact .inl ⟨fun saga member => (by cases member), rfl, rfl⟩
  | @routed job sagaId saga acts member routed =>
      have quiet := quiet_opening id job sagaId saga
      cases routed with
      | ignored step compensation => exact .inl ⟨fun saga member => (by cases member), rfl, rfl⟩
      | completion running step done completion =>
          cases completion with
          | pending jobs left => exact .inl ⟨fun saga member => (by cases member), rfl, rfl⟩
          | completed jobs now entry any all =>
              refine .inl ⟨fun saga member => ?_, rfl, rfl⟩
              cases (Prod.mk.inj (List.mem_singleton.mp member)).2
      | settlement compensating compensation ended settlement =>
          obtain ⟨inserted, submitted, unmoved⟩ := settlement.quiet
          refine .inl ⟨fun saga => ?_, ?_, ?_⟩
          · rw [moves_append, quiet.moves, List.append_nil]
            exact unmoved saga
          · rw [insertions_append, inserted, quiet.insertions]
            rfl
          · rw [submissions_append, submitted, quiet.submissions]
            rfl
      | failure running step dead rolled =>
          obtain ⟨cancels, mints, rest, steps, entry, cancelling, minting, ending⟩ := rolled
          have calm := quiet_of_cancels cancelling
          have settled : insertions rest = [] ∧ submissions rest = [] := by
            rcases ending with ⟨_, settlement⟩ | ⟨_, rfl⟩
            · exact ⟨settlement.quiet.1, settlement.quiet.2.1⟩
            · exact ⟨rfl, rfl⟩
          refine .inr ⟨dead, saga, job.userId, steps, mints, ⟨sagaId, by simp [opening]⟩, running, ?_,
            by simp, minting, fun act among => by simp [among], ?_, ?_⟩
          · refine List.mem_filterMap.mpr
              ⟨⟨.statement (.updateSaga saga.id .compensating none), ()⟩, ?_, rfl⟩
            simp [rollingBack]
          · simp only [insertions_append, settled.1, quiet.insertions, List.nil_append, List.append_nil]
            change insertions (mints ++ (_ :: rollingBack saga cancels)) = _
            rw [insertions_append]
            change insertions mints ++ insertions (rollingBack saga cancels) = _
            rw [rollingBack, insertions_append, calm.insertions]
            exact List.append_nil _
          · simp only [submissions_append, settled.2, quiet.submissions, List.nil_append, List.append_nil]
            change submissions (mints ++ (_ :: rollingBack saga cancels)) = _
            rw [submissions_append]
            change submissions mints ++ submissions (rollingBack saga cancels) = _
            rw [rollingBack, submissions_append, calm.submissions]
            exact List.append_nil _

end Reading

section Coordinator

variable {topic : Topic} {id sagaId : Uuid} {job : Job} {saga : Saga}

theorem handleCompletion_follows (member : job.sagaId = some sagaId) (running : saga.status = .running)
    (step : isCompensation job = false) (done : topic = .completed) :
    (handleCompletion job saga).Follows (tracing (coordinating topic id)) (opening id job sagaId saga)
      fun after _ => Handled topic id after := by
  have handled : ∀ acts, Completion job saga acts → Handled topic id (acts ++ opening id job sagaId saga) :=
    fun acts completion => .routed member (.completion running step done completion)
  refine .first ⟨job, opens_opening id job sagaId saga, fun _ => rfl⟩ fun steps => ?_
  dsimp only
  split
  · rename_i empty
    exact handled _ (.pending steps (.inl (List.isEmpty_iff.mp empty)))
  · rename_i some
    split
    · rename_i all
      refine .first trivial fun now => .first ?_ fun _ => ⟨trivial, fun _ => ?_⟩
      · refine ⟨saga, ⟨sagaId, by simp [extendTrace, Op.ends, opening]⟩, rfl, .inl ⟨rfl, ?_⟩⟩
        simp [running, Moves]
      · refine handled _ (.completed steps now _ (fun empty => some (by rw [empty]; rfl)) ?_)
        intro job member
        simpa using List.all_eq_true.mp all job member
    · rename_i left
      refine handled _ (.pending steps (.inr ?_))
      simpa using left

theorem settleIfDrained_follows {base : List Act} (read : Reads base saga) (opened : Opens base job)
    (unwritten : isCompensation job = true → base.any writesJob = false)
    (moved : moves base = [] ∧ saga.status = .compensating ∨ moves base = [(saga.id, .compensating)]) :
    (settleIfDrained job saga).Follows (tracing (coordinating topic id)) base
      fun after _ => ∃ acts, after = acts ++ base ∧ Settlement job saga acts := by
  refine .first ⟨job, opened, unwritten⟩ fun steps => ?_
  dsimp only
  split
  · rename_i left
    refine ⟨_, rfl, .undrained steps ?_⟩
    simpa using left
  · rename_i drained
    have edge : ∀ count, Moves .compensating (if count = 0 then .compensated else .failed) := by
      intro count
      split <;> rfl
    refine .first trivial fun now => .first ?_ fun _ => ⟨trivial, fun _ => ?_⟩
    · obtain ⟨read, member⟩ := read
      refine ⟨saga, ⟨read, by simp [extendTrace, Op.ends, member]⟩, rfl, ?_⟩
      rcases moved with ⟨unmoved, compensating⟩ | moved
      · exact .inl ⟨unmoved, by rw [compensating]; exact edge _⟩
      · exact .inr ⟨moved, edge _⟩
    · refine ⟨_, rfl, .settled steps now _ ?_⟩
      simpa using drained

theorem RollingFrom.cancel {base trace : List Act} {act : Act} (rolling : RollingFrom base trace saga)
    (cancels : Cancels act) : RollingFrom base (act :: trace) saga := by
  obtain ⟨earlier, rfl, cancelling⟩ := rolling
  refine ⟨act :: earlier, rfl, ?_⟩
  simpa using ⟨cancels, cancelling⟩

/-- The rollback has asked for the waiting steps. -/
def CancellingFrom (base trace : List Act) (saga : Saga) (waiting : List Job) : Prop :=
  RollingFrom base trace saga ∧ (⟨.query (.waitingSteps saga.id), waiting⟩ : Act) ∈ trace

theorem CancellingFrom.cancel {base trace : List Act} {waiting : List Job} {act : Act}
    (cancelling : CancellingFrom base trace saga waiting) (cancels : Cancels act) :
    CancellingFrom base (act :: trace) saga waiting :=
  ⟨cancelling.1.cancel cancels, List.mem_cons_of_mem _ cancelling.2⟩

theorem cancelStep_follows {trace : List Act} {waiting : List Job} (running : saga.status = .running)
    (cancelling : CancellingFrom (opening id job sagaId saga) trace saga waiting) {step : Job}
    (listed : step ∈ waiting) :
    (cancelStep step).Follows (tracing (coordinating topic id)) trace
      fun after _ => CancellingFrom (opening id job sagaId saga) after saga waiting := by
  have here : ∀ {trace}, CancellingFrom (opening id job sagaId saga) trace saga waiting →
      RollingAt trace saga := fun cancelling => ⟨id, job, sagaId, cancelling.1, running⟩
  have first : coordinating topic id trace (.statement (.updateStatus step.id
      { status := .cancelled, errorMessage := some (some "saga rollback") } none)) :=
    ⟨saga, waiting, here cancelling, cancelling.2, List.mem_map_of_mem listed⟩
  refine Program.Follows.bind (.first first fun changed => ?_) fun after _ kept => kept
  have settles := afterStatusWrite_uses step.id .cancelled none
  refine follows_of_uses settles (cancelling.cancel trivial) fun trace operation cancelling settles => ?_
  have opened : operation.ends = false := by
    cases operation <;> first | rfl | exact settles.elim
  refine ⟨?_, fun reply => ?_⟩
  · unfold Op.Settles at settles
    split at settles
    all_goals first
      | exact trivial
      | exact ⟨saga, here cancelling⟩
      | exact settles.elim
  · rw [extendTrace_of_open opened]
    apply cancelling.cancel
    unfold Op.Settles at settles
    split at settles
    all_goals first
      | exact settles
      | exact settles.elim

theorem emitCompensations_follows {earlier : List Act} {user : Uuid} {steps : List Job}
    (rolling : RollingAt earlier saga) (left before : List Job) (mints : List Act)
    (minting : Mints saga user before mints) (split : steps.reverse = before ++ left) :
    (Program.forEach left (emitCompensation saga user)).Follows (tracing (coordinating topic id))
      (mints ++ ⟨.query (.completedSteps saga.id), steps⟩ :: earlier)
      fun after _ => ∃ mints, after = mints ++ ⟨.query (.completedSteps saga.id), steps⟩ :: earlier ∧
        Mints saga user steps.reverse mints := by
  induction left generalizing before mints with
  | nil =>
      rw [List.append_nil] at split
      exact ⟨mints, rfl, split ▸ minting⟩
  | cons done left ih =>
      have rest : ∀ acts, Mints saga user (before ++ [done]) acts →
          (Program.forEach left (emitCompensation saga user)).Follows (tracing (coordinating topic id))
            (acts ++ ⟨.query (.completedSteps saga.id), steps⟩ :: earlier)
            fun after _ => ∃ mints, after = mints ++
              ⟨.query (.completedSteps saga.id), steps⟩ :: earlier ∧ Mints saga user steps.reverse mints :=
        fun acts minted => ih (before ++ [done]) acts minted (by simp [split])
      refine ⟨⟨saga, user, steps, before, done, left, ⟨mints, earlier, rfl, minting, rolling⟩, split,
        rfl⟩, fun inserted => ?_⟩
      cases inserted with
      | none => exact rest _ (.refused done minting)
      | some job => exact ⟨trivial, fun _ => rest _ (.mint done job minting)⟩

theorem handleFailure_follows (member : job.sagaId = some sagaId) (running : saga.status = .running)
    (step : isCompensation job = false) (dead : topic = .dlq) :
    (handleFailure job saga).Follows (tracing (coordinating topic id)) (opening id job sagaId saga)
      fun after _ => Handled topic id after := by
  have read : Reads (opening id job sagaId saga) saga := ⟨sagaId, by simp [opening]⟩
  refine .first ⟨saga, read, rfl, .inl ⟨rfl, by simp [running, Moves]⟩⟩ fun _ => ?_
  have rolling : RollingFrom (opening id job sagaId saga)
      (⟨.statement (.updateSaga saga.id .compensating none), ()⟩ :: opening id job sagaId saga) saga :=
    ⟨[], rfl, by simp⟩
  refine .first trivial fun waiting => ?_
  have waited : CancellingFrom (opening id job sagaId saga)
      (⟨.query (.waitingSteps saga.id), waiting⟩ ::
        ⟨.statement (.updateSaga saga.id .compensating none), ()⟩ :: opening id job sagaId saga)
      saga waiting := ⟨rolling.cancel trivial, List.mem_cons_self⟩
  refine (Program.follows_forEach waited fun step member trace cancelling =>
    cancelStep_follows running cancelling (List.mem_filter.mp member).1).bind fun trace _ rolled => ?_
  obtain ⟨rolling, _⟩ := rolled
  have here : RollingAt trace saga := ⟨id, job, sagaId, rolling, running⟩
  refine .first ⟨saga, rfl, here⟩ fun completed => ?_
  refine (emitCompensations_follows here completed.reverse [] [] .nil rfl).bind fun after _ minted => ?_
  obtain ⟨mints, rfl, minting⟩ := minted
  obtain ⟨cancels, rfl, cancelling⟩ := rolling
  have handled : ∀ entry rest, (completed = [] ∧ Settlement job saga rest ∨ completed ≠ [] ∧ rest = []) →
      Handled topic id (rest ++ ⟨.statement (.insertAudit entry), ()⟩ ::
        (mints ++ ⟨.query (.completedSteps saga.id), completed⟩ ::
          (rollingBack saga cancels ++ opening id job sagaId saga))) := by
    intro entry rest ending
    have rolled := RolledBack.rolledBack cancels mints rest completed entry cancelling minting ending
    have handled : Handled topic id _ := .routed member (.failure running step dead rolled)
    simpa using handled
  refine .first trivial fun _ => ?_
  split
  · rename_i empty
    have none : completed = [] := List.isEmpty_iff.mp empty
    obtain ⟨moved, _, _, _, _, seen⟩ := here.facts
    obtain ⟨reading, seen⟩ := seen
    refine (settleIfDrained_follows ⟨reading, ?_⟩ ?_ ?_ (.inr ?_)).mono ?_
    · simp [extendTrace, Op.ends, seen]
    · have opened := opens_opening id job sagaId saga
      have rolled := opened.append (⟨.query (.completedSteps saga.id), completed⟩ :: rollingBack saga cancels)
      exact (rolled.append mints).append [_]
    · rw [step]
      exact fun absurd => by cases absurd
    · change moves (mints ++ ⟨.query (.completedSteps saga.id), completed⟩ ::
        (rollingBack saga cancels ++ opening id job sagaId saga)) = [(saga.id, .compensating)]
      rw [moves_append, minting.moves]
      exact moved
    · rintro after _ ⟨acts, rfl, settlement⟩
      exact handled _ acts (.inl ⟨none, settlement⟩)
  · rename_i some
    exact handled _ [] (.inr ⟨fun empty => some (by rw [empty]; rfl), rfl⟩)

theorem routeSagaEvent_follows (member : job.sagaId = some sagaId) :
    (routeSagaEvent topic job saga).Follows (tracing (coordinating topic id))
      (opening id job sagaId saga) fun after _ => Handled topic id after := by
  have ignored : ¬ (saga.status = .running ∧ isCompensation job = false ∧
      (topic = .completed ∨ topic = .dlq)) → ¬ (saga.status = .compensating ∧
      isCompensation job = true ∧ (topic = .completed ∨ topic = .dlq)) →
      Handled topic id (opening id job sagaId saga) :=
    fun step compensation => .routed member (.ignored step compensation)
  unfold routeSagaEvent
  dsimp only
  split
  · rename_i step
    split
    · rename_i done
      exact handleCompletion_follows member step.1 step.2 done
    · rename_i undone
      split
      · rename_i dead
        exact handleFailure_follows member step.1 step.2 dead
      · rename_i alive
        refine ignored ?_ ?_
        · rintro ⟨_, _, done | dead⟩
          · exact undone done
          · exact alive dead
        · rintro ⟨compensating, _⟩
          rw [step.1] at compensating
          cases compensating
  · rename_i other
    split
    · rename_i compensation
      have read : Reads (opening id job sagaId saga) saga := ⟨sagaId, by simp [opening]⟩
      refine (settleIfDrained_follows read (opens_opening id job sagaId saga) (fun _ => rfl)
        (.inl ⟨rfl, compensation.1⟩)).mono ?_
      rintro after _ ⟨acts, rfl, settlement⟩
      exact .routed member (.settlement compensation.1 compensation.2.1 compensation.2.2 settlement)
    · rename_i uncompensated
      refine ignored ?_ uncompensated
      rintro ⟨running, step, _⟩
      exact other ⟨running, step⟩

theorem coordinateSaga_follows (topic : Topic) (id : Uuid) :
    (coordinateSaga topic id).Follows (tracing (coordinating topic id)) [] fun _ _ => True := by
  have ending : ∀ trace, Handled topic id trace →
      commit.Follows (tracing (coordinating topic id)) trace fun _ _ => True :=
    fun trace handled => ⟨handled, fun _ => trivial⟩
  refine .first trivial fun found => ?_
  cases found with
  | none => exact ending _ .jobless
  | some job =>
      dsimp only
      split
      · rename_i alone
        exact ending _ (.sagaless alone)
      · rename_i sagaId member
        refine .first ⟨job, rfl⟩ fun found => ?_
        cases found with
        | none => exact ending _ (.unknown member)
        | some saga => exact (routeSagaEvent_follows member).bind fun after _ handled => ending after handled

end Coordinator

/-- What `create_saga` has done before it inserts a job: it has opened the saga
and inserted the steps before this one.  It commits a saga with a step. -/
def creatingSaga (trace : List Act) : Op → Prop
  | .statement (.insertSaga _ _) => trace = []
  | .statement (.insertJob draft) => ∃ tenant name saga,
      (⟨.statement (.insertSaga tenant name), saga⟩ : Act) ∈ trace ∧ draft.sagaId = some saga.id ∧
        draft.sagaStepIndex = some (insertions trace).length ∧ draft.status.terminal = false
  | .commit => insertions trace ≠ []
  | _ => True

/-- What `create_job` does beside its INSERT. -/
def Op.Prepares : Op → Prop
  | .query (.job _) | .query (.jobByIdempotencyKey _ _) | .query (.parents _)
  | .command (.pausedFlags _) | .statement (.insertDependencies _ _) | .statement (.insertAudit _)
  | .statement (.insertOutbox _ _ _ _) => True
  | _ => False

/-- What `create_job` does before its INSERT. -/
def Op.Looks : Op → Prop
  | .query (.job _) | .query (.jobByIdempotencyKey _ _) | .query (.parents _)
  | .command (.pausedFlags _) => True
  | _ => False

theorem looks_of_probes (operation : Op) (probes : operation.Probes) : operation.Looks := by
  unfold Op.Probes at probes
  split at probes
  · exact trivial
  · exact trivial
  · exact probes.elim

theorem prepares_of_looks (operation : Op) (looks : operation.Looks) : operation.Prepares := by
  unfold Op.Looks at looks
  split at looks
  all_goals first
    | exact trivial
    | exact looks.elim

theorem findIdempotent_looks (request : CreateJobRequest) : (findIdempotent request).Uses Op.Looks := by
  unfold findIdempotent
  split
  · exact trivial
  · split
    · exact trivial
    · exact ⟨trivial, fun _ => trivial⟩

theorem loadParents_looks (ids : List Uuid) : (loadParents ids).Uses Op.Looks := by
  induction ids with
  | nil => exact trivial
  | cons id rest ih =>
      refine .first trivial fun found => ?_
      cases found with
      | none => exact trivial
      | some parent =>
          refine ih.bind fun loaded => ?_
          cases loaded <;> exact trivial

theorem probeParents_looks (parents : List Job) : (probeParents parents).Uses Op.Looks := by
  induction parents with
  | nil => exact trivial
  | cons parent rest ih =>
      refine ((findBlockingPause_uses parent.id).mono looks_of_probes).bind fun held => ?_
      cases held with
      | none => exact ih
      | some pausedBy => exact trivial

theorem initialStatus_looks (parents : List Job) : (initialStatus parents).Uses Op.Looks := by
  unfold initialStatus
  split
  · exact trivial
  · refine (probeParents_looks parents).bind fun held => ?_
    cases held <;> exact trivial

theorem idempotencyWinner_looks (request : CreateJobRequest) :
    (idempotencyWinner request).Uses Op.Looks := by
  unfold idempotencyWinner
  split
  · exact trivial
  · refine .first trivial fun found => ?_
    cases found <;> exact trivial

theorem finishCreate_prepares (request : CreateJobRequest) (status : JobStatus) (job : Job) :
    (finishCreate request status job).Uses Op.Prepares := by
  have edges : (addDependencies job request.dependencies).Uses Op.Prepares := by
    unfold addDependencies
    split
    · exact trivial
    · exact ⟨trivial, fun _ => trivial⟩
  refine edges.bind fun added => ?_
  split
  · refine .first trivial fun _ => ?_
    split
    · exact ⟨trivial, fun _ => trivial⟩
    · exact trivial
  · exact trivial

/-- `after` is `trace` with acts that insert no job. -/
def Steady (trace after : List Act) : Prop := ∃ acts, after = acts ++ trace ∧ insertions acts = []

theorem steady_of_prepares {α : Type} {rule : List Act → Op → Prop} {program : Prog α}
    {trace after : List Act} (permits : ∀ trace operation, operation.Prepares → rule trace operation)
    (uses : program.Uses Op.Prepares) (steady : Steady trace after) :
    program.Follows (tracing rule) after fun later _ => Steady trace later := by
  refine follows_of_uses uses steady fun current operation steady prepares => ?_
  refine ⟨permits current operation prepares, fun reply => ?_⟩
  obtain ⟨acts, rfl, uninserted⟩ := steady
  have quiet : operation.ends = false ∧ insertionOf ⟨operation, reply⟩ = none := by
    cases operation with
    | query query => exact ⟨rfl, rfl⟩
    | command command => exact ⟨rfl, rfl⟩
    | statement issued => cases issued <;> first | exact ⟨rfl, rfl⟩ | exact prepares.elim
    | _ => exact prepares.elim
  rw [extendTrace_of_open quiet.1]
  refine ⟨⟨operation, reply⟩ :: acts, rfl, ?_⟩
  rw [insertions, List.filterMap_cons_none quiet.2]
  exact uninserted

theorem initialStatus_steady {rule : List Act → Op → Prop} {trace after : List Act}
    (permits : ∀ trace operation, operation.Prepares → rule trace operation) (parents : List Job)
    (steady : Steady trace after) : (initialStatus parents).Follows (tracing rule) after
      fun later status => Steady trace later ∧ status.terminal = false := by
  unfold initialStatus
  split
  · exact ⟨steady, rfl⟩
  · refine (steady_of_prepares permits ((probeParents_looks parents).mono prepares_of_looks) steady).bind fun later held kept => ?_
    cases held <;> exact ⟨kept, rfl⟩

theorem createJob_inserts {rule : List Act → Op → Prop} {settings : Settings}
    {request : CreateJobRequest} {trace : List Act} (unkeyed : request.idempotencyKey = none)
    (permits : ∀ trace operation, operation.Prepares → rule trace operation)
    (inserting : ∀ after status, Steady trace after → status.terminal = false →
      rule after (.statement (.insertJob (request.draft settings status)))) :
    (createJob settings request).Follows (tracing rule) trace fun after result =>
      (∃ acts, after = acts ++ trace) ∧ ∀ job, result = .ok job →
        (insertions after).length = (insertions trace).length + 1 := by
  have lookup : findIdempotent request = .done none := by
    rw [findIdempotent, unkeyed]
    rfl
  have winner : idempotencyWinner request = .done (.error .integrity) := by
    rw [idempotencyWinner, unkeyed]
    rfl
  unfold createJob
  rw [lookup]
  refine (steady_of_prepares permits ((loadParents_looks request.dependencies).mono prepares_of_looks)
    ⟨[], rfl, rfl⟩).bind fun after loaded kept => ?_
  cases loaded with
  | error error =>
      obtain ⟨acts, rfl, _⟩ := kept
      exact ⟨⟨acts, rfl⟩, fun job failed => (by cases failed)⟩
  | ok parents =>
      refine (initialStatus_steady permits parents kept).bind
        fun after status begun => .first (inserting after status begun.1 begun.2) fun inserted => ?_
      obtain ⟨⟨acts, rfl, uninserted⟩, _⟩ := begun
      cases inserted with
      | none =>
          rw [winner]
          exact ⟨⟨_ :: acts, rfl⟩, fun job failed => (by cases failed)⟩
      | some job =>
          refine (steady_of_prepares permits (finishCreate_prepares request status job)
            ⟨[], rfl, rfl⟩).mono ?_
          rintro later _ ⟨more, rfl, quiet⟩
          refine ⟨⟨more ++ ⟨.statement (.insertJob (request.draft settings status)), some job⟩ :: acts,
            by simp⟩, fun _ _ => ?_⟩
          have one : insertions (⟨.statement (.insertJob (request.draft settings status)), some job⟩ ::
              (acts ++ trace)) = job :: insertions (acts ++ trace) := rfl
          rw [insertions_append, quiet, List.nil_append]
          change (insertions (_ :: (acts ++ trace))).length = _
          rw [one, insertions_append, uninserted, List.nil_append, List.length_cons]

theorem createSteps_follows_saga {settings : Settings} {request : CreateSagaRequest} {saga : Saga}
    {tenant : Uuid} {name : String} {trace : List Act} (index : Nat) (previous : Option Uuid)
    (steps : List SagaStep)
    (opened : (⟨.statement (.insertSaga tenant name), saga⟩ : Act) ∈ trace)
    (counted : (insertions trace).length = index) :
    (createSteps settings request saga index previous steps).Follows (tracing creatingSaga) trace
      fun after result => ∀ done, result = .ok done →
        (insertions after).length = index + steps.length := by
  have permits : ∀ trace (operation : Op), operation.Prepares → creatingSaga trace operation := by
    intro trace operation prepares
    cases operation with
    | statement issued => cases issued <;> first | exact trivial | exact prepares.elim
    | commit => exact prepares.elim
    | _ => exact trivial
  induction steps generalizing index previous trace with
  | nil => exact fun _ _ => counted
  | cons step rest ih =>
      refine Program.Follows.bind (createJob_inserts rfl permits ?_) fun after created kept => ?_
      · rintro after status ⟨acts, rfl, uninserted⟩ unstarted
        refine ⟨tenant, name, saga, List.mem_append_right _ opened, rfl, ?_, unstarted⟩
        rw [insertions_append, uninserted, List.nil_append, counted]
        rfl
      · obtain ⟨⟨acts, rfl⟩, inserted⟩ := kept
        cases created with
        | error error => exact fun _ failed => (by cases failed)
        | ok job =>
            have rest := ih (index + 1) (some job.id) (List.mem_append_right _ opened)
              (by rw [inserted job rfl, counted])
            refine rest.mono fun later result total done succeeded => ?_
            rw [total done succeeded, List.length_cons]
            omega

theorem createSaga_follows (settings : Settings) (create : CreateSagaRequest) :
    (request (createSaga settings create)).Follows (tracing creatingSaga) [] fun _ _ => True := by
  have handler : (createSaga settings create).Follows (tracing creatingSaga) []
      fun after result => ∀ saga, result = .ok saga → insertions after ≠ [] := by
    unfold createSaga
    split
    · exact fun _ failed => (by cases failed)
    · rename_i some
      refine .first rfl fun saga => ?_
      refine (createSteps_follows_saga 0 none create.steps List.mem_cons_self rfl).bind
        fun after created total => ?_
      cases created with
      | error error => exact fun _ failed => (by cases failed)
      | ok done =>
          refine .first trivial fun _ => fun _ _ none => ?_
          change insertions after = [] at none
          have length := total done rfl
          rw [none] at length
          refine some (List.isEmpty_iff.mpr (List.length_eq_zero_iff.mp ?_))
          simpa using length.symm
  refine handler.bind fun after result created => ?_
  cases result with
  | error error => exact ⟨trivial, fun _ => trivial⟩
  | ok saga => exact ⟨created saga rfl, fun _ => trivial⟩

/-- What `create_job` inserts, whatever may be reported of the rest. -/
def drafting (settings : Settings) (request : CreateJobRequest) : Op → Prop
  | .statement (.insertJob draft) => ∃ status, draft = request.draft settings status
  | operation => operation.Prepares

theorem drafting_of_prepares {settings : Settings} {request : CreateJobRequest} (operation : Op)
    (prepares : operation.Prepares) : drafting settings request operation := by
  cases operation with
  | statement issued => cases issued <;> first | exact prepares | exact prepares.elim
  | _ => exact prepares

theorem createJob_drafts (settings : Settings) (request : CreateJobRequest) :
    (createJob settings request).Uses (drafting settings request) := by
  have looking : ∀ operation : Op, operation.Looks → drafting settings request operation :=
    fun operation looks => drafting_of_prepares operation (prepares_of_looks operation looks)
  refine ((findIdempotent_looks request).mono looking).bind fun existing => ?_
  cases existing with
  | some job => exact trivial
  | none =>
      refine ((loadParents_looks request.dependencies).mono looking).bind fun loaded => ?_
      cases loaded with
      | error error => exact trivial
      | ok parents =>
          refine ((initialStatus_looks parents).mono looking).bind
            fun status => .first ⟨status, rfl⟩ fun inserted => ?_
          cases inserted with
          | none => exact (idempotencyWinner_looks request).mono looking
          | some job => exact (finishCreate_prepares request status job).mono drafting_of_prepares

/-- `create_job` puts its job into the saga it is given. -/
def submitting (request : CreateJobRequest) : Op → Prop
  | .statement (.insertJob draft) => draft.sagaId = request.sagaId
  | _ => True

theorem createJob_submits (settings : Settings) (create : CreateJobRequest) :
    (request (createJob settings create)).Uses (submitting create) := by
  refine ((createJob_drafts settings create).mono ?_).bind fun result => ?_
  · intro operation drafts
    unfold submitting
    split
    · obtain ⟨status, rfl⟩ := drafts
      rfl
    · exact trivial
  · cases result <;> exact ⟨trivial, fun _ => trivial⟩

def sagaRule : Role → List Act → Op → Prop
  | .coordinateSaga topic id => coordinating topic id
  | .createSaga _ => creatingSaga
  | .createJob request => fun _ => submitting request
  | _ => fun _ _ => True

theorem program_keeps_sagaRule (settings : Settings) (role : Role) :
    (role.program settings).Follows (tracing (sagaRule role)) [] fun _ _ => True := by
  have free : ∀ (program : Prog Unit), program.Follows (tracing fun _ _ => True) [] fun _ _ => True := by
    intro program
    refine follows_of_uses (motive := fun _ => True) program.uses_any trivial ?_
    exact fun _ _ _ _ => ⟨trivial, fun _ => trivial⟩
  cases role with
  | coordinateSaga topic id => exact coordinateSaga_follows topic id
  | createSaga create => exact createSaga_follows settings create
  | createJob create =>
      refine follows_of_uses (motive := fun _ => True) (createJob_submits settings create) trivial ?_
      exact fun _ _ _ permitted => ⟨permitted, fun _ => trivial⟩
  | _ => exact free _

end IncidentPlatform.Platform
