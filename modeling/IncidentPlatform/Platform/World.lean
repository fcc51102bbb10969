import IncidentPlatform.Models.Event
import IncidentPlatform.Storage.Table
import Mathlib.Data.List.Sort

namespace IncidentPlatform.Platform

open Concurrency Models Storage

/-! # The shared stores and the operations on them

One operation is one await of the source: a SQL statement, a commit or
rollback, a Redis command, a publish, or a reading of something outside the
platform (the clock, a processor's outcome).
-/

/-- How a processor run ends. -/
inductive Outcome where
  | returned (result : Json)
  | timedOut
  | raised (error : String)

inductive RetryDecision where
  | retryWithBackoff (backoffSeconds : Nat) (reasoning : String)
  | deadLetterNow (reasoning : String)

inductive PublishResult where
  | acknowledged
  | schemaInvalid (error : String)
  | refused (error : String)

/-- What the next reading of each outside source returns. -/
structure Outside where
  clock : Time
  uuid : Uuid
  outcome : Outcome
  /-- `none` when the retry policy call fails. -/
  decision : Option RetryDecision
  publish : PublishResult
  /-- `in_flight_job_ids` of the replica that asks. -/
  inFlight : List Uuid

/-- A member of the scheduled-replay sets: tenant, principal and job. -/
structure ReplayMember where
  tenantId : Uuid
  principalId : Uuid
  jobId : Uuid
deriving DecidableEq

structure World where
  jobs : Table Uuid Job
  sagas : Table Uuid Saga
  outbox : Table Uuid OutboxRow
  dependencies : Journal JobDependency
  audit : Journal AuditEntry
  /-- `jobs:delayed`, members with their scores. -/
  delayed : List (Uuid × Time)
  replayScheduled : List (ReplayMember × Time)
  replayInflight : List (ReplayMember × Time)
  /-- The `dag:paused:<id>` flags that are present, with the epoch each was set in. -/
  paused : Uuid → Option Nat
  /-- Counts the times a pause flag was set. -/
  epoch : Nat
  /-- The messages Kafka has acknowledged, newest first. -/
  broker : List OutboxRow
  /-- The `job.submitted` messages not yet delivered to the dispatcher. -/
  undelivered : List Uuid
  outside : Outside

inductive Query where
  | job (id : Uuid)
  | jobForTenant (id tenant : Uuid)
  | jobByIdempotencyKey (key : String) (tenant : Uuid)
  | blockedChildren (frontier : List Uuid)
  | cancelledAt (ids : List Uuid) (stamp : Time)
  | parents (id : Uuid)
  | childrenOf (id : Uuid)
  | unmetCount (id : Uuid)
  | promotableWaiting (cursor : Option (Time × Uuid))
  | stalePending (cutoff : Time)
  | staleRunning (cutoff leaseCutoff : Time)
  | saga (id : Uuid)
  | sagaJobs (id : Uuid)
  | completedSteps (id : Uuid)
  | waitingSteps (id : Uuid)
  | unpublished (limit maxAttempts : Nat)

@[reducible] def Query.Reply : Query → Type
  | .job _ | .jobForTenant .. | .jobByIdempotencyKey .. => Option Job
  | .blockedChildren _ | .parents _ | .childrenOf _ => List Uuid
  | .unmetCount _ => Nat
  | .saga _ => Option Saga
  | .unpublished .. => List OutboxRow
  | _ => List Job

inductive Statement where
  | updateStatus (id : Uuid) (write : StatusWrite) (guard : Option (Job → Bool))
  | claimForRunning (id : Uuid)
  | promoteWaitingToPending (id : Uuid)
  | cancelBlocked (ids : List Uuid) (reason : String) (stamp : Time)
  | stampRequeued (id : Uuid) (stamp : Time)
  | renewRunningLeases (ids : List Uuid) (oldest stamp : Time)
  | insertJob (draft : JobDraft)
  | insertDependencies (id : Uuid) (parents : List Uuid)
  | insertOutbox (tenant user : Uuid) (topic : Topic) (event : Event)
  | insertAudit (entry : AuditEntry)
  | insertSaga (tenant : Uuid) (name : String)
  | updateSaga (id : Uuid) (status : SagaStatus) (completedAt : Option Time)
  | markPublished (ids : List Uuid) (stamp : Time)
  | incrementAttempts (ids : List Uuid)
  | markFailed (ids : List Uuid) (stamp : Time) (error : String)

/-- A multi-row UPDATE answers with the rows it changed, of which the source
reads the count.  `none` and `false` for an INSERT are an IntegrityError. -/
@[reducible] def Statement.Reply : Statement → Type
  | .updateStatus .. | .claimForRunning _ | .promoteWaitingToPending _ => Bool
  | .cancelBlocked .. | .renewRunningLeases .. => List Uuid
  | .insertJob _ => Option Job
  | .insertDependencies .. => Bool
  | .insertSaga .. => Saga
  | _ => Unit

inductive Command where
  | pausedFlags (ids : List Uuid)
  | pushDelayed (id : Uuid) (delay : Time)
  | popReadyDelayed
  | delayedScore (id : Uuid)
  | claimReadyReplays
  | armReplay (member : ReplayMember) (executeAt : Time)
  | ackReplay (member : ReplayMember)

@[reducible] def Command.Reply : Command → Type
  | .pausedFlags _ => List Bool
  | .popReadyDelayed => List Uuid
  | .delayedScore _ => Option Time
  | .claimReadyReplays => List ReplayMember
  | _ => Unit

inductive Reading where
  | now
  | execute (jobType : String) (payload : Json)
  | decideRetry (jobType error : String) (retryCount maxAttempts : Nat) (priorError : Option String)
  | inFlight (id : Uuid)
  | publishProgress (jobId userId tenantId : Uuid) (percent retryCount : Nat)

@[reducible] def Reading.Reply : Reading → Type
  | .now => Time
  | .execute .. => Outcome
  | .decideRetry .. => Option RetryDecision
  | .inFlight _ => Bool
  | .publishProgress .. => Unit

inductive Op where
  | query (query : Query)
  | statement (statement : Statement)
  | commit
  | rollback
  | command (command : Command)
  | reading (reading : Reading)
  | publishRaw (row : OutboxRow)

@[reducible] def Reply : Op → Type
  | .query query => query.Reply
  | .statement statement => statement.Reply
  | .commit | .rollback => Unit
  | .command command => command.Reply
  | .reading reading => reading.Reply
  | .publishRaw _ => PublishResult

/-- `_RESUME_SWEEP_LIMIT`, `_STALE_PENDING_LIMIT` and `_STALE_RUNNING_SWEEP_LIMIT`. -/
def resumeSweepLimit : Nat := 200
def stalePendingLimit : Nat := 100
def staleRunningSweepLimit : Nat := 100

/-- The cap of the Lua scripts that pop or claim due members. -/
def popLimit : Nat := 1000

/-- `CLAIM_TTL_SECONDS`. -/
def claimTtl : Time := seconds 60

namespace World

variable (world : World) (pid : Pid)

/-- The declared parents of a job as `pid` sees them. -/
def parentsOf (id : Uuid) : List Uuid :=
  ((world.dependencies.visible pid).filter fun edge => edge.job = id).map JobDependency.dependsOn

def childrenOf (id : Uuid) : List Uuid :=
  ((world.dependencies.visible pid).filter fun edge => edge.dependsOn = id).map JobDependency.job

/-- The declared parents of `id` that are not COMPLETED. -/
def unmetParents (id : Uuid) : List Uuid :=
  (world.parentsOf pid id).filter fun parent =>
    (world.jobs.visible pid parent).any fun job => job.status ≠ .completed

def blockedChildren (frontier : List Uuid) : List Uuid :=
  ((world.dependencies.visible pid).filter fun edge =>
    frontier.contains edge.dependsOn &&
      (world.jobs.visible pid edge.job).any fun job =>
        job.status = .waiting && job.sagaId = none).map JobDependency.job

/-- The order of `ORDER BY created_at, id`. -/
def oldestFirst (first second : Job) : Prop :=
  first.createdAt < second.createdAt ∨ first.createdAt = second.createdAt ∧ first.id ≤ second.id

instance : DecidableRel oldestFirst := fun _ _ => inferInstanceAs (Decidable (_ ∨ _))

def afterCursor (cursor : Option (Time × Uuid)) (job : Job) : Bool :=
  match cursor with
  | none => true
  | some (created, id) =>
      decide (created < job.createdAt) || decide (created = job.createdAt) && decide (id < job.id)

def promotableWaiting (cursor : Option (Time × Uuid)) : List Job :=
  let eligible := (world.jobs.rows pid).filter fun job =>
    job.status = .waiting && (world.unmetParents pid job.id).isEmpty && afterCursor cursor job
  (eligible.insertionSort oldestFirst).take resumeSweepLimit

def stalePending (cutoff : Time) : List Job :=
  ((world.jobs.rows pid).filter fun job =>
    job.status = .pending && decide (job.updatedAt < cutoff) &&
      (job.requeuedAt.all fun stamp => stamp < cutoff)).take stalePendingLimit

def staleRunning (cutoff leaseCutoff : Time) : List Job :=
  ((world.jobs.rows pid).filter fun job =>
    job.status = .running && (job.startedAt.any fun stamp => stamp < cutoff) &&
      (job.heartbeatAt.all fun stamp => stamp < leaseCutoff)).take staleRunningSweepLimit

/-- `_STEP_ORDER`: declaration order, then creation, rows with no index last. -/
def stepOrder (first second : Job) : Prop :=
  match first.sagaStepIndex, second.sagaStepIndex with
  | some left, some right => left < right ∨ left = right ∧ oldestFirst first second
  | some _, none => True
  | none, some _ => False
  | none, none => oldestFirst first second

instance : DecidableRel stepOrder := fun first second => by
  unfold stepOrder
  split <;> infer_instance

def sagaJobs (id : Uuid) : List Job :=
  ((world.jobs.rows pid).filter fun job => job.sagaId = some id).insertionSort stepOrder

def answer : (query : Query) → query.Reply
  | .job id => world.jobs.visible pid id
  | .jobForTenant id tenant => (world.jobs.visible pid id).filter fun job => job.tenantId = tenant
  | .jobByIdempotencyKey key tenant =>
      (world.jobs.rows pid).find? fun job => job.idempotencyKey = some key && job.tenantId = tenant
  | .blockedChildren frontier => world.blockedChildren pid frontier
  | .cancelledAt ids stamp =>
      (world.jobs.rows pid).filter fun job => ids.contains job.id && job.completedAt = some stamp
  | .parents id => world.parentsOf pid id
  | .childrenOf id => world.childrenOf pid id
  | .unmetCount id => (world.unmetParents pid id).length
  | .promotableWaiting cursor => world.promotableWaiting pid cursor
  | .stalePending cutoff => world.stalePending pid cutoff
  | .staleRunning cutoff leaseCutoff => world.staleRunning pid cutoff leaseCutoff
  | .saga id => world.sagas.visible pid id
  | .sagaJobs id => world.sagaJobs pid id
  | .completedSteps id => (world.sagaJobs pid id).filter fun job => job.status = .completed
  | .waitingSteps id =>
      (world.jobs.rows pid).filter fun job =>
        job.sagaId = some id && (job.status = .waiting || job.status = .pending)
  | .unpublished limit maxAttempts =>
      (((world.outbox.rows pid).filter fun row =>
        row.publishedAt = none && decide (row.attempts < maxAttempts)).insertionSort
          fun first second => first.createdAt ≤ second.createdAt).take limit

def claimed (job : Job) : Job :=
  { job with status := .running, startedAt := some world.outside.clock, updatedAt := world.outside.clock }

def promoted (job : Job) : Job :=
  { job with status := .pending, errorMessage := none, updatedAt := world.outside.clock }

def cancelledRow (reason : String) (stamp : Time) (job : Job) : Job :=
  { job with
    status := .cancelled
    errorMessage := some reason
    completedAt := some stamp
    updatedAt := world.outside.clock }

/-- The rows, committed or not, that already use the draft's idempotency key. -/
def idempotencyConflicts (draft : JobDraft) : List Uuid :=
  match draft.idempotencyKey with
  | none => []
  | some key => world.jobs.keys.filter fun id =>
      (world.jobs.newest id).any fun job =>
        job.idempotencyKey = some key && job.tenantId = draft.tenantId

def withJobs (update : Option (α × Table Uuid Job)) : Option (α × World) :=
  update.map fun (reply, jobs) => (reply, { world with jobs })

def withOutbox (update : Option (α × Table Uuid OutboxRow)) : Option (Unit × World) :=
  update.map fun (_, outbox) => ((), { world with outbox })

/-- One statement of the transaction of `pid`, or `none` while it waits for a
row lock or for the commit of a conflicting insert. -/
def execute : (statement : Statement) → Option (statement.Reply × World)
  | .updateStatus id write guard =>
      world.withJobs (world.jobs.update pid id (fun job => guard.all fun holds => holds job)
        (write.apply world.outside.clock))
  | .claimForRunning id =>
      world.withJobs (world.jobs.update pid id (fun job => job.status = .pending) world.claimed)
  | .promoteWaitingToPending id =>
      world.withJobs (world.jobs.update pid id (fun job => job.status = .waiting) world.promoted)
  | .cancelBlocked ids reason stamp =>
      world.withJobs (world.jobs.updateAll pid (fun job => job.status = .waiting && job.sagaId = none)
        (world.cancelledRow reason stamp) ids.dedup)
  | .stampRequeued id stamp =>
      (world.withJobs (world.jobs.update pid id (fun _ => true)
        fun job => { job with requeuedAt := some stamp })).map fun (_, after) => ((), after)
  | .renewRunningLeases ids oldest stamp =>
      world.withJobs (world.jobs.updateAll pid
        (fun job => job.status = .running && job.startedAt.any fun started => oldest ≤ started)
        (fun job => { job with heartbeatAt := some stamp }) ids.dedup)
  | .insertJob draft =>
      let conflicts := world.idempotencyConflicts draft
      if conflicts.isEmpty then
        let row := draft.row world.outside.uuid world.outside.clock
        (world.jobs.insert pid row.id row).map fun jobs => (some row, { world with jobs })
      else if conflicts.any fun id => (world.jobs.committed id).isSome || world.jobs.lock id = some pid then
        some (none, world)
      else none
  | .insertDependencies id parents =>
      if parents.Nodup ∧ (∀ parent ∈ parents, (world.jobs.visible pid parent).isSome) ∧
          ∀ parent ∈ parents, parent ∉ world.parentsOf pid id then
        some (true, { world with
          dependencies := world.dependencies.append pid (parents.map fun parent => ⟨id, parent⟩) })
      else some (false, world)
  | .insertOutbox tenant user topic event =>
      let row : OutboxRow := {
        id := world.outside.uuid, tenantId := tenant, topic, key := (tenant, user), event,
        createdAt := world.outside.clock }
      (world.outbox.insert pid row.id row).map fun outbox => ((), { world with outbox })
  | .insertAudit entry => some ((), { world with audit := world.audit.append pid [entry] })
  | .insertSaga tenant name =>
      let row : Saga := {
        id := world.outside.uuid, tenantId := tenant, name, status := .running,
        createdAt := world.outside.clock }
      (world.sagas.insert pid row.id row).map fun sagas => (row, { world with sagas })
  | .updateSaga id status completedAt =>
      (world.sagas.update pid id (fun _ => true) fun saga =>
        { saga with status, completedAt := completedAt.or saga.completedAt }).map
          fun (_, sagas) => ((), { world with sagas })
  | .markPublished ids stamp =>
      world.withOutbox (world.outbox.updateAll pid (fun _ => true)
        (fun row => { row with publishedAt := some stamp }) ids.dedup)
  | .incrementAttempts ids =>
      world.withOutbox (world.outbox.updateAll pid (fun _ => true)
        (fun row => { row with attempts := row.attempts + 1 }) ids.dedup)
  | .markFailed ids stamp error =>
      world.withOutbox (world.outbox.updateAll pid (fun _ => true)
        (fun row => { row with
          publishedAt := some stamp, failedAt := some stamp, errorMessage := some (error.take 900).toString })
        ids.dedup)

def commit : World :=
  { world with
    jobs := world.jobs.commit pid
    sagas := world.sagas.commit pid
    outbox := world.outbox.commit pid
    dependencies := world.dependencies.commit pid
    audit := world.audit.commit pid }

def rollback : World :=
  { world with
    jobs := world.jobs.rollback pid
    sagas := world.sagas.rollback pid
    outbox := world.outbox.rollback pid
    dependencies := world.dependencies.rollback pid
    audit := world.audit.rollback pid }

/-- ZADD: one score per member. -/
def zadd [DecidableEq α] (members : List (α × Time)) (member : α) (score : Time) : List (α × Time) :=
  (member, score) :: members.filter fun entry => entry.1 ≠ member

/-- ZRANGEBYSCORE from the lowest score up to `now`, at most `limit` members. -/
def due (members : List (α × Time)) (now : Time) (limit : Nat) : List α :=
  (((members.filter fun entry => entry.2 ≤ now).insertionSort
    fun first second => first.2 ≤ second.2).take limit).map Prod.fst

def zrem [DecidableEq α] (members : List (α × Time)) (gone : List α) : List (α × Time) :=
  members.filter fun entry => !gone.contains entry.1

def perform : (command : Command) → command.Reply × World
  | .pausedFlags ids => (ids.map fun id => (world.paused id).isSome, world)
  | .pushDelayed id delay =>
      ((), { world with delayed := zadd world.delayed id (world.outside.clock + delay) })
  | .popReadyDelayed =>
      let ready := due world.delayed world.outside.clock popLimit
      (ready, { world with delayed := zrem world.delayed ready })
  | .delayedScore id => (world.delayed.lookup id, world)
  | .claimReadyReplays =>
      let lapsed := due world.replayInflight world.outside.clock popLimit
      let ready := due world.replayScheduled world.outside.clock (popLimit - lapsed.length)
      let claimed := lapsed ++ ready
      (claimed, { world with
        replayScheduled := zrem world.replayScheduled ready
        replayInflight := claimed.foldl
          (fun members member => zadd members member (world.outside.clock + claimTtl))
          world.replayInflight })
  | .armReplay member executeAt =>
      ((), { world with replayScheduled := zadd world.replayScheduled member executeAt })
  | .ackReplay member =>
      ((), { world with replayInflight := zrem world.replayInflight [member] })

def read : (reading : Reading) → reading.Reply
  | .now => world.outside.clock
  | .execute .. => world.outside.outcome
  | .decideRetry .. => world.outside.decision
  | .inFlight id => world.outside.inFlight.contains id
  | .publishProgress .. => ()

/-- An acknowledged message is on the broker; a `job.submitted` one still has to
be delivered. -/
def acknowledge (row : OutboxRow) : World :=
  { world with
    broker := row :: world.broker
    undelivered :=
      if row.topic = .submitted then row.event.jobId :: world.undelivered else world.undelivered }

def operate (pid : Pid) (operation : Op) (world : World) : Option (Reply operation × World) :=
  match operation with
  | .query query => some (world.answer pid query, world)
  | .statement statement => world.execute pid statement
  | .commit => some ((), world.commit pid)
  | .rollback => some ((), world.rollback pid)
  | .command command => some (world.perform command)
  | .reading reading => some (world.read reading, world)
  | .publishRaw row =>
      match world.outside.publish with
      | .acknowledged => some (.acknowledged, world.acknowledge row)
      | refusal => some (refusal, world)

end World

/-- What the environment may do between two operations. -/
inductive Change where
  | outside (readings : Outside)
  | pause (root : Uuid)
  | unpause (root : Uuid)
  | reorder (order : List Uuid)

/-- `pause_dag` refuses a root that is not a job; a flag that is present and set
again keeps its epoch, and `unpause` is its TTL running out. -/
def World.change (world : World) : Change → Option World
  | .outside readings => some { world with outside := readings }
  | .pause root =>
      if (world.jobs.committed root).isSome then
        match world.paused root with
        | some _ => some world
        | none => some { world with
            epoch := world.epoch + 1
            paused := fun id => if id = root then some (world.epoch + 1) else world.paused id }
      else none
  | .unpause root => some { world with
      paused := fun id => if id = root then none else world.paused id }
  | .reorder order =>
      if same : order.Perm world.jobs.keys then
        some { world with jobs := world.jobs.reorder order same }
      else none

abbrev Prog := Program Op Reply

def ask (query : Query) : Prog query.Reply := .call (.query query) .done
def exec (statement : Statement) : Prog statement.Reply := .call (.statement statement) .done
def redis (command : Command) : Prog command.Reply := .call (.command command) .done
def observe (reading : Reading) : Prog reading.Reply := .call (.reading reading) .done
def commit : Prog Unit := .call .commit .done
def rollback : Prog Unit := .call .rollback .done

section Bind

variable {α : Type}

@[simp] theorem ask_bind (query : Query) (rest : query.Reply → Prog α) :
    (ask query).bind rest = .call (.query query) rest := rfl

@[simp] theorem exec_bind (statement : Statement) (rest : statement.Reply → Prog α) :
    (exec statement).bind rest = .call (.statement statement) rest := rfl

@[simp] theorem redis_bind (command : Command) (rest : command.Reply → Prog α) :
    (redis command).bind rest = .call (.command command) rest := rfl

@[simp] theorem observe_bind (reading : Reading) (rest : reading.Reply → Prog α) :
    (observe reading).bind rest = .call (.reading reading) rest := rfl

@[simp] theorem commit_bind (rest : Unit → Prog α) : commit.bind rest = .call .commit rest := rfl

@[simp] theorem rollback_bind (rest : Unit → Prog α) :
    rollback.bind rest = .call .rollback rest := rfl

end Bind

end IncidentPlatform.Platform
