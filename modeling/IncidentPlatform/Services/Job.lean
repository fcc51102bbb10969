import IncidentPlatform.Repositories.Job
import IncidentPlatform.Utils.DagPause

namespace IncidentPlatform.Services

open Concurrency Models Platform Repositories Utils

/-! # The job service

A service call runs in its caller's transaction.  An exception is a value of
`ServiceError`; the caller decides between commit and rollback.
-/

/-- The settings the modelled code reads. -/
structure Settings where
  maxJobAttempts : Nat
  /-- `job_retry_backoff_base ** n`. -/
  retryBackoff : Nat → Time
  executionTimeout : String
  llmRetryPolicyEnabled : Bool
  llmRetryPolicyMinRetryCount : Nat
  staleRunningThreshold : Time
  outboxMaxAttempts : Nat

/-- The defaults of `config.py`. -/
def Settings.defaults : Settings where
  maxJobAttempts := 3
  retryBackoff := fun count => seconds (2 ^ count)
  executionTimeout := "600.0"
  llmRetryPolicyEnabled := false
  llmRetryPolicyMinRetryCount := 1
  staleRunningThreshold := seconds 900
  outboxMaxAttempts := 900

inductive ServiceError where
  | notFound (message : String)
  | jobError (message : String)
  | requestValidation (message : String)
  | integrity
  | assertion
deriving DecidableEq

structure CreateJobRequest where
  userId : Uuid
  tenantId : Uuid
  jobType : String
  payload : List (String × Json) := []
  idempotencyKey : Option String := none
  priority : Int := 0
  maxAttempts : Option Nat := none
  dependencies : List Uuid := []
  sagaId : Option Uuid := none
  sagaStepIndex : Option Nat := none
  /-- `inject_context()` and the trace id of the request. -/
  traceContext : Option Json := none
  traceId : Option String := none

namespace CreateJobRequest

variable (request : CreateJobRequest)

def enrichedPayload : Json :=
  match request.traceContext with
  | none => .object request.payload
  | some context =>
      .object (request.payload.filter (fun field => field.1 ≠ "__traceparent") ++
        [("__traceparent", context)])

def draft (settings : Settings) (status : JobStatus) : JobDraft where
  tenantId := request.tenantId
  userId := request.userId
  type := request.jobType
  status
  idempotencyKey := request.idempotencyKey
  payload := some request.enrichedPayload
  priority := request.priority
  maxAttempts := request.maxAttempts.getD settings.maxJobAttempts
  traceId := request.traceId
  sagaId := request.sagaId
  sagaStepIndex := request.sagaStepIndex

end CreateJobRequest

/-- The idempotency lookup; an empty key is no key here. -/
def findIdempotent (request : CreateJobRequest) : Prog (Option Job) :=
  match request.idempotencyKey with
  | none => pure none
  | some key => if key = "" then pure none else ask (.jobByIdempotencyKey key request.tenantId)

def loadParents : List Uuid → Prog (Except ServiceError (List Job))
  | [] => pure (.ok [])
  | parentId :: rest => do
      match ← ask (.job parentId) with
      | none => pure (.error (.notFound s!"Dependency job {parentId} not found"))
      | some parent => do
          match ← loadParents rest with
          | .error error => pure (.error error)
          | .ok parents => pure (.ok (parent :: parents))

def probeParents : List Job → Prog (Option Uuid)
  | [] => pure none
  | parent :: rest => do
      match ← findBlockingPause parent.id with
      | some pausedBy => pure (some pausedBy)
      | none => probeParents rest

def initialStatus (parents : List Job) : Prog JobStatus := do
  if parents.any fun parent => parent.status ≠ .completed then pure .waiting
  else
    match ← probeParents parents with
    | some _ => pure .waiting
    | none => pure .pending

/-- The row an earlier call with this key made, after the insert was refused. -/
def idempotencyWinner (request : CreateJobRequest) : Prog (Except ServiceError Job) :=
  match request.idempotencyKey with
  | none => pure (.error .integrity)
  | some key => do
      match ← ask (.jobByIdempotencyKey key request.tenantId) with
      | none => pure (.error .integrity)
      | some winner => pure (.ok winner)

def addDependencies (job : Job) (dependencies : List Uuid) : Prog Bool :=
  if dependencies.isEmpty then pure true
  else exec (.insertDependencies job.id dependencies)

def auditCreated (request : CreateJobRequest) (job : Job) (status : JobStatus) : Prog Unit :=
  auditLog {
    action := "job.created"
    tenantId := request.tenantId
    userId := some request.userId
    jobId := some job.id
    resourceType := some "job"
    resourceId := some (toString job.id)
    extraData := .object [
      ("type", .string request.jobType),
      ("priority", .number (toString request.priority)),
      ("dependencies", .array (request.dependencies.map fun id => .string (toString id))),
      ("initial_status", .string status.text)] }

/-- The edges, audit row and `job.submitted` row of a job just inserted. -/
def finishCreate (request : CreateJobRequest) (status : JobStatus) (job : Job) :
    Prog (Except ServiceError Job) := do
  if ← addDependencies job request.dependencies then do
    auditCreated request job status
    if status = .pending then
      outboxAdd request.tenantId request.userId .submitted
        (.submitted request.tenantId job.id request.userId request.jobType request.enrichedPayload
          request.priority job.traceId)
    pure (.ok job)
  else pure (.error .integrity)

def createJob (settings : Settings) (request : CreateJobRequest) :
    Prog (Except ServiceError Job) := do
  match ← findIdempotent request with
  | some existing => pure (.ok existing)
  | none => do
      match ← loadParents request.dependencies with
      | .error error => pure (.error error)
      | .ok parents => do
          let status ← initialStatus parents
          match ← exec (.insertJob (request.draft settings status)) with
          | none => idempotencyWinner request
          | some job => finishCreate request status job

/-- Who asks for a replay: a user, or a service account by its id. -/
structure Principal where
  kind : String
  requestingUserId : Option Uuid := none
  principalId : Option Uuid := none

/-- The write of a replay: a fresh lifecycle, with nothing of the last one. -/
def replayWrite : StatusWrite where
  status := .pending
  retryCount := some 0
  errorMessage := some none
  result := some none
  deadLetteredBy := some none
  remediationHint := some none
  fencedAt := some none
  fencedBy := some none

def auditReplayed (id : Uuid) (job : Job) (principal : Principal) : Prog Unit :=
  auditLog {
    action := "job.replayed"
    tenantId := job.tenantId
    userId := if principal.kind = "user" then principal.requestingUserId else none
    principalType := principal.kind
    principalId := principal.principalId.or principal.requestingUserId
    jobId := some id
    resourceType := some "job"
    resourceId := some (toString id)
    extraData := .object [
      ("previous_status", .string job.status.text),
      ("previous_retry_count", .number (toString job.retryCount))] }

/-- The mutations of a replay that passed its checks. -/
def performReplay (id : Uuid) (job : Job) (principal : Principal) :
    Prog (Except ServiceError Job) := do
  let updated ← updateStatus id replayWrite
  auditReplayed id job principal
  outboxAdd job.tenantId job.userId .submitted
    (.submitted job.tenantId id job.userId job.type (job.payload.getD (.object [])) job.priority
      job.traceId)
  match updated with
  | none => pure (.error .assertion)
  | some row => pure (.ok row)

def replayJob (id tenant : Uuid) (principal : Principal) : Prog (Except ServiceError Job) := do
  match ← ask (.jobForTenant id tenant) with
  | none => pure (.error (.notFound s!"Job {id} not found"))
  | some job =>
      if job.status ≠ .failed ∧ job.status ≠ .deadLetter then
        pure (.error (.jobError
          ("Only failed/dead_letter jobs can be replayed, got: " ++ job.status.text)))
      else do
        match ← findBlockingPause id with
        | some pausedBy => pure (.error (.jobError
            s!"Job {id} is in a paused DAG (paused via {pausedBy}); replay refused while the pause holds"))
        | none => performReplay id job principal

def resolveIncident (id user tenant : Uuid) : Prog (Except ServiceError Job) := do
  match ← ask (.jobForTenant id tenant) with
  | none => pure (.error (.notFound s!"Job {id} not found"))
  | some job => do
      let updated ← updateStatus id { status := .completed }
      auditLog {
        action := "incident.resolved"
        tenantId := job.tenantId
        userId := some user
        jobId := some id
        resourceType := some "job"
        resourceId := some (toString id) }
      match updated with
      | none => pure (.error .assertion)
      | some row => pure (.ok row)

/-! ## Requests

`get_db` commits once when the request handler returns and rolls back when it
raises.
-/

def request (handler : Prog (Except ServiceError α)) : Prog Unit := do
  match ← handler with
  | .ok _ => commit
  | .error _ => rollback

/-- The MCP replay tools: each id in a savepoint of its own.  The refusals of
`replay_job` come before its first write, so there is nothing to undo. -/
def replayEach (ids : List Uuid) (tenant : Uuid) (principal : Principal) : Prog Unit := do
  .forEach ids fun id => do
    let _ ← replayJob id tenant principal
  commit

/-- Who schedules a replay through the MCP tools. -/
structure ToolPrincipal where
  kind : String
  id : Uuid
  userId : Option Uuid := none

def scheduleOneAudited (id tenant : Uuid) (principal : ToolPrincipal) (delaySeconds : Nat)
    (details : List (String × Json)) : Prog Unit := do
  let now ← observe .now
  let executeAt := now + seconds delaySeconds
  auditLog {
    action := "job.replay_scheduled"
    tenantId := tenant
    userId := principal.userId
    principalType := principal.kind
    principalId := some principal.id
    jobId := some id
    resourceType := some "job"
    resourceId := some (toString id)
    extraData := .object (("delay_seconds", .number (toString delaySeconds)) ::
      ("execute_at", .number (secondsText executeAt)) :: details) }
  redis (.armReplay { tenantId := tenant, principalId := principal.id, jobId := id } executeAt)

/-- The same tools with a delay: each id is checked as `replay_job` does, and
armed. -/
def scheduleEach (ids : List Uuid) (tenant : Uuid) (principal : ToolPrincipal) (delaySeconds : Nat)
    (details : List (String × Json)) : Prog Unit := do
  .forEach ids fun id => do
    match ← ask (.jobForTenant id tenant) with
    | none => pure ()
    | some job =>
        if job.status ≠ .failed ∧ job.status ≠ .deadLetter then pure ()
        else scheduleOneAudited id tenant principal delaySeconds details
  commit

end IncidentPlatform.Services
