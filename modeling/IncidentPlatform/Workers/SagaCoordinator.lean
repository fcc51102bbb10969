import IncidentPlatform.Services.Job

namespace IncidentPlatform.Workers

open Concurrency Models Platform Repositories

/-! # The saga coordinator -/

def compensateSuffix : String := ".compensate"

def isCompensation (job : Job) : Bool := job.type.endsWith compensateSuffix

def auditSaga (action : String) (saga : Saga) (details : List (String × Json)) : Prog Unit :=
  auditLog {
    action
    tenantId := saga.tenantId
    resourceType := some "saga"
    resourceId := some (toString saga.id)
    extraData := .object details }

/-- The rows of a query as the session has them.  It gives the event's job as
`handle_message` has read it, whatever was committed since. -/
def sessionRows (held : Job) (rows : List Job) : List Job :=
  rows.map fun row => if row.id = held.id then held else row

theorem held_mem_sessionRows {held row : Job} {rows : List Job} (member : row ∈ rows)
    (same : row.id = held.id) : held ∈ sessionRows held rows :=
  List.mem_map.mpr ⟨row, member, if_pos same⟩

theorem mem_sessionRows {held row : Job} {rows : List Job} (member : row ∈ rows)
    (different : row.id ≠ held.id) : row ∈ sessionRows held rows :=
  List.mem_map.mpr ⟨row, member, if_neg different⟩

def handleCompletion (held : Job) (saga : Saga) : Prog Unit := do
  let rows ← ask (.sagaJobs saga.id)
  let steps := sessionRows held rows
  if steps.isEmpty then pure ()
  else if steps.all fun job => job.status = .completed then do
    let now ← observe .now
    exec (.updateSaga saga.id .completed (some now))
    auditSaga "saga.completed" saga [("step_count", .number (toString steps.length))]
  else pure ()

def settleIfDrained (held : Job) (saga : Saga) : Prog Unit := do
  let rows ← ask (.sagaJobs saga.id)
  let compensations := (sessionRows held rows).filter isCompensation
  if compensations.any fun job => !job.status.terminal then pure ()
  else do
    let unsuccessful := compensations.countP fun job => job.status ≠ .completed
    let now ← observe .now
    exec (.updateSaga saga.id (if unsuccessful = 0 then .compensated else .failed) (some now))
    auditSaga (if unsuccessful = 0 then "saga.compensated" else "saga.compensation_failed") saga
      [("compensation_steps", .number (toString compensations.length)),
        ("dead_lettered", .number (toString unsuccessful))]

def cancelStep (step : Job) : Prog Unit := do
  let _ ← updateStatus step.id { status := .cancelled, errorMessage := some (some "saga rollback") }

def compensationPayload (saga : Saga) (done : Job) : Json :=
  .object [
    ("compensates_job_id", .string (toString done.id)), ("saga_id", .string (toString saga.id))]

/-- The `.compensate` job of one completed step, and its announcement. -/
def emitCompensation (saga : Saga) (user : Uuid) (done : Job) : Prog Unit := do
  let inserted ← exec (.insertJob {
    tenantId := saga.tenantId
    userId := user
    type := done.type ++ compensateSuffix
    status := .pending
    payload := some (compensationPayload saga done)
    priority := done.priority
    maxAttempts := done.maxAttempts
    traceId := done.traceId
    sagaId := some saga.id })
  match inserted with
  | none => pure ()
  | some job =>
      outboxAdd saga.tenantId user .submitted
        (.submitted saga.tenantId job.id user (done.type ++ compensateSuffix)
          (compensationPayload saga done) done.priority done.traceId)

def handleFailure (failed : Job) (saga : Saga) : Prog Unit := do
  exec (.updateSaga saga.id .compensating none)
  let waiting ← ask (.waitingSteps saga.id)
  let downstream := waiting.filter fun step => step.id ≠ failed.id
  .forEach downstream cancelStep
  let completed ← ask (.completedSteps saga.id)
  .forEach completed.reverse (emitCompensation saga failed.userId)
  auditSaga "saga.compensating" saga [
    ("failed_job_id", .string (toString failed.id)),
    ("compensations_emitted", .number (toString completed.length)),
    ("cancelled_downstream", .number (toString downstream.length))]
  if completed.isEmpty then settleIfDrained failed saga

/-- The saga's part of `handle_message`, for an event of `topic` about one of
its jobs. -/
def routeSagaEvent (topic : Topic) (job : Job) (saga : Saga) : Prog Unit :=
  let done := topic = .completed
  let dead := topic = .dlq
  if saga.status = .running ∧ isCompensation job = false then
    if done then handleCompletion job saga
    else if dead then handleFailure job saga
    else pure ()
  else if saga.status = .compensating ∧ isCompensation job = true ∧ (done ∨ dead) then
    settleIfDrained job saga
  else pure ()

def coordinateSaga (topic : Topic) (id : Uuid) : Prog Unit := do
  match ← ask (.job id) with
  | none => commit
  | some job => do
      match job.sagaId with
      | none => commit
      | some sagaId => do
          match ← ask (.saga sagaId) with
          | none => commit
          | some saga => do
              routeSagaEvent topic job saga
              commit

end IncidentPlatform.Workers
