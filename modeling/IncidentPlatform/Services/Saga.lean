import IncidentPlatform.Services.Job

namespace IncidentPlatform.Services

open Concurrency Models Platform Repositories

structure SagaStep where
  type : String
  payload : List (String × Json) := []
  priority : Int := 0

structure CreateSagaRequest where
  userId : Uuid
  tenantId : Uuid
  name : String
  steps : List SagaStep
  traceContext : Option Json := none
  traceId : Option String := none

/-- The `create_job` call of one step, which depends on the step before it. -/
def CreateSagaRequest.step (request : CreateSagaRequest) (saga : Saga) (index : Nat)
    (previous : Option Uuid) (step : SagaStep) : CreateJobRequest where
  userId := request.userId
  tenantId := request.tenantId
  jobType := step.type
  payload := step.payload
  priority := step.priority
  dependencies := previous.toList
  sagaId := some saga.id
  sagaStepIndex := some index
  traceContext := request.traceContext
  traceId := request.traceId

def createSteps (settings : Settings) (request : CreateSagaRequest) (saga : Saga) :
    Nat → Option Uuid → List SagaStep → Prog (Except ServiceError Unit)
  | _, _, [] => pure (.ok ())
  | index, previous, step :: rest => do
      match ← createJob settings (request.step saga index previous step) with
      | .error error => pure (.error error)
      | .ok job => createSteps settings request saga (index + 1) (some job.id) rest

def createSaga (settings : Settings) (request : CreateSagaRequest) :
    Prog (Except ServiceError Saga) :=
  if request.steps.isEmpty then
    pure (.error (.requestValidation "Saga must have at least one step"))
  else do
    let saga ← exec (.insertSaga request.tenantId request.name)
    match ← createSteps settings request saga 0 none request.steps with
    | .error error => pure (.error error)
    | .ok () => do
        auditLog {
          action := "saga.created"
          tenantId := request.tenantId
          userId := some request.userId
          resourceType := some "saga"
          resourceId := some (toString saga.id)
          extraData := .object [
            ("name", .string request.name),
            ("step_count", .number (toString request.steps.length))] }
        pure (.ok saga)

end IncidentPlatform.Services
