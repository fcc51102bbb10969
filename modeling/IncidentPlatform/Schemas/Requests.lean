import IncidentPlatform.Models.Event
import IncidentPlatform.Services.Saga

namespace IncidentPlatform.Schemas

open Models Services

/-! # The bodies that create jobs

A body that its request model accepts carries what the model has checked.
-/

def jobTypeText : JobType → String
  | .csvUpload => "csv_upload"
  | .reportGen => "report_gen"
  | .bulkApiSync => "bulk_api_sync"
  | .docAnalysis => "doc_analysis"

/-- The payload model of each job type, on a payload. -/
abbrev PayloadModels := JobType → List (String × Json) → Bool

/-- `max_job_payload_bytes`. -/
def maxJobPayloadBytes : Nat := 256 * 1024

/-- `validate_processor_payload`. -/
def validateProcessorPayload (models : PayloadModels) (jobType : String) : Option (List (String × Json)) → Bool
  | none => true
  | some payload => (Json.object payload).dumpedLength ≤ maxJobPayloadBytes &&
      match JobType.parse jobType with
      | some type => models type payload
      | none => true

/-- The body of `POST /jobs`. -/
structure JobCreate (models : PayloadModels) where
  type : JobType
  payload : Option (List (String × Json)) := none
  idempotencyKey : Option String := none
  priority : Int := 0
  dependencies : List Uuid := []
  key_bounded : idempotencyKey.all fun key => key.length ≤ 255
  priority_bounded : 0 ≤ priority ∧ priority ≤ 100
  payload_bounded : validateProcessorPayload models (jobTypeText type) payload

/-- One step of the body of `POST /sagas`. -/
structure SagaStepRequest (models : PayloadModels) where
  type : String
  payload : Option (List (String × Json)) := none
  priority : Int := 0
  priority_bounded : 0 ≤ priority ∧ priority ≤ 100
  payload_bounded : validateProcessorPayload models type payload

/-- `MAX_SAGA_STEPS`. -/
def maxSagaSteps : Nat := 50

structure SagaCreateRequest (models : PayloadModels) where
  name : String
  steps : List (SagaStepRequest models)
  name_bounded : 1 ≤ name.length ∧ name.length ≤ 255
  steps_bounded : 1 ≤ steps.length ∧ steps.length ≤ maxSagaSteps

/-- What a request has beside its body. -/
structure RequestContext where
  userId : Uuid
  tenantId : Uuid
  traceContext : Option Json := none
  traceId : Option String := none

variable {models : PayloadModels} (context : RequestContext)

/-- The call of `create_job` in `POST /jobs`. -/
def JobCreate.call (body : JobCreate models) : CreateJobRequest where
  userId := context.userId
  tenantId := context.tenantId
  jobType := jobTypeText body.type
  payload := body.payload.getD []
  idempotencyKey := body.idempotencyKey
  priority := body.priority
  dependencies := body.dependencies
  traceContext := context.traceContext
  traceId := context.traceId

def SagaStepRequest.sagaStep (step : SagaStepRequest models) : SagaStep where
  type := step.type
  payload := step.payload.getD []
  priority := step.priority

/-- The call of `create_saga` in `POST /sagas`. -/
def SagaCreateRequest.call (body : SagaCreateRequest models) : CreateSagaRequest where
  userId := context.userId
  tenantId := context.tenantId
  name := body.name
  steps := body.steps.map SagaStepRequest.sagaStep
  traceContext := context.traceContext
  traceId := context.traceId

/-- The calls of `create_job` that the two endpoints make. -/
inductive Submits (models : PayloadModels) : CreateJobRequest → Prop where
  | job (context : RequestContext) (body : JobCreate models) : Submits models (body.call context)
  | step (context : RequestContext) (body : SagaCreateRequest models) (saga : Saga) (index : Nat)
      (previous : Option Uuid) {step : SagaStep} (member : step ∈ (body.call context).steps) :
      Submits models ((body.call context).step saga index previous step)

end IncidentPlatform.Schemas
