import Mathlib.Algebra.GroupWithZero.Nat
import Mathlib.Data.List.Basic

namespace IncidentPlatform.Models

abbrev Uuid := Nat

/-- A clock reading in microseconds, the resolution of the timestamp columns. -/
abbrev Time := Nat

/-- A span of whole seconds on that clock. -/
def seconds (count : Nat) : Time := count * 1000000

/-- `text` with zeros before it, to `width` digits. -/
def padded (width value : Nat) : String :=
  "".pushn '0' (width - (toString value).length) ++ toString value

/-- A span in seconds as Python prints the float. -/
def secondsText (span : Time) : String :=
  let fraction := (padded 6 (span % 1000000)).dropEndWhile '0'
  toString (span / 1000000) ++ "." ++ (if fraction.isEmpty then "0" else fraction.toString)

/-- `datetime.isoformat()` of an aware UTC reading, counted from 1970.  The
calendar is computed in eras of 400 years that start on 1 March. -/
def isoformat (time : Time) : String :=
  let day := time / 86400000000 + 719468
  let era := day / 146097
  let dayOfEra := day % 146097
  let yearOfEra := (dayOfEra - dayOfEra / 1460 + dayOfEra / 36524 - dayOfEra / 146096) / 365
  let dayOfYear := dayOfEra - (365 * yearOfEra + yearOfEra / 4 - yearOfEra / 100)
  let marchMonth := (5 * dayOfYear + 2) / 153
  let month := if marchMonth < 10 then marchMonth + 3 else marchMonth - 9
  let year := yearOfEra + era * 400 + (if month ≤ 2 then 1 else 0)
  let second := time / 1000000 % 86400
  let micros := time % 1000000
  padded 4 year ++ "-" ++ padded 2 month ++ "-" ++
    padded 2 (dayOfYear - (153 * marchMonth + 2) / 5 + 1) ++ "T" ++
    padded 2 (second / 3600) ++ ":" ++ padded 2 (second / 60 % 60) ++ ":" ++ padded 2 (second % 60) ++
    (if micros = 0 then "" else "." ++ padded 6 micros) ++ "+00:00"

/-- The values of the JSON columns.  A number keeps the literal it is written
with. -/
inductive Json where
  | null
  | bool (value : Bool)
  | number (literal : String)
  | string (text : String)
  | array (items : List Json)
  | object (fields : List (String × Json))
deriving Inhabited

inductive JobStatus where
  | waiting
  | pending
  | running
  | completed
  | failed
  | deadLetter
  | cancelled
deriving DecidableEq, Repr

namespace JobStatus

def text : JobStatus → String
  | .waiting => "waiting"
  | .pending => "pending"
  | .running => "running"
  | .completed => "completed"
  | .failed => "failed"
  | .deadLetter => "dead_letter"
  | .cancelled => "cancelled"

/-- `TERMINAL_JOB_STATUSES`, which is also `_TERMINAL_EVENT_STATUSES`: the
statuses a job never leaves under its own power. -/
def terminal : JobStatus → Bool
  | .completed | .deadLetter | .cancelled => true
  | _ => false

/-- `_COMPLETED_AT_STATUSES`: the statuses whose write stamps `completed_at`. -/
def stampsCompletedAt : JobStatus → Bool
  | .completed | .failed | .deadLetter | .cancelled => true
  | _ => false

/-- `_CASCADE_SOURCE_STATUSES`: a parent here never reaches COMPLETED. -/
def cascadeSource : JobStatus → Bool
  | .deadLetter | .cancelled => true
  | _ => false

end JobStatus

inductive JobType where
  | csvUpload
  | reportGen
  | bulkApiSync
  | docAnalysis
deriving DecidableEq, Repr

/-- `JobType(job_type)`: a stored type that is no member, such as a saga's
`.compensate` type, has no processor. -/
def JobType.parse (text : String) : Option JobType :=
  if text = "csv_upload" then some .csvUpload
  else if text = "report_gen" then some .reportGen
  else if text = "bulk_api_sync" then some .bulkApiSync
  else if text = "doc_analysis" then some .docAnalysis
  else none

structure Job where
  id : Uuid
  tenantId : Uuid
  userId : Uuid
  type : String
  status : JobStatus
  idempotencyKey : Option String := none
  payload : Option Json := none
  result : Option Json := none
  errorMessage : Option String := none
  retryCount : Nat := 0
  maxAttempts : Nat
  remediationHint : Option String := none
  deadLetteredBy : Option String := none
  fencedAt : Option Time := none
  fencedBy : Option String := none
  priority : Int := 0
  traceId : Option String := none
  startedAt : Option Time := none
  completedAt : Option Time := none
  requeuedAt : Option Time := none
  heartbeatAt : Option Time := none
  sagaId : Option Uuid := none
  sagaStepIndex : Option Nat := none
  createdAt : Time
  updatedAt : Time

/-- The columns an `update_status` call writes.  An absent column keeps its
value. -/
structure StatusWrite where
  status : JobStatus
  retryCount : Option Nat := none
  errorMessage : Option (Option String) := none
  result : Option (Option Json) := none
  deadLetteredBy : Option (Option String) := none
  remediationHint : Option (Option String) := none
  fencedAt : Option (Option Time) := none
  fencedBy : Option (Option String) := none

/-- The row an `update_status` call leaves, written at `now`. -/
def StatusWrite.apply (write : StatusWrite) (now : Time) (job : Job) : Job :=
  { job with
    status := write.status
    retryCount := write.retryCount.getD job.retryCount
    errorMessage := write.errorMessage.getD job.errorMessage
    result := write.result.getD job.result
    deadLetteredBy := write.deadLetteredBy.getD job.deadLetteredBy
    remediationHint := write.remediationHint.getD job.remediationHint
    fencedAt := write.fencedAt.getD job.fencedAt
    fencedBy := write.fencedBy.getD job.fencedBy
    startedAt := if write.status = .running then some now else job.startedAt
    completedAt := if write.status.stampsCompletedAt then some now else job.completedAt
    updatedAt := now }

/-- What an INSERT into `jobs` names; the rest of the row are column defaults. -/
structure JobDraft where
  tenantId : Uuid
  userId : Uuid
  type : String
  status : JobStatus
  idempotencyKey : Option String := none
  payload : Option Json := none
  priority : Int := 0
  maxAttempts : Nat
  traceId : Option String := none
  sagaId : Option Uuid := none
  sagaStepIndex : Option Nat := none

def JobDraft.row (draft : JobDraft) (id : Uuid) (now : Time) : Job where
  id
  tenantId := draft.tenantId
  userId := draft.userId
  type := draft.type
  status := draft.status
  idempotencyKey := draft.idempotencyKey
  payload := draft.payload
  priority := draft.priority
  maxAttempts := draft.maxAttempts
  traceId := draft.traceId
  sagaId := draft.sagaId
  sagaStepIndex := draft.sagaStepIndex
  createdAt := now
  updatedAt := now

/-- A row of `job_dependencies`: `job` waits until `dependsOn` is COMPLETED. -/
structure JobDependency where
  job : Uuid
  dependsOn : Uuid
deriving DecidableEq

inductive SagaStatus where
  | running
  | completed
  | failed
  | compensating
  | compensated
deriving DecidableEq, Repr

structure Saga where
  id : Uuid
  tenantId : Uuid
  name : String
  status : SagaStatus
  createdAt : Time
  completedAt : Option Time := none

structure AuditEntry where
  action : String
  tenantId : Uuid
  userId : Option Uuid := none
  principalType : String := "user"
  principalId : Option Uuid := none
  jobId : Option Uuid := none
  resourceType : Option String := none
  resourceId : Option String := none
  extraData : Json := .null

section StatusWriteFields

variable (write : StatusWrite) (now : Time) (job : Job)

@[simp] theorem StatusWrite.apply_id : (write.apply now job).id = job.id := rfl

@[simp] theorem StatusWrite.apply_status : (write.apply now job).status = write.status := rfl

@[simp] theorem StatusWrite.apply_sagaId : (write.apply now job).sagaId = job.sagaId := rfl

@[simp] theorem StatusWrite.apply_retryCount :
    (write.apply now job).retryCount = write.retryCount.getD job.retryCount := rfl

@[simp] theorem StatusWrite.apply_maxAttempts :
    (write.apply now job).maxAttempts = job.maxAttempts := rfl

end StatusWriteFields

end IncidentPlatform.Models
