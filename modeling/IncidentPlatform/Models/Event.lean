import IncidentPlatform.Models.Job

namespace IncidentPlatform.Models

/-! # Lifecycle events and their outbox rows

The payloads of `schemas/job_events.py`, kept as records: the wire format is
the same fields as a JSON object.
-/

inductive Topic where
  | submitted
  | completed
  | failed
  | dlq
  | cancelled
deriving DecidableEq, Repr

def dumpedTextLength (text : String) : Nat :=
  2 + (text.toList.map fun character =>
    if character.val < 32 then
      if character = '\n' ∨ character = '\r' ∨ character = '\t' ∨
        character.val = 8 ∨ character.val = 12 then 2 else 6
    else if character = '"' ∨ character = '\\' then 2
    else if character.val < 127 then 1
    else if character.val < 65536 then 6
    else 12).sum

mutual
/-- The length of `json.dumps` of a value, with its ASCII escapes. -/
def Json.dumpedLength : Json → Nat
  | .null => 4
  | .bool value => if value then 4 else 5
  | .number literal => literal.length
  | .string text => dumpedTextLength text
  | .array items => 2 + dumpedItemsLength items
  | .object fields => 2 + dumpedFieldsLength fields

def dumpedItemsLength : List Json → Nat
  | [] => 0
  | [item] => item.dumpedLength
  | item :: rest => item.dumpedLength + 2 + dumpedItemsLength rest

def dumpedFieldsLength : List (String × Json) → Nat
  | [] => 0
  | [(key, value)] => dumpedTextLength key + 2 + value.dumpedLength
  | (key, value) :: rest =>
      dumpedTextLength key + 2 + value.dumpedLength + 2 + dumpedFieldsLength rest
end

/-- `DLQ_PAYLOAD_MAX_BYTES`. -/
def dlqPayloadMaxBytes : Nat := 4096

/-- `payload_for_event`: a payload over the ceiling is replaced by a marker. -/
def payloadForEvent (payload : Json) : Json :=
  let size := payload.dumpedLength
  if size ≤ dlqPayloadMaxBytes then payload
  else .object [("_truncated", .bool true), ("_original_bytes", .number (toString size))]

/-- The payload as a lifecycle event carries it, without the tracing carrier. -/
def withoutTraceCarrier (payload : Option Json) : Json :=
  match payload with
  | some (.object fields) => .object (fields.filter fun field => field.1 ≠ "__traceparent")
  | some other => other
  | none => .object []

inductive Event where
  | submitted (tenantId jobId userId : Uuid) (jobType : String) (payload : Json) (priority : Int)
      (traceId : Option String)
  | completed (tenantId jobId userId : Uuid) (jobType : String) (result : Option Json)
      (retryCount : Nat)
  | cancelled (tenantId jobId userId : Uuid) (jobType reason : String) (retryCount : Nat)
      (traceId : Option String)
  | retrying (tenantId jobId userId : Uuid) (jobType error message : String) (retryCount : Nat)
  | deadLettered (tenantId jobId userId : Uuid) (jobType error message : String)
      (retryCount maxAttempts : Nat) (payload : Json) (traceId : Option String)

def Event.jobId : Event → Uuid
  | .submitted _ jobId .. | .completed _ jobId .. | .cancelled _ jobId ..
  | .retrying _ jobId .. | .deadLettered _ jobId .. => jobId

/-- `_job_submitted_payload`. -/
def jobSubmittedPayload (job : Job) : Event :=
  .submitted job.tenantId job.id job.userId job.type (job.payload.getD (.object [])) job.priority
    job.traceId

def dlqEventPayload (job : Job) (message : Option String) : Event :=
  let error := match job.errorMessage with
    | some text => if text = "" then "job dead-lettered without a recorded error" else text
    | none => "job dead-lettered without a recorded error"
  .deadLettered job.tenantId job.id job.userId job.type error (message.getD error)
    job.retryCount job.maxAttempts (payloadForEvent (withoutTraceCarrier job.payload)) job.traceId

def cancelledEventPayload (job : Job) : Event :=
  let reason := match job.errorMessage with
    | some text => if text = "" then "job cancelled without a recorded reason" else text
    | none => "job cancelled without a recorded reason"
  .cancelled job.tenantId job.id job.userId job.type reason job.retryCount job.traceId

def completedEventPayload (job : Job) : Event :=
  .completed job.tenantId job.id job.userId job.type job.result job.retryCount

/-- The topic a terminal status is announced on, and the event it carries
there: `_emit_terminal_event` without its insert. -/
def terminalEvent (job : Job) (status : JobStatus) (message : Option String) : Topic × Event :=
  match status with
  | .deadLetter => (.dlq, dlqEventPayload job message)
  | .cancelled => (.cancelled, cancelledEventPayload job)
  | _ => (.completed, completedEventPayload job)

structure OutboxRow where
  id : Uuid
  tenantId : Uuid
  topic : Topic
  key : Uuid × Uuid
  event : Event
  attempts : Nat := 0
  createdAt : Time
  publishedAt : Option Time := none
  failedAt : Option Time := none
  errorMessage : Option String := none

/-- Whether the row announces `status` for `job`. -/
def OutboxRow.announces (row : OutboxRow) (topic : Topic) (job : Uuid) : Bool :=
  row.topic = topic && row.event.jobId = job

@[simp] theorem jobSubmittedPayload_jobId (job : Job) : (jobSubmittedPayload job).jobId = job.id := rfl

@[simp] theorem terminalEvent_jobId (job : Job) (status : JobStatus) (message : Option String) :
    (terminalEvent job status message).2.jobId = job.id := by
  cases status <;> rfl

end IncidentPlatform.Models
