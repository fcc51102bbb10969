import IncidentPlatform.Concurrency.Machine
import IncidentPlatform.Schemas.JobEvents
import IncidentPlatform.Schemas.Requests
import IncidentPlatform.Workers.Dispatcher

namespace IncidentPlatform.Schemas

open Concurrency Models Services Workers

/-! # The events of one job

A job row, the writes that its life may bring in any order, and the payload that
each write publishes, by topic.
-/

/-- `int(done / total * 100)`, computed in floats; both roundings keep the order. -/
structure Scaling where
  percent : Nat → Nat → Nat
  bounded : ∀ done total, done ≤ total → percent done total ≤ 100

/-- What the processors report for `total` endpoints or chunks; `rate_limited`
only leaves some of it out. -/
def processorPercents (scaling : Scaling) (total : Nat) : JobType → List Nat
  | .bulkApiSync =>
      if total = 0 then [0, 100] else 0 :: (List.range total).map fun done => scaling.percent (done + 1) total
  | .csvUpload => 0 :: (List.range total).map fun done => scaling.percent (done + 1) (max 1 total)
  | .docAnalysis | .reportGen => [5, 100]

/-- The `job.failed` event of a retry. -/
def retryingEvent (job : Job) (error : String) (delay : Time) : Event :=
  .retrying job.tenantId job.id job.userId job.type error
    ("Retrying in " ++ toString (wholeSeconds delay) ++ "s (attempt " ++ toString (job.retryCount + 1) ++
      " of " ++ toString job.maxAttempts ++ ")")
    (job.retryCount + 1)

structure JobHistory where
  job : Job
  /-- Newest first. -/
  published : List (String × Json)

namespace JobHistory

variable (history : JobHistory)

def publish (topic : Topic) (event : Event) : JobHistory :=
  { history with published := (topicName topic, eventPayload event) :: history.published }

def progress (percent : Nat) (message : String) : JobHistory :=
  { history with
    published := ("job.progress", progressPayload history.job "running" percent message) :: history.published }

inductive Transition where
  /-- A promotion, or a sweep that announces the row again. -/
  | announce
  | claim (now : Time)
  | progress (type : JobType) (total percent : Nat) (message : String)
  /-- A write of a terminal status, with its event. -/
  | settle (write : StatusWrite) (message : Option String) (now : Time)
  | retry (error : String) (delay now : Time)
  | replay (now : Time)

/-- The result that a write stores is the dictionary that a processor returned. -/
def storesObject (write : StatusWrite) : Bool :=
  match write.result with
  | some (some (.object _)) | some none | none => true
  | _ => false

def step (scaling : Scaling) : Transition → JobHistory → Option JobHistory
  | .announce, history => some (history.publish .submitted (jobSubmittedPayload history.job))
  | .claim now, history =>
      some ({ history with job := ({ status := .running } : StatusWrite).apply now history.job }.progress 0
        "Job started")
  | .progress type total percent message, history =>
      if percent ∈ processorPercents scaling total type then some (history.progress percent message) else none
  | .settle write message now, history =>
      if write.status.terminal ∧ storesObject write then
        let job := write.apply now history.job
        let event := terminalEvent job write.status message
        some ({ history with job }.publish event.1 event.2)
      else none
  | .retry error delay now, history =>
      let write : StatusWrite := {
        status := .pending, retryCount := some (history.job.retryCount + 1), errorMessage := some (some error) }
      some ({ history with job := write.apply now history.job }.publish .failed
        (retryingEvent history.job error delay))
  | .replay now, history =>
      let job := replayWrite.apply now history.job
      some ({ history with job }.publish .submitted (jobSubmittedPayload job))

/-- The row that `create_job` inserts, announced if it is ready to run. -/
def created (settings : Settings) (request : CreateJobRequest) (status : JobStatus) (id : Uuid) (now : Time) :
    JobHistory :=
  let job := (request.draft settings status).row id now
  let history : JobHistory := { job, published := [] }
  if status = .pending then
    history.publish .submitted (.submitted request.tenantId job.id request.userId request.jobType
      request.enrichedPayload request.priority job.traceId)
  else history

def machine (scaling : Scaling) (start : JobHistory) : Machine JobHistory Transition where
  initial := start
  step := step scaling

end JobHistory

end IncidentPlatform.Schemas
