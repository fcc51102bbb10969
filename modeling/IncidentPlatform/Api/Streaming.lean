import IncidentPlatform.Workers.SseConsumer

namespace IncidentPlatform.Api

open Concurrency Models Workers

/-! # `GET /jobs/{id}/stream` beside the runs of the job

One job: its row, the events its transitions put on the lifecycle topics, the
consumer that publishes them, and any number of viewers.  The events of a topic
are handled once and in order; the topics have no common order.
-/

/-- What the endpoint reads off the row. -/
structure StreamedRow where
  status : JobStatus
  updatedAt : Time
  errorMessage : Option String
  retryCount : Nat

/-- The row's status where it is one of `TERMINAL_STATUSES`. -/
def finishedStatus : JobStatus → Option ProgressStatus
  | .completed => some .completed
  | .failed => some .failed
  | .deadLetter => some .deadLetter
  | .cancelled => some .cancelled
  | .waiting | .pending | .running => none

/-- `_terminal_event_from_row`, where the row is in a terminal status. -/
def terminalEventFromRow (jobId : String) (row : StreamedRow) (now : Time) : Option ProgressEvent :=
  (finishedStatus row.status).map fun status =>
    { jobId, status
      progress := if row.status = .completed then 100 else 0
      message := (given row.errorMessage).getD "Job already finished"
      retryCount := row.retryCount
      timestamp := now }

/-- `_snapshot_is_stale`. -/
def snapshotIsStale (snapshot : Option ProgressEvent) (rowIsTerminal : Bool)
    (rowUpdatedAt : Option Time) : Bool :=
  match snapshot, rowUpdatedAt with
  | some snapshot, some rowAt =>
      !rowIsTerminal && snapshot.status.terminal && decide (snapshot.timestamp < rowAt)
  | _, _ => false

/-- A message on its way, with the run of the job that it tells of. -/
structure Emitted where
  run : Nat
  record : LifecycleRecord

/-- An event in a viewer's queue, with the run it tells of. -/
structure Delivered where
  run : Nat
  event : ProgressEvent

/-- How far a stream has come.  The queue of a subscribed viewer fills from then on. -/
inductive ViewerPhase where
  | absent
  | opened
  | checked (useSnapshot : Bool)
  | subscribed (useSnapshot : Bool) (queue : List Delivered)
  | streaming (queue : List Delivered)
  /-- An event of a run ended the stream. -/
  | closedBy (run : Nat)
  /-- The row, a timeout, Redis or the client ended the stream. -/
  | ended

/-- A stream and what its route read off the row. -/
structure StreamViewer where
  phase : ViewerPhase
  run : Nat
  finishedEvent : Option ProgressEvent
  rowUpdatedAt : Time

structure StreamedJob where
  now : Time
  row : StreamedRow
  /-- How often the job was replayed. -/
  run : Nat
  /-- The messages of each topic that are not handled yet, oldest first. -/
  pending : LifecycleTopic → List Emitted
  nextOffset : LifecycleTopic → Nat
  snapshots : Snapshots
  /-- The run that the retained snapshot tells of. -/
  retainedRun : Nat
  viewer : Nat → StreamViewer

/-- What a viewer's queue is after an event is fanned out. -/
def ViewerPhase.offer (delivered : Delivered) : ViewerPhase → ViewerPhase
  | .subscribed useSnapshot queue => .subscribed useSnapshot (queue ++ [delivered])
  | .streaming queue => .streaming (queue ++ [delivered])
  | phase => phase

/-- A full queue loses its oldest event. -/
def ViewerPhase.lose : ViewerPhase → ViewerPhase
  | .subscribed useSnapshot queue => .subscribed useSnapshot queue.tail
  | .streaming queue => .streaming queue.tail
  | phase => phase

namespace StreamedJob

variable (jobId : String) (job : StreamedJob)

def initial (row : StreamedRow) : StreamedJob where
  now := 0
  row
  run := 0
  pending := fun _ => []
  nextOffset := fun _ => 0
  snapshots := fun _ => none
  retainedRun := 0
  viewer := fun _ => ⟨.absent, 0, none, 0⟩

def emit (run : Nat) (topic : LifecycleTopic) (value : LifecycleMessage) : StreamedJob :=
  { job with
    pending := Function.update job.pending topic
      (job.pending topic ++ [⟨run, ⟨topic, job.nextOffset topic, value⟩⟩])
    nextOffset := Function.update job.nextOffset topic (job.nextOffset topic + 1) }

def message (event : String) : LifecycleMessage where
  event := some event
  tenantId := none
  jobId := some jobId
  userId := none

def finished : Bool := (finishedStatus job.row.status).isSome

/-- The job's transitions.  A write sets `updated_at` to the database's `now()`. -/
inductive Transition where
  | claim
  /-- The processor of a run, not only of the newest one, reports progress. -/
  | progress (run : Nat) (percent : Nat) (text : String)
  | retry (text : String)
  | complete
  | deadLetter (error : String)
  | cancel
  | replay

def transition (updatedAt : Time) : Transition → Option StreamedJob
  | .claim =>
      if job.row.status = .pending then
        some { job with row := { job.row with status := .running, updatedAt } }
      else none
  | .progress run percent text =>
      if run ≤ job.run then
        some (job.emit run .progress
          { message jobId "job.progress" with percent := some percent, message := some text })
      else none
  | .retry text =>
      if job.row.status = .running then
        some ({ job with row := { job.row with
          status := .pending, updatedAt, retryCount := job.row.retryCount + 1 } }.emit job.run .failed
            { message jobId "job.failed" with message := some text })
      else none
  | .complete =>
      if job.row.status = .running then
        some ({ job with row := { job.row with status := .completed, updatedAt } }.emit job.run
          .completed (message jobId "job.completed"))
      else none
  | .deadLetter error =>
      if job.finished then none
      else
        some ({ job with row := { job.row with
          status := .deadLetter, updatedAt, errorMessage := some error } }.emit job.run .dlq
            { message jobId "job.failed" with message := some error, deadLettered := true })
  | .cancel =>
      if job.finished then none
      else
        some ({ job with row := { job.row with status := .cancelled, updatedAt } }.emit job.run
          .cancelled (message jobId "job.cancelled"))
  | .replay =>
      if job.row.status = .deadLetter ∨ job.row.status = .failed then
        some { job with
          row := { status := .pending, updatedAt, errorMessage := none, retryCount := 0 }
          run := job.run + 1 }
      else none

/-- The consumer handles the next message of a topic. -/
def handle (topic : LifecycleTopic) : Option StreamedJob :=
  match job.pending topic with
  | [] => none
  | emitted :: rest =>
      let handled := { job with pending := Function.update job.pending topic rest }
      match emitted.record.progressEvent job.now with
      | none => some handled
      | some event =>
          match job.snapshots.publish job.now event with
          | (snapshots, true) =>
              some { handled with
                snapshots
                retainedRun := emitted.run
                viewer := fun id =>
                  { job.viewer id with phase := (job.viewer id).phase.offer ⟨emitted.run, event⟩ } }
          | (_, false) => some handled

def setPhase (id : Nat) (phase : ViewerPhase) : StreamedJob :=
  { job with viewer := Function.update job.viewer id { job.viewer id with phase } }

/-- What a stream does with an event: it passes it on and ends if it is terminal. -/
def receive (id : Nat) (delivered : Delivered) (queue : List Delivered) : StreamedJob :=
  job.setPhase id (if delivered.event.status.terminal then .closedBy delivered.run else .streaming queue)

/-- The next step of a stream; a read of the snapshot may fail. -/
def advance (id : Nat) (readFails : Bool) : Option StreamedJob :=
  let viewer := job.viewer id
  let snapshot := job.snapshots.readLastEvent job.now jobId
  match viewer.phase with
  | .absent =>
      -- `stream_job_progress` reads the row.
      some { job with viewer := Function.update job.viewer id {
        phase := .opened
        run := job.run
        finishedEvent := terminalEventFromRow jobId job.row job.now
        rowUpdatedAt := job.row.updatedAt } }
  | .opened =>
      -- `_event_stream` reads the snapshot; an error ends the response.
      if readFails then some (job.setPhase id .ended)
      else if viewer.finishedEvent.isSome && snapshot.isNone then some (job.setPhase id .ended)
      else
        some (job.setPhase id (.checked
          (!snapshotIsStale snapshot viewer.finishedEvent.isSome (some viewer.rowUpdatedAt))))
  | .checked useSnapshot =>
      -- `_register`, which closes the stream if Redis does not answer.
      if readFails then some (job.setPhase id .ended)
      else some (job.setPhase id (.subscribed useSnapshot []))
  | .subscribed useSnapshot queue =>
      if useSnapshot && !readFails then
        match snapshot with
        | some event => some (job.receive id ⟨job.retainedRun, event⟩ queue)
        | none => some (job.setPhase id (.streaming queue))
      else some (job.setPhase id (.streaming queue))
  | .streaming (delivered :: queue) => some (job.receive id delivered queue)
  | .streaming [] | .closedBy _ | .ended => none

inductive Action where
  | pass (elapsed : Time)
  | transition (updatedAt : Time) (transition : Transition)
  /-- A message of another job. -/
  | other (topic : LifecycleTopic)
  | handle (topic : LifecycleTopic)
  | advance (viewer : Nat) (readFails : Bool)
  | lose (viewer : Nat)
  /-- A timeout, or the client is gone. -/
  | leave (viewer : Nat)

def step : Action → StreamedJob → Option StreamedJob
  | .pass elapsed, job => some { job with now := job.now + elapsed }
  | .transition updatedAt transition, job => job.transition jobId updatedAt transition
  | .other topic, job =>
      some { job with nextOffset := Function.update job.nextOffset topic (job.nextOffset topic + 1) }
  | .handle topic, job => job.handle topic
  | .advance viewer readFails, job => job.advance jobId viewer readFails
  | .lose viewer, job => some (job.setPhase viewer (job.viewer viewer).phase.lose)
  | .leave viewer, job => some (job.setPhase viewer .ended)

def machine (row : StreamedRow) : Machine StreamedJob Action where
  initial := initial row
  step := step jobId

end StreamedJob

end IncidentPlatform.Api
