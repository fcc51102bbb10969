import IncidentPlatform.Concurrency.Machine
import IncidentPlatform.Workers.Progress

namespace IncidentPlatform.Workers

open Models Concurrency

/-! # The bridge from the lifecycle topics to the progress channels -/

namespace SseConsumer

/-- The status that clients see, by event name. -/
def statusOf (event : String) (deadLettered : Bool) : Option ProgressStatus :=
  if event = "job.failed" then some (if deadLettered then .deadLetter else .retrying)
  else if event = "job.progress" then some .running
  else if event = "job.completed" then some .completed
  else if event = "job.cancelled" then some .cancelled
  else none

/-- What `handle_message` hands to `publish`; `none` where it skips the message. -/
def handleMessage (topic : LifecycleTopic) (offset : Nat) (value : LifecycleMessage) (now : Time) :
    Option ProgressEvent := do
  let jobId ← given value.jobId
  let event ← given value.event
  let status ← statusOf event value.deadLettered
  return {
    jobId, status
    progress := value.percent.getD (if status = .completed then 100 else 0)
    message := (given value.message).getD
      (if status = .completed then "Job completed successfully" else "Job " ++ status.text)
    retryCount := value.retryCount.getD 0
    timestamp := now
    source := topic.name
    sequence := some offset }

end SseConsumer

/-! ## Replicas that own different topics

`publish` reads the snapshot and writes it in two commands, so the publishes of
one job can fall between each other's.
-/

/-- A message at its place in its topic. -/
structure LifecycleRecord where
  topic : LifecycleTopic
  offset : Nat
  value : LifecycleMessage
deriving DecidableEq

def LifecycleRecord.progressEvent (record : LifecycleRecord) (now : Time) : Option ProgressEvent :=
  SseConsumer.handleMessage record.topic record.offset record.value now

/-- How far a `publish` has come. -/
inductive PublishPhase where
  | reading
  | retaining
  | publishing
deriving DecidableEq

structure Publishing where
  record : LifecycleRecord
  event : ProgressEvent
  phase : PublishPhase

structure SseReplicas where
  now : Time
  snapshots : Snapshots
  /-- The `publish` calls that have not returned. -/
  publishing : List Publishing
  /-- The messages that `handle_message` has returned for. -/
  handled : List LifecycleRecord

namespace SseReplicas

variable (replicas : SseReplicas)

def handle (record : LifecycleRecord) : SseReplicas :=
  match record.progressEvent replicas.now with
  | none => { replicas with handled := record :: replicas.handled }
  | some event => { replicas with publishing := replicas.publishing ++ [⟨record, event, .reading⟩] }

def returned (index : Nat) (record : LifecycleRecord) : SseReplicas :=
  { replicas with publishing := replicas.publishing.eraseIdx index, handled := record :: replicas.handled }

/-- The next command of a `publish`. -/
def advance (index : Nat) (call : Publishing) : SseReplicas :=
  match call.phase with
  | .reading =>
      if supersedes call.event (replicas.snapshots.readLastEvent replicas.now call.event.jobId) then
        { replicas with publishing := replicas.publishing.set index { call with phase := .retaining } }
      else replicas.returned index call.record
  | .retaining =>
      { replicas with
        snapshots := replicas.snapshots.retain replicas.now call.event
        publishing := replicas.publishing.set index { call with phase := .publishing } }
  | .publishing => replicas.returned index call.record

inductive Action where
  | tick (elapsed : Time)
  | handle (record : LifecycleRecord)
  | advance (index : Nat)
  /-- Redis fails or the consumer stops: the message is to be delivered again. -/
  | abandon (index : Nat)

def step : Action → SseReplicas → Option SseReplicas
  | .tick elapsed, replicas => some { replicas with now := replicas.now + elapsed }
  | .handle record, replicas => some (replicas.handle record)
  | .advance index, replicas => do
      let call ← replicas.publishing[index]?
      return replicas.advance index call
  | .abandon index, replicas => do
      let _ ← replicas.publishing[index]?
      return { replicas with publishing := replicas.publishing.eraseIdx index }

def machine (start : Time) : Machine SseReplicas Action where
  initial := { now := start, snapshots := fun _ => none, publishing := [], handled := [] }
  step := step

end SseReplicas

end IncidentPlatform.Workers
