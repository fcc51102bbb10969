import IncidentPlatform.Concurrency.Machine
import Mathlib.Data.Finset.Basic

namespace IncidentPlatform.Workers

open Concurrency

/-! # The dispatcher's consumer and the tasks it spawns

One event loop runs everything of one consumer, so a step is what happens
between two awaits: a call of `handle_message`, or one resumption of one of the
`_run_and_release` tasks.
-/

/-- `MAX_CONCURRENT_JOBS` and `_MAX_DISPATCH_BACKLOG`. -/
def maxConcurrentJobs : Nat := 10
def maxDispatchBacklog : Nat := maxConcurrentJobs * 10

/-- Where a `_run_and_release` task is suspended. -/
inductive TaskPhase where
  | created
  | queued
  | running
  | recovering
  | finished
deriving DecidableEq

/-- A task and the job id it was spawned with. -/
structure DispatchTask where
  jobId : String
  phase : TaskPhase
deriving DecidableEq

def DispatchTask.live (task : DispatchTask) : Bool := task.phase ≠ .finished

structure JobDispatcherConsumer where
  /-- The free slots of the semaphore. -/
  semaphore : Nat
  /-- `in_flight`: the tasks whose done callback has not run. -/
  inFlight : List DispatchTask
  inFlightJobIds : Finset String

structure DispatchBacklogFull where
  message : String

namespace JobDispatcherConsumer

def new (maxConcurrent : Nat := maxConcurrentJobs) : JobDispatcherConsumer :=
  { semaphore := maxConcurrent, inFlight := [], inFlightJobIds := ∅ }

variable (consumer : JobDispatcherConsumer)

/-- `jobId` is the `job_id` of the message, where it has one. -/
def handleMessage (jobId : Option String) : Except DispatchBacklogFull JobDispatcherConsumer :=
  match jobId with
  | none | some "" => .ok consumer
  | some id =>
      if maxDispatchBacklog ≤ consumer.inFlight.length then
        .error ⟨"dispatch backlog at capacity (" ++ toString maxDispatchBacklog ++ ")"⟩
      else
        .ok { consumer with
          inFlightJobIds := insert id consumer.inFlightJobIds
          inFlight := consumer.inFlight ++ [⟨id, .created⟩] }

def setPhase (index : Nat) (id : String) (phase : TaskPhase) : List DispatchTask :=
  consumer.inFlight.set index ⟨id, phase⟩

/-- A task takes a free slot and enters `_run_job`. -/
def enter (index : Nat) (id : String) : JobDispatcherConsumer :=
  { consumer with
    semaphore := consumer.semaphore - 1
    inFlight := consumer.setPhase index id .running }

/-- The `finally` of `_run_and_release`. -/
def release (index : Nat) (id : String) : JobDispatcherConsumer where
  semaphore := consumer.semaphore + 1
  inFlightJobIds := consumer.inFlightJobIds.erase id
  inFlight := consumer.setPhase index id .finished

/-- A task resumes at the start of its coroutine or at the await it is
suspended in. -/
inductive Resumption where
  | proceeds
  | raises
  | cancelled
deriving DecidableEq

/-- `_run_and_release` from one await to the next. -/
def runAndRelease (index : Nat) (id : String) :
    TaskPhase → Resumption → Option JobDispatcherConsumer
  | .created, .proceeds =>
      -- A free slot is taken without suspending.
      if 0 < consumer.semaphore then some (consumer.enter index id)
      else some { consumer with inFlight := consumer.setPhase index id .queued }
  | .created, .cancelled =>
      -- Cancelled before its first step: no line of the coroutine runs.
      some { consumer with inFlight := consumer.setPhase index id .finished }
  | .queued, .proceeds => if 0 < consumer.semaphore then some (consumer.enter index id) else none
  | .queued, .cancelled =>
      some { consumer with
        inFlightJobIds := consumer.inFlightJobIds.erase id
        inFlight := consumer.setPhase index id .finished }
  | .running, .raises =>
      -- Into the net: `_force_dead_letter`, whose own failure is only logged.
      some { consumer with inFlight := consumer.setPhase index id .recovering }
  | .running, .proceeds | .running, .cancelled | .recovering, _ => some (consumer.release index id)
  | .created, .raises | .queued, .raises | .finished, _ => none

def resume (index : Nat) (resumption : Resumption) : Option JobDispatcherConsumer :=
  match consumer.inFlight[index]? with
  | some task => consumer.runAndRelease index task.jobId task.phase resumption
  | none => none

/-- The done callback: `in_flight.discard`. -/
def discard (index : Nat) : Option JobDispatcherConsumer :=
  match consumer.inFlight[index]? with
  | some { phase := .finished, .. } =>
      some { consumer with inFlight := consumer.inFlight.eraseIdx index }
  | _ => none

inductive Action where
  | handleMessage (jobId : Option String)
  | resume (index : Nat) (resumption : Resumption)
  | discard (index : Nat)

def step : Action → JobDispatcherConsumer → Option JobDispatcherConsumer
  | .handleMessage jobId, consumer =>
      match consumer.handleMessage jobId with
      | .ok after => some after
      | .error _ => some consumer
  | .resume index resumption, consumer => consumer.resume index resumption
  | .discard index, consumer => consumer.discard index

/-- One consumer and the event loop that drives it. -/
def machine (maxConcurrent : Nat) : Machine JobDispatcherConsumer Action where
  initial := .new maxConcurrent
  step := step

/-- The unfinished tasks of a job id. -/
def live (id : String) : Nat :=
  consumer.inFlight.countP fun task => task.jobId = id && task.live

end JobDispatcherConsumer

end IncidentPlatform.Workers
