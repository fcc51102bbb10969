import IncidentPlatform.Concurrency.Machine

namespace IncidentPlatform.Workers

open Concurrency

/-! # The supervisor of one consumer

`_supervise_consumer` with the `run` loop beneath it and `_restart_consumer`.
A phase is the await the supervisor task is suspended in, wherever in that call
tree it is; a step is how that await ends, a cancellation of the task, or
something others do to the consumer and to the chaos keys.
-/

inductive SupervisorPhase where
  -- `_restart_consumer`
  | stopping
  | starting
  | backingOff
  -- `run`
  | checkingKill
  | checkingLatency
  | delaying
  | fetching
  | processing
  | pausingAfterFailure
  | pausingAfterError
  -- `_supervise_consumer`
  | pausingAfterCrash
  | lookingUpKill
  | pausingInKillWindow
  | ended
deriving DecidableEq

/-- The chaos keys of the group and the clock they are read against. -/
structure ChaosKeys where
  killFlag : Bool
  /-- The deadline of the sticky marker, where it parses. -/
  stickyDeadline : Option Int
  now : Int

structure ConsumerSupervisor where
  phase : SupervisorPhase
  /-- `_consumer` is a client. -/
  client : Bool
  running : Bool
  chaosKilled : Bool
  keys : ChaosKeys
  /-- `stop()` was called from outside the supervisor. -/
  stopCalled : Bool
  taskCancelled : Bool
  /-- A chaos kill ended `run`, and no lookup has seen the group not killed since. -/
  killStanding : Bool

/-- How an await ends.  The flag is what was asked: a positive latency, a batch
with a failure. -/
inductive AwaitOutcome where
  | returns (flag : Bool)
  | timesOut
  | raises
  /-- An exception that leaves `run`. -/
  | crashes
  | cancelled
deriving DecidableEq

/-- `_read_kill_state`: whether the group is killed, and the keys after a sticky
window has put the flag back. -/
def ChaosKeys.readKillState (chaosEnabled : Bool) (keys : ChaosKeys) : Bool × ChaosKeys :=
  if keys.killFlag then (true, keys)
  else if chaosEnabled && keys.stickyDeadline.any fun deadline => 0 < deadline - keys.now then
    (true, { keys with killFlag := true })
  else (false, keys)

namespace ConsumerSupervisor

variable (chaosEnabled : Bool) (supervisor : ConsumerSupervisor)

/-- What the supervisor does when `run` has returned. -/
def runReturned : ConsumerSupervisor :=
  if supervisor.chaosKilled then { supervisor with phase := .lookingUpKill }
  else { supervisor with phase := .ended }

/-- The head of the loop of `run`. -/
def enterLoop : ConsumerSupervisor :=
  if supervisor.running then
    { supervisor with phase := if chaosEnabled then .checkingKill else .fetching }
  else supervisor.runReturned

/-- `run` raises where there is no client. -/
def enterRun : ConsumerSupervisor :=
  if supervisor.client then supervisor.enterLoop chaosEnabled
  else { supervisor with phase := .pausingAfterCrash }

/-- `_restart_consumer` begins with `stop()`. -/
def beginRestart : ConsumerSupervisor := { supervisor with phase := .stopping, running := false }

/-- A `CancelledError` at the current await: `run` takes one that reaches its
`try` for a shutdown, everything else lets it through. -/
def unwind : ConsumerSupervisor :=
  match supervisor.phase with
  | .fetching | .processing | .pausingAfterFailure => supervisor.runReturned
  | _ => { supervisor with phase := .ended }

def advance : SupervisorPhase → AwaitOutcome → Option ConsumerSupervisor
  | .ended, _ => none
  | _, .cancelled => some supervisor.unwind
  | .stopping, .returns _ => some { supervisor with phase := .starting, client := false }
  | .stopping, .raises => some { supervisor with phase := .backingOff }
  | .starting, .returns _ =>
      some ({ supervisor with client := true, running := true, chaosKilled := false }.enterRun chaosEnabled)
  | .starting, .raises => some { supervisor with phase := .backingOff, client := true }
  | .backingOff, .returns _ => some supervisor.beginRestart
  | .checkingKill, .returns _ =>
      let (killed, keys) := supervisor.keys.readKillState chaosEnabled
      if killed then
        some { supervisor with keys, chaosKilled := true, killStanding := true }.runReturned
      else some { supervisor with keys, phase := .checkingLatency }
  -- The poll loop's lookup fails open.
  | .checkingKill, .raises => some { supervisor with phase := .checkingLatency }
  | .checkingLatency, .returns true => some { supervisor with phase := .delaying }
  | .checkingLatency, .returns false | .checkingLatency, .raises | .delaying, .returns _ =>
      some { supervisor with phase := .fetching }
  | .fetching, .returns _ => some { supervisor with phase := .processing }
  | .processing, .returns true => some { supervisor with phase := .pausingAfterFailure }
  | .processing, .returns false | .pausingAfterFailure, .returns _ | .pausingAfterError, .returns _
  | .fetching, .timesOut | .processing, .timesOut => some (supervisor.enterLoop chaosEnabled)
  | .fetching, .raises | .processing, .raises => some { supervisor with phase := .pausingAfterError }
  | .checkingKill, .crashes | .checkingLatency, .crashes | .fetching, .crashes
  | .processing, .crashes => some { supervisor with phase := .pausingAfterCrash }
  | .pausingAfterCrash, .returns _ => some supervisor.beginRestart
  | .lookingUpKill, .returns _ =>
      let (killed, keys) := supervisor.keys.readKillState chaosEnabled
      if killed then some { supervisor with keys, phase := .pausingInKillWindow }
      else some { supervisor with keys, killStanding := false }.beginRestart
  -- The supervisor's lookup fails closed.
  | .lookingUpKill, .raises => some { supervisor with phase := .pausingInKillWindow }
  | .pausingInKillWindow, .returns _ => some { supervisor with phase := .lookingUpKill }
  | _, _ => none

inductive Action where
  | resume (outcome : AwaitOutcome)
  | cancelTask
  | stop
  | stopReturns
  | chaos (keys : ChaosKeys)

def step : Action → ConsumerSupervisor → Option ConsumerSupervisor
  | .resume outcome, supervisor => supervisor.advance chaosEnabled supervisor.phase outcome
  | .cancelTask, supervisor =>
      if supervisor.phase = .ended then none else some { supervisor.unwind with taskCancelled := true }
  | .stop, supervisor => some { supervisor with running := false, stopCalled := true }
  | .stopReturns, supervisor =>
      if supervisor.stopCalled then some { supervisor with client := false } else none
  | .chaos keys, supervisor => some { supervisor with keys }

/-- The supervisor of a consumer that was handed over `started` or not. -/
def initial (started : Bool) (keys : ChaosKeys) : ConsumerSupervisor :=
  let supervisor : ConsumerSupervisor := {
    phase := .stopping, client := started, running := started, chaosKilled := false, keys
    stopCalled := false, taskCancelled := false, killStanding := false }
  if started then supervisor.enterRun chaosEnabled else supervisor.beginRestart

def machine (started : Bool) (keys : ChaosKeys) : Machine ConsumerSupervisor Action where
  initial := initial chaosEnabled started keys
  step := step chaosEnabled

end ConsumerSupervisor

end IncidentPlatform.Workers
