import IncidentPlatform.Concurrency.Machine
import IncidentPlatform.Numbers.Double

namespace IncidentPlatform.Workers

open Concurrency Numbers

/-! # The supervisor of the worker task

`_supervise` of `workers/supervisor.py`.  A phase is the await that the task is
suspended in; a step is how that await ends, or a cancellation of the task.
-/

def restartBackoffBaseSeconds : ℚ := 1
def restartBackoffMaxSeconds : ℚ := 30

/-- A run at least this long is stable and clears the backoff ladder. -/
def stableRunSeconds : ℚ := 60

/-- `_backoff_for`; nothing where `float` raises `OverflowError`.  The product is
exact, as the base is 1.0. -/
def backoffFor (attempt : Nat) : Option ℚ :=
  if attempt ≤ 1 then some 0
  else (doubleOfInt (2 ^ (attempt - 2))).map fun power =>
    min (restartBackoffBaseSeconds * power) restartBackoffMaxSeconds

/-- `_health.state`. -/
inductive WorkerState where
  | notStarted
  | running
  | restarting
  | stopped
deriving DecidableEq

inductive SupervisePhase where
  /-- In `asyncio.wait` for the worker. -/
  | waiting
  /-- In the sleep before the restart. -/
  | backingOff (delay : ℚ)
  | cancelled
  /-- An exception went through the loop: nothing restarts the worker any more. -/
  | died
deriving DecidableEq

structure WorkerSupervisor where
  phase : SupervisePhase
  attempt : Nat
  state : WorkerState
  restarts : Nat
  /-- How many worker tasks were created. -/
  spawned : Nat

namespace WorkerSupervisor

inductive Action where
  /-- The worker task ends, however it does, after a run of this many seconds. -/
  | exits (ranFor : ℚ)
  | wakes
  | cancels

def spawn (supervisor : WorkerSupervisor) : WorkerSupervisor :=
  { supervisor with phase := .waiting, state := .running, spawned := supervisor.spawned + 1 }

def nextAttempt (supervisor : WorkerSupervisor) (ranFor : ℚ) : Nat :=
  if stableRunSeconds ≤ ranFor then 0 else supervisor.attempt + 1

/-- The loop from the end of one worker to the next await. -/
def restart (supervisor : WorkerSupervisor) (ranFor : ℚ) : WorkerSupervisor :=
  let attempt := supervisor.nextAttempt ranFor
  match backoffFor attempt with
  | none => { supervisor with attempt, phase := .died }
  | some delay =>
      let restarting := { supervisor with attempt, state := .restarting, restarts := supervisor.restarts + 1 }
      if delay = 0 then restarting.spawn else { restarting with phase := .backingOff delay }

def step (action : Action) (supervisor : WorkerSupervisor) : Option WorkerSupervisor :=
  match action, supervisor.phase with
  | .exits ranFor, .waiting => some (supervisor.restart ranFor)
  | .wakes, .backingOff _ => some supervisor.spawn
  | .cancels, .waiting | .cancels, .backingOff _ => some { supervisor with phase := .cancelled, state := .stopped }
  | _, _ => none

/-- `start`, and `_supervise` up to its first await. -/
def supervise : Machine WorkerSupervisor Action where
  initial := { phase := .waiting, attempt := 0, state := .running, restarts := 0, spawned := 1 }
  step := step

end WorkerSupervisor

end IncidentPlatform.Workers
