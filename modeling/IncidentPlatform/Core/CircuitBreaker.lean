import IncidentPlatform.Concurrency.Machine
import IncidentPlatform.Core.BreakerState

namespace IncidentPlatform.Core

open Concurrency Models

/-! # Circuit breakers

`CircuitBreaker` with any number of concurrent calls, in any number of
processes that share one Redis.  No section awaits while it holds the breaker's
lock, so no acquire ever waits and each section is one step; a task is suspended
only in its callable or at a Redis command.
-/

structure BreakerConfig where
  name : String
  failureThreshold : Nat := 5
  recoveryTimeout : Time := seconds 30

/-- What has happened to a breaker. -/
inductive BreakerEvent where
  | failed (failedAt : Time)
  | succeeded
  | cleared
deriving DecidableEq

structure Breaker where
  state : CircuitState := .closed
  failureCount : Nat := 0
  /-- On the monotonic clock, as `recordedAt`. -/
  openedAt : Option Time := none
  probeInFlight : Bool := false
  lastStateChangeAt : Option Time := none
  lastFailureAt : Option Time := none
  lastFailureReasonClass : Option FailureClass := none
  recordedAt : Option Time := none
  observedResetAt : Option Time := none
  /-- Kept beside the fields of the source: its outcomes and resets, newest first. -/
  journal : List BreakerEvent := []

inductive Admission where
  | refused
  | call
  | probe
deriving DecidableEq

namespace Breaker

variable (breaker : Breaker) (config : BreakerConfig) (now monotonic : Time)

def setState (state : CircuitState) : Breaker :=
  if state = breaker.state then breaker
  else { breaker with state, lastStateChangeAt := some now }

/-- The fields as they were at boot. -/
def cleared : Breaker :=
  { breaker with
    state := .closed
    failureCount := 0
    openedAt := none
    probeInFlight := false
    lastStateChangeAt := none
    lastFailureAt := none
    lastFailureReasonClass := none
    journal := .cleared :: breaker.journal }

/-- `_honour_reset` once the signal has been read. -/
def honourReset (signal : Option Time) : Breaker :=
  match signal with
  | none => breaker
  | some resetAt =>
      if breaker.observedResetAt = some resetAt then breaker
      else
        let breaker := { breaker with observedResetAt := some resetAt }
        if breaker.lastFailureAt.any fun failedAt => resetAt < failedAt then breaker
        else breaker.cleared

/-- The section of `call` that lets a caller in or refuses it. -/
def letIn : Admission × Breaker :=
  match breaker.state with
  | .open =>
      if config.recoveryTimeout ≤ monotonic - breaker.openedAt.getD 0 then
        (.probe, { breaker.setState now .halfOpen with probeInFlight := true })
      else (.refused, breaker)
  | .halfOpen => (.refused, breaker)
  | .closed => (.call, breaker)

/-- The section for a probe that a nested breaker rejected. -/
def undoProbe : Breaker := { breaker with probeInFlight := false }.setState now .open

/-- The section of `_on_success`. -/
def onSuccess : Breaker :=
  { breaker.setState now .closed with
    failureCount := 0
    openedAt := none
    probeInFlight := false
    journal := .succeeded :: breaker.journal }

/-- The section of `_on_failure`. -/
def onFailure (reason : FailureClass) : Breaker :=
  let failed := { breaker with
    probeInFlight := false
    failureCount := breaker.failureCount + 1
    lastFailureAt := some now
    lastFailureReasonClass := some reason
    journal := .failed now :: breaker.journal }
  if breaker.state = .halfOpen ∨ config.failureThreshold ≤ failed.failureCount then
    { failed.setState now .open with openedAt := some monotonic }
  else failed

/-- `_record` is throttled unless the state changed. -/
def recordDue (changed : Bool) : Bool :=
  changed || breaker.recordedAt.all fun recordedAt => breakerRefreshInterval ≤ monotonic - recordedAt

def published : BreakerRecord where
  name := config.name
  state := breaker.state
  failureCount := breaker.failureCount
  failureThreshold := config.failureThreshold
  recoveryTimeout := config.recoveryTimeout
  lastStateChangeAt := breaker.lastStateChangeAt
  lastFailureAt := breaker.lastFailureAt
  lastFailureReasonClass := breaker.lastFailureReasonClass
  recordedAt := now

end Breaker

abbrev BreakerId := Nat

abbrev TaskId := Nat

abbrev ResetId := Nat

/-- What a `_record` is part of: `record_registered_breakers`, the admission of a
probe, or the outcome of a call. -/
inductive RecordPurpose where
  | refresh
  | probe
  | outcome
deriving DecidableEq

/-- The command a `_record` waits for, or the answer it was given. -/
inductive RecordStage where
  | asking
  | asked (signal : Option Time)
  | setting (record : BreakerRecord)

/-- Where a task is suspended. -/
inductive TaskPhase where
  | idle
  | asking (breaker : BreakerId)
  | asked (breaker : BreakerId) (signal : Option Time)
  | recording (breaker : BreakerId) (purpose : RecordPurpose) (stage : RecordStage)
  | running (breaker : BreakerId) (probe : Bool)
  | finished

/-- How the callable of a call ends. -/
inductive CallOutcome where
  | returns
  | raises (reason : FailureClass)
  | circuitOpen
deriving DecidableEq

structure Breakers where
  clock : Time
  monotonic : Time
  store : BreakerStore
  breaker : BreakerId → Breaker
  task : TaskId → TaskPhase
  reset : ResetId → ResetPhase

inductive BreakerAction where
  | pass (wall monotonic : Time)
  | call (task : TaskId) (breaker : BreakerId)
  | refresh (task : TaskId) (breaker : BreakerId)
  /-- Redis answers the task's GET of the signal, or the GET fails. -/
  | get (task : TaskId) (reached : Bool)
  /-- The task goes on with what its GET was answered. -/
  | resume (task : TaskId)
  | set (task : TaskId) (reached : Bool)
  | finish (task : TaskId) (outcome : CallOutcome)
  | cancel (task : TaskId)
  | beginReset (reset : ResetId)
  | resetCommand (reset : ResetId) (reached : Bool) (scanned : List String)

namespace Breakers

def initial : Breakers where
  clock := 0
  monotonic := 0
  store := {}
  breaker := fun _ => {}
  task := fun _ => .idle
  reset := fun _ => .idle

variable (config : BreakerId → BreakerConfig) (breakers : Breakers)

def setBreaker (id : BreakerId) (breaker : Breaker) : Breakers :=
  { breakers with breaker := fun other => if other = id then breaker else breakers.breaker other }

def setTask (id : TaskId) (phase : TaskPhase) : Breakers :=
  { breakers with task := fun other => if other = id then phase else breakers.task other }

def setReset (id : ResetId) (phase : ResetPhase) : Breakers :=
  { breakers with reset := fun other => if other = id then phase else breakers.reset other }

/-- What follows a `_record`. -/
def afterRecord (id : BreakerId) : RecordPurpose → TaskPhase
  | .probe => .running id true
  | .refresh | .outcome => .finished

/-- `_record`, up to its first await. -/
def record (task : TaskId) (id : BreakerId) (purpose : RecordPurpose) (changed : Bool) : Breakers :=
  if (breakers.breaker id).recordDue breakers.monotonic changed then
    breakers.setTask task (.recording id purpose .asking)
  else breakers.setTask task (afterRecord id purpose)

/-- `call`, from the section that lets the caller in to its next await. -/
def admission (task : TaskId) (id : BreakerId) : Breakers :=
  match (breakers.breaker id).letIn (config id) breakers.clock breakers.monotonic with
  | (.refused, _) => breakers.setTask task .finished
  | (.call, _) => breakers.setTask task (.running id false)
  | (.probe, breaker) => (breakers.setBreaker id breaker).record task id .probe true

/-- `call`, from the end of the callable to its next await. -/
def outcome (task : TaskId) (id : BreakerId) (probe : Bool) : CallOutcome → Breakers
  | .returns =>
      let was := breakers.breaker id
      (breakers.setBreaker id (was.onSuccess breakers.clock)).record task id .outcome
        (was.state ≠ .closed)
  | .raises reason =>
      let was := breakers.breaker id
      let failed := was.onFailure (config id) breakers.clock breakers.monotonic reason
      (breakers.setBreaker id failed).record task id .outcome (was.state ≠ failed.state)
  | .circuitOpen =>
      if probe then
        (breakers.setBreaker id ((breakers.breaker id).undoProbe breakers.clock)).record task id .outcome true
      else breakers.setTask task .finished

/-- A task that has been given the signal honours it and goes on. -/
def resume (task : TaskId) : TaskPhase → Option Breakers
  | .asked id signal =>
      some ((breakers.setBreaker id ((breakers.breaker id).honourReset signal)).admission config task id)
  | .recording id purpose (.asked signal) =>
      let breaker := { (breakers.breaker id).honourReset signal with
        recordedAt := some breakers.monotonic }
      some ((breakers.setBreaker id breaker).setTask task
        (.recording id purpose (.setting (breaker.published (config id) breakers.clock))))
  | _ => none

/-- Redis answers a GET of the signal; a GET that fails reads as no reset. -/
def answer (task : TaskId) (signal : Option Time) : TaskPhase → Option Breakers
  | .asking id => some (breakers.setTask task (.asked id signal))
  | .recording id purpose .asking =>
      some (breakers.setTask task (.recording id purpose (.asked signal)))
  | _ => none

def publish (task : TaskId) (reached : Bool) : TaskPhase → Option Breakers
  | .recording id purpose (.setting record) =>
      let store := if reached then breakers.store.setRecord breakers.clock record else breakers.store
      some ({ breakers with store }.setTask task (afterRecord id purpose))
  | _ => none

def step : BreakerAction → Breakers → Option Breakers
  | .pass wall monotonic, breakers => some { breakers with
      clock := breakers.clock + wall, monotonic := breakers.monotonic + monotonic }
  | .call task id, breakers =>
      match breakers.task task with
      | .idle =>
          if (breakers.breaker id).state = .closed then some (breakers.admission config task id)
          else some (breakers.setTask task (.asking id))
      | _ => none
  | .refresh task id, breakers =>
      match breakers.task task with
      | .idle => some (breakers.record task id .refresh true)
      | _ => none
  | .get task reached, breakers =>
      let signal := if reached then breakers.store.resetAt breakers.clock else none
      breakers.answer task signal (breakers.task task)
  | .resume task, breakers => breakers.resume config task (breakers.task task)
  | .set task reached, breakers => breakers.publish task reached (breakers.task task)
  | .finish task outcome, breakers =>
      match breakers.task task with
      | .running id probe => some (breakers.outcome config task id probe outcome)
      | _ => none
  | .cancel task, breakers =>
      match breakers.task task with
      | .idle | .finished => none
      | _ => some (breakers.setTask task .finished)
  | .beginReset reset, breakers =>
      match breakers.reset reset with
      | .idle => some (breakers.setReset reset (.signalling breakers.clock))
      | _ => none
  | .resetCommand reset reached scanned, breakers =>
      ((breakers.reset reset).command reached scanned breakers.clock breakers.store).map
        fun (phase, store) => { breakers with store }.setReset reset phase

end Breakers

/-- Breakers and their Redis from boot. -/
def circuitBreakers (config : BreakerId → BreakerConfig) : Machine Breakers BreakerAction where
  initial := .initial
  step := Breakers.step config

end IncidentPlatform.Core
