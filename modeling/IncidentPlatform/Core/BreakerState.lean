import IncidentPlatform.Models.Job

namespace IncidentPlatform.Core

open Models

/-! # Breaker records and the reset signal in Redis

What breakers publish under `breaker:state:<name>`, the signal of an environment
reset under `breaker:reset:at`, and the reset itself, one Redis command a step.
-/

inductive CircuitState where
  | closed
  | open
  | halfOpen
deriving DecidableEq, Repr

/-- `FAILURE_CLASSES`: what a failure is reduced to. -/
inductive FailureClass where
  | timeout
  | connection
  | other
deriving DecidableEq

structure BreakerRecord where
  name : String
  state : CircuitState
  failureCount : Nat
  failureThreshold : Nat
  recoveryTimeout : Time
  lastStateChangeAt : Option Time
  lastFailureAt : Option Time
  lastFailureReasonClass : Option FailureClass
  recordedAt : Time

/-- `BREAKER_STATE_TTL_SECONDS`. -/
def breakerStateTtl : Time := seconds 86400

/-- `BREAKER_REFRESH_INTERVAL_SECONDS`. -/
def breakerRefreshInterval : Time := seconds 60

/-- `_is_reset_clean`. -/
def BreakerRecord.resetClean (record : BreakerRecord) : Bool :=
  record.state = .closed && record.failureCount = 0 && record.lastFailureAt.isNone &&
    record.lastFailureReasonClass.isNone && record.lastStateChangeAt.isNone

/-- The record a reset writes over this one at `now`. -/
def BreakerRecord.rewritten (record : BreakerRecord) (now : Time) : BreakerRecord where
  name := record.name
  state := .closed
  failureCount := 0
  failureThreshold := record.failureThreshold
  recoveryTimeout := record.recoveryTimeout
  lastStateChangeAt := none
  lastFailureAt := none
  lastFailureReasonClass := none
  recordedAt := now

/-- The two kinds of key, each value with the time it expires at. -/
structure BreakerStore where
  signal : Option (Time × Time) := none
  records : List (String × BreakerRecord × Time) := []

namespace BreakerStore

variable (store : BreakerStore) (now : Time)

/-- GET of `breaker:reset:at`. -/
def resetAt : Option Time :=
  store.signal.bind fun stored => if now < stored.2 then some stored.1 else none

/-- SET of `breaker:reset:at`. -/
def setResetAt (raised : Time) : BreakerStore :=
  { store with signal := some (raised, now + breakerStateTtl) }

/-- GET of `breaker:state:<name>`. -/
def record (name : String) : Option BreakerRecord :=
  (store.records.lookup name).bind fun stored => if now < stored.2 then some stored.1 else none

/-- SET of `breaker:state:<name>`. -/
def setRecord (record : BreakerRecord) : BreakerStore :=
  { store with records := (record.name, record, now + breakerStateTtl) ::
      store.records.filter fun stored => stored.1 ≠ record.name }

/-- The names with a record, which a SCAN does not miss. -/
def present : List String :=
  (store.records.map Prod.fst).filter fun name => (store.record now name).isSome

end BreakerStore

/-- Where a `reset_breaker_states` run is: the command it is about to send. -/
inductive ResetPhase where
  | idle
  | signalling (resetAt : Time)
  | scanning (resetAt : Time)
  | reading (resetAt : Time) (names : List String) (records : List BreakerRecord)
  | rewriting (resetAt : Time) (records : List BreakerRecord)
  | completed (resetAt : Time)
  | aborted

/-- A loop of the reset goes on with what is left, or the run is over. -/
def ResetPhase.rewrite (resetAt : Time) (records : List BreakerRecord) : ResetPhase :=
  match records.filter fun record => !record.resetClean with
  | [] => .completed resetAt
  | dirty => .rewriting resetAt dirty

def ResetPhase.read (resetAt : Time) (names : List String) (records : List BreakerRecord) : ResetPhase :=
  match names with
  | [] => .rewrite resetAt records
  | _ => .reading resetAt names records

/-- One command of a reset.  `reached` says whether Redis answered, `scanned` what
a SCAN found. -/
def ResetPhase.command (reached : Bool) (scanned : List String) (now : Time) (store : BreakerStore) :
    ResetPhase → Option (ResetPhase × BreakerStore)
  | .signalling resetAt =>
      if reached then some (.scanning resetAt, store.setResetAt now resetAt) else some (.aborted, store)
  | .scanning resetAt =>
      if !reached then some (.aborted, store)
      else if (store.present now).all scanned.contains then some (.read resetAt scanned [], store)
      else none
  | .reading resetAt (name :: rest) records =>
      if reached then some (.read resetAt rest (records ++ (store.record now name).toList), store)
      else some (.aborted, store)
  | .rewriting resetAt (record :: rest) =>
      -- A write that fails is logged and dropped, and the run goes on.
      some (.rewrite resetAt rest, if reached then store.setRecord now (record.rewritten now) else store)
  | _ => none

end IncidentPlatform.Core
