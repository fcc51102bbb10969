import IncidentPlatform.Services.AgentRun
import IncidentPlatform.Storage.Slot
import Mathlib.Logic.Function.Basic

namespace IncidentPlatform.Services

open Concurrency Models Storage

/-! # The requests that report one run

Every request is a transaction of its own under READ COMMITTED: it reads the
row, and its flush inserts the row or updates the columns that it has changed.
-/

variable {Doc : Type} [DecidableEq Doc]

/-- A column after a flush: the session writes what differs from what it read. -/
def flushed {Column : Type} [DecidableEq Column] (read written current : Column) : Column :=
  if written = read then current else written

/-- The UPDATE of a session that has read `read` and holds `written`, on the row
`current`. -/
def AgentRun.flush (read written current : AgentRun Doc) : AgentRun Doc where
  id := current.id
  tenantId := current.tenantId
  alertId := flushed read.alertId written.alertId current.alertId
  serviceAccountId := current.serviceAccountId
  scenario := flushed read.scenario written.scenario current.scenario
  state := flushed read.state written.state current.state
  phaseHistory := flushed read.phaseHistory written.phaseHistory current.phaseHistory
  currentHypothesis := flushed read.currentHypothesis written.currentHypothesis current.currentHypothesis
  lastStep := flushed read.lastStep written.lastStep current.lastStep
  hypotheses := flushed read.hypotheses written.hypotheses current.hypotheses
  plan := flushed read.plan written.plan current.plan
  verification := flushed read.verification written.verification current.verification
  verifications := flushed read.verifications written.verifications current.verifications
  steps := flushed read.steps written.steps current.steps
  stepsDropped := flushed read.stepsDropped written.stepsDropped current.stepsDropped
  budget := flushed read.budget written.budget current.budget
  briefing := flushed read.briefing written.briefing current.briefing
  finishedAt := flushed read.finishedAt written.finishedAt current.finishedAt

/-- Where a request is. -/
inductive RequestPhase (Doc : Type) where
  | idle
  | read (call : RunCall Doc) (existing : Option (AgentRun Doc))
  | flushed (call : RunCall Doc) (existing : Option (AgentRun Doc))
  | closed

structure RunRequests (Doc : Type) where
  row : Slot (AgentRun Doc)
  phase : Pid → RequestPhase Doc
  /-- The calls that have committed, newest first, each with the row it read. -/
  committed : List (RunCall Doc × Option (AgentRun Doc))

namespace RunRequests

variable (ids : RunIds) (requests : RunRequests Doc) (pid : Pid)

def enter (phase : RequestPhase Doc) : RunRequests Doc :=
  { requests with phase := Function.update requests.phase pid phase }

/-- `get_for_tenant`. -/
def select (call : RunCall Doc) : Option (RunRequests Doc) :=
  match requests.phase pid with
  | .idle => some (requests.enter pid (.read call (requests.row.visible pid)))
  | _ => none

/-- A refused call, and a flush that fails, rolls the request back. -/
def flush : Option (RunRequests Doc) :=
  match requests.phase pid with
  | .read call existing =>
      match call.apply ids existing with
      | .error _ => some (requests.enter pid .closed)
      | .ok written =>
          match existing, requests.row.holder, requests.row.committed with
          | none, none, none =>
              some { requests.enter pid (.flushed call none) with row := requests.row.write pid written }
          -- The primary key is taken.
          | none, _, some _ => some (requests.enter pid .closed)
          | some existing, holder, some current =>
              -- Without a changed column there is no statement.
              if written = existing then some (requests.enter pid (.flushed call (some existing)))
              else if holder.isNone then
                some { requests.enter pid (.flushed call (some existing)) with
                  row := requests.row.write pid (existing.flush written current) }
              else none
          -- An UPDATE that matches no row is a `StaleDataError`.
          | some _, none, none => some (requests.enter pid .closed)
          -- Another transaction has the row locked.
          | _, some _, none => none
  | _ => none

def commit : Option (RunRequests Doc) :=
  match requests.phase pid with
  | .flushed call existing => some { requests.enter pid .closed with
      row := requests.row.commit pid
      committed := (call, existing) :: requests.committed }
  | _ => none

def rollback : Option (RunRequests Doc) :=
  match requests.phase pid with
  | .read .. | .flushed .. => some { requests.enter pid .closed with row := requests.row.rollback pid }
  | _ => none

inductive Action (Doc : Type) where
  | select (pid : Pid) (call : RunCall Doc)
  | flush (pid : Pid)
  | commit (pid : Pid)
  | rollback (pid : Pid)

def step : Action Doc → RunRequests Doc → Option (RunRequests Doc)
  | .select pid call, requests => requests.select pid call
  | .flush pid, requests => requests.flush ids pid
  | .commit pid, requests => requests.commit pid
  | .rollback pid, requests => requests.rollback pid

def machine : Machine (RunRequests Doc) (Action Doc) where
  initial := { row := { committed := none, holder := none }, phase := fun _ => .idle, committed := [] }
  step := step ids

end RunRequests

end IncidentPlatform.Services
