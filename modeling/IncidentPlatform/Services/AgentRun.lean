import IncidentPlatform.Concurrency.Machine
import IncidentPlatform.Models.Job

namespace IncidentPlatform.Services

open Concurrency Models

/-! # The record of an agent's run

`Doc` is the type of the JSON objects that the caller sends.  They are stored as
sent, so nothing here looks into one.
-/

inductive AgentRunState where
  | triage
  | investigating
  | planning
  | awaitingApproval
  | remediating
  | verifying
  | resolved
  | escalated
  | failed
deriving DecidableEq, Repr

namespace AgentRunState

def text : AgentRunState → String
  | .triage => "triage"
  | .investigating => "investigating"
  | .planning => "planning"
  | .awaitingApproval => "awaiting_approval"
  | .remediating => "remediating"
  | .verifying => "verifying"
  | .resolved => "resolved"
  | .escalated => "escalated"
  | .failed => "failed"

/-- `TERMINAL_AGENT_RUN_STATES`. -/
def terminal : AgentRunState → Bool
  | .resolved | .escalated | .failed => true
  | _ => false

end AgentRunState

/-- `STEPS_CAP` and `VERIFICATIONS_CAP`. -/
def stepsCap : Nat := 200
def verificationsCap : Nat := 50

/-- One entry of `phase_history`. -/
structure PhaseEntry where
  state : AgentRunState
  stamp : Time
deriving DecidableEq

/-- One entry of the step ledger: its `seq`, where it has one, and the rest. -/
structure AgentStep (Doc : Type) where
  seq : Option Int
  body : Doc
deriving DecidableEq

structure Briefing (Doc : Type) where
  body : Doc
  prose : Option String
  recordedAt : Time
deriving DecidableEq

structure AgentRun (Doc : Type) where
  id : Uuid
  tenantId : Uuid
  alertId : Option Uuid
  serviceAccountId : Uuid
  scenario : Option String
  state : AgentRunState
  phaseHistory : List PhaseEntry
  currentHypothesis : Option Doc
  lastStep : Option Doc
  hypotheses : List Doc
  plan : Option Doc
  verification : Option Doc
  verifications : List Doc
  steps : List (AgentStep Doc)
  stepsDropped : Nat
  budget : Option Doc
  briefing : Option (Briefing Doc)
  finishedAt : Option Time
deriving DecidableEq

/-- What names a run and its writer. -/
structure RunIds where
  runId : Uuid
  tenantId : Uuid
  serviceAccountId : Uuid

/-- The other arguments of `report_run`. -/
structure RunReport (Doc : Type) where
  state : AgentRunState
  stamp : Time
  alertId : Option Uuid := none
  scenario : Option String := none
  currentHypothesis : Option Doc := none
  lastStep : Option Doc := none
  hypotheses : Option (List Doc) := none
  plan : Option Doc := none
  verification : Option Doc := none
  step : Option (AgentStep Doc) := none
  budget : Option Doc := none

/-- The conflicts that the service raises, each a 409 under its own code. -/
structure RunConflict where
  errorCode : String
  message : String
deriving DecidableEq

structure ReportOutcome (Doc : Type) where
  run : AgentRun Doc
  created : Bool
  phaseAppended : Bool

variable {Doc : Type}

/-- `_capped`: the newest `cap` entries. -/
def capped {Entry : Type} (entries : List Entry) (cap : Nat) : List Entry :=
  if cap < entries.length then entries.drop (entries.length - cap) else entries

/-- `_append_step`: the ledger with `step`, and how many entries the cap discarded. -/
def appendStep (steps : List (AgentStep Doc)) (step : AgentStep Doc) : List (AgentStep Doc) × Nat :=
  if step.seq.isSome ∧ steps.any (fun existing => existing.seq = step.seq) then (steps, 0)
  else
    let grown := steps ++ [step]
    (capped grown stepsCap, grown.length - stepsCap)

namespace AgentRun

/-- The row that the first report inserts. -/
def createdBy (ids : RunIds) (report : RunReport Doc) : AgentRun Doc where
  id := ids.runId
  tenantId := ids.tenantId
  alertId := report.alertId
  serviceAccountId := ids.serviceAccountId
  scenario := report.scenario
  state := report.state
  phaseHistory := [⟨report.state, report.stamp⟩]
  currentHypothesis := report.currentHypothesis
  lastStep := report.lastStep
  hypotheses := report.hypotheses.getD []
  plan := report.plan
  verification := report.verification
  verifications := report.verification.toList
  steps := report.step.toList
  stepsDropped := 0
  budget := report.budget
  briefing := none
  finishedAt := if report.state.terminal then some report.stamp else none

/-- The row that a later report leaves. -/
def updatedBy (run : AgentRun Doc) (report : RunReport Doc) : AgentRun Doc :=
  { run with
    state := report.state
    phaseHistory :=
      if run.state = report.state then run.phaseHistory
      else run.phaseHistory ++ [⟨report.state, report.stamp⟩]
    currentHypothesis := report.currentHypothesis
    lastStep := report.lastStep
    alertId := report.alertId.or run.alertId
    scenario := report.scenario.or run.scenario
    hypotheses := report.hypotheses.getD run.hypotheses
    plan := report.plan.or run.plan
    budget := report.budget.or run.budget
    verification := report.verification.or run.verification
    verifications :=
      match report.verification with
      | some verification => capped (run.verifications ++ [verification]) verificationsCap
      | none => run.verifications
    steps :=
      match report.step with
      | some step => (appendStep run.steps step).1
      | none => run.steps
    stepsDropped :=
      match report.step with
      | some step => run.stepsDropped + (appendStep run.steps step).2
      | none => run.stepsDropped
    finishedAt := if report.state.terminal then some report.stamp else run.finishedAt }

/-- The row with its briefing. -/
def briefedBy (run : AgentRun Doc) (briefing : Briefing Doc) : AgentRun Doc :=
  { run with
    briefing := some briefing
    finishedAt := run.finishedAt.or (some briefing.recordedAt) }

end AgentRun

/-- `AgentRunService.report_run` on the row it reads. -/
def reportRun (ids : RunIds) (existing : Option (AgentRun Doc)) (report : RunReport Doc) :
    Except RunConflict (ReportOutcome Doc) :=
  match existing with
  | none => .ok { run := .createdBy ids report, created := true, phaseAppended := true }
  | some run =>
      match run.finishedAt with
      | some _ => .error {
          errorCode := "agent_run_already_finished"
          message := "run " ++ toString ids.runId ++ " already reached a terminal state (" ++
            run.state.text ++ "); a closed run is not reopened" }
      | none => .ok {
          run := run.updatedBy report
          created := false
          phaseAppended := run.state ≠ report.state }

/-- `AgentRunService.report_briefing` on the row it reads. -/
def reportBriefing (ids : RunIds) (existing : Option (AgentRun Doc)) (body : Doc)
    (prose : Option String) (stamp : Time) : Except RunConflict (AgentRun Doc) :=
  match existing with
  | none => .error {
      errorCode := "agent_run_not_found"
      message := "no run " ++ toString ids.runId ++
        " to attach a briefing to; report its state first" }
  | some run =>
      match run.briefing with
      | some _ => .error {
          errorCode := "agent_run_briefing_already_recorded"
          message := "run " ++ toString ids.runId ++ " already has a briefing; it is written once" }
      | none => .ok (run.briefedBy ⟨body, prose, stamp⟩)

inductive RunCall (Doc : Type) where
  | report (sent : RunReport Doc)
  | briefing (body : Doc) (prose : Option String) (stamp : Time)

/-- The row that a call leaves; a refusal rolls the call back. -/
def RunCall.apply (ids : RunIds) (existing : Option (AgentRun Doc)) :
    RunCall Doc → Except RunConflict (AgentRun Doc)
  | .report sent => (reportRun ids existing sent).map ReportOutcome.run
  | .briefing body prose stamp => reportBriefing ids existing body prose stamp

def runCalls (ids : RunIds) : Machine (Option (AgentRun Doc)) (RunCall Doc) where
  initial := none
  step := fun call existing =>
    match call.apply ids existing with
    | .ok run => some (some run)
    | .error _ => some existing

end IncidentPlatform.Services
