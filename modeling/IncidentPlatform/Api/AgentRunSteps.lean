import IncidentPlatform.Services.AgentRun
import Mathlib.Data.List.Sort

namespace IncidentPlatform.Api

open Concurrency Models Services

/-! # `GET /admin/agent-runs/{id}/steps` and its poller -/

variable {Doc : Type}

/-- `_step_seq`. -/
def stepSeq (step : AgentStep Doc) : Int := step.seq.getD (-1)

structure AgentRunStepsResponse (Doc : Type) where
  runId : Uuid
  state : AgentRunState
  finishedAt : Option Time
  steps : List (AgentStep Doc)
  returned : Nat
  total : Nat
  stepsDropped : Nat
  afterSeq : Option Int
  nextAfterSeq : Option Int

inductive StepsRefusal where
  /-- `after_seq` is below its `ge=0`. -/
  | validation
  | notFound (message : String)

/-- `admin_agent_run_steps` on the row it reads. -/
def adminAgentRunSteps (runId : Uuid) (existing : Option (AgentRun Doc)) (afterSeq : Option Int) :
    Except StepsRefusal (AgentRunStepsResponse Doc) :=
  if afterSeq.any fun seq => seq < 0 then .error .validation
  else
    match existing with
    | none => .error (.notFound ("Agent run " ++ toString runId ++ " not found"))
    | some run =>
        let stored := run.steps.insertionSort fun first second => stepSeq first ≤ stepSeq second
        let selected := stored.filter fun step => afterSeq.all fun seq => seq < stepSeq step
        let highest := stored.getLast?.map stepSeq
        .ok {
          runId := run.id
          state := run.state
          finishedAt := run.finishedAt
          steps := selected
          returned := selected.length
          total := stored.length
          stepsDropped := run.stepsDropped
          afterSeq
          nextAfterSeq := highest.or afterSeq }

/-- One run and a console that polls its steps. -/
structure PolledRun (Doc : Type) where
  run : Option (AgentRun Doc)
  /-- The `next_after_seq` of the reply before. -/
  cursor : Option Int
  /-- The steps of all replies. -/
  received : List (AgentStep Doc)

namespace PolledRun

inductive Action (Doc : Type) where
  | call (call : RunCall Doc)
  | poll

def step (ids : RunIds) : Action Doc → PolledRun Doc → Option (PolledRun Doc)
  | .call call, polled => ((runCalls ids).step call polled.run).map fun run => { polled with run }
  | .poll, polled =>
      match adminAgentRunSteps ids.runId polled.run polled.cursor with
      | .ok reply => some { polled with
          cursor := reply.nextAfterSeq
          received := polled.received ++ reply.steps }
      | .error _ => some polled

def machine (ids : RunIds) : Machine (PolledRun Doc) (Action Doc) where
  initial := { run := none, cursor := none, received := [] }
  step := step ids

end PolledRun

end IncidentPlatform.Api
