import IncidentPlatform.Concurrency.Acts
import IncidentPlatform.Services.Job
import IncidentPlatform.Storage.Session

namespace IncidentPlatform.Mcp

open Concurrency Models Platform Services Storage

/-! # The request under a tool call

One session of `get_db`, with the savepoints that `tools/call` sets in it, and
the commands that it sends to Redis, which no rollback takes back.
-/

/-- What the code of a request raises, by the clauses that catch it. -/
inductive Raised where
  | authenticationError (message : String)
  | authorizationError (message : String)
  | appError (errorCode message : String)
  | auditWriteFailed (toolName : String)
  /-- Any other `Exception`. -/
  | exception (text : String)
  /-- A `BaseException` that is no `Exception`: a cancellation. -/
  | baseException

namespace Raised

def isException : Raised → Bool
  | .baseException => false
  | _ => true

/-- `str(exc)`. -/
def text : Raised → String
  | .authenticationError message | .authorizationError message | .appError _ message => message
  | .auditWriteFailed toolName => toolName
  | .exception text => text
  | .baseException => ""

end Raised

/-- The authenticated principal of the request. -/
structure Caller where
  tenantId : Uuid
  principal : ToolPrincipal
  scopes : List String

inductive InvocationOutcome where
  | success
  | error
  | unauthorized
deriving DecidableEq

structure LabProbeLabel where
  reason : String
  principalName : String

structure ToolInvocation where
  action : String
  tenantId : Uuid
  principalType : String
  principalId : Uuid
  userId : Option Uuid
  resourceId : String
  toolName : String
  arguments : List (String × Json)
  scopeUsed : Option String
  outcome : InvocationOutcome
  errorMessage : Option String
  deniedBy : Option String
  labProbeReason : Option String
  labProbePrincipal : Option String

/-- The arguments of `record_tool_invocation`. -/
structure InvocationArguments where
  caller : Caller
  toolName : String
  arguments : List (String × Json)
  scopeUsed : Option String := none
  outcome : InvocationOutcome
  errorMessage : Option String := none
  isChaos : Bool := false
  isCommander : Bool := false
  deniedBy : Option String := none
  label : Option LabProbeLabel := none

def InvocationArguments.action (record : InvocationArguments) : String :=
  if record.isChaos then
    if record.deniedBy.isSome then "chaos.tool_denied" else "chaos.tool_invoked"
  else if record.isCommander then "agent.run_reported"
  else if record.label.isSome then "lab.probe"
  else "agent.tool_invoked"

def InvocationArguments.row (record : InvocationArguments) : ToolInvocation where
  action := record.action
  tenantId := record.caller.tenantId
  principalType := if record.caller.principal.kind = "service_account" then "service_account" else "user"
  principalId := record.caller.principal.id
  userId := if record.caller.principal.kind = "service_account" then none else some record.caller.principal.id
  resourceId := record.toolName
  toolName := record.toolName
  arguments := record.arguments
  scopeUsed := record.scopeUsed
  outcome := record.outcome
  errorMessage := record.errorMessage
  deniedBy := record.deniedBy
  labProbeReason := record.label.map LabProbeLabel.reason
  labProbePrincipal := record.label.map LabProbeLabel.principalName

/-- A row that the request writes. -/
inductive Stored (Row : Type) where
  | tool (row : Row)
  | invocation (row : ToolInvocation)
  | idempotency (record : Uuid)

/-- What `acquire` answers, or the refusal that `tools/call` catches. -/
inductive Acquired where
  | claim (record : Uuid)
  | replay (response : Json)
  | refused (errorCode message : String)

/-- A `LabProbeRefused`. -/
structure LabProbeRefusal where
  reasonCode : String
  detail : String

inductive RequestOp (Row : Type) where
  | write (row : Stored Row)
  | savepoint
  | release
  | rollbackTo
  | commit
  | rollback
  | acquire (key : String)
  | resolveLabProbe (value : String)
  /-- `JobRepository.get_for_tenant`: the status that it reads. -/
  | jobForTenant (job tenant : Uuid)
  /-- `JobRepository.list_jobs` of dead letters: the ids that it reads. -/
  | deadLetters (tenant : Uuid) (jobType : Option String) (remediationHint : String) (limit : Nat)
  | armReplay (job : Uuid) (executeAt : Time)
  | cancelScheduledReplay (job : Uuid)
  | time
  /-- The assignment `executed = True`. -/
  | executed
  /-- Any other step that may raise. -/
  | await

/-- A statement that raises has no effect.  A commit or a Redis command may have
taken effect before it raises, and says so first. -/
@[reducible] def RequestReply {Row : Type} : RequestOp Row → Type
  | .commit | .armReplay _ _ | .cancelScheduledReplay _ => Bool × Except Raised Unit
  | .acquire _ => Except Raised Acquired
  | .resolveLabProbe _ => Except Raised (LabProbeRefusal ⊕ LabProbeLabel)
  | .jobForTenant _ _ => Except Raised (Option JobStatus)
  | .deadLetters _ _ _ _ => Except Raised (List Uuid)
  | .time => Time
  | .executed => Unit
  | _ => Except Raised Unit

structure RequestState (Row : Type) where
  session : Session (Stored Row) := {}
  /-- The members of `jobs:dlq_replay_delayed` that the request has armed, with
  their scores. -/
  armed : List (Uuid × Time) := []
  /-- A command has not reached Redis. -/
  unreached : Bool := false
  executed : Bool := false
  /-- The commit took effect. -/
  landed : Bool := false

namespace RequestState

variable {Row : Type}

def react (state : RequestState Row) : (operation : RequestOp Row) → RequestReply operation → RequestState Row
  | .write row, .ok _ => { state with session := state.session.write row }
  | .savepoint, .ok _ => { state with session := state.session.savepoint }
  | .release, .ok _ => { state with session := state.session.release }
  | .rollbackTo, .ok _ => { state with session := state.session.rollbackTo }
  | .rollbackTo, .error _ => { state with session := state.session.lose }
  | .commit, (true, _) =>
      { state with session := state.session.commit, landed := !state.session.lost }
  | .commit, (false, _) => { state with session := state.session.rollback }
  | .rollback, _ => { state with session := state.session.rollback }
  | .acquire _, .ok (.claim record) => { state with session := state.session.write (.idempotency record) }
  | .armReplay job executeAt, (true, _) =>
      { state with armed := (job, executeAt) :: state.armed.filter fun member => member.1 ≠ job }
  | .cancelScheduledReplay job, (true, _) =>
      { state with armed := state.armed.filter fun member => member.1 ≠ job }
  | .armReplay _ _, (false, _) | .cancelScheduledReplay _, (false, _) => { state with unreached := true }
  | .executed, _ => { state with executed := true }
  | _, _ => state

end RequestState

abbrev RequestAct (Row : Type) := Act Raised (RequestOp Row) RequestReply

section Operations

variable {Row α : Type}

def write (row : Stored Row) : RequestAct Row Unit := Act.perform (.write row) id
def savepoint : RequestAct Row Unit := Act.perform .savepoint id
def release : RequestAct Row Unit := Act.perform .release id
def rollbackTo : RequestAct Row Unit := Act.perform .rollbackTo id
def commit : RequestAct Row Unit := Act.perform .commit Prod.snd
def rollback : RequestAct Row Unit := Act.perform .rollback id
def acquire (key : String) : RequestAct Row Acquired := Act.perform (.acquire key) id
def resolveLabProbe (value : String) : RequestAct Row (LabProbeRefusal ⊕ LabProbeLabel) :=
  Act.perform (.resolveLabProbe value) id
def jobForTenant (job tenant : Uuid) : RequestAct Row (Option JobStatus) :=
  Act.perform (.jobForTenant job tenant) id
def deadLetters (tenant : Uuid) (jobType : Option String) (remediationHint : String) (limit : Nat) :
    RequestAct Row (List Uuid) := Act.perform (.deadLetters tenant jobType remediationHint limit) id
def armReplay (job : Uuid) (executeAt : Time) : RequestAct Row Unit :=
  Act.perform (.armReplay job executeAt) Prod.snd
def cancelScheduledReplay (job : Uuid) : RequestAct Row Unit :=
  Act.perform (.cancelScheduledReplay job) Prod.snd
def time : RequestAct Row Time := Act.perform .time .ok
def setExecuted : RequestAct Row Unit := Act.perform .executed .ok
def await : RequestAct Row Unit := Act.perform .await id
def flush : RequestAct Row Unit := await

/-- `async with db.begin_nested()`. -/
def nested (body : RequestAct Row α) : RequestAct Row α := do
  savepoint
  Act.rescue
    (do
      let value ← body
      release
      pure value)
    fun raised => do
      rollbackTo
      throw raised

/-- The same around two acts; of what is raised, whether the first had returned. -/
def nestedTracking (first second : RequestAct Row Unit) : RequestAct Row (Except (Bool × Raised) Unit) := do
  let undone (reached : Bool) (raised : Raised) : RequestAct Row (Except (Bool × Raised) Unit) := do
    match ← rollbackTo.attempt with
    | .ok _ => pure (.error (reached, raised))
    | .error worse => pure (.error (reached, worse))
  match ← savepoint.attempt with
  | .error raised => pure (.error (false, raised))
  | .ok _ =>
      match ← first.attempt with
      | .error raised => undone false raised
      | .ok _ =>
          match ← Act.attempt (do second; release) with
          | .error raised => undone true raised
          | .ok _ => pure (.ok ())

/-- `except Exception`, with what the clause goes on with. -/
def exceptException (act : RequestAct Row α) (otherwise : RequestAct Row α) : RequestAct Row α :=
  act.rescue fun raised => if raised.isException then otherwise else throw raised

/-- `get_db` around an endpoint. -/
def getDb (endpoint : RequestAct Row α) : RequestAct Row α := do
  match ← endpoint.attempt with
  | .ok response => do
      commit
      pure response
  | .error raised => do
      rollback
      throw raised

end Operations

end IncidentPlatform.Mcp
