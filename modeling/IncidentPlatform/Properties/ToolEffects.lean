import IncidentPlatform.Mcp.CallPhases

namespace IncidentPlatform.Properties

open Concurrency Mcp Models

/-! # What a tool call leaves in the database

The handler's writes and the row that tells of them are committed together, and
a handler that fails leaves the row alone.
-/

variable {Row α : Type} {marks : List (List (Stored Row))} {stage : RequestStage Row}

inductive ToolStep (Row : Type) where
  | write (row : Row)
  | armReplay (job : Uuid) (executeAt : Time)
  | cancelScheduledReplay (job : Uuid)
  | await

def ToolStep.act : ToolStep Row → RequestAct Row Unit
  | .write row => Mcp.write (.tool row)
  | .armReplay job executeAt => Mcp.armReplay job executeAt
  | .cancelScheduledReplay job => Mcp.cancelScheduledReplay job
  | .await => Mcp.await

/-- A handler: steps of any kind, and then a return or an exception.  A step that
raises ends it too. -/
structure ToolRun (Row : Type) where
  steps : List (ToolStep Row)
  ending : Except Raised Json

def performSteps : List (ToolStep Row) → RequestAct Row Unit
  | [] => pure ()
  | step :: rest => do
      step.act
      performSteps rest

def ToolRun.act (run : ToolRun Row) : RequestAct Row Json := do
  performSteps run.steps
  match run.ending with
  | .ok output => pure output
  | .error raised => throw raised

def writtenBy (steps : List (ToolStep Row)) : List Row :=
  steps.filterMap fun step =>
    match step with
    | .write row => some row
    | _ => none

theorem writtenBy_cons (step : ToolStep Row) (steps : List (ToolStep Row)) :
    writtenBy (step :: steps) = writtenBy [step] ++ writtenBy steps :=
  List.filterMap_append (l := [step])

def Adds (act : RequestAct Row α) (marks : List (List (Stored Row))) (stage : RequestStage Row)
    (written : List Row) : Prop :=
  Moves act marks stage
    (fun _ after => after.rows = stage.rows ++ written.map .tool ∧ after.executed = stage.executed)
    fun _ after => after.executed = stage.executed

theorem ToolStep.adds (step : ToolStep Row) : Adds step.act marks stage (writtenBy [step]) := by
  cases step with
  | write row => exact moves_write ⟨rfl, rfl⟩ fun _ => rfl
  | armReplay job executeAt => exact moves_armReplay rfl ⟨(List.append_nil _).symm, rfl⟩ fun _ => rfl
  | cancelScheduledReplay job => exact moves_cancelScheduledReplay rfl ⟨(List.append_nil _).symm, rfl⟩ fun _ => rfl
  | await => exact moves_await ⟨(List.append_nil _).symm, rfl⟩ fun _ => rfl

theorem adds_performSteps (steps : List (ToolStep Row)) :
    ∀ stage, Adds (performSteps steps) marks stage (writtenBy steps) := by
  induction steps with
  | nil => exact fun stage => .pure ⟨(List.append_nil _).symm, rfl⟩
  | cons step rest ih =>
    intro stage
    apply Moves.bind step.adds
    rintro _ after ⟨rows, executed⟩
    apply (ih after).mono
    · rintro _ last ⟨grown, kept⟩
      rw [grown, rows, writtenBy_cons step rest, List.map_append, List.append_assoc]
      exact ⟨rfl, kept.trans executed⟩
    · exact fun _ _ kept => kept.trans executed

theorem ToolRun.adds (run : ToolRun Row) :
    Moves run.act marks stage
      (fun output after => run.ending = .ok output ∧
        after.rows = stage.rows ++ (writtenBy run.steps).map .tool ∧ after.executed = stage.executed)
      fun _ after => after.executed = stage.executed := by
  apply Moves.bind (adds_performSteps run.steps stage)
  rintro _ after held
  cases ends : run.ending with
  | ok output => exact .pure ⟨rfl, held⟩
  | error raised => exact .throw held.2

def effects (rows : List (Stored Row)) : List (Stored Row) :=
  rows.filter fun row =>
    match row with
    | .idempotency _ => false
    | _ => true

/-- What a request may leave: nothing; all of the handler's writes and one row of
outcome success, when the handler has succeeded; or one row alone. -/
inductive CallEffect (writes : List Row → Prop) (executed : Bool) : List (Stored Row) → Prop where
  | nothing : CallEffect writes executed []
  | executed (written : List Row) (row : ToolInvocation) (ran : executed = true) (made : writes written)
      (success : row.outcome = .success) :
      CallEffect writes executed (written.map .tool ++ [.invocation row])
  | answered (row : ToolInvocation) (failed : executed = false) : CallEffect writes executed [.invocation row]

/-- What the handler of the called tool writes when it returns. -/
def HandlerWrites (registry : String → Option (ToolDefinition Row)) (caller : Caller)
    (params : Except Json ToolCallParams) (written : List Row) : Prop :=
  ∃ call tool input run, params = .ok call ∧ registry call.name = some tool ∧
    tool.inputModel call.arguments = .ok input ∧ tool.handler input caller = ToolRun.act run ∧
    (∃ output, run.ending = .ok output) ∧ written = writtenBy run.steps

@[simp] theorem effects_tools (written : List Row) :
    effects (written.map .tool : List (Stored Row)) = written.map .tool := by
  apply List.filter_eq_self.mpr
  intro _ member
  obtain ⟨row, _, rfl⟩ := List.mem_map.mp member
  rfl

@[simp] theorem effects_append (first second : List (Stored Row)) :
    effects (first ++ second) = effects first ++ effects second := List.filter_append ..

@[simp] theorem effects_idempotency (stage : RequestStage Row) (record : Uuid) :
    effects (stage.write (.idempotency record)).rows = effects stage.rows := by
  rw [RequestStage.write, effects_append]
  exact List.append_nil _

@[simp] theorem effects_invocation (stage : RequestStage Row) (row : ToolInvocation) :
    effects (stage.write (.invocation row)).rows = effects stage.rows ++ [.invocation row] := effects_append ..

variable {writes : List Row → Prop}

structure Blank (stage : RequestStage Row) : Prop where
  rows : effects stage.rows = []
  unexecuted : stage.executed = false

/-- The tool has run, and nothing tells of it yet. -/
structure Ran (writes : List Row → Prop) (stage : RequestStage Row) : Prop where
  executed : stage.executed = true
  rows : ∃ written, writes written ∧ effects stage.rows = written.map .tool

def Committable (writes : List Row → Prop) (stage : RequestStage Row) : Prop :=
  CallEffect writes stage.executed (effects stage.rows)

theorem Blank.committable (blank : Blank stage) : Committable writes stage := by
  unfold Committable
  rw [blank.rows]
  exact .nothing

theorem Blank.audited (blank : Blank stage) (row : ToolInvocation) :
    Committable writes (stage.write (.invocation row)) := by
  unfold Committable
  rw [effects_invocation, blank.rows]
  exact .answered row blank.unexecuted

theorem Ran.audited (ran : Ran writes stage) (row : ToolInvocation) (success : row.outcome = .success) :
    Committable writes (stage.write (.invocation row)) := by
  obtain ⟨written, made, rows⟩ := ran.rows
  unfold Committable
  rw [effects_invocation, rows]
  exact .executed written row ran.executed made success

theorem effect_phases : @Phases Row Blank Blank (Ran writes) (Committable writes) where
  unfailed _ blank := blank
  answered _ blank := blank.committable
  claims stage record blank := ⟨by rw [effects_idempotency, blank.rows], blank.unexecuted⟩
  keeps stage record held := by
    unfold Committable
    rw [effects_idempotency]
    exact held
  audits _ row blank := blank.audited row
  tells _ row ran success := ran.audited row success

theorem ToolRun.handles (run : ToolRun Row)
    (made : ∀ output, run.ending = .ok output → writes (writtenBy run.steps)) :
    Handles Blank Blank (Ran writes) run.act := by
  intro marks stage blank
  have failed : ∀ after : RequestStage Row, after.executed = stage.executed →
      Blank { after with rows := stage.rows } := fun _ same => ⟨blank.rows, same.trans blank.unexecuted⟩
  apply run.adds.mono
  · rintro output after ⟨ends, rows, same⟩
    have written : effects after.rows = (writtenBy run.steps).map .tool := by simp [rows, blank.rows]
    exact ⟨⟨rfl, writtenBy run.steps, made output ends, written⟩, failed after same⟩
  · exact fun _ after same => failed after same

def Sequential (registry : String → Option (ToolDefinition Row)) (caller : Caller) : Prop :=
  ∀ name tool input, registry name = some tool → ∃ run : ToolRun Row, tool.handler input caller = run.act

/-- A failing tool leaves only its audit row, and no effect goes without one. -/
theorem tool_call_commits_audited_effect (registry : String → Option (ToolDefinition Row)) (caller : Caller)
    (params : Except Json ToolCallParams) (sequential : Sequential registry caller)
    {acts : List ((operation : RequestOp Row) × RequestReply operation)} {result : Except Raised JsonRpcResponse}
    (yields : (mcpEndpoint registry caller params).run.Yields acts result) :
    CallEffect (HandlerWrites registry caller params) (requestAfter acts).executed
      (effects (requestAfter acts).session.committed) := by
  have handles : ∀ call tool input, params = .ok call → registry call.name = some tool →
      tool.inputModel call.arguments = .ok input →
      Handles Blank Blank (Ran (HandlerWrites registry caller params)) (tool.handler input caller) := by
    intro call tool input parsed known valid
    obtain ⟨run, handler⟩ := sequential call.name tool input known
    rw [handler]
    apply run.handles
    exact fun output ends => ⟨call, tool, input, run, parsed, known, valid, handler, ⟨output, ends⟩, rfl⟩
  cases effect_phases.ends ⟨rfl, rfl⟩ handles yields with
  | rolledBack uncommitted _ =>
    rw [uncommitted]
    exact .nothing
  | committed stage held rows executed _ _ =>
    rw [rows, executed]
    exact held

def keyTool : ToolDefinition String where
  name := "invalidate_cache_key"
  requiredScope := none
  Input := Bool
  inputModel := fun arguments => .ok arguments.isEmpty
  handler := fun whole _ => ToolRun.act {
    steps := [.write "cache.invalidated"]
    ending := if whole then .ok .null else .error (.appError "cache_error" "redis is down") }

def keyRegistry (name : String) : Option (ToolDefinition String) :=
  if name = "invalidate_cache_key" then some keyTool else none

def keyCaller : Caller := { tenantId := 1, principal := { kind := "service_account", id := 2 }, scopes := [] }

def keyCall (arguments : List (String × Json)) : ToolCallParams := { name := "invalidate_cache_key", arguments }

def keyRow : ToolInvocation := (invocationOf keyCaller (keyCall []) none keyTool .success).row

def keyActs : List ((operation : RequestOp String) × RequestReply operation) :=
  [⟨.await, .ok ()⟩, ⟨.savepoint, .ok ()⟩, ⟨.write (.tool "cache.invalidated"), .ok ()⟩, ⟨.await, .ok ()⟩,
    ⟨.release, .ok ()⟩, ⟨.executed, ()⟩, ⟨.savepoint, .ok ()⟩, ⟨.write (.invocation keyRow), .ok ()⟩,
    ⟨.release, .ok ()⟩, ⟨.await, .ok ()⟩, ⟨.await, .ok ()⟩, ⟨.commit, (true, .ok ())⟩]

def failingCall : ToolCallParams := keyCall [("key", .string "jobs")]

def failingRow : ToolInvocation :=
  (invocationOf keyCaller failingCall none keyTool .error (some "redis is down")).row

def failingActs : List ((operation : RequestOp String) × RequestReply operation) :=
  [⟨.await, .ok ()⟩, ⟨.savepoint, .ok ()⟩, ⟨.write (.tool "cache.invalidated"), .ok ()⟩, ⟨.rollbackTo, .ok ()⟩,
    ⟨.savepoint, .ok ()⟩, ⟨.write (.invocation failingRow), .ok ()⟩, ⟨.release, .ok ()⟩, ⟨.await, .ok ()⟩,
    ⟨.commit, (true, .ok ())⟩]

theorem key_call_commits_audited_effect :
    CallEffect (HandlerWrites keyRegistry keyCaller (.ok (keyCall []))) true
      [.tool "cache.invalidated", .invocation keyRow] ∧
    CallEffect (HandlerWrites keyRegistry keyCaller (.ok failingCall)) false [.invocation failingRow] := by
  have sequential : Sequential keyRegistry keyCaller := by
    intro name tool input known
    unfold keyRegistry at known
    split at known
    · cases known
      exact ⟨_, rfl⟩
    · contradiction
  have returns : (mcpEndpoint keyRegistry keyCaller (.ok (keyCall []))).run.Yields keyActs
      (.ok (.result .null)) := by
    repeat constructor
  have raises : ∃ result, (mcpEndpoint keyRegistry keyCaller (.ok failingCall)).run.Yields failingActs
      result := by
    apply Exists.intro
    repeat constructor
  obtain ⟨result, raises⟩ := raises
  exact ⟨tool_call_commits_audited_effect keyRegistry keyCaller (.ok (keyCall [])) sequential returns,
    tool_call_commits_audited_effect keyRegistry keyCaller (.ok failingCall) sequential raises⟩

end IncidentPlatform.Properties
