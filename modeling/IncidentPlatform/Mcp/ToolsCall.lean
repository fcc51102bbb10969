import IncidentPlatform.Mcp.ToolRequest

namespace IncidentPlatform.Mcp

open Concurrency Models Platform Services

/-! # `tools/call`

`_run_tool_call` in its savepoints, under the envelope of `handle_tools_call` and
the transaction of the request.
-/

variable {Row : Type}

structure ToolCallParams where
  name : String
  arguments : List (String × Json)
  labProbe : Option String := none

structure ToolDefinition (Row : Type) where
  name : String
  requiredScope : Option String
  Input : Type
  /-- `model_validate`: the parsed input, or the validation errors. -/
  inputModel : List (String × Json) → Except Json Input
  handler : Input → Caller → RequestAct Row Json
  isChaos : Bool := false
  isCommander : Bool := false
  isIdempotent : Bool := false

inductive JsonRpcResponse where
  | result (text : Json)
  | error (code : Int) (message : String) (data : Option Json := none)

def jsonrpcInvalidParams : Int := -32602
def jsonrpcInternalError : Int := -32603
def mcpUnauthorized : Int := -32001
def mcpForbidden : Int := -32002
def mcpToolNotFound : Int := -32010
def mcpToolError : Int := -32011

/-- `_audit`: a row that cannot be written fails the request. -/
def audit (record : InvocationArguments) : RequestAct Row Unit := do
  let recorded ← exceptException
    (do
      nested (write (.invocation record.row))
      pure true)
    (pure false)
  if recorded then pure () else throw (.auditWriteFailed record.toolName)

/-- `_extract_idempotency_key`. -/
def extractIdempotencyKey (arguments : List (String × Json)) : Option String :=
  match arguments.lookup "idempotency_key" with
  | some (.string key) => if key = "" then none else some key
  | _ => none

/-- `_complete_claim`. -/
def completeClaim (record : Uuid) : RequestAct Row Unit :=
  exceptException
    (nested do
      await
      write (.idempotency record)
      flush)
    (pure ())

/-- `_release_claim`. -/
def releaseClaim (record : Uuid) : RequestAct Row Unit :=
  exceptException
    (nested do
      write (.idempotency record)
      flush)
    (pure ())

def forClaim (claim : Option Uuid) (act : Uuid → RequestAct Row Unit) : RequestAct Row Unit :=
  match claim with
  | none => pure ()
  | some record => act record

section Call

variable (caller : Caller) (params : ToolCallParams) (label : Option LabProbeLabel)

/-- What each audit row of a call to `tool` has in common. -/
def invocationOf (tool : ToolDefinition Row) (outcome : InvocationOutcome) (errorMessage : Option String := none)
    (deniedBy : Option String := none) : InvocationArguments where
  caller
  toolName := tool.name
  arguments := params.arguments
  scopeUsed := tool.requiredScope
  outcome
  errorMessage
  isChaos := tool.isChaos
  isCommander := tool.isCommander
  deniedBy
  label

/-- The `except` clauses around the handler. -/
def answerFailure (tool : ToolDefinition Row) (raised : Raised) : RequestAct Row JsonRpcResponse :=
  match raised with
  | .baseException => throw raised
  | .authenticationError message => do
      audit (invocationOf caller params label tool .unauthorized (some message))
      pure (.error mcpUnauthorized message)
  | .authorizationError message => do
      audit (invocationOf caller params label tool .unauthorized (some message))
      pure (.error mcpForbidden message)
  | .appError errorCode message => do
      audit (invocationOf caller params label tool .error (some message))
      pure (.error mcpToolError message (some (.object [("error_code", .string errorCode)])))
  | raised => do
      audit (invocationOf caller params label tool .error (some raised.text))
      pure (.error jsonrpcInternalError "internal tool error")

/-- What follows `executed = True`. -/
def answerSuccess (tool : ToolDefinition Row) (claim : Option Uuid) (output : Json) :
    RequestAct Row JsonRpcResponse := do
  audit (invocationOf caller params label tool .success)
  forClaim claim completeClaim
  -- `output.model_dump_json()`
  await
  pure (.result output)

/-- The handler in its savepoint; on every way out but success the claim is
released last. -/
def execute (tool : ToolDefinition Row) (input : tool.Input) (claim : Option Uuid) :
    RequestAct Row JsonRpcResponse := do
  let ended ← Act.attempt do
    let output ← nested do
      let output ← tool.handler input caller
      flush
      pure output
    setExecuted
    pure output
  match ended with
  | .ok output => answerSuccess caller params label tool claim output
  | .error raised =>
      Act.ensuring (answerFailure caller params label tool raised) (forClaim claim releaseClaim)

def claimAndExecute (tool : ToolDefinition Row) (input : tool.Input) : RequestAct Row JsonRpcResponse :=
  if tool.isIdempotent then
    match extractIdempotencyKey params.arguments with
    | none => do
        audit (invocationOf caller params label tool .error (some "idempotency_key required"))
        pure (.error jsonrpcInvalidParams "idempotency_key is required for this tool")
    | some key => do
        match ← acquire key with
        | .claim record => execute caller params label tool input (some record)
        | .replay response => do
            audit (invocationOf caller params label tool .success)
            await
            pure (.result response)
        | .refused errorCode message => do
            audit (invocationOf caller params label tool .error (some message))
            pure (.error mcpToolError message (some (.object [("error_code", .string errorCode)])))
  else execute caller params label tool input none

/-- The scope check, and the tool's own arguments. -/
def callTool (tool : ToolDefinition Row) : RequestAct Row JsonRpcResponse :=
  match tool.requiredScope.filter fun scope => !caller.scopes.contains scope with
  | some scope => do
      audit (invocationOf caller params label tool .unauthorized (some "missing required scope")
        (if tool.isChaos then some "scope_check" else none))
      pure (.error mcpForbidden ("missing required scope: " ++ scope))
  | none =>
      match tool.inputModel params.arguments with
      | .error errors => do
          audit (invocationOf caller params label tool .error (some "invalid arguments"))
          pure (.error jsonrpcInvalidParams "invalid tool arguments" (some (.object [("errors", errors)])))
      | .ok input => claimAndExecute caller params label tool input

/-- The call once its `_lab_probe` is settled. -/
def dispatchTool (registry : String → Option (ToolDefinition Row)) : RequestAct Row JsonRpcResponse :=
  match registry params.name with
  | none => do
      audit {
        caller, toolName := params.name, arguments := params.arguments, outcome := .error,
        errorMessage := some "tool not registered", label }
      pure (.error mcpToolNotFound ("unknown tool: " ++ params.name))
  | some tool => callTool caller params label tool

end Call

/-- `REFUSAL_MESSAGE`. -/
def labProbeRefusalMessage : String :=
  "_lab_probe is only honoured on a request that also carries a valid X-Lab-Principal credential " ++
    "authorised to label a call; this request did not, so nothing ran"

def refuseLabProbe (caller : Caller) (params : ToolCallParams) (refusal : LabProbeRefusal) :
    RequestAct Row JsonRpcResponse := do
  audit {
    caller, toolName := params.name, arguments := params.arguments, outcome := .error,
    errorMessage := some ("_lab_probe refused: " ++ refusal.detail) }
  pure (.error jsonrpcInvalidParams labProbeRefusalMessage (some (.object [
    ("error_code", .string "lab_probe_refused"), ("reason_code", .string refusal.reasonCode)])))

section Request

variable (registry : String → Option (ToolDefinition Row)) (caller : Caller)
  (params : Except Json ToolCallParams)

/-- `_run_tool_call` on `params` as `ToolCallParams` validates them. -/
def runToolCall : RequestAct Row JsonRpcResponse :=
  match params with
  | .error errors =>
      pure (.error jsonrpcInvalidParams "invalid tools/call params" (some (.object [("errors", errors)])))
  | .ok params =>
      match params.labProbe with
      | none => dispatchTool caller params none registry
      | some value => do
          match ← resolveLabProbe value with
          | .inl refusal => refuseLabProbe caller params refusal
          | .inr label => dispatchTool caller params (some label) registry

/-- `handle_tools_call`: only a missing audit row passes the envelope. -/
def handleToolsCall : RequestAct Row JsonRpcResponse :=
  (runToolCall registry caller params).rescue fun raised =>
    match raised with
    | .auditWriteFailed _ | .baseException => throw raised
    | _ => pure (.error jsonrpcInternalError "internal server error")

/-- `POST /mcp` of an authenticated caller, in the session of `get_db`.  The
response is serialised inside it. -/
def mcpEndpoint : RequestAct Row JsonRpcResponse :=
  getDb do
    await
    let response ← handleToolsCall registry caller params
    await
    pure response

end Request

/-- The state that the acts of a request lead to. -/
def requestAfter (acts : List ((operation : RequestOp Row) × RequestReply operation)) : RequestState Row :=
  acts.foldl (fun state act => state.react act.1 act.2) {}

end IncidentPlatform.Mcp
