import IncidentPlatform.Models.Job

namespace IncidentPlatform.Services

open Models

/-! # Idempotency claims

The record of one tenant, principal and key, and the decisions of
`IdempotencyService` on it.
-/

structure IdempotencyRecord where
  id : Uuid
  toolName : String
  argumentsHash : String
  /-- `none` while the claim has not been answered. -/
  responseJson : Option Json
  expiresAt : Option Time

/-- `_is_expired`. -/
def IdempotencyRecord.isExpired (record : IdempotencyRecord) (now : Time) : Bool :=
  record.expiresAt.any fun expiresAt => expiresAt < now

/-- The refusals of `acquire`. -/
inductive IdempotencyError where
  | otherArguments (recordedTool : String)
  | otherTool (recordedTool : String)
  | executing
  | contended
deriving DecidableEq

namespace IdempotencyError

/-- Whether it is an `IdempotencyKeyReusedError`; else it is an
`IdempotencyKeyInFlightError`. -/
def keyReused : IdempotencyError → Bool
  | .otherArguments _ | .otherTool _ => true
  | .executing | .contended => false

def errorCode (error : IdempotencyError) : String :=
  if error.keyReused then "idempotency_key_reused" else "idempotency_key_in_flight"

/-- The message, with Python's `repr` of the texts in it. -/
def message (repr : String → String) (key : String) : IdempotencyError → String
  | .otherArguments recordedTool =>
      "Idempotency key " ++ repr key ++ " was previously used for tool " ++ repr recordedTool ++
        " with different arguments. Pick a fresh key or send the exact same arguments."
  | .otherTool recordedTool =>
      "Idempotency key " ++ repr key ++ " was previously used for a different tool (" ++
        repr recordedTool ++ ")."
  | .executing =>
      "Idempotency key " ++ repr key ++ " is currently being executed by another call. Retry shortly."
  | .contended =>
      "Idempotency key " ++ repr key ++
        " could not be claimed; another call is contending for it. Retry shortly."

end IdempotencyError

/-- The arguments of a call are given as their canonical JSON text. -/
structure ToolCall where
  toolName : String
  arguments : String

/-- `_assert_same_call`: the arguments are compared first. -/
def assertSameCall (record : IdempotencyRecord) (toolName argumentsHash : String) :
    Except IdempotencyError Unit :=
  if record.argumentsHash ≠ argumentsHash then .error (.otherArguments record.toolName)
  else if record.toolName ≠ toolName then .error (.otherTool record.toolName)
  else .ok ()

/-- What `acquire` does next once it has read the holder of the key. -/
inductive HolderDecision where
  | retry
  | evict (holder : IdempotencyRecord)
  | refuse (error : IdempotencyError)
  | replay (response : Json)

/-- The part of an attempt that follows a lost insert. -/
def decideOnHolder (now : Time) (toolName argumentsHash : String) (attempt : Nat) :
    Option IdempotencyRecord → HolderDecision
  | none => if attempt = 1 then .retry else .refuse .contended
  | some holder =>
      if attempt = 1 ∧ holder.isExpired now = true then .evict holder
      else
        match assertSameCall holder toolName argumentsHash with
        | .error error => .refuse error
        | .ok _ =>
            match holder.responseJson with
            | none => .refuse .executing
            | some response => .replay response

end IncidentPlatform.Services
