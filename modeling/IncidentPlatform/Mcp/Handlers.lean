import IncidentPlatform.Concurrency.Machine
import IncidentPlatform.Services.Idempotency

namespace IncidentPlatform.Mcp

open Concurrency Models Services

/-! # Idempotent tool calls

`tools/call` of the Tier-1 tools under one tenant, principal and key: any number
of calls, each in the transaction of its request, and the reaper.  A step of a
call is one await, from `acquire` to the end of the request.
-/

/-- `_IDEMPOTENCY_TTL`. -/
def idempotencyTtl : Option Time := some (seconds 86400)

abbrev CallId := Nat

/-- The unique key in the database.  One open transaction at a time has inserted
or deleted under it; `some none` is a row deleted and not replaced. -/
structure KeySlot where
  committed : Option IdempotencyRecord := none
  writer : Option (CallId × Option IdempotencyRecord) := none

namespace KeySlot

variable (slot : KeySlot) (call : CallId)

/-- The transaction of another call is open on the key. -/
def heldByOther : Bool := slot.writer.any fun writer => writer.1 ≠ call

def visible : Option IdempotencyRecord :=
  match slot.writer with
  | some (owner, version) => if owner = call then version else slot.committed
  | none => slot.committed

/-- INSERT ... ON CONFLICT DO NOTHING, which waits for the transaction of another
call that is open on the key.  The reply says whether the row went in. -/
def insertClaim (record : IdempotencyRecord) : Option (Bool × KeySlot) :=
  if slot.heldByOther call then none
  else
    match slot.visible call with
    | some _ => some (false, slot)
    | none => some (true, { slot with writer := some (call, some record) })

/-- DELETE by id, which waits for the row to be let go. -/
def deleteById (id : Uuid) : Option KeySlot :=
  match slot.visible call with
  | some row =>
      if row.id ≠ id then some slot
      else if slot.heldByOther call then none
      else some { slot with writer := some (call, none) }
  | none => some slot

/-- `delete_expired` on the key's row. -/
def deleteExpired (now : Time) : Option KeySlot :=
  match slot.visible call with
  | some row =>
      if row.isExpired now = false then some slot
      else if slot.heldByOther call then none
      else some { slot with writer := some (call, none) }
  | none => some slot

/-- `complete_claim`: an UPDATE by id of a row the transaction has inserted. -/
def completeClaim (id : Uuid) (response : Json) (expiresAt : Option Time) : KeySlot :=
  match slot.writer with
  | some (owner, some record) =>
      if owner = call ∧ record.id = id then
        { slot with writer := some (call, some { record with responseJson := some response, expiresAt }) }
      else slot
  | _ => slot

def commit : KeySlot :=
  match slot.writer with
  | some (owner, version) => if owner = call then { committed := version, writer := none } else slot
  | none => slot

def rollback : KeySlot :=
  match slot.writer with
  | some (owner, _) => if owner = call then { slot with writer := none } else slot
  | none => slot

end KeySlot

/-- How the handler ends. -/
inductive HandlerOutcome where
  | returned (output : Json)
  | authenticationError (message : String)
  | authorizationError (message : String)
  | appError (errorCode message : String)
  | crashed

/-- The JSON-RPC errors after the handler. -/
inductive RpcError where
  | unauthorized (message : String)
  | forbidden (message : String)
  | toolError (message errorCode : String)
  | internalToolError
  | internalServerError

/-- The `except` clauses around the handler. -/
def HandlerOutcome.error : HandlerOutcome → Except RpcError Json
  | .returned output => .ok output
  | .authenticationError message => .error (.unauthorized message)
  | .authorizationError message => .error (.forbidden message)
  | .appError errorCode message => .error (.toolError message errorCode)
  | .crashed => .error .internalToolError

inductive Answer where
  /-- The handler returned; `recorded` is whether the completion was written. -/
  | executed (output : Json) (recorded : Bool) (error : Option RpcError)
  /-- The handler raised; `released` is whether the claim was dropped. -/
  | failed (error : RpcError) (released : Bool)
  | replayed (response : Json)
  | refused (error : IdempotencyError) (holder : Option IdempotencyRecord)
  /-- The reaper's transaction. -/
  | reaped

/-- The await a call is at. -/
inductive CallPhase where
  | idle
  | inserting (call : ToolCall) (expiresAt : Option Time) (attempt : Nat)
  | reading (call : ToolCall) (expiresAt : Option Time) (attempt : Nat)
  | evicting (call : ToolCall) (expiresAt : Option Time) (holder : IdempotencyRecord)
  | executing (call : ToolCall) (claim : Uuid)
  | auditingSuccess (call : ToolCall) (claim : Uuid) (output : Json)
  | completing (call : ToolCall) (claim : Uuid) (output : Json)
  | responding (call : ToolCall) (claim : Uuid) (output : Json) (recorded : Bool)
  | auditingFailure (call : ToolCall) (claim : Uuid) (error : RpcError)
  | releasing (call : ToolCall) (claim : Uuid) (error : RpcError) (audited : Bool)
  /-- `acquire` has refused or replayed. -/
  | auditing (call : ToolCall) (answer : Answer)
  /-- The request is about to commit, with the claim that the call inserted. -/
  | answered (call : ToolCall) (claim : Option Uuid) (answer : Answer)
  /-- `get_db` is about to roll back. -/
  | raising
  | reaping
  /-- What the transaction has left under the key of what it inserted. -/
  | committed (call : ToolCall) (answer : Answer) (left : Option IdempotencyRecord)
  | rolledBack
  | reaped

structure ToolCalls where
  clock : Time
  nextId : Uuid
  slot : KeySlot
  phase : CallId → CallPhase

inductive Action where
  | pass (elapsed : Time)
  | start (id : CallId) (call : ToolCall)
  | insertClaim (id : CallId)
  | getByKey (id : CallId)
  | evict (id : CallId)
  | handle (id : CallId) (outcome : HandlerOutcome)
  | audit (id : CallId) (written : Bool)
  | complete (id : CallId) (written : Bool)
  | release (id : CallId) (written : Bool)
  | respond (id : CallId) (serialized : Bool)
  | commit (id : CallId)
  /-- The request is cancelled, raises past its envelope, or dies. -/
  | abort (id : CallId)
  | reap (id : CallId)

namespace ToolCalls

def initial : ToolCalls where
  clock := 0
  nextId := 0
  slot := {}
  phase := fun _ => .idle

variable (sha256 : String → String) (calls : ToolCalls) (id : CallId)

def move (phase : CallPhase) : ToolCalls :=
  { calls with phase := fun other => if other = id then phase else calls.phase other }

def withSlot (slot : KeySlot) : ToolCalls := { calls with slot }

/-- What `insert_claim` writes for a call. -/
def claimOf (call : ToolCall) (expiresAt : Option Time) : IdempotencyRecord where
  id := calls.nextId
  toolName := call.toolName
  argumentsHash := sha256 call.arguments
  responseJson := none
  expiresAt

def step : Action → ToolCalls → Option ToolCalls
  | .pass elapsed, calls => some { calls with clock := calls.clock + elapsed }
  | .start id call, calls =>
      match calls.phase id with
      | .idle => some (calls.move id
          (.inserting call (idempotencyTtl.map fun ttl => calls.clock + ttl) 1))
      | _ => none
  | .insertClaim id, calls =>
      match calls.phase id with
      | .inserting call expiresAt attempt =>
          match calls.slot.insertClaim id (calls.claimOf sha256 call expiresAt) with
          | some (true, slot) =>
              some { (calls.withSlot slot).move id (.executing call calls.nextId) with
                nextId := calls.nextId + 1 }
          | some (false, _) => some (calls.move id (.reading call expiresAt attempt))
          | none => none
      | _ => none
  | .getByKey id, calls =>
      match calls.phase id with
      | .reading call expiresAt attempt =>
          let holder := calls.slot.visible id
          match decideOnHolder calls.clock call.toolName (sha256 call.arguments) attempt holder with
          | .retry => some (calls.move id (.inserting call expiresAt 2))
          | .evict holder => some (calls.move id (.evicting call expiresAt holder))
          | .refuse error => some (calls.move id (.auditing call (.refused error holder)))
          | .replay response => some (calls.move id (.auditing call (.replayed response)))
      | _ => none
  | .evict id, calls =>
      match calls.phase id with
      | .evicting call expiresAt holder =>
          (calls.slot.deleteById id holder.id).map fun slot =>
            (calls.withSlot slot).move id (.inserting call expiresAt 2)
      | _ => none
  | .handle id outcome, calls =>
      match calls.phase id with
      | .executing call claim =>
          match outcome.error with
          | .ok output => some (calls.move id (.auditingSuccess call claim output))
          | .error error => some (calls.move id (.auditingFailure call claim error))
      | _ => none
  | .audit id written, calls =>
      match calls.phase id with
      | .auditing call answer =>
          some (calls.move id (if written then .answered call none answer else .raising))
      | .auditingSuccess call claim output =>
          some (calls.move id (if written then .completing call claim output else .raising))
      | .auditingFailure call claim error =>
          some (calls.move id (.releasing call claim error written))
      | _ => none
  | .complete id written, calls =>
      match calls.phase id with
      | .completing call claim output =>
          let slot :=
            if written then calls.slot.completeClaim id claim output
              (idempotencyTtl.map fun ttl => calls.clock + ttl)
            else calls.slot
          some ((calls.withSlot slot).move id (.responding call claim output written))
      | _ => none
  | .release id written, calls =>
      match calls.phase id with
      | .releasing call claim error audited =>
          (if written then calls.slot.deleteById id claim else some calls.slot).map fun slot =>
            (calls.withSlot slot).move id
              (if audited then .answered call (some claim) (.failed error written) else .raising)
      | _ => none
  | .respond id serialized, calls =>
      match calls.phase id with
      | .responding call claim output recorded =>
          some (calls.move id (.answered call (some claim)
            (.executed output recorded (if serialized then none else some .internalServerError))))
      | _ => none
  | .commit id, calls =>
      match calls.phase id with
      | .answered call claim answer =>
          let left := (calls.slot.visible id).filter fun record => claim = some record.id
          some ((calls.withSlot (calls.slot.commit id)).move id (.committed call answer left))
      | .reaping => some ((calls.withSlot (calls.slot.commit id)).move id .reaped)
      | _ => none
  | .abort id, calls =>
      match calls.phase id with
      | .committed .. | .rolledBack | .reaped => none
      | _ => some ((calls.withSlot (calls.slot.rollback id)).move id .rolledBack)
  | .reap id, calls =>
      match calls.phase id with
      | .idle =>
          (calls.slot.deleteExpired id calls.clock).map fun slot =>
            (calls.withSlot slot).move id .reaping
      | _ => none

end ToolCalls

/-- The calls under one key. -/
def toolCalls (sha256 : String → String) : Machine ToolCalls Action where
  initial := .initial
  step := ToolCalls.step sha256

end IncidentPlatform.Mcp
