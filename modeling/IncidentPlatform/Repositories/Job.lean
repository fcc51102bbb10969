import IncidentPlatform.Platform.World

namespace IncidentPlatform.Repositories

open Concurrency Models Platform

/-! # The job repository

`update_status` is the row writer of the platform: the UPDATE, the outbox row
of a terminal status, and the cascade that a dead parent starts.  All of it
runs in the caller's transaction, one statement at a time.
-/

/-- `AuditRepository.log`: a user's own action names the user as principal. -/
def auditLog (entry : AuditEntry) : Prog Unit :=
  exec (.insertAudit { entry with
    principalId :=
      if entry.principalId = none ∧ entry.principalType = "user" then entry.userId
      else entry.principalId })

def outboxAdd (tenant user : Uuid) (topic : Topic) (event : Event) : Prog Unit :=
  exec (.insertOutbox tenant user topic event)

def emitTerminalEvent (job : Job) (status : JobStatus) (message : Option String) : Prog Unit :=
  outboxAdd job.tenantId job.userId (terminalEvent job status message).1
    (terminalEvent job status message).2

/-- `_CASCADE_MAX_DEPTH`. -/
def cascadeMaxDepth : Nat := 50

def announceCancelled (children : List Job) : Prog Unit :=
  .forEach children fun child =>
    outboxAdd child.tenantId child.userId .cancelled (cancelledEventPayload child)

/-- The levels of the cascade that are left, from the frontier of the last one. -/
def cascadeLevels (reason : String) (cancelledAt : Time) :
    Nat → List Uuid → List Uuid → Nat → Prog Nat
  | 0, _, _, cancelled => pure cancelled
  | depth + 1, frontier, seen, cancelled =>
      if frontier.isEmpty then pure cancelled
      else do
        let rows ← ask (.blockedChildren frontier)
        let targets := rows.filter fun row => !seen.contains row
        if targets.isEmpty then pure cancelled
        else do
          let changed ← exec (.cancelBlocked targets reason cancelledAt)
          let newlyCancelled ← ask (.cancelledAt targets cancelledAt)
          announceCancelled newlyCancelled
          cascadeLevels reason cancelledAt depth targets (seen ++ targets)
            (cancelled + changed.length)

def cascadeReason (parent : Uuid) (status : JobStatus) : String :=
  "dependency parent " ++ toString parent ++ " ended in " ++ status.text

def cascadeCancelBlockedChildren (parent : Uuid) (status : JobStatus) : Prog Nat := do
  let cancelledAt ← observe .now
  cascadeLevels (cascadeReason parent status) cancelledAt cascadeMaxDepth [parent] [parent] 0

/-- What follows a status write that was not refused. -/
def afterStatusWrite (id : Uuid) (status : JobStatus) (message : Option String) :
    Prog (Option Job) := do
  match ← ask (.job id) with
  | none => pure none
  | some job => do
      if status.terminal then emitTerminalEvent job status message
      if status.cascadeSource then
        let _ ← cascadeCancelBlockedChildren id status
      pure (some job)

def updateStatus (id : Uuid) (write : StatusWrite) (message : Option String := none)
    (guard : Option (Job → Bool) := none) : Prog (Option Job) := do
  let changed ← exec (.updateStatus id write guard)
  if guard.isSome && !changed then pure none
  else afterStatusWrite id write.status message

end IncidentPlatform.Repositories
