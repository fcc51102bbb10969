import IncidentPlatform.Mcp.ToolsCall

namespace IncidentPlatform.Mcp

open Concurrency Models Platform Services

/-! # Scheduled replays

`replay_dlq_by_ids` and `replay_dlq_by_category` with a `delay_seconds`: each job
is audited and then armed in a savepoint of its own.
-/

section Schedule

variable (caller : Caller) (delaySeconds : Nat) (details : List (String × Json))

/-- The row of one scheduled replay. -/
def replayScheduled (job : Uuid) (executeAt : Time) : AuditEntry where
  action := "job.replay_scheduled"
  tenantId := caller.tenantId
  userId := caller.principal.userId
  principalType := caller.principal.kind
  principalId := some caller.principal.id
  jobId := some job
  resourceType := some "job"
  resourceId := some (toString job)
  extraData := .object (("delay_seconds", .number (toString delaySeconds)) ::
    ("execute_at", .number (secondsText executeAt)) :: details)

/-- `schedule_one_audited`: a failure once the arming has begun disarms the entry. -/
def scheduleOneAudited (job : Uuid) : RequestAct AuditEntry Time := do
  let now ← time
  let executeAt := now + seconds delaySeconds
  let row := replayScheduled caller delaySeconds details job executeAt
  match ← nestedTracking (write (.tool row)) (armReplay job executeAt) with
  | .ok _ => pure executeAt
  | .error (armAttempted, raised) => do
      if armAttempted then exceptException (cancelScheduledReplay job) (pure ())
      throw raised

/-- `_schedule_one`. -/
def scheduleOne (job : Uuid) : RequestAct AuditEntry Time := do
  match ← jobForTenant job caller.tenantId with
  | none => throw (.appError "not_found" ("Job " ++ toString job ++ " not found"))
  | some status =>
      if status ≠ .failed ∧ status ≠ .deadLetter then
        throw (.appError "job_error" ("Only failed/dead_letter jobs can be replayed, got: " ++ status.text))
      else scheduleOneAudited caller delaySeconds [] job

end Schedule

structure ReplayResult where
  id : Uuid
  ok : Bool
  error : Option String := none
  scheduled : Bool := false
  executeAt : Option Time := none

/-- The loop over the jobs: what a job raises is its result. -/
def scheduleEach (schedule : Uuid → RequestAct AuditEntry Time) : List Uuid → RequestAct AuditEntry (List ReplayResult)
  | [] => pure []
  | job :: rest => do
      let result ← Act.rescue
        (do
          let executeAt ← schedule job
          pure { id := job, ok := true, scheduled := true, executeAt := some executeAt })
        fun raised =>
          if raised.isException then pure { id := job, ok := false, error := some raised.text }
          else throw raised
      let results ← scheduleEach schedule rest
      pure (result :: results)

def ReplayResult.json (result : ReplayResult) : Json :=
  .object [
    ("id", .string (toString result.id)),
    ("ok", .bool result.ok),
    ("error", (result.error.map Json.string).getD .null),
    ("scheduled", .bool result.scheduled),
    ("execute_at", (result.executeAt.map fun time => .number (secondsText time)).getD .null)]

structure ReplayDlqByIdsInput where
  jobIds : List Uuid
  delaySeconds : Nat

def replayDlqByIds (input : ReplayDlqByIdsInput) (caller : Caller) : RequestAct AuditEntry Json := do
  let results ← scheduleEach (scheduleOne caller input.delaySeconds) input.jobIds
  -- The output model is built.
  await
  pure (.object [
    ("requested", .number (toString input.jobIds.length)),
    ("replayed", .number "0"),
    ("scheduled", .number (toString (results.countP ReplayResult.ok))),
    ("failed", .number (toString (results.countP fun result => !result.ok))),
    ("results", .array (results.map ReplayResult.json))])

def replayDlqByIdsTool (inputModel : List (String × Json) → Except Json ReplayDlqByIdsInput) :
    ToolDefinition AuditEntry where
  name := "replay_dlq_by_ids"
  requiredScope := some "actions:execute"
  Input := ReplayDlqByIdsInput
  inputModel
  handler := replayDlqByIds
  isIdempotent := true

structure ReplayDlqByCategoryInput where
  category : String
  jobType : Option String
  maxReplays : Nat
  delaySeconds : Nat

/-- `_REPLAYABLE_CATEGORIES`. -/
def replayableCategories : List String := ["replay_safe", "wait_and_replay"]

def replayDlqByCategory (input : ReplayDlqByCategoryInput) (caller : Caller) : RequestAct AuditEntry Json :=
  if input.category ∉ replayableCategories then
    throw (.appError "dlq_category_refused" ("Category '" ++ input.category ++ "' is not replayable. Allowed: " ++
      "['replay_safe', 'wait_and_replay']. `human_required` entries must go through a human review path."))
  else do
    let jobs ← deadLetters caller.tenantId input.jobType input.category input.maxReplays
    let results ← scheduleEach
      (scheduleOneAudited caller input.delaySeconds [("category", .string input.category)]) jobs
    -- The output model is built.
    await
    let scheduled := results.filter ReplayResult.ok
    pure (.object [
      ("category", .string input.category),
      ("matched", .number (toString jobs.length)),
      ("replayed", .number "0"),
      ("scheduled", .number (toString scheduled.length)),
      ("failed", .number (toString (results.countP fun result => !result.ok))),
      ("job_ids", .array (scheduled.map fun result => .string (toString result.id))),
      ("execute_at", ((scheduled.getLast?.bind ReplayResult.executeAt).map fun time =>
        .number (secondsText time)).getD .null)])

def replayDlqByCategoryTool (inputModel : List (String × Json) → Except Json ReplayDlqByCategoryInput) :
    ToolDefinition AuditEntry where
  name := "replay_dlq_by_category"
  requiredScope := some "actions:execute"
  Input := ReplayDlqByCategoryInput
  inputModel
  handler := replayDlqByCategory
  isIdempotent := true

end IncidentPlatform.Mcp
