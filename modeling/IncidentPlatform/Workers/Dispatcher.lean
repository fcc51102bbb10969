import IncidentPlatform.Services.Job

namespace IncidentPlatform.Workers

open Concurrency Models Platform Repositories Services Utils

/-! # The dispatcher

`_run_job` and the passes of the dispatcher's control loops.  A pass is one
turn of its loop; `async with session.begin()` is the statements up to the
next commit, which an early return reaches too.
-/

/-- `_PAUSE_RECHECK_SECONDS` and the other delays of the module. -/
def pauseRecheck : Time := seconds 10
def pausedReplayDefer : Time := seconds 30
def stalePendingAge : Time := seconds 300
def runningLeaseTtl : Time := seconds 120
def inFlightExclusionGrace : Time := seconds 300

inductive Admission where
  | skipped
  | held (pausedBy : Uuid)
  | claimed (job : Job)

/-- The first transaction: load the job, probe the pause, claim the row. -/
def loadAndClaim (id : Uuid) : Prog Admission := do
  match ← ask (.job id) with
  | none => do
      commit
      pure .skipped
  | some job =>
      if job.status ≠ .pending then do
        commit
        pure .skipped
      else do
        match ← findBlockingPause id with
        | some pausedBy => do
            commit
            pure (.held pausedBy)
        | none => do
            let claimed ← exec (.claimForRunning id)
            commit
            pure (if claimed then .claimed job else .skipped)

/-- The outcome of a run that ends in DEAD_LETTER. -/
def settleDeadLetter (id : Uuid) (job : Job) (write : StatusWrite) (message : Option String)
    (details : List (String × Json)) : Prog Unit := do
  let _ ← updateStatus id write message
  auditLog {
    action := "job.dead_letter"
    tenantId := job.tenantId
    jobId := some id
    extraData := .object details }
  commit

def settleUnregistered (id : Uuid) (job : Job) : Prog Unit :=
  let error := "No processor for type: " ++ job.type
  settleDeadLetter id job
    { status := .deadLetter, retryCount := some job.retryCount, errorMessage := some (some error) }
    none [("error", .string error), ("reason", .string "unregistered_type")]

def settleTimedOut (settings : Settings) (id : Uuid) (job : Job) : Prog Unit :=
  let reason := "job exceeded the " ++ settings.executionTimeout ++ "s execution deadline"
  let error := "Execution timed out: " ++ reason
  settleDeadLetter id job
    { status := .deadLetter, errorMessage := some (some error),
      deadLetteredBy := some (some "execution_timeout") }
    (some error)
    [("error", .string reason), ("reason", .string "execution_timeout"),
      ("timeout_seconds", .number settings.executionTimeout),
      ("retry_count", .number (toString job.retryCount))]

def settleCompleted (id : Uuid) (job : Job) (result : Json) : Prog Unit := do
  let _ ← updateStatus id { status := .completed, result := some (some result) }
  auditLog {
    action := "job.completed"
    tenantId := job.tenantId
    jobId := some id
    extraData := .object [
      ("type", .string job.type), ("retry_count", .number (toString job.retryCount))] }
  commit

/-- `delay:.0f` of a delay in seconds, half to even. -/
def wholeSeconds (delay : Time) : Nat :=
  let whole := delay / seconds 1
  let rest := delay % seconds 1
  if 2 * rest > seconds 1 ∨ 2 * rest = seconds 1 ∧ whole % 2 = 1 then whole + 1 else whole

def settleRetry (id : Uuid) (job : Job) (error : String) (delay : Time) : Prog Unit := do
  let retryCount := job.retryCount + 1
  let _ ← updateStatus id
    { status := .pending, retryCount := some retryCount, errorMessage := some (some error) }
  outboxAdd job.tenantId job.userId .failed
    (.retrying job.tenantId id job.userId job.type error
      ("Retrying in " ++ toString (wholeSeconds delay) ++ "s (attempt " ++ toString retryCount ++
        " of " ++ toString job.maxAttempts ++ ")")
      retryCount)
  commit
  redis (.pushDelayed id delay)

def settleExhausted (id : Uuid) (job : Job) (error : String) (llmReasoning : Option String) :
    Prog Unit :=
  let retryCount := job.retryCount + 1
  let details := [("error", Json.string error), ("retry_count", .number (toString retryCount))]
  match llmReasoning with
  | none =>
      settleDeadLetter id job
        { status := .deadLetter, retryCount := some retryCount, errorMessage := some (some error) }
        (some ("Job exhausted after " ++ toString retryCount ++ " attempts: " ++ error)) details
  | some reasoning =>
      settleDeadLetter id job
        { status := .deadLetter, retryCount := some retryCount, errorMessage := some (some error),
          deadLetteredBy := some (some "llm_retry_policy") }
        (some ("LLM dead-lettered: " ++ reasoning))
        (details ++ [("dead_lettered_by", .string "llm_retry_policy"), ("reasoning", .string reasoning)])

/-- The retry decision: the backoff to wait, or the model's reasoning when it
gives the job up early. -/
def consultRetryPolicy (settings : Settings) (job : Job) (error : String) :
    Prog (Time ⊕ String) := do
  let retryCount := job.retryCount + 1
  if retryCount < job.maxAttempts ∧ settings.llmRetryPolicyEnabled = true ∧
      settings.llmRetryPolicyMinRetryCount ≤ retryCount then
    match ← observe (.decideRetry job.type error retryCount job.maxAttempts job.errorMessage) with
    | some (.deadLetterNow reasoning) => pure (.inr reasoning)
    | some (.retryWithBackoff backoffSeconds _) => pure (.inl (seconds backoffSeconds))
    | none => pure (.inl (settings.retryBackoff retryCount))
  else pure (.inl (settings.retryBackoff retryCount))

def settleFailed (settings : Settings) (id : Uuid) (job : Job) (error : String) : Prog Unit := do
  match ← consultRetryPolicy settings job error with
  | .inr reasoning => settleExhausted id job error (some reasoning)
  | .inl delay =>
      if job.retryCount + 1 < job.maxAttempts then settleRetry id job error delay
      else settleExhausted id job error none

/-- Everything after a won claim. -/
def runClaimed (settings : Settings) (id : Uuid) (job : Job) : Prog Unit := do
  observe (.publishProgress id job.userId job.tenantId 0 job.retryCount)
  match JobType.parse job.type with
  | none => settleUnregistered id job
  | some _ => do
      match ← observe (.execute job.type (withoutTraceCarrier job.payload)) with
      | .returned result => settleCompleted id job result
      | .timedOut => settleTimedOut settings id job
      | .raised error => settleFailed settings id job error

def runJob (settings : Settings) (id : Uuid) : Prog Unit := do
  match ← loadAndClaim id with
  | .skipped => pure ()
  | .held _ => redis (.pushDelayed id pauseRecheck)
  | .claimed job => runClaimed settings id job

/-- The net of `_run_and_release` under a `_run_job` that raised. -/
def forceDeadLetter (id : Uuid) (error : String) : Prog Unit := do
  match ← ask (.job id) with
  | none => commit
  | some job =>
      if job.status.terminal then commit
      else
        settleDeadLetter id job
          { status := .deadLetter, errorMessage := some (some ("Dispatcher escape: " ++ error)) }
          none [("error", .string error), ("reason", .string "dispatcher_escape")]

def promoteDelayed (id : Uuid) : Prog Unit := do
  match ← ask (.job id) with
  | none => commit
  | some job => do
      match ← findBlockingPause id with
      | none => do
          outboxAdd job.tenantId job.userId .submitted (jobSubmittedPayload job)
          commit
      | some _ => do
          commit
          redis (.pushDelayed id pauseRecheck)

def promoteDelayedOnce : Prog Unit := do
  let ready ← redis .popReadyDelayed
  .forEach ready promoteDelayed

/-- One child of a resume pass or of a completed parent: probe, promote, announce. -/
def promoteChild (id : Uuid) (child : Job) : Prog Unit := do
  match ← findBlockingPause id with
  | some _ => pure ()
  | none => do
      if ← exec (.promoteWaitingToPending id) then
        outboxAdd child.tenantId child.userId .submitted (jobSubmittedPayload child)

/-- The pass examines one page; the cursor it hands to the next pass is a
fairness hint. -/
def resumeUnblockedWaitingOnce (cursor : Option (Time × Uuid)) : Prog Unit := do
  let rows ← ask (.promotableWaiting cursor)
  .forEach rows fun child => promoteChild child.id child
  commit

/-- A short page means that the tail was reached; a full one hands back its last row. -/
def resumeCursor (rows : List Job) : Option (Time × Uuid) :=
  if rows.length < resumeSweepLimit then none else rows.getLast?.map fun row => (row.createdAt, row.id)

/-- The same pass, with the cursor it returns. -/
def resumePass (cursor : Option (Time × Uuid)) : Prog (Option (Time × Uuid)) := do
  let rows ← ask (.promotableWaiting cursor)
  .forEach rows fun child => promoteChild child.id child
  commit
  pure (resumeCursor rows)

theorem resumeUnblockedWaitingOnce_eq (cursor : Option (Time × Uuid)) :
    resumeUnblockedWaitingOnce cursor = (resumePass cursor).bind fun _ => .done () := by
  simp only [resumeUnblockedWaitingOnce, resumePass, Program.bind_eq_bind, Program.bind_assoc]
  rfl

def requeueStale (now : Time) (job : Job) : Prog Unit := do
  match ← redis (.delayedScore job.id) with
  | some _ => pure ()
  | none => do
      outboxAdd job.tenantId job.userId .submitted (jobSubmittedPayload job)
      exec (.stampRequeued job.id now)

def requeueStalePendingOnce : Prog Unit := do
  let now ← observe .now
  let rows ← ask (.stalePending (now - stalePendingAge))
  .forEach rows (requeueStale now)
  commit

/-- What the recovery requires of the row: nothing it scanned has moved. -/
def unmovedSince (scanned row : Job) : Bool :=
  row.status = .running && row.startedAt = scanned.startedAt &&
    row.heartbeatAt = scanned.heartbeatAt

def staleSeconds (now : Time) (job : Job) : Time := now - job.startedAt.getD now

def recoverStale (now : Time) (inFlight : Bool) (job : Job) : Prog Unit := do
  let error :=
    if inFlight then
      "stuck job recovery: still RUNNING long past its execution deadline while held by this worker"
    else "worker crash recovery: job exceeded stale-RUNNING threshold"
  match ← updateStatus job.id { status := .deadLetter, errorMessage := some (some error) } none
      (some (unmovedSince job)) with
  | none => commit
  | some _ => do
      auditLog {
        action := "job.dead_letter"
        tenantId := job.tenantId
        jobId := some job.id
        extraData := .object [
          ("error", .string error),
          ("reason", .string (if inFlight then "stuck_local_job" else "worker_crash_recovery")),
          ("stale_seconds", .number (secondsText (staleSeconds now job))),
          ("started_at", .string (isoformat (job.startedAt.getD now)))] }
      commit

def sweepStale (settings : Settings) (now : Time) (job : Job) : Prog Unit := do
  let inFlight ← observe (.inFlight job.id)
  if inFlight ∧ staleSeconds now job < settings.staleRunningThreshold + inFlightExclusionGrace then
    pure ()
  else recoverStale now inFlight job

def sweepStaleRunningOnce (settings : Settings) : Prog Unit := do
  let scan ← observe .now
  let rows ← ask (.staleRunning (scan - settings.staleRunningThreshold) (scan - runningLeaseTtl))
  rollback
  let now ← observe .now
  .forEach rows (sweepStale settings now)

def renewRunningLeasesOnce (settings : Settings) (ids : List Uuid) : Prog Unit :=
  if ids.isEmpty then pure ()
  else do
    let now ← observe .now
    let _ ← exec (.renewRunningLeases ids
      (now - (settings.staleRunningThreshold + inFlightExclusionGrace)) now)
    commit

def fireScheduledReplay (member : ReplayMember) : Prog Unit := do
  match ← findBlockingPause member.jobId with
  | some _ => do
      commit
      let now ← observe .now
      redis (.armReplay member (now + pausedReplayDefer))
  | none => do
      request (replayJob member.jobId member.tenantId
        { kind := "service_account", principalId := some member.principalId })
  redis (.ackReplay member)

def promoteDlqReplayOnce : Prog Unit := do
  let ready ← redis .claimReadyReplays
  .forEach ready fireScheduledReplay

/-- `OUTBOX_RELAY_BATCH`. -/
def outboxRelayBatch : Nat := 100

/-- How the publishes of a batch ended, by row. -/
structure RelayBatch where
  published : List Uuid := []
  retry : List Uuid := []
  deadLettered : List (Uuid × String) := []

def publishBatch (settings : Settings) : List OutboxRow → RelayBatch → Prog RelayBatch
  | [], batch => pure batch
  | row :: rest, batch => do
      match ← (.call (.publishRaw row) .done : Prog PublishResult) with
      | .acknowledged =>
          publishBatch settings rest { batch with published := batch.published ++ [row.id] }
      | .schemaInvalid error =>
          publishBatch settings rest { batch with
            deadLettered := batch.deadLettered ++ [(row.id, "schema validation failed: " ++ error)] }
      | .refused error =>
          let attempts := row.attempts + 1
          if settings.outboxMaxAttempts ≤ attempts then
            publishBatch settings rest { batch with
              deadLettered := batch.deadLettered ++
                [(row.id, "abandoned after " ++ toString attempts ++ " attempts: " ++ error)] }
          else publishBatch settings rest { batch with retry := batch.retry ++ [row.id] }

def markPublished (ids : List Uuid) : Prog Unit :=
  if ids.isEmpty then pure ()
  else do
    let now ← observe .now
    exec (.markPublished ids now)

def incrementAttempts (ids : List Uuid) : Prog Unit :=
  if ids.isEmpty then pure () else exec (.incrementAttempts ids)

def markFailed (row : Uuid × String) : Prog Unit := do
  let now ← observe .now
  exec (.markFailed [row.1] now row.2)

def outboxRelayTick (settings : Settings) : Prog Unit := do
  let events ← ask (.unpublished outboxRelayBatch settings.outboxMaxAttempts)
  commit
  if events.isEmpty then pure ()
  else do
    let batch ← publishBatch settings events {}
    markPublished batch.published
    incrementAttempts batch.retry
    .forEach batch.deadLettered markFailed
    commit

end IncidentPlatform.Workers
