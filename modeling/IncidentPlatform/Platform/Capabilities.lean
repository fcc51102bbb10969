import IncidentPlatform.Platform.Rows

namespace IncidentPlatform.Platform

open Concurrency Models Storage Repositories Services Utils Workers

/-! # What each role may do

The statements each entry point can issue, with their arguments.  Reading one
off a log entry replaces a look into the program that performed it.
-/

/-- The `update_status` calls of a role. -/
def Role.MayUpdate (id : Uuid) (write : StatusWrite) (guard : Option (Job → Bool)) : Role → Prop
  | .replay target _ _ => id = target ∧ write = replayWrite ∧ guard = none
  | .replayEach _ _ _ | .promoteDlqReplay => write = replayWrite ∧ guard = none
  | .resolveIncident target _ _ => id = target ∧ write = { status := .completed } ∧ guard = none
  | .deliver target | .redeliver target => id = target ∧ guard = none ∧
      (write.status = .completed ∨ write.status = .deadLetter ∨ write.status = .pending)
  | .forceDeadLetter target _ => id = target ∧ guard = none ∧ write.status = .deadLetter
  | .sweepStaleRunning => write.status = .deadLetter ∧
      ∃ scanned, guard = some (unmovedSince scanned)
  | .coordinateSaga _ _ =>
      write = { status := .cancelled, errorMessage := some (some "saga rollback") } ∧ guard = none
  | _ => False

def Role.delivers (job : Uuid) : Role → Bool
  | .deliver id | .redeliver id => id = job
  | _ => false

/-- The roles that run `replay_job`. -/
def Role.replays : Role → Bool
  | .replay _ _ _ | .replayEach _ _ _ | .promoteDlqReplay => true
  | _ => false

def Role.promotes : Role → Bool
  | .resolveDependents _ | .resumeUnblockedWaiting _ => true
  | _ => false

def Role.creates : Role → Bool
  | .createJob _ | .createSaga _ => true
  | _ => false

/-- The roles that insert jobs. -/
def Role.inserts : Role → Bool
  | .createJob _ | .createSaga _ | .coordinateSaga _ _ => true
  | _ => false

def Role.coordinates : Role → Bool
  | .coordinateSaga _ _ => true
  | _ => false

def Role.opensSagas : Role → Bool
  | .createSaga _ => true
  | _ => false

theorem Role.inserts_of_creates {role : Role} (creates : role.creates) : role.inserts := by
  cases role <;> first
    | rfl
    | cases creates

def Role.may (role : Role) : Op → Prop
  | .statement (.updateStatus id write guard) => role.MayUpdate id write guard
  | .statement (.claimForRunning id) => role.delivers id
  | .statement (.promoteWaitingToPending _) => role.promotes
  | .statement (.insertDependencies _ _) => role.creates
  | .statement (.insertJob _) => role.inserts
  | .statement (.insertSaga _ _) => role.opensSagas
  | .statement (.updateSaga _ _ _) | .query (.saga _) | .query (.sagaJobs _)
  | .query (.completedSteps _) | .query (.waitingSteps _) => role.coordinates
  | .statement (.stampRequeued _ _) => role = .requeueStalePending
  | .statement (.renewRunningLeases ids _ _) => role = .renewRunningLeases ids
  | .statement (.markPublished _ _) | .statement (.incrementAttempts _)
  | .statement (.markFailed _ _ _) | .publishRaw _ => role = .outboxRelay
  | .command .popReadyDelayed => role = .promoteDelayed
  | .statement (.insertAudit entry) => entry.action = "job.created" → role.creates
  | _ => True

theorem Role.MayUpdate.status {role : Role} {id : Uuid} {write : StatusWrite}
    {guard : Option (Job → Bool)} (may : role.MayUpdate id write guard) :
    write.status ≠ .waiting ∧ (write.status = .pending → role.delivers id ∨ role.replays) := by
  cases role with
  | replay target tenant principal =>
      obtain ⟨_, rfl, _⟩ := may
      exact ⟨by simp [replayWrite], fun _ => .inr rfl⟩
  | replayEach ids tenant principal =>
      obtain ⟨rfl, _⟩ := may
      exact ⟨by simp [replayWrite], fun _ => .inr rfl⟩
  | promoteDlqReplay =>
      obtain ⟨rfl, _⟩ := may
      exact ⟨by simp [replayWrite], fun _ => .inr rfl⟩
  | resolveIncident target user tenant =>
      obtain ⟨_, rfl, _⟩ := may
      simp
  | deliver target =>
      obtain ⟨rfl, _, status⟩ := may
      exact ⟨by rcases status with status | status | status <;> simp [status],
        fun _ => .inl (decide_eq_true rfl)⟩
  | redeliver target =>
      obtain ⟨rfl, _, status⟩ := may
      exact ⟨by rcases status with status | status | status <;> simp [status],
        fun _ => .inl (decide_eq_true rfl)⟩
  | forceDeadLetter target error => simp [may.2.2]
  | sweepStaleRunning => simp [may.1]
  | coordinateSaga topic target => simp [may.1]
  | _ => exact may.elim

theorem Role.MayUpdate.not_running {role : Role} {id : Uuid} {write : StatusWrite}
    {guard : Option (Job → Bool)} (may : role.MayUpdate id write guard) : write.status ≠ .running := by
  cases role with
  | replay target tenant principal => simp [may.2.1, replayWrite]
  | replayEach ids tenant principal => simp [may.1, replayWrite]
  | promoteDlqReplay => simp [may.1, replayWrite]
  | resolveIncident target user tenant => simp [may.2.1]
  | deliver target => rcases may.2.2 with same | same | same <;> simp [same]
  | redeliver target => rcases may.2.2 with same | same | same <;> simp [same]
  | forceDeadLetter target error => simp [may.2.2]
  | sweepStaleRunning => simp [may.1]
  | coordinateSaga topic target => simp [may.1]
  | _ => exact may.elim

/-- The operations of a pause probe. -/
def Op.Probes : Op → Prop
  | .query (.parents _) | .command (.pausedFlags _) => True
  | _ => False

/-- The operations that follow a status write in `update_status`. -/
def Op.Settles : Op → Prop
  | .query (.job _) | .query (.blockedChildren _) | .query (.cancelledAt _ _) | .reading .now => True
  | .statement (.cancelBlocked _ _ _) => True
  | .statement (.insertOutbox _ _ topic _) => topic = .completed ∨ topic = .dlq ∨ topic = .cancelled
  | _ => False

theorem walkAncestors_uses (room : Nat) (frontier order : List Uuid) :
    (walkAncestors room frontier order).Uses Op.Probes := by
  induction room generalizing frontier order with
  | zero => exact trivial
  | succ room ih =>
      rw [walkAncestors]
      split
      · exact trivial
      · exact ⟨trivial, fun parents => ih _ _⟩

theorem findBlockingPause_uses (id : Uuid) : (findBlockingPause id).Uses Op.Probes := by
  refine (walkAncestors_uses _ _ _).bind fun nodes => ?_
  split
  · exact trivial
  · exact ⟨trivial, fun _ => trivial⟩

theorem cascadeLevels_uses (reason : String) (stamp : Time) (depth : Nat)
    (frontier seen : List Uuid) (cancelled : Nat) :
    (cascadeLevels reason stamp depth frontier seen cancelled).Uses Op.Settles := by
  induction depth generalizing frontier seen cancelled with
  | zero => exact trivial
  | succ depth ih =>
      rw [cascadeLevels]
      split
      · exact trivial
      · refine .first trivial fun rows => ?_
        dsimp only
        split
        · exact trivial
        · refine .first trivial (fun changed => .first trivial (fun newly => ?_))
          exact .bind (.forEach fun child => ⟨.inr (.inr rfl), fun _ => trivial⟩)
            fun _ => ih _ _ _

theorem terminalEvent_topic (job : Job) (status : JobStatus) (message : Option String) :
    (terminalEvent job status message).1 = .completed ∨
      (terminalEvent job status message).1 = .dlq ∨
      (terminalEvent job status message).1 = .cancelled := by
  cases status <;> simp [terminalEvent]

theorem afterStatusWrite_uses (id : Uuid) (status : JobStatus) (message : Option String) :
    (afterStatusWrite id status message).Uses Op.Settles := by
  refine .first trivial fun found => ?_
  cases found with
  | none => exact trivial
  | some job =>
      have cascade : (cascadeCancelBlockedChildren id status).Uses Op.Settles :=
        ⟨trivial, fun stamp => cascadeLevels_uses ..⟩
      have rest : (if status.cascadeSource = true then
          (cascadeCancelBlockedChildren id status).bind fun _ => .done (some job)
          else Program.done (some job) : Prog (Option Job)).Uses Op.Settles := by
        split
        · exact cascade.bind fun _ => trivial
        · exact trivial
      simp only [Program.pure_eq_done, Program.bind_eq_bind]
      split
      · exact .bind ⟨terminalEvent_topic job status message, fun _ => trivial⟩ fun _ => rest
      · exact rest

section Helpers

variable {role : Role}

theorem may_of_probes (operation : Op) (probes : operation.Probes) : role.may operation := by
  unfold Op.Probes at probes
  split at probes
  · exact trivial
  · exact trivial
  · exact probes.elim

theorem may_of_settles (operation : Op) (settles : operation.Settles) : role.may operation := by
  unfold Op.Settles at settles
  split at settles
  all_goals first
    | exact trivial
    | exact settles.elim

theorem probe_may (id : Uuid) : (findBlockingPause id).Uses role.may :=
  (findBlockingPause_uses id).mono may_of_probes

theorem outboxAdd_uses (tenant user : Uuid) (topic : Topic) (event : Event) :
    (outboxAdd tenant user topic event).Uses role.may :=
  ⟨trivial, fun _ => trivial⟩

theorem auditLog_uses (entry : AuditEntry) (permitted : entry.action = "job.created" → role.creates) :
    (auditLog entry).Uses role.may :=
  ⟨permitted, fun _ => trivial⟩

theorem commit_uses : commit.Uses role.may := ⟨trivial, fun _ => trivial⟩

theorem updateStatus_uses {id : Uuid} {write : StatusWrite} {message : Option String}
    {guard : Option (Job → Bool)} (permitted : role.MayUpdate id write guard) :
    (updateStatus id write message guard).Uses role.may := by
  refine .first permitted fun changed => ?_
  split
  · exact trivial
  · exact (afterStatusWrite_uses ..).mono may_of_settles

theorem promoteChild_uses (promotes : role.promotes) (id : Uuid) (child : Job) :
    (promoteChild id child).Uses role.may := by
  refine (probe_may _).bind fun held => ?_
  cases held with
  | some _ => exact trivial
  | none =>
      refine .first promotes fun promoted => ?_
      split
      · exact outboxAdd_uses ..
      · exact trivial

theorem settleDeadLetter_uses {id : Uuid} {job : Job} {write : StatusWrite} {message : Option String}
    {details : List (String × Json)} (permitted : role.MayUpdate id write none) :
    (settleDeadLetter id job write message details).Uses role.may :=
  (updateStatus_uses permitted).bind fun _ => (auditLog_uses _ (by simp)).bind fun _ => commit_uses

theorem loadParents_uses (ids : List Uuid) : (loadParents ids).Uses role.may := by
  induction ids with
  | nil => exact trivial
  | cons id rest ih =>
      refine .first trivial fun found => ?_
      cases found with
      | none => exact trivial
      | some parent =>
          refine ih.bind fun loaded => ?_
          cases loaded <;> exact trivial

theorem probeParents_uses (parents : List Job) : (probeParents parents).Uses role.may := by
  induction parents with
  | nil => exact trivial
  | cons parent rest ih =>
      refine (probe_may _).bind fun held => ?_
      cases held with
      | none => exact ih
      | some _ => exact trivial

theorem performReplay_uses {id : Uuid} {job : Job} {principal : Principal}
    (permitted : role.MayUpdate id replayWrite none) :
    (performReplay id job principal).Uses role.may := by
  refine (updateStatus_uses permitted).bind fun updated => (auditLog_uses _ (by simp)).bind fun _ =>
    (outboxAdd_uses ..).bind fun _ => ?_
  cases updated <;> exact trivial

theorem replayJob_uses {id tenant : Uuid} {principal : Principal}
    (permitted : role.MayUpdate id replayWrite none) :
    (replayJob id tenant principal).Uses role.may := by
  refine .first trivial fun found => ?_
  cases found with
  | none => exact trivial
  | some job =>
      dsimp only
      split
      · exact trivial
      · refine (probe_may _).bind fun held => ?_
        cases held with
        | none => exact performReplay_uses permitted
        | some _ => exact trivial

theorem request_uses {α : Type} {handler : Prog (Except ServiceError α)}
    (uses : handler.Uses role.may) : (request handler).Uses role.may := by
  refine uses.bind fun result => ?_
  cases result <;> exact ⟨trivial, fun _ => trivial⟩

theorem idempotencyWinner_uses (create : CreateJobRequest) :
    (idempotencyWinner create).Uses role.may := by
  unfold idempotencyWinner
  split
  · exact trivial
  · refine .first trivial fun found => ?_
    cases found <;> exact trivial

theorem finishCreate_uses (creates : role.creates) (create : CreateJobRequest)
    (status : JobStatus) (job : Job) : (finishCreate create status job).Uses role.may := by
  have edges : (addDependencies job create.dependencies).Uses role.may := by
    unfold addDependencies
    split
    · exact trivial
    · exact ⟨creates, fun _ => trivial⟩
  refine edges.bind fun added => ?_
  split
  · refine (auditLog_uses _ fun _ => creates).bind fun _ => ?_
    split
    · exact (outboxAdd_uses ..).bind fun _ => trivial
    · exact trivial
  · exact trivial

theorem createJob_uses (settings : Settings) (creates : role.creates)
    (create : CreateJobRequest) : (createJob settings create).Uses role.may := by
  have lookup : (findIdempotent create).Uses role.may := by
    unfold findIdempotent
    split
    · exact trivial
    · split
      · exact trivial
      · exact ⟨trivial, fun _ => trivial⟩
  refine lookup.bind fun existing => ?_
  cases existing with
  | some job => exact trivial
  | none =>
      refine (loadParents_uses _).bind fun loaded => ?_
      cases loaded with
      | error error => exact trivial
      | ok parents =>
          have status : (initialStatus parents).Uses role.may := by
            unfold initialStatus
            split
            · exact trivial
            · refine (probeParents_uses _).bind fun held => ?_
              cases held <;> exact trivial
          refine status.bind fun status => ⟨Role.inserts_of_creates creates, fun inserted => ?_⟩
          cases inserted with
          | none => exact idempotencyWinner_uses create
          | some job => exact finishCreate_uses creates create status job

theorem createSteps_uses (settings : Settings) (creates : role.creates)
    (create : CreateSagaRequest) (saga : Saga) (index : Nat) (previous : Option Uuid)
    (steps : List SagaStep) :
    (createSteps settings create saga index previous steps).Uses role.may := by
  induction steps generalizing index previous with
  | nil => exact trivial
  | cons step rest ih =>
      refine (createJob_uses settings creates _).bind fun created => ?_
      cases created with
      | error error => exact trivial
      | ok job => exact ih _ _

theorem createSaga_uses (settings : Settings) (creates : role.creates) (opens : role.opensSagas)
    (create : CreateSagaRequest) : (createSaga settings create).Uses role.may := by
  unfold createSaga
  split
  · exact trivial
  · refine .first opens (fun saga => (createSteps_uses settings creates ..).bind fun created => ?_)
    cases created with
    | error error => exact trivial
    | ok _ => exact (auditLog_uses _ (by simp)).bind fun _ => trivial

end Helpers

theorem resolveIncident_uses (id user tenant : Uuid) :
    (resolveIncident id user tenant).Uses (Role.resolveIncident id user tenant).may := by
  refine .first trivial fun found => ?_
  cases found with
  | none => exact trivial
  | some job =>
      refine .bind (updateStatus_uses ⟨rfl, rfl, rfl⟩) fun updated =>
        (auditLog_uses _ (by simp)).bind fun _ => ?_
      cases updated <;> exact trivial

section Deliveries

variable {role : Role} {id : Uuid}

theorem loadAndClaim_uses (delivers : role.delivers id) : (loadAndClaim id).Uses role.may := by
  refine .first trivial fun found => ?_
  cases found with
  | none => exact commit_uses.bind fun _ => trivial
  | some job =>
      dsimp only
      split
      · exact commit_uses.bind fun _ => trivial
      · refine (probe_may _).bind fun held => ?_
        cases held with
        | some _ => exact commit_uses.bind fun _ => trivial
        | none => exact ⟨delivers, fun claimed => commit_uses.bind fun _ => trivial⟩

theorem runClaimed_uses (settings : Settings) (job : Job)
    (outcome : ∀ write : StatusWrite, (write.status = .completed ∨ write.status = .deadLetter ∨
      write.status = .pending) → role.MayUpdate id write none) :
    (runClaimed settings id job).Uses role.may := by
  refine .first trivial fun _ => ?_
  split
  · exact settleDeadLetter_uses (outcome _ (by simp))
  · refine .first trivial fun result => ?_
    cases result with
    | returned result =>
        exact (updateStatus_uses (outcome _ (by simp))).bind fun _ =>
          (auditLog_uses _ (by simp)).bind fun _ => commit_uses
    | timedOut => exact settleDeadLetter_uses (outcome _ (by simp))
    | raised error =>
        have consult : (consultRetryPolicy settings job error).Uses role.may := by
          unfold consultRetryPolicy
          dsimp only
          split
          · refine .first trivial fun decision => ?_
            split <;> exact trivial
          · exact trivial
        refine consult.bind fun decision => ?_
        cases decision with
        | inr reasoning => exact settleDeadLetter_uses (outcome _ (by simp))
        | inl delay =>
            dsimp only
            split
            · exact (updateStatus_uses (outcome _ (by simp))).bind fun _ =>
                (outboxAdd_uses ..).bind fun _ => commit_uses.bind fun _ =>
                  ⟨trivial, fun _ => trivial⟩
            · exact settleDeadLetter_uses (outcome _ (by simp))

theorem runJob_uses (settings : Settings) (delivers : role.delivers id)
    (outcome : ∀ write : StatusWrite, (write.status = .completed ∨ write.status = .deadLetter ∨
      write.status = .pending) → role.MayUpdate id write none) :
    (runJob settings id).Uses role.may := by
  refine (loadAndClaim_uses delivers).bind fun admission => ?_
  cases admission with
  | skipped => exact trivial
  | held _ => exact ⟨trivial, fun _ => trivial⟩
  | claimed job => exact runClaimed_uses settings job outcome

end Deliveries

theorem forceDeadLetter_uses (id : Uuid) (error : String) :
    (forceDeadLetter id error).Uses (Role.forceDeadLetter id error).may := by
  refine .first trivial fun found => ?_
  cases found with
  | none => exact commit_uses
  | some job =>
      dsimp only
      split
      · exact commit_uses
      · exact settleDeadLetter_uses ⟨rfl, rfl, rfl⟩

theorem promoteDelayedOnce_uses : promoteDelayedOnce.Uses Role.promoteDelayed.may := by
  refine .first rfl (fun ready => Program.Uses.forEach fun id => .first trivial (fun found => ?_))
  cases found with
  | none => exact commit_uses
  | some job =>
      refine (probe_may _).bind fun held => ?_
      cases held with
      | none => exact (outboxAdd_uses ..).bind fun _ => commit_uses
      | some _ => exact commit_uses.bind fun _ => ⟨trivial, fun _ => trivial⟩

theorem requeueStalePendingOnce_uses :
    requeueStalePendingOnce.Uses Role.requeueStalePending.may := by
  refine .first trivial (fun now => .first trivial (fun rows => ?_))
  refine .bind (.forEach fun job => .first trivial fun score => ?_) fun _ => commit_uses
  cases score with
  | some _ => exact trivial
  | none => exact (outboxAdd_uses ..).bind fun _ => ⟨rfl, fun _ => trivial⟩

theorem sweepStaleRunningOnce_uses (settings : Settings) :
    (sweepStaleRunningOnce settings).Uses Role.sweepStaleRunning.may := by
  refine .first trivial (fun scan => .first trivial (fun rows => .first trivial (fun _ =>
    .first trivial (fun now => Program.Uses.forEach fun job => .first trivial (fun inFlight => ?_)))))
  split
  · exact trivial
  · refine .bind (updateStatus_uses ⟨rfl, job, rfl⟩) fun settled => ?_
    cases settled with
    | none => exact commit_uses
    | some _ => exact (auditLog_uses _ (by simp)).bind fun _ => commit_uses

/-- What arming replays does: it reads, audits and commits. -/
def Op.Arms : Op → Prop
  | .query (.jobForTenant _ _) | .command (.armReplay _ _) | .reading .now | .commit => True
  | .statement (.insertAudit entry) => entry.action ≠ "job.created"
  | _ => False

theorem scheduleEach_uses (ids : List Uuid) (tenant : Uuid) (principal : ToolPrincipal)
    (delaySeconds : Nat) (details : List (String × Json)) :
    (scheduleEach ids tenant principal delaySeconds details).Uses Op.Arms := by
  refine .bind (.forEach fun id => .first trivial fun found => ?_)
    fun _ => ⟨trivial, fun _ => trivial⟩
  cases found with
  | none => exact trivial
  | some job =>
      dsimp only
      split
      · exact trivial
      · refine .first trivial fun now => Program.Uses.bind ⟨?_, fun _ => trivial⟩ fun _ =>
          ⟨trivial, fun _ => trivial⟩
        show "job.replay_scheduled" ≠ "job.created"
        decide

theorem may_of_arms {role : Role} (operation : Op) (arms : operation.Arms) : role.may operation := by
  cases operation with
  | query query => cases query <;> first | exact trivial | exact arms.elim
  | statement issued => cases issued <;> first | exact trivial | exact arms.elim
  | command command => cases command <;> first | exact trivial | exact arms.elim
  | publishRaw row => exact arms.elim
  | _ => exact trivial

theorem fireScheduledReplay_uses (member : ReplayMember) :
    (fireScheduledReplay member).Uses Role.promoteDlqReplay.may := by
  refine (probe_may _).bind fun held => ?_
  have acknowledge : (redis (.ackReplay member)).Uses Role.promoteDlqReplay.may :=
    ⟨trivial, fun _ => trivial⟩
  cases held with
  | some _ =>
      exact commit_uses.bind fun _ => ⟨trivial, fun now => ⟨trivial, fun _ => acknowledge⟩⟩
  | none =>
      exact Program.Uses.bind (request_uses (replayJob_uses ⟨rfl, rfl⟩)) fun _ => acknowledge

theorem promoteDlqReplayOnce_uses : promoteDlqReplayOnce.Uses Role.promoteDlqReplay.may :=
  .first trivial fun _ => Program.Uses.forEach fireScheduledReplay_uses

theorem outboxRelayTick_uses (settings : Settings) :
    (outboxRelayTick settings).Uses Role.outboxRelay.may := by
  have publish : ∀ rows batch, (publishBatch settings rows batch).Uses Role.outboxRelay.may := by
    intro rows
    induction rows with
    | nil => exact fun _ => trivial
    | cons row rest ih =>
        refine fun batch => .first rfl (fun result => ?_)
        cases result with
        | acknowledged => exact ih _
        | schemaInvalid error => exact ih _
        | refused error =>
            dsimp only
            split <;> exact ih _
  refine .first trivial (fun events => .first trivial (fun _ => ?_))
  split
  · exact trivial
  · refine (publish _ _).bind fun batch => ?_
    have marked : (markPublished batch.published).Uses Role.outboxRelay.may := by
      unfold markPublished
      split
      · exact trivial
      · exact ⟨trivial, fun _ => ⟨rfl, fun _ => trivial⟩⟩
    have counted : (incrementAttempts batch.retry).Uses Role.outboxRelay.may := by
      unfold incrementAttempts
      split
      · exact trivial
      · exact ⟨rfl, fun _ => trivial⟩
    exact marked.bind fun _ => counted.bind fun _ => Program.Uses.bind
      (Program.Uses.forEach fun row => ⟨trivial, fun _ => ⟨rfl, fun _ => trivial⟩⟩)
      fun _ => commit_uses

theorem resolveDependents_uses (parent : Uuid) :
    (resolveDependents parent).Uses (Role.resolveDependents parent).may := by
  refine .first trivial fun children => ?_
  refine .bind (.forEach fun id => .first trivial fun found => ?_) fun _ => commit_uses
  cases found with
  | none => exact trivial
  | some child =>
      dsimp only
      split
      · exact trivial
      · refine .first trivial fun unmet => ?_
        split
        · exact trivial
        · exact promoteChild_uses (show Role.promotes (.resolveDependents parent) from rfl) ..

theorem coordinateSaga_uses (topic : Topic) (id : Uuid) :
    (coordinateSaga topic id).Uses (Role.coordinateSaga topic id).may := by
  have settle : ∀ held saga, (settleIfDrained held saga).Uses (Role.coordinateSaga topic id).may := by
    refine fun held saga => .first rfl (fun steps => ?_)
    dsimp only
    split
    · exact trivial
    · refine ⟨trivial, fun now => ⟨rfl, fun _ => auditLog_uses _ fun created => ?_⟩⟩
      split at created <;> simp at created
  have complete : ∀ held saga, (handleCompletion held saga).Uses (Role.coordinateSaga topic id).may := by
    refine fun held saga => .first rfl (fun steps => ?_)
    dsimp only
    split
    · exact trivial
    · split
      · exact ⟨trivial, fun now => ⟨rfl, fun _ => auditLog_uses _ (by simp)⟩⟩
      · exact trivial
  have compensate : ∀ saga user done,
      (emitCompensation saga user done).Uses (Role.coordinateSaga topic id).may := by
    refine fun saga user done => ⟨rfl, fun inserted => ?_⟩
    cases inserted with
    | none => exact trivial
    | some job => exact outboxAdd_uses ..
  have fail : ∀ failed saga, (handleFailure failed saga).Uses (Role.coordinateSaga topic id).may := by
    refine fun failed saga => .first rfl (fun _ => .first rfl (fun waiting => ?_))
    refine .bind (Program.Uses.forEach fun step =>
      Program.Uses.bind (updateStatus_uses ⟨rfl, rfl⟩) fun _ => trivial) fun _ => ?_
    refine .first rfl fun completed => ?_
    refine (Program.Uses.forEach fun done => compensate saga failed.userId done).bind
      fun _ => ?_
    refine (auditLog_uses _ (by simp)).bind fun _ => ?_
    split
    · exact settle failed saga
    · exact trivial
  refine .first trivial fun found => ?_
  cases found with
  | none => exact commit_uses
  | some job =>
      dsimp only
      split
      · exact commit_uses
      · refine .first rfl fun found => ?_
        split
        · exact commit_uses
        · rename_i saga
          refine Program.Uses.bind ?_ fun _ => commit_uses
          unfold routeSagaEvent
          dsimp only
          split
          · split
            · exact complete job saga
            · split
              · exact fail job saga
              · exact trivial
          · split
            · exact settle job saga
            · exact trivial

theorem program_uses (settings : Settings) (role : Role) :
    (role.program settings).Uses role.may := by
  cases role with
  | createJob create =>
      exact request_uses (createJob_uses settings (show Role.creates (.createJob create) from rfl) create)
  | createSaga create =>
      exact request_uses (createSaga_uses settings (show Role.creates (.createSaga create) from rfl)
        (show Role.opensSagas (.createSaga create) from rfl) create)
  | replay id tenant principal => exact request_uses (replayJob_uses ⟨rfl, rfl, rfl⟩)
  | replayEach ids tenant principal =>
      exact Program.Uses.bind (Program.Uses.forEach fun id =>
        Program.Uses.bind (replayJob_uses ⟨rfl, rfl⟩) fun _ => trivial) fun _ => commit_uses
  | scheduleEach ids tenant principal delaySeconds details =>
      exact (scheduleEach_uses ids tenant principal delaySeconds details).mono may_of_arms
  | resolveIncident id user tenant => exact request_uses (resolveIncident_uses id user tenant)
  | deliver id => exact runJob_uses settings (decide_eq_true rfl) fun write status => ⟨rfl, rfl, status⟩
  | redeliver id => exact runJob_uses settings (decide_eq_true rfl) fun write status => ⟨rfl, rfl, status⟩
  | forceDeadLetter id error => exact forceDeadLetter_uses id error
  | promoteDelayed => exact promoteDelayedOnce_uses
  | resumeUnblockedWaiting cursor =>
      have promotes : (Role.resumeUnblockedWaiting cursor).promotes := rfl
      exact .first trivial fun rows =>
        .bind (.forEach fun child => promoteChild_uses promotes ..) fun _ => commit_uses
  | requeueStalePending => exact requeueStalePendingOnce_uses
  | sweepStaleRunning => exact sweepStaleRunningOnce_uses settings
  | renewRunningLeases ids =>
      simp only [Role.program, renewRunningLeasesOnce]
      split
      · exact trivial
      · exact ⟨trivial, fun now => ⟨rfl, fun _ => commit_uses⟩⟩
  | promoteDlqReplay => exact promoteDlqReplayOnce_uses
  | outboxRelay => exact outboxRelayTick_uses settings
  | resolveDependents parent => exact resolveDependents_uses parent
  | coordinateSaga topic id => exact coordinateSaga_uses topic id

/-- Every logged operation is one its role may perform. -/
theorem logged_may {settings : Settings} {pool : PlatformPool} (reachable : Reachable settings pool) :
    ∀ entry ∈ pool.log, entry.role.may entry.operation := by
  obtain ⟨outside, reached⟩ := reachable
  exact (reached.uses (program_uses settings)).2

/-- So is the operation a process stands before. -/
theorem next_may {settings : Settings} {pool : PlatformPool} (reachable : Reachable settings pool)
    {pid : Pid} {role : Role} {operation : Op} {next : Reply operation → Prog Unit}
    (found : pool.process pid = some { role, program := .call operation next }) :
    role.may operation := by
  obtain ⟨outside, reached⟩ := reachable
  exact ((reached.uses (program_uses settings)).1 pid _ found).1

theorem stored_of_held {settings : Settings} {pool : PlatformPool}
    (reachable : Reachable settings pool) {job : Uuid} {owner : Pid} {row : Job}
    {process : Process Role Op Reply} (held : (pool.world.jobs.slot job).holder = some (owner, row))
    (present : pool.process owner = some process) (other : ¬ process.role.inserts) :
    ∃ stored, (pool.world.jobs.slot job).committed = some stored := by
  obtain ⟨outside, reached⟩ := reachable
  revert owner row process
  refine reached.invariant (motive := fun pool => ∀ {owner row process},
    (pool.world.jobs.slot job).holder = some (owner, row) → pool.process owner = some process →
    ¬ process.role.inserts → ∃ stored, (pool.world.jobs.slot job).committed = some stored)
    ?_ ?_ ?_ ?_
  · intro owner row process held
    cases held
  · intro before pid role world earlier ih unused accepted owner row process held present other
    rw [Pool.start_world, accept_jobs accepted] at held ⊢
    obtain ⟨running, started⟩ := holder_started ⟨outside, earlier⟩ held
    have different : owner ≠ pid := by
      intro same
      rw [same, unused] at started
      cases started
    rw [Pool.start_process, Pool.setProcess_other _ _ different] at present
    exact ih held present other
  · intro before pid role operation next reply world earlier ih found operated owner row process
      held present other
    obtain ⟨process, present, same⟩ := Pool.role_of_record found present
    rw [← same] at other
    rw [Pool.record_world] at held ⊢
    rcases operate_slot operated job with ⟨new, writes, free, slot⟩ | ⟨_, slot⟩ | ⟨_, slot⟩ |
      ⟨_, _, _, slot⟩
    · rw [slot] at held ⊢
      cases held
      rw [found] at present
      cases present
      cases current : (before.world.jobs.slot job).holder with
      | some entry =>
          obtain ⟨holder, version⟩ := entry
          obtain rfl := free holder version current
          exact ih current found other
      | none =>
          rw [← Table.slot_visible, Slot.visible_of_free (by simp [current])] at writes
          cases stored : (before.world.jobs.slot job).committed with
          | some row => exact ⟨row, stored⟩
          | none =>
              rw [stored] at writes
              obtain ⟨draft, rfl⟩ := inserts_of_absent writes
              exact absurd (next_may ⟨outside, earlier⟩ found) other
    · obtain ⟨stored, committed⟩ := ih (Slot.holder_of_commit (slot ▸ held)) present other
      exact committed_kept operated committed
    · obtain ⟨stored, committed⟩ := ih (Slot.holder_of_rollback (slot ▸ held)) present other
      exact committed_kept operated committed
    · rw [slot] at held ⊢
      exact ih held present other
  · intro before change world _ ih changed owner row process held present other
    rw [change_slot changed] at held ⊢
    exact ih held present other

theorem stored_of_seen {settings : Settings} {pool : PlatformPool}
    (reachable : Reachable settings pool) {job : Uuid} {pid : Pid} {row : Job}
    {process : Process Role Op Reply} (seen : (pool.world.jobs.slot job).visible pid = some row)
    (present : pool.process pid = some process) (other : ¬ process.role.inserts) :
    ∃ stored, (pool.world.jobs.slot job).committed = some stored := by
  by_cases held : ∃ version, (pool.world.jobs.slot job).holder = some (pid, version)
  · obtain ⟨version, held⟩ := held
    exact stored_of_held reachable held present other
  · rw [Slot.visible_of_free fun version mine => held ⟨version, mine⟩] at seen
    exact ⟨row, seen⟩

end IncidentPlatform.Platform
