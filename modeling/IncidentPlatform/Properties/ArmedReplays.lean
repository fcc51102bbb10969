import IncidentPlatform.Mcp.CallPhases
import IncidentPlatform.Mcp.ScheduledReplay

namespace IncidentPlatform.Properties

open Concurrency Mcp Models Services

/-! # Armed replays and their audit rows

A Redis entry outlives every rollback.  The compensation of an item covers the
item's savepoint, so an armed replay keeps its row exactly when the scopes around
it are kept.
-/

variable {marks : List (List (Stored AuditEntry))} {stage : RequestStage AuditEntry}

/-- `execute_at` as the row records it. -/
def recordedExecuteAt (entry : AuditEntry) : Option Json :=
  match entry.extraData with
  | .object fields => fields.lookup "execute_at"
  | _ => none

/-- The rows tell of the replay of this job at this time. -/
def ReplayAudited (job : Uuid) (executeAt : Time) (rows : List (Stored AuditEntry)) : Prop :=
  ∃ entry, Stored.tool entry ∈ rows ∧ entry.action = "job.replay_scheduled" ∧ entry.jobId = some job ∧
    recordedExecuteAt entry = some (.number (secondsText executeAt))

def ArmsAudited (stage : RequestStage AuditEntry) : Prop :=
  ∀ job executeAt, (job, executeAt) ∈ stage.armed → ReplayAudited job executeAt stage.rows

def Unwritten (rows : List (Stored AuditEntry)) : Prop := ∀ entry, Stored.tool entry ∉ rows

theorem ReplayAudited.grow {job : Uuid} {executeAt : Time} {rows more : List (Stored AuditEntry)}
    (audited : ReplayAudited job executeAt rows) : ReplayAudited job executeAt (rows ++ more) := by
  obtain ⟨entry, member, told⟩ := audited
  exact ⟨entry, List.mem_append_left more member, told⟩

theorem Unwritten.unaudited {job : Uuid} {executeAt : Time} {rows : List (Stored AuditEntry)}
    (unwritten : Unwritten rows) : ¬ReplayAudited job executeAt rows :=
  fun ⟨entry, member, _⟩ => unwritten entry member

theorem Unwritten.write {row : Stored AuditEntry} (unwritten : Unwritten stage.rows)
    (other : ∀ entry, Stored.tool entry ≠ row) : Unwritten (stage.write row).rows := by
  intro entry member
  obtain old | new := List.mem_append.mp member
  · exact unwritten entry old
  · exact other entry (List.mem_singleton.mp new)

theorem ArmsAudited.write (audited : ArmsAudited stage) (row : Stored AuditEntry) : ArmsAudited (stage.write row) :=
  fun job executeAt member => (audited job executeAt member).grow

def Between (executed : Bool) (stage : RequestStage AuditEntry) : Prop :=
  ArmsAudited stage ∧ stage.executed = executed

section Items

variable {executed : Bool} {caller : Caller} {delaySeconds : Nat} {details : List (String × Json)}

theorem recordedExecuteAt_replayScheduled (job : Uuid) (executeAt : Time) :
    recordedExecuteAt (replayScheduled caller delaySeconds details job executeAt) =
      some (.number (secondsText executeAt)) := rfl

theorem moves_scheduled (job : Uuid) (executeAt : Time) :
    Moves (nestedTracking (write (.tool (replayScheduled caller delaySeconds details job executeAt)))
        (armReplay job executeAt)) marks stage
      (fun result after =>
        let armed := (job, executeAt) :: stage.armed.filter fun member => member.1 ≠ job
        match result with
        | .ok _ =>
            after = { stage.write (.tool (replayScheduled caller delaySeconds details job executeAt)) with armed }
        | .error (armAttempted, _) => after = { stage with armed := if armAttempted then armed else stage.armed })
      fun _ _ => False := by
  let row : Stored AuditEntry := .tool (replayScheduled caller delaySeconds details job executeAt)
  have begun : Moves (write row) (stage.rows :: marks) stage (fun _ after => after = stage.write row)
      fun _ after => Raised → { after with rows := stage.rows } = stage := moves_write rfl fun _ _ => rfl
  refine Moves.nestedTracking (fun _ => rfl) begun ?_
  rintro _ rfl
  exact moves_armReplay rfl ⟨rfl, fun _ => rfl⟩ fun _ _ => rfl

theorem ArmsAudited.armed (audited : ArmsAudited stage) (job : Uuid) (executeAt : Time) :
    ArmsAudited { stage.write (.tool (replayScheduled caller delaySeconds details job executeAt)) with
      armed := (job, executeAt) :: stage.armed.filter fun member => member.1 ≠ job } := by
  intro other time member
  obtain same | older := List.mem_cons.mp member
  · cases same
    refine ⟨_, List.mem_append_right stage.rows (List.mem_singleton_self _), rfl, rfl, ?_⟩
    exact recordedExecuteAt_replayScheduled job executeAt
  · exact (audited other time (List.mem_of_mem_filter older)).grow

theorem ArmsAudited.disarmed (audited : ArmsAudited stage) (job : Uuid) :
    ArmsAudited { stage with armed := stage.armed.filter fun member => member.1 ≠ job } :=
  fun other time member => audited other time (List.mem_of_mem_filter member)

theorem coherent_scheduleOneAudited (held : Between executed stage) (job : Uuid) :
    Coherent (Between executed) (scheduleOneAudited caller delaySeconds details job) marks stage := by
  obtain ⟨audited, same⟩ := held
  have timed : Moves time marks stage (fun _ after => after = stage) fun _ => Between executed :=
    moves_time fun _ => rfl
  refine timed.bind fun now after held => ?_
  subst held
  refine Moves.bind ((moves_scheduled job _).mono (fun _ _ held => held) fun _ _ absurd => absurd.elim) ?_
  rintro (⟨_ | _, raised⟩ | _) reached held
  · subst held
    exact .throw ⟨audited, same⟩
  · subst held
    let disarmed : RequestStage AuditEntry :=
      { after with armed := after.armed.filter fun member => member.1 ≠ job }
    have between : Between executed disarmed := ⟨audited.disarmed job, same⟩
    have cancelled : Coherent (Between executed) (cancelScheduledReplay job) marks
        { after with armed := (job, now + seconds delaySeconds) :: disarmed.armed } := by
      refine moves_cancelScheduledReplay ?_ between fun _ => between
      simp [disarmed]
    have undone : Coherent (Between executed) (exceptException (cancelScheduledReplay job) (pure ())) marks
        { after with armed := (job, now + seconds delaySeconds) :: disarmed.armed } := by
      apply Moves.exceptException cancelled
      · exact fun _ _ _ held => .pure held
      · exact fun _ _ _ held => held
    exact undone.bind fun _ _ held => .throw held
  · subst held
    exact .pure ⟨audited.armed job _, same⟩

theorem coherent_scheduleOne (held : Between executed stage) (job : Uuid) :
    Coherent (Between executed) (scheduleOne caller delaySeconds job) marks stage := by
  have read : Moves (jobForTenant job caller.tenantId) marks stage (fun _ => Between executed)
      fun _ => Between executed := moves_jobForTenant (fun _ => held) fun _ => held
  refine read.bind fun status after held => ?_
  cases status with
  | none => exact .throw held
  | some status =>
    dsimp only
    split
    · exact .throw held
    · exact coherent_scheduleOneAudited held job

theorem coherent_scheduleEach {schedule : Uuid → RequestAct AuditEntry Time}
    (item : ∀ stage job, Between executed stage → Coherent (Between executed) (schedule job) marks stage)
    (jobs : List Uuid) :
    ∀ stage, Between executed stage → Coherent (Between executed) (scheduleEach schedule jobs) marks stage := by
  induction jobs with
  | nil => exact fun stage held => .pure held
  | cons job rest ih =>
    intro stage held
    have attempted : Coherent (Between executed) (Act.rescue
        (do
          let executeAt ← schedule job
          pure { id := job, ok := true, scheduled := true, executeAt := some executeAt : ReplayResult })
        fun raised =>
          if raised.isException then pure { id := job, ok := false, error := some raised.text }
          else throw raised) marks stage := by
      have scheduled : Coherent (Between executed) (do
          let executeAt ← schedule job
          pure { id := job, ok := true, scheduled := true, executeAt := some executeAt : ReplayResult }) marks stage :=
        (item stage job held).bind fun _ _ held => .pure held
      apply Moves.rescue scheduled
      intro raised after held
      split
      · exact .pure held
      · exact .throw held
    refine Moves.bind attempted fun result after held => ?_
    exact Moves.bind (ih after held) fun results last held => .pure held

theorem coherent_replayDlqByIds (held : Between executed stage) (input : ReplayDlqByIdsInput) :
    Coherent (Between executed) (replayDlqByIds input caller) marks stage := by
  refine Coherent.bind (coherent_scheduleEach (fun _ job held => coherent_scheduleOne held job) _ stage held) ?_
  intro results after held
  exact (coherent_await held).bind fun _ _ held => .pure held

theorem coherent_replayDlqByCategory (held : Between executed stage) (input : ReplayDlqByCategoryInput) :
    Coherent (Between executed) (replayDlqByCategory input caller) marks stage := by
  unfold replayDlqByCategory
  split
  · exact .throw held
  · have read : Moves (deadLetters caller.tenantId input.jobType input.category input.maxReplays) marks stage
        (fun _ => Between executed) fun _ => Between executed := moves_deadLetters (fun _ => held) fun _ => held
    refine read.bind fun jobs after held => ?_
    refine Coherent.bind
      (coherent_scheduleEach (fun _ job held => coherent_scheduleOneAudited held job) jobs after held) ?_
    intro results after held
    exact (coherent_await held).bind fun _ _ held => .pure held

end Items

structure Unarmed (stage : RequestStage AuditEntry) : Prop where
  armed : stage.armed = []
  unexecuted : stage.executed = false
  unwritten : Unwritten stage.rows

structure Undone (stage : RequestStage AuditEntry) : Prop where
  unexecuted : stage.executed = false
  unwritten : Unwritten stage.rows

structure Scheduled (stage : RequestStage AuditEntry) : Prop where
  executed : stage.executed = true
  audited : ArmsAudited stage

/-- What is armed is in the rows, unless the handler's rows are gone. -/
structure ArmsSettled (stage : RequestStage AuditEntry) : Prop where
  audited : stage.executed = true → ArmsAudited stage
  unwritten : stage.executed = false → Unwritten stage.rows

theorem ArmsSettled.write {row : Stored AuditEntry} (settled : ArmsSettled stage)
    (other : ∀ entry, Stored.tool entry ≠ row) : ArmsSettled (stage.write row) where
  audited executed := (settled.audited executed).write row
  unwritten unexecuted := (settled.unwritten unexecuted).write other

theorem Undone.settled (undone : Undone stage) : ArmsSettled stage where
  audited executed := absurd executed (by simp [undone.unexecuted])
  unwritten _ := undone.unwritten

theorem Scheduled.settled (scheduled : Scheduled stage) : ArmsSettled stage where
  audited _ := scheduled.audited
  unwritten unexecuted := absurd unexecuted (by simp [scheduled.executed])

theorem replay_phases : Phases Unarmed Undone Scheduled ArmsSettled where
  unfailed _ unarmed := ⟨unarmed.unexecuted, unarmed.unwritten⟩
  answered _ undone := undone.settled
  claims _ _ unarmed := ⟨unarmed.armed, unarmed.unexecuted, unarmed.unwritten.write (by simp)⟩
  keeps _ _ settled := settled.write (by simp)
  audits _ _ undone := undone.settled.write (by simp)
  tells _ _ scheduled _ := scheduled.settled.write (by simp)

def Schedules (tool : ToolDefinition AuditEntry) : Prop :=
  (∃ inputModel, tool = replayDlqByIdsTool inputModel) ∨ ∃ inputModel, tool = replayDlqByCategoryTool inputModel

theorem handles_of_coherent {handler : RequestAct AuditEntry Json}
    (coherent : ∀ marks stage, Between false stage → Coherent (Between false) handler marks stage) :
    Handles Unarmed Undone Scheduled handler := by
  intro marks stage unarmed
  have between : Between false stage := by
    refine ⟨fun job executeAt member => ?_, unarmed.unexecuted⟩
    simp [unarmed.armed] at member
  have undone : ∀ after, Between false after → Undone { after with rows := stage.rows } :=
    fun after held => ⟨held.2, unarmed.unwritten⟩
  apply (coherent marks stage between).mono
  · exact fun _ after held => ⟨⟨rfl, held.1⟩, undone after held⟩
  · exact fun _ after held => undone after held

theorem Schedules.handles {tool : ToolDefinition AuditEntry} (schedules : Schedules tool) (input : tool.Input)
    (caller : Caller) : Handles Unarmed Undone Scheduled (tool.handler input caller) := by
  obtain ⟨_, rfl⟩ | ⟨_, rfl⟩ := schedules
  · exact handles_of_coherent fun _ _ held => coherent_replayDlqByIds held input
  · exact handles_of_coherent fun _ _ held => coherent_replayDlqByCategory held input

/-- The tool's savepoint was released, and the commit of the request took effect. -/
def ScopesKept (acts : List ((operation : RequestOp AuditEntry) × RequestReply operation)) : Prop :=
  (requestAfter acts).executed = true ∧ (requestAfter acts).landed = true

/-- With Redis reached, a replay that is left armed has its row exactly when no scope
around its item was rolled back. -/
theorem armed_replay_audited_iff (registry : String → Option (ToolDefinition AuditEntry)) (caller : Caller)
    (params : Except Json ToolCallParams)
    (schedules : ∀ call tool, params = .ok call → registry call.name = some tool → Schedules tool)
    {acts : List ((operation : RequestOp AuditEntry) × RequestReply operation)}
    {result : Except Raised JsonRpcResponse}
    (yields : (mcpEndpoint registry caller params).run.Yields acts result)
    (reached : (requestAfter acts).unreached = false) {job : Uuid} {executeAt : Time}
    (left : (job, executeAt) ∈ (requestAfter acts).armed) :
    ReplayAudited job executeAt (requestAfter acts).session.committed ↔ ScopesKept acts := by
  have unarmed : Unarmed {} := ⟨rfl, rfl, nofun⟩
  have handles : ∀ call tool input, params = .ok call → registry call.name = some tool →
      tool.inputModel call.arguments = .ok input → Handles Unarmed Undone Scheduled (tool.handler input caller) :=
    fun call tool input parsed known _ => (schedules call tool parsed known).handles input caller
  unfold ScopesKept
  cases replay_phases.ends unarmed handles yields with
  | rolledBack uncommitted unlanded => simp [uncommitted, unlanded, ReplayAudited]
  | committed stage settled rows executed armed landed =>
    rw [armed reached] at left
    rw [rows, executed]
    cases flag : stage.executed with
    | true => simp [settled.audited flag job executeAt left, landed]
    | false => simp [(settled.unwritten flag).unaudited]

/-! Two replays, scheduled by id; Redis arms the second one, but its answer is lost. -/

def replayTool : ToolDefinition AuditEntry :=
  replayDlqByIdsTool fun _ => .ok { jobIds := [7, 8], delaySeconds := 60 }

def replayRegistry (name : String) : Option (ToolDefinition AuditEntry) :=
  if name = "replay_dlq_by_ids" then some replayTool else none

def replayCaller : Caller :=
  { tenantId := 1, principal := { kind := "service_account", id := 2 }, scopes := ["actions:execute"] }

def replayCall : ToolCallParams :=
  { name := "replay_dlq_by_ids", arguments := [("idempotency_key", .string "incident-1")] }

def replayInvocation : ToolInvocation := (invocationOf replayCaller replayCall none replayTool .success).row

/-- The call up to its audit row: job 7 is armed at 61 seconds, and job 8 is
disarmed after its savepoint is rolled back. -/
def armedActs : List ((operation : RequestOp AuditEntry) × RequestReply operation) :=
  [⟨.await, .ok ()⟩, ⟨.acquire "incident-1", .ok (.claim 5)⟩, ⟨.savepoint, .ok ()⟩,
    ⟨.jobForTenant 7 1, .ok (some .deadLetter)⟩, ⟨.time, seconds 1⟩, ⟨.savepoint, .ok ()⟩,
    ⟨.write (.tool (replayScheduled replayCaller 60 [] 7 (seconds 61))), .ok ()⟩,
    ⟨.armReplay 7 (seconds 61), (true, .ok ())⟩, ⟨.release, .ok ()⟩,
    ⟨.jobForTenant 8 1, .ok (some .deadLetter)⟩, ⟨.time, seconds 2⟩, ⟨.savepoint, .ok ()⟩,
    ⟨.write (.tool (replayScheduled replayCaller 60 [] 8 (seconds 62))), .ok ()⟩,
    ⟨.armReplay 8 (seconds 62), (true, .error (.exception "timeout"))⟩, ⟨.rollbackTo, .ok ()⟩,
    ⟨.cancelScheduledReplay 8, (true, .ok ())⟩, ⟨.await, .ok ()⟩, ⟨.await, .ok ()⟩,
    ⟨.release, .ok ()⟩, ⟨.executed, ()⟩, ⟨.savepoint, .ok ()⟩]

/-- Its audit row is written, and the request is committed. -/
def auditedActs : List ((operation : RequestOp AuditEntry) × RequestReply operation) :=
  armedActs ++ [⟨.write (.invocation replayInvocation), .ok ()⟩, ⟨.release, .ok ()⟩, ⟨.savepoint, .ok ()⟩,
    ⟨.await, .ok ()⟩, ⟨.write (.idempotency 5), .ok ()⟩, ⟨.await, .ok ()⟩, ⟨.release, .ok ()⟩, ⟨.await, .ok ()⟩,
    ⟨.await, .ok ()⟩, ⟨.commit, (true, .ok ())⟩]

def unauditedActs : List ((operation : RequestOp AuditEntry) × RequestReply operation) :=
  armedActs ++ [⟨.write (.invocation replayInvocation), .error (.exception "disk full")⟩, ⟨.rollbackTo, .ok ()⟩,
    ⟨.rollback, .ok ()⟩]

theorem replay_registry_schedules (call : ToolCallParams) (tool : ToolDefinition AuditEntry)
    (known : replayRegistry call.name = some tool) : Schedules tool := by
  unfold replayRegistry at known
  split at known
  · cases known
    exact .inl ⟨_, rfl⟩
  · contradiction

theorem committed_replay_is_audited :
    (requestAfter auditedActs).armed = [(7, seconds 61)] ∧
      ReplayAudited 7 (seconds 61) (requestAfter auditedActs).session.committed := by
  have answers : ∃ result, (mcpEndpoint replayRegistry replayCaller (.ok replayCall)).run.Yields auditedActs
      result := by
    apply Exists.intro
    repeat constructor
  obtain ⟨result, yields⟩ := answers
  exact ⟨rfl, (armed_replay_audited_iff replayRegistry replayCaller (.ok replayCall)
    (fun call tool _ => replay_registry_schedules call tool) yields rfl (.head _)).mpr ⟨rfl, rfl⟩⟩

/-- The failed audit row rolls the request back, and the replay stays armed without its
own. -/
theorem unaudited_replay_stays_armed :
    (mcpEndpoint replayRegistry replayCaller (.ok replayCall)).run.Yields unauditedActs
        (.error (.auditWriteFailed "replay_dlq_by_ids")) ∧
      (requestAfter unauditedActs).unreached = false ∧ (7, seconds 61) ∈ (requestAfter unauditedActs).armed ∧
      ¬ReplayAudited 7 (seconds 61) (requestAfter unauditedActs).session.committed := by
  refine ⟨?_, rfl, .head _, ?_⟩
  · repeat constructor
  · rintro ⟨entry, member, _⟩
    contradiction

end IncidentPlatform.Properties
