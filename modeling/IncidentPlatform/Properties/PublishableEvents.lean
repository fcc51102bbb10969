import IncidentPlatform.Schemas.JobLifecycle

namespace IncidentPlatform.Properties

open Concurrency Models Services Workers Schemas

/-! # Whether an event can be published

The producers and the schemas agree on every event of every job but in one
bound: a saga step may have an empty type, which no schema admits as `job_type`.
-/

variable {models : PayloadModels} {settings : Settings} {scaling : Scaling} {request : CreateJobRequest}
  {status : JobStatus} {id : Uuid} {now : Time} {job : Job} {start before after last : JobHistory}
  {transition : JobHistory.Transition} {steps : List (JobHistory × JobHistory.Transition)}

/-- What the columns of a job hold, whatever its life has brought. -/
structure SoundJob (jobType : String) (job : Job) : Prop where
  type : job.type = jobType
  payload : ∃ fields, job.payload = some (.object fields)
  result : IsObjectOrNull (job.result.getD .null)
  priority : 0 ≤ job.priority

theorem submits_priority (submits : Submits models request) : 0 ≤ request.priority := by
  cases submits with
  | job context body => exact body.priority_bounded.1
  | step context body saga index previous member =>
      obtain ⟨step, _, rfl⟩ := List.mem_map.mp member
      exact step.priority_bounded.1

theorem soundJob_created (submits : Submits models request) :
    SoundJob request.jobType ((request.draft settings status).row id now) := by
  constructor
  · rfl
  · obtain ⟨fields, same⟩ : ∃ fields, request.enrichedPayload = .object fields := by
      unfold CreateJobRequest.enrichedPayload
      split
      · exact ⟨_, rfl⟩
      · exact ⟨_, rfl⟩
    exact ⟨fields, congrArg some same⟩
  · exact trivial
  · exact submits_priority submits

theorem SoundJob.apply {jobType : String} {write : StatusWrite} (sound : SoundJob jobType job)
    (stores : JobHistory.storesObject write = true) : SoundJob jobType (write.apply now job) := by
  constructor
  · exact sound.type
  · exact sound.payload
  · simp only [StatusWrite.apply]
    unfold JobHistory.storesObject at stores
    split at stores
    · rename_i fields stored
      simp [stored, IsObjectOrNull]
    · rename_i cleared
      simp [cleared, IsObjectOrNull]
    · rename_i kept
      simpa [kept] using sound.result
    · contradiction
  · exact sound.priority

theorem isObject_payloadForEvent {payload : Json} (object : IsObjectOrNull payload) :
    IsObjectOrNull (payloadForEvent payload) := by
  unfold payloadForEvent
  dsimp only
  split
  · exact object
  · exact trivial

theorem SoundJob.submitted_iff {jobType : String} (sound : SoundJob jobType job) :
    validate "job.submitted" (eventPayload (jobSubmittedPayload job)) = .ok () ↔ jobType ≠ "" := by
  obtain ⟨fields, payload⟩ := sound.payload
  have object : IsObjectOrNull (job.payload.getD (.object [])) := by
    rw [payload]
    exact trivial
  rw [jobSubmittedPayload, submitted_valid_iff object sound.priority, sound.type]

theorem SoundJob.terminal_iff {jobType : String} {message : Option String} (sound : SoundJob jobType job)
    (terminal : status.terminal = true) :
    validate (topicName (terminalEvent job status message).1) (eventPayload (terminalEvent job status message).2) =
      .ok () ↔ jobType ≠ "" := by
  have completed : validate "job.completed" (eventPayload (completedEventPayload job)) = .ok () ↔ jobType ≠ "" := by
    rw [completedEventPayload, completed_valid_iff sound.result, sound.type]
  have cancelled : validate "job.cancelled" (eventPayload (cancelledEventPayload job)) = .ok () ↔ jobType ≠ "" := by
    rw [cancelledEventPayload, cancelled_valid_iff, sound.type]
  have dead : validate "job.dlq" (eventPayload (dlqEventPayload job message)) = .ok () ↔ jobType ≠ "" := by
    obtain ⟨fields, payload⟩ := sound.payload
    have object : IsObjectOrNull (withoutTraceCarrier job.payload) := by
      rw [payload]
      exact trivial
    rw [dlqEventPayload, deadLettered_valid_iff (isObject_payloadForEvent object), sound.type]
  cases status with
  | completed => exact completed
  | cancelled => exact cancelled
  | deadLetter => exact dead
  | _ => contradiction

theorem SoundJob.retrying_iff {jobType error : String} {delay : Time} (sound : SoundJob jobType job) :
    validate "job.failed" (eventPayload (retryingEvent job error delay)) = .ok () ↔ jobType ≠ "" := by
  rw [retryingEvent, retrying_valid_iff, sound.type]

theorem processorPercents_bounded {total percent : Nat} {type : JobType}
    (reported : percent ∈ processorPercents scaling total type) : percent ≤ 100 := by
  cases type with
  | bulkApiSync =>
      simp only [processorPercents] at reported
      split at reported
      · simp only [List.mem_cons, List.not_mem_nil, or_false] at reported
        omega
      · obtain rfl | share := List.mem_cons.mp reported
        · omega
        · obtain ⟨done, among, rfl⟩ := List.mem_map.mp share
          exact scaling.bounded _ _ (List.mem_range.mp among)
  | csvUpload =>
      obtain rfl | share := List.mem_cons.mp reported
      · omega
      · obtain ⟨done, among, rfl⟩ := List.mem_map.mp share
        have few := List.mem_range.mp among
        exact scaling.bounded _ _ (by omega)
  | docAnalysis =>
      simp only [processorPercents, List.mem_cons, List.not_mem_nil, or_false] at reported
      omega
  | reportGen =>
      simp only [processorPercents, List.mem_cons, List.not_mem_nil, or_false] at reported
      omega

/-- A progress event can always be published, every other one exactly if the job
has a type. -/
def Publishable (jobType : String) (event : String × Json) : Prop :=
  validate event.1 event.2 = .ok () ↔ event.1 = "job.progress" ∨ jobType ≠ ""

structure SoundHistory (jobType : String) (history : JobHistory) : Prop where
  job : SoundJob jobType history.job
  published : ∀ event ∈ history.published, Publishable jobType event

theorem publishable_of_iff {jobType topic : String} {payload : Json} (named : topic ≠ "job.progress")
    (valid : validate topic payload = .ok () ↔ jobType ≠ "") : Publishable jobType (topic, payload) := by
  rw [Publishable, valid]
  exact ⟨.inr, fun either => either.resolve_left named⟩

theorem topicName_ne_progress {topic : Topic} : topicName topic ≠ "job.progress" := by
  cases topic <;> decide

theorem SoundHistory.publish {jobType : String} {topic : Topic} {event : Event}
    (sound : SoundHistory jobType before)
    (valid : validate (topicName topic) (eventPayload event) = .ok () ↔ jobType ≠ "") :
    SoundHistory jobType (before.publish topic event) := by
  refine ⟨sound.job, fun published member => ?_⟩
  obtain rfl | older := List.mem_cons.mp member
  · exact publishable_of_iff topicName_ne_progress valid
  · exact sound.published published older

theorem SoundHistory.progress {jobType message : String} {percent : Nat} (sound : SoundHistory jobType before)
    (bounded : percent ≤ 100) : SoundHistory jobType (before.progress percent message) := by
  refine ⟨sound.job, fun published member => ?_⟩
  obtain rfl | older := List.mem_cons.mp member
  · have valid : validate "job.progress" (progressPayload before.job "running" percent message) = .ok () :=
      progress_valid (by decide) bounded
    exact ⟨fun _ => .inl rfl, fun _ => valid⟩
  · exact sound.published published older

theorem SoundHistory.write {jobType : String} {write : StatusWrite} (sound : SoundHistory jobType before)
    (stores : JobHistory.storesObject write = true) :
    SoundHistory jobType { before with job := write.apply now before.job } :=
  ⟨sound.job.apply stores, sound.published⟩

theorem soundHistory_created (submits : Submits models request) :
    SoundHistory request.jobType (JobHistory.created settings request status id now) := by
  have sound : SoundHistory request.jobType ⟨(request.draft settings status).row id now, []⟩ :=
    ⟨soundJob_created submits, by simp⟩
  unfold JobHistory.created
  dsimp only
  split
  · exact sound.publish sound.job.submitted_iff
  · exact sound

theorem SoundHistory.step {jobType : String} (sound : SoundHistory jobType before)
    (stepped : JobHistory.step scaling transition before = some after) : SoundHistory jobType after := by
  cases transition with
  | announce =>
      cases stepped
      exact sound.publish sound.job.submitted_iff
  | claim now =>
      cases stepped
      exact (sound.write rfl).progress (by omega)
  | progress type total percent message =>
      simp only [JobHistory.step] at stepped
      split at stepped
      · rename_i reported
        cases stepped
        exact sound.progress (processorPercents_bounded reported)
      · contradiction
  | settle write message now =>
      simp only [JobHistory.step] at stepped
      split at stepped
      · rename_i terminal
        cases stepped
        have written := @SoundHistory.write now _ _ write sound terminal.2
        exact written.publish (written.job.terminal_iff terminal.1)
      · contradiction
  | retry error delay now =>
      cases stepped
      exact (sound.write rfl).publish sound.job.retrying_iff
  | replay now =>
      cases stepped
      have written := @SoundHistory.write now _ _ replayWrite sound rfl
      exact written.publish written.job.submitted_iff

/-- Of a job that one of the two endpoints commits, every progress event can be
published, and every other event exactly if the job's type is not empty. -/
theorem events_publishable_iff (submits : Submits models request)
    (ran : (JobHistory.machine scaling (.created settings request status id now)).Run steps last) :
    ∀ event ∈ last.published,
      validate event.1 event.2 = .ok () ↔ event.1 = "job.progress" ∨ request.jobType ≠ "" := by
  have sound : SoundHistory request.jobType last :=
    ran.keeps (soundHistory_created submits) fun _ sound stepped => sound.step stepped
  exact sound.published

/-- Payload models that admit every payload, and percentages that are cut off. -/
def anyPayload : PayloadModels := fun _ _ => true

def cutOff : Scaling where
  percent := fun done total => done * 100 / total
  bounded := fun done total few => by
    apply Nat.div_le_of_le_mul
    omega

def uploadBody : JobCreate anyPayload where
  type := .csvUpload
  priority := 100
  key_bounded := rfl
  priority_bounded := by decide
  payload_bounded := rfl

def uploadStart : JobHistory :=
  .created .defaults (uploadBody.call { userId := 1, tenantId := 2 }) .pending 3 0

/-- A job that runs, fails, is cancelled and replayed. -/
theorem upload_publishable : ∃ (steps : List (JobHistory × JobHistory.Transition)) (last : JobHistory),
    (JobHistory.machine cutOff uploadStart).Run steps last ∧ last.published.length = 6 ∧
      ∀ event ∈ last.published, validate event.1 event.2 = .ok () := by
  obtain ⟨steps, last, ran, count⟩ := @Machine.exists_run _ _ (JobHistory.machine cutOff uploadStart)
    [.claim 1, .progress .csvUpload 3 33 "Parsed rows 0–100", .retry "" (seconds 2) 2,
      .settle { status := .cancelled } none 3, .replay 4]
    (fun _ last => last.published.length = 6) (by decide +kernel)
  refine ⟨steps, last, ran, of_decide_eq_true count, fun event member => ?_⟩
  have publishable := events_publishable_iff (.job { userId := 1, tenantId := 2 } uploadBody) ran event member
  exact publishable.mpr (.inr (by decide))

def untypedStep : SagaStepRequest anyPayload where
  type := ""
  priority_bounded := by decide
  payload_bounded := rfl

def untypedSaga : SagaCreateRequest anyPayload where
  name := "saga"
  steps := [untypedStep]
  name_bounded := by decide
  steps_bounded := by decide

/-- A step without a type is committed, and its announcement is schema-invalid. -/
theorem untyped_step_unpublishable : ∃ request, Submits anyPayload request ∧
    ∃ event ∈ (JobHistory.created .defaults request .pending 3 0).published,
      validate event.1 event.2 ≠ .ok () := by
  have submits : Submits anyPayload _ :=
    .step { userId := 1, tenantId := 2 } untypedSaga
      { id := 5, tenantId := 2, name := "saga", status := .running, createdAt := 0 } 0 none List.mem_cons_self
  refine ⟨_, submits, _, List.mem_cons_self, fun valid => ?_⟩
  exact absurd rfl ((soundJob_created submits).submitted_iff.mp valid)

end IncidentPlatform.Properties
