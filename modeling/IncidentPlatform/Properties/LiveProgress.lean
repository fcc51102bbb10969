import IncidentPlatform.Api.Streaming
import IncidentPlatform.Properties.RetainedSnapshots

namespace IncidentPlatform.Properties

open Models Concurrency Workers Api StreamedJob

/-! # Progress across replays

A finished snapshot outlives the run it tells of.  The publisher compares new
events with it, the endpoint compares it with the row, and each of the two is
right exactly as long as the older runs are behind it.
-/

variable {jobId : String} {job after : StreamedJob} {topic : LifecycleTopic} {emitted : Emitted}
  {run : Nat} {updatedAt : Time}

def announcedStatus : LifecycleTopic → ProgressStatus
  | .progress => .running
  | .completed => .completed
  | .failed => .retrying
  | .cancelled => .cancelled
  | .dlq => .deadLetter

/-- A message of the job on a topic. -/
structure Queued (jobId : String) (topic : LifecycleTopic) (record : LifecycleRecord) : Prop where
  source : record.topic = topic
  jobId : record.value.jobId = some jobId
  status : ∃ name, given record.value.event = some name ∧
    SseConsumer.statusOf name record.value.deadLettered = some (announcedStatus topic)

theorem Queued.event {record : LifecycleRecord} (queued : Queued jobId topic record)
    (named : jobId ≠ "") (now : Time) :
    ∃ event, record.progressEvent now = some event ∧ event.jobId = jobId ∧
      event.status = announcedStatus topic ∧ event.source = topic.name ∧
      event.sequence = some (record.offset : Int) := by
  obtain ⟨name, nonempty, status⟩ := queued.status
  have job : given (some jobId) = some jobId := by simp [given, Option.filter, named]
  simp [LifecycleRecord.progressEvent, SseConsumer.handleMessage, queued.jobId, job, nonempty, status,
    queued.source]

/-- The messages of each topic are the job's, in order, and after the one that
the retained snapshot came from. -/
structure TopicsOrdered (jobId : String) (job : StreamedJob) : Prop where
  queued : ∀ topic, ∀ emitted ∈ job.pending topic, Queued jobId topic emitted.record
  sorted : ∀ topic, (job.pending topic).Pairwise fun first second =>
    first.record.offset < second.record.offset
  bounded : ∀ topic, ∀ emitted ∈ job.pending topic, emitted.record.offset < job.nextOffset topic
  behind : ∀ snapshot, job.snapshots jobId = some snapshot →
    ∃ (topic : LifecycleTopic) (offset : Nat), snapshot.event.source = topic.name ∧ snapshot.event.sequence = some (offset : Int) ∧
      offset < job.nextOffset topic ∧ ∀ emitted ∈ job.pending topic, offset < emitted.record.offset

theorem TopicsOrdered.of_same (order : TopicsOrdered jobId job) (pending : after.pending = job.pending)
    (nextOffset : after.nextOffset = job.nextOffset) (snapshots : after.snapshots = job.snapshots) :
    TopicsOrdered jobId after := by
  constructor
  · rw [pending]
    exact order.queued
  · rw [pending]
    exact order.sorted
  · rw [pending, nextOffset]
    exact order.bounded
  · rw [pending, nextOffset, snapshots]
    exact order.behind

theorem TopicsOrdered.later (order : TopicsOrdered jobId job) (topic : LifecycleTopic) :
    TopicsOrdered jobId { job with
      nextOffset := Function.update job.nextOffset topic (job.nextOffset topic + 1) } := by
  have grows : ∀ other, job.nextOffset other ≤
      Function.update job.nextOffset topic (job.nextOffset topic + 1) other := by
    intro other
    by_cases same : other = topic
    · subst same
      simp
    · simp [Function.update_of_ne same]
  refine ⟨order.queued, order.sorted, fun other emitted member => ?_, fun snapshot kept => ?_⟩
  · exact Nat.lt_of_lt_of_le (order.bounded other emitted member) (grows other)
  · obtain ⟨source, offset, from_, sequence, bound, behind⟩ := order.behind snapshot kept
    exact ⟨source, offset, from_, sequence, Nat.lt_of_lt_of_le bound (grows source), behind⟩

theorem TopicsOrdered.emit (order : TopicsOrdered jobId job) {value : LifecycleMessage}
    (queued : Queued jobId topic ⟨topic, job.nextOffset topic, value⟩) :
    TopicsOrdered jobId (job.emit run topic value) := by
  have appended : ∀ other, (job.emit run topic value).pending other = job.pending other ∨ other = topic ∧
      (job.emit run topic value).pending other =
        job.pending topic ++ [⟨run, ⟨topic, job.nextOffset topic, value⟩⟩] := by
    intro other
    by_cases same : other = topic
    · subst same
      exact .inr ⟨rfl, Function.update_self ..⟩
    · exact .inl (Function.update_of_ne same ..)
  have later := (order.later topic)
  constructor
  · intro other emitted member
    obtain kept | ⟨rfl, grown⟩ := appended other
    · rw [kept] at member
      exact order.queued other emitted member
    · rw [grown] at member
      obtain earlier | newest := List.mem_append.mp member
      · exact order.queued _ emitted earlier
      · cases List.mem_singleton.mp newest
        exact queued
  · intro other
    obtain kept | ⟨rfl, grown⟩ := appended other
    · rw [kept]
      exact order.sorted other
    · rw [grown]
      refine List.pairwise_append.mpr ⟨order.sorted _, List.pairwise_singleton .., fun first member second newest => ?_⟩
      cases List.mem_singleton.mp newest
      exact order.bounded _ first member
  · intro other emitted member
    obtain kept | ⟨rfl, grown⟩ := appended other
    · rw [kept] at member
      exact later.bounded other emitted member
    · rw [grown] at member
      obtain earlier | newest := List.mem_append.mp member
      · exact later.bounded _ emitted earlier
      · cases List.mem_singleton.mp newest
        simp [StreamedJob.emit]
  · intro snapshot kept
    obtain ⟨source, offset, from_, sequence, bound, behind⟩ := order.behind snapshot kept
    refine ⟨source, offset, from_, sequence, ?_, fun emitted member => ?_⟩
    · by_cases same : source = topic
      · subst same
        simpa [StreamedJob.emit] using Nat.lt_succ_of_lt bound
      · simpa [StreamedJob.emit, Function.update_of_ne same] using bound
    · obtain same | ⟨rfl, grown⟩ := appended source
      · rw [same] at member
        exact behind emitted member
      · rw [grown] at member
        obtain earlier | newest := List.mem_append.mp member
        · exact behind emitted earlier
        · cases List.mem_singleton.mp newest
          exact bound

theorem transition_cases {transition : Transition}
    (moved : job.transition jobId updatedAt transition = some after) :
    ∃ row, (∃ runs, job.run ≤ runs ∧ after = { job with row, run := runs }) ∨
      ∃ told topic value, told ≤ job.run ∧ ((announcedStatus topic).terminal = true → told = job.run) ∧
        after = ({ job with row } : StreamedJob).emit told topic value ∧
        ∀ offset, Queued jobId topic ⟨topic, offset, value⟩ := by
  cases transition <;> simp only [transition] at moved <;> split at moved <;> try contradiction
  all_goals cases moved
  case claim => exact ⟨_, .inl ⟨job.run, Nat.le_refl _, rfl⟩⟩
  case progress told percent text older =>
    exact ⟨_, .inr ⟨told, .progress, _, older, by simp [announcedStatus, ProgressStatus.terminal], rfl,
      fun offset => ⟨rfl, rfl, _, rfl, rfl⟩⟩⟩
  case replay => exact ⟨_, .inl ⟨job.run + 1, Nat.le_succ _, rfl⟩⟩
  all_goals exact ⟨_, .inr ⟨job.run, _, _, Nat.le_refl _, fun _ => rfl, rfl,
    fun offset => ⟨rfl, rfl, _, rfl, rfl⟩⟩⟩

theorem TopicsOrdered.transition (order : TopicsOrdered jobId job) {transition : Transition}
    (moved : job.transition jobId updatedAt transition = some after) : TopicsOrdered jobId after := by
  obtain ⟨row, ⟨runs, _, rfl⟩ | ⟨told, topic, value, _, _, rfl, queued⟩⟩ := transition_cases moved
  · exact order.of_same rfl rfl rfl
  · have written : TopicsOrdered jobId { job with row } := order.of_same rfl rfl rfl
    exact written.emit (queued _)

theorem handle_cases (named : jobId ≠ "") (order : TopicsOrdered jobId job)
    (handled : job.handle topic = some after) :
    ∃ emitted rest event, job.pending topic = emitted :: rest ∧
      emitted.record.progressEvent job.now = some event ∧ event.jobId = jobId ∧
      event.status = announcedStatus topic ∧
      let taken : StreamedJob := { job with pending := Function.update job.pending topic rest }
      ((job.snapshots.publish job.now event).2 = true ∧ after = { taken with
          snapshots := job.snapshots.retain job.now event
          retainedRun := emitted.run
          viewer := fun id =>
            { job.viewer id with phase := (job.viewer id).phase.offer ⟨emitted.run, event⟩ } } ∨
        (job.snapshots.publish job.now event).2 = false ∧ after = taken) := by
  unfold StreamedJob.handle at handled
  split at handled
  · contradiction
  · rename_i emitted rest waiting
    have queued := order.queued topic emitted (by simp [waiting])
    obtain ⟨event, made, same, status, _⟩ := queued.event named job.now
    refine ⟨emitted, rest, event, waiting, made, same, status, ?_⟩
    rw [made] at handled
    unfold Snapshots.publish at handled ⊢
    cases passes : supersedes event (job.snapshots.readLastEvent job.now event.jobId) <;>
      simp only [passes, Bool.false_eq_true, ↓reduceIte] at handled ⊢ <;> cases handled
    · exact .inr ⟨trivial, rfl⟩
    · exact .inl ⟨trivial, rfl⟩

theorem pending_taken {rest : List Emitted} (waiting : job.pending topic = emitted :: rest)
    {other : LifecycleTopic} {message : Emitted}
    (member : message ∈ Function.update job.pending topic rest other) : message ∈ job.pending other := by
  by_cases same : other = topic
  · subst same
    rw [Function.update_self] at member
    rw [waiting]
    exact List.mem_cons_of_mem _ member
  · rwa [Function.update_of_ne same] at member

theorem TopicsOrdered.take (order : TopicsOrdered jobId job) {rest : List Emitted}
    (waiting : job.pending topic = emitted :: rest) :
    TopicsOrdered jobId { job with pending := Function.update job.pending topic rest } := by
  refine ⟨fun other message member => order.queued other message (pending_taken waiting member), fun other => ?_,
    fun other message member => order.bounded other message (pending_taken waiting member),
    fun snapshot kept => ?_⟩
  · have sorted := order.sorted other
    by_cases same : other = topic
    · subst same
      rw [waiting] at sorted
      simpa using (List.pairwise_cons.mp sorted).2
    · simpa [Function.update_of_ne same] using sorted
  · obtain ⟨source, offset, from_, sequence, bound, behind⟩ := order.behind snapshot kept
    exact ⟨source, offset, from_, sequence, bound,
      fun message member => behind message (pending_taken waiting member)⟩

theorem TopicsOrdered.handle (named : jobId ≠ "") (order : TopicsOrdered jobId job)
    (handled : job.handle topic = some after) : TopicsOrdered jobId after := by
  obtain ⟨emitted, rest, event, waiting, sent, own, status, ⟨_, rfl⟩ | ⟨_, rfl⟩⟩ :=
    handle_cases named order handled
  · have taken := order.take waiting
    refine ⟨taken.queued, taken.sorted, taken.bounded, fun snapshot kept => ?_⟩
    have member : emitted ∈ job.pending topic := by simp [waiting]
    obtain ⟨told, made, _, _, source, sequence⟩ := (order.queued topic emitted member).event named job.now
    cases sent.symm.trans made
    have retained : some ⟨event, job.now + lastEventTtl⟩ = some snapshot := by
      rw [← kept, ← own]
      exact retain_self.symm
    cases retained
    refine ⟨topic, emitted.record.offset, source, sequence, order.bounded topic emitted member,
      fun message found => ?_⟩
    have sorted := order.sorted topic
    rw [waiting] at sorted
    exact (List.pairwise_cons.mp sorted).1 message (by simpa using found)
  · exact order.take waiting

theorem TopicsOrdered.setPhase (order : TopicsOrdered jobId job) (id : Nat) (phase : ViewerPhase) :
    TopicsOrdered jobId (job.setPhase id phase) :=
  order.of_same rfl rfl rfl

theorem streamStep_cases {id : Nat} {readFails : Bool} (moved : job.advance jobId id readFails = some after) :
    ∃ viewer, after = { job with viewer := Function.update job.viewer id viewer } := by
  unfold StreamedJob.advance at moved
  simp only [StreamedJob.receive, StreamedJob.setPhase] at moved
  split at moved <;> (repeat' split at moved) <;> first | contradiction | exact ⟨_, (Option.some.inj moved).symm⟩

theorem TopicsOrdered.step (named : jobId ≠ "") (order : TopicsOrdered jobId job) {action : StreamedJob.Action}
    (stepped : StreamedJob.step jobId action job = some after) : TopicsOrdered jobId after := by
  cases action with
  | pass elapsed =>
      cases stepped
      exact order.of_same rfl rfl rfl
  | transition updatedAt transition => exact order.transition stepped
  | other topic =>
      cases stepped
      exact order.later topic
  | handle topic => exact order.handle named stepped
  | advance id readFails =>
      obtain ⟨viewer, rfl⟩ := streamStep_cases stepped
      exact order.of_same rfl rfl rfl
  | lose id =>
      cases stepped
      exact order.setPhase id _
  | leave id =>
      cases stepped
      exact order.setPhase id _

/-- What is left to be handled ends no run before `run`. -/
def CaughtUp (job : StreamedJob) (run : Nat) : Prop :=
  ∀ topic, (announcedStatus topic).terminal = true → ∀ emitted ∈ job.pending topic, run ≤ emitted.run

/-- A finished snapshot of a run before `run` was made before the row was written. -/
def OlderSnapshot (jobId : String) (job : StreamedJob) (run : Nat) (updatedAt : Time) : Prop :=
  ∀ seen, job.snapshots.readLastEvent job.now jobId = some seen → seen.status.terminal = true →
    job.retainedRun < run → seen.timestamp < updatedAt

/-- The retained snapshot ends no run before `run`. -/
def OwnSnapshot (jobId : String) (job : StreamedJob) (run : Nat) : Prop :=
  ∀ seen, job.snapshots.readLastEvent job.now jobId = some seen → seen.status.terminal = true →
    run ≤ job.retainedRun

def OwnQueue (run : Nat) (queue : List Delivered) : Prop :=
  ∀ delivered ∈ queue, delivered.event.status.terminal = true → run ≤ delivered.run

/-- A stream over an unfinished row is opened when the events that ended the
earlier runs are handled, and before the row was written. -/
def OpensCaughtUp (jobId : String) (job : StreamedJob) : StreamedJob.Action → Prop
  | .advance id _ => (job.viewer id).phase = .absent → finishedStatus job.row.status = none →
      CaughtUp job job.run ∧ OlderSnapshot jobId job job.run job.row.updatedAt
  | _ => True

def Relies (jobId : String) (job : StreamedJob) (viewer : StreamViewer) : ViewerPhase → Prop
  | .absent | .ended => True
  | .opened => CaughtUp job viewer.run ∧ OlderSnapshot jobId job viewer.run viewer.rowUpdatedAt
  | .checked useSnapshot =>
      CaughtUp job viewer.run ∧ (useSnapshot = true → OwnSnapshot jobId job viewer.run)
  | .subscribed useSnapshot queue =>
      CaughtUp job viewer.run ∧ (useSnapshot = true → OwnSnapshot jobId job viewer.run) ∧
        OwnQueue viewer.run queue
  | .streaming queue => CaughtUp job viewer.run ∧ OwnQueue viewer.run queue
  | .closedBy run => viewer.run ≤ run

structure StreamsSafe (jobId : String) (job : StreamedJob) : Prop where
  opened : ∀ id, (job.viewer id).run ≤ job.run
  relies : ∀ id, (job.viewer id).finishedEvent = none →
    Relies jobId job (job.viewer id) (job.viewer id).phase

/-- The run of a stream stays in the past of the snapshot and of the topics. -/
structure Keeps (jobId : String) (job after : StreamedJob) (run : Nat) : Prop where
  caughtUp : CaughtUp job run → CaughtUp after run
  own : CaughtUp job run → OwnSnapshot jobId job run → OwnSnapshot jobId after run
  older : ∀ updatedAt, CaughtUp job run → OlderSnapshot jobId job run updatedAt →
    OlderSnapshot jobId after run updatedAt

theorem Relies.keeps {viewer : StreamViewer} {phase : ViewerPhase} (relies : Relies jobId job viewer phase)
    (keeps : Keeps jobId job after viewer.run) : Relies jobId after viewer phase := by
  cases phase with
  | absent | ended => exact trivial
  | opened => exact ⟨keeps.caughtUp relies.1, keeps.older _ relies.1 relies.2⟩
  | checked useSnapshot => exact ⟨keeps.caughtUp relies.1, fun use => keeps.own relies.1 (relies.2 use)⟩
  | subscribed useSnapshot queue =>
      exact ⟨keeps.caughtUp relies.1, fun use => keeps.own relies.1 (relies.2.1 use), relies.2.2⟩
  | streaming queue => exact ⟨keeps.caughtUp relies.1, relies.2⟩
  | closedBy run => exact relies

theorem Keeps.of_same (pending : after.pending = job.pending) (snapshots : after.snapshots = job.snapshots)
    (retained : after.retainedRun = job.retainedRun) (elapsed : job.now ≤ after.now) :
    Keeps jobId job after run := by
  constructor
  · intro caughtUp
    unfold CaughtUp
    rwa [pending]
  · intro _ own seen read finished
    rw [snapshots] at read
    rw [retained]
    exact own seen (readLastEvent_earlier elapsed read) finished
  · intro updatedAt _ older seen read finished earlier
    rw [snapshots] at read
    rw [retained] at earlier
    exact older seen (readLastEvent_earlier elapsed read) finished earlier

theorem Keeps.emit {told : Nat} {value : LifecycleMessage} (current : run ≤ job.run)
    (newest : (announcedStatus topic).terminal = true → told = job.run) :
    Keeps jobId job (job.emit told topic value) run := by
  refine ⟨fun caughtUp other finished emitted member => ?_, fun _ own => own, fun _ _ older => older⟩
  by_cases same : other = topic
  · subst same
    simp only [StreamedJob.emit, Function.update_self] at member
    obtain earlier | newer := List.mem_append.mp member
    · exact caughtUp other finished emitted earlier
    · cases List.mem_singleton.mp newer
      rw [newest finished]
      exact current
  · simp only [StreamedJob.emit, Function.update_of_ne same] at member
    exact caughtUp other finished emitted member

theorem Keeps.trans {middle : StreamedJob} (first : Keeps jobId job middle run)
    (second : Keeps jobId middle after run) : Keeps jobId job after run where
  caughtUp caughtUp := second.caughtUp (first.caughtUp caughtUp)
  own caughtUp own := second.own (first.caughtUp caughtUp) (first.own caughtUp own)
  older updatedAt caughtUp older :=
    second.older updatedAt (first.caughtUp caughtUp) (first.older updatedAt caughtUp older)

theorem Keeps.transition {transition : Transition} (current : run ≤ job.run)
    (moved : job.transition jobId updatedAt transition = some after) : Keeps jobId job after run := by
  obtain ⟨row, ⟨runs, _, rfl⟩ | ⟨told, topic, value, _, newest, rfl, _⟩⟩ := transition_cases moved
  · exact Keeps.of_same rfl rfl rfl (Nat.le_refl _)
  · have written : Keeps jobId job { job with row } run := Keeps.of_same rfl rfl rfl (Nat.le_refl _)
    exact written.trans (Keeps.emit current newest)

theorem transition_run {transition : Transition}
    (moved : job.transition jobId updatedAt transition = some after) :
    job.run ≤ after.run ∧ after.viewer = job.viewer := by
  obtain ⟨row, ⟨runs, later, rfl⟩ | ⟨told, topic, value, _, newest, rfl, _⟩⟩ := transition_cases moved
  · exact ⟨later, rfl⟩
  · exact ⟨Nat.le_refl _, rfl⟩

theorem Keeps.handle (named : jobId ≠ "") (order : TopicsOrdered jobId job)
    (handled : job.handle topic = some after) : Keeps jobId job after run := by
  obtain ⟨emitted, rest, event, waiting, sent, own, status, outcome⟩ := handle_cases named order handled
  have member : emitted ∈ job.pending topic := by simp [waiting]
  have taken : Keeps jobId job { job with pending := Function.update job.pending topic rest } run :=
    ⟨fun caughtUp other finished message found => caughtUp other finished message (pending_taken waiting found),
      fun _ own => own, fun _ _ older => older⟩
  obtain ⟨_, rfl⟩ | ⟨_, rfl⟩ := outcome
  · have ends : CaughtUp job run → event.status.terminal = true → run ≤ emitted.run :=
      fun caughtUp finished => caughtUp topic (status ▸ finished) emitted member
    have read : (job.snapshots.retain job.now event).readLastEvent job.now jobId = some event :=
      own ▸ readLastEvent_retain_self
    refine ⟨taken.caughtUp, fun caughtUp _ seen found finished => ?_,
      fun _ caughtUp _ seen found finished earlier => ?_⟩
    · cases read.symm.trans found
      exact ends caughtUp finished
    · cases read.symm.trans found
      exact absurd (ends caughtUp finished) (Nat.not_le_of_lt earlier)
  · exact taken

theorem StreamsSafe.keeps (safe : StreamsSafe jobId job) (viewers : after.viewer = job.viewer)
    (runs : job.run ≤ after.run)
    (keeps : ∀ run, run ≤ job.run → Keeps jobId job after run) : StreamsSafe jobId after := by
  constructor
  · intro id
    rw [viewers]
    exact Nat.le_trans (safe.opened id) runs
  · intro id unfinished
    rw [viewers] at unfinished ⊢
    exact (safe.relies id unfinished).keeps (keeps _ (safe.opened id))

theorem StreamsSafe.moved (safe : StreamsSafe jobId job) {id : Nat} {viewer : StreamViewer}
    (opened : viewer.run ≤ job.run)
    (relies : viewer.finishedEvent = none → Relies jobId job viewer viewer.phase) :
    StreamsSafe jobId { job with viewer := Function.update job.viewer id viewer } := by
  constructor
  · intro other
    by_cases same : other = id
    · subst same
      simpa using opened
    · simpa [Function.update_of_ne same] using safe.opened other
  · intro other unfinished
    by_cases same : other = id
    · subst same
      simp only [Function.update_self] at unfinished ⊢
      exact (relies unfinished).keeps ⟨fun caughtUp => caughtUp, fun _ own => own, fun _ _ older => older⟩
    · simp only [Function.update_of_ne same] at unfinished ⊢
      exact (safe.relies other unfinished).keeps ⟨fun caughtUp => caughtUp, fun _ own => own,
        fun _ _ older => older⟩

theorem Relies.lose {viewer : StreamViewer} {phase : ViewerPhase}
    (relies : Relies jobId job viewer phase) : Relies jobId job viewer phase.lose := by
  cases phase with
  | subscribed useSnapshot queue =>
      exact ⟨relies.1, relies.2.1, fun delivered member => relies.2.2 delivered (List.mem_of_mem_tail member)⟩
  | streaming queue =>
      exact ⟨relies.1, fun delivered member => relies.2 delivered (List.mem_of_mem_tail member)⟩
  | _ => exact relies

theorem Relies.offer {viewer : StreamViewer} {phase : ViewerPhase} {delivered : Delivered}
    (relies : Relies jobId job viewer phase)
    (ends : CaughtUp job viewer.run → delivered.event.status.terminal = true → viewer.run ≤ delivered.run) :
    Relies jobId job viewer (phase.offer delivered) := by
  have appended : ∀ {queue}, CaughtUp job viewer.run → OwnQueue viewer.run queue →
      OwnQueue viewer.run (queue ++ [delivered]) := by
    intro queue caughtUp own other member finished
    obtain earlier | newest := List.mem_append.mp member
    · exact own other earlier finished
    · cases List.mem_singleton.mp newest
      exact ends caughtUp finished
  cases phase with
  | subscribed useSnapshot queue => exact ⟨relies.1, relies.2.1, appended relies.1 relies.2.2⟩
  | streaming queue => exact ⟨relies.1, appended relies.1 relies.2⟩
  | _ => exact relies

theorem StreamsSafe.handle (named : jobId ≠ "") (order : TopicsOrdered jobId job)
    (safe : StreamsSafe jobId job) (handled : job.handle topic = some after) : StreamsSafe jobId after := by
  have keeps : ∀ run, Keeps jobId job after run := fun run => Keeps.handle named order handled
  obtain ⟨emitted, rest, event, waiting, sent, own, status, ⟨_, rfl⟩ | ⟨_, rfl⟩⟩ :=
    handle_cases named order handled
  · constructor
    · exact safe.opened
    · intro id unfinished
      have member : emitted ∈ job.pending topic := by simp [waiting]
      have offered : Relies jobId job (job.viewer id)
          ((job.viewer id).phase.offer ⟨emitted.run, event⟩) :=
        (safe.relies id unfinished).offer fun caughtUp finished =>
          caughtUp topic (status ▸ finished) emitted member
      have kept := offered.keeps (keeps (job.viewer id).run)
      revert kept
      simp only
      cases (job.viewer id).phase.offer ⟨emitted.run, event⟩ <;> exact fun kept => kept
  · exact safe.keeps rfl (Nat.le_refl _) fun run _ => keeps run

theorem snapshotIsStale_iff {snapshot : Option ProgressEvent} {rowAt : Time} :
    snapshotIsStale snapshot false (some rowAt) = true ↔
      ∃ seen, snapshot = some seen ∧ seen.status.terminal = true ∧ seen.timestamp < rowAt := by
  cases snapshot <;> simp [snapshotIsStale]

theorem own_of_trusted {viewer : StreamViewer}
    (older : OlderSnapshot jobId job viewer.run viewer.rowUpdatedAt)
    (trusted : snapshotIsStale (job.snapshots.readLastEvent job.now jobId) false
      (some viewer.rowUpdatedAt) = false) : OwnSnapshot jobId job viewer.run := by
  intro seen read finished
  by_contra earlier
  have before := older seen read finished (Nat.lt_of_not_le earlier)
  rw [snapshotIsStale_iff.mpr ⟨seen, read, finished, before⟩] at trusted
  contradiction

theorem Relies.received {viewer : StreamViewer} {delivered : Delivered} {queue : List Delivered}
    (caughtUp : CaughtUp job viewer.run) (own : OwnQueue viewer.run queue)
    (ends : delivered.event.status.terminal = true → viewer.run ≤ delivered.run) :
    Relies jobId job viewer
      (if delivered.event.status.terminal then .closedBy delivered.run else .streaming queue) := by
  cases finished : delivered.event.status.terminal with
  | true => exact ends finished
  | false => exact ⟨caughtUp, own⟩

theorem relies_phase {viewer : StreamViewer} {phase shown : ViewerPhase} :
    Relies jobId job { viewer with phase := shown } phase ↔ Relies jobId job viewer phase := by
  cases phase <;> exact Iff.rfl

theorem StreamsSafe.setPhase (safe : StreamsSafe jobId job) {id : Nat} {phase : ViewerPhase}
    (relies : (job.viewer id).finishedEvent = none → Relies jobId job (job.viewer id) phase) :
    StreamsSafe jobId (job.setPhase id phase) :=
  safe.moved (safe.opened id) fun unfinished => relies_phase.mpr (relies unfinished)

theorem StreamsSafe.advance (safe : StreamsSafe jobId job) {id : Nat} {readFails : Bool}
    (permitted : OpensCaughtUp jobId job (.advance id readFails))
    (moved : job.advance jobId id readFails = some after) : StreamsSafe jobId after := by
  have relies := safe.relies id
  unfold StreamedJob.advance at moved
  simp only at moved
  cases phase : (job.viewer id).phase with
  | absent =>
      rw [phase] at moved
      cases moved
      refine safe.moved (Nat.le_refl _) fun unfinished => ?_
      have running : finishedStatus job.row.status = none := by
        simpa [terminalEventFromRow] using unfinished
      exact permitted phase running
  | opened =>
      rw [phase] at moved relies
      simp only at moved
      split at moved
      · cases moved
        exact safe.setPhase fun _ => trivial
      · split at moved
        · cases moved
          exact safe.setPhase fun _ => trivial
        · cases moved
          refine safe.setPhase fun unfinished => ⟨(relies unfinished).1, fun trusts => ?_⟩
          rw [unfinished] at trusts
          exact own_of_trusted (relies unfinished).2 (by simpa using trusts)
  | checked useSnapshot =>
      rw [phase] at moved relies
      simp only at moved
      split at moved
      · cases moved
        exact safe.setPhase fun _ => trivial
      · cases moved
        exact safe.setPhase fun unfinished =>
          ⟨(relies unfinished).1, (relies unfinished).2, fun _ member => by cases member⟩
  | subscribed useSnapshot queue =>
      rw [phase] at moved relies
      simp only at moved
      split at moved
      · rename_i reads
        have trusts : useSnapshot = true := (Bool.and_eq_true_iff.mp reads).1
        split at moved
        · rename_i event read
          cases moved
          exact safe.setPhase fun unfinished => Relies.received (relies unfinished).1
            (relies unfinished).2.2 fun finished => (relies unfinished).2.1 trusts event read finished
        · cases moved
          exact safe.setPhase fun unfinished => ⟨(relies unfinished).1, (relies unfinished).2.2⟩
      · cases moved
        exact safe.setPhase fun unfinished => ⟨(relies unfinished).1, (relies unfinished).2.2⟩
  | streaming queue =>
      rw [phase] at moved relies
      cases queue with
      | nil => contradiction
      | cons delivered queue =>
          cases moved
          exact safe.setPhase fun unfinished => Relies.received (relies unfinished).1
            (fun other member => (relies unfinished).2 other (List.mem_cons_of_mem _ member))
            fun finished => (relies unfinished).2 delivered List.mem_cons_self finished
  | closedBy run =>
      rw [phase] at moved
      contradiction
  | ended =>
      rw [phase] at moved
      contradiction

theorem StreamsSafe.step (named : jobId ≠ "") (order : TopicsOrdered jobId job) (safe : StreamsSafe jobId job)
    {action : StreamedJob.Action} (permitted : OpensCaughtUp jobId job action)
    (stepped : StreamedJob.step jobId action job = some after) : StreamsSafe jobId after := by
  cases action with
  | pass elapsed =>
      cases stepped
      exact safe.keeps rfl (Nat.le_refl _) fun run _ =>
        Keeps.of_same rfl rfl rfl (Nat.le_add_right job.now elapsed)
  | transition updatedAt transition =>
      obtain ⟨runs, viewers⟩ := transition_run stepped
      exact safe.keeps viewers runs fun run current => Keeps.transition current stepped
  | other topic =>
      cases stepped
      exact safe.keeps rfl (Nat.le_refl _) fun run _ => Keeps.of_same rfl rfl rfl (Nat.le_refl _)
  | handle topic => exact StreamsSafe.handle named order safe stepped
  | advance id readFails => exact safe.advance permitted stepped
  | lose id =>
      cases stepped
      exact safe.setPhase fun unfinished => (safe.relies id unfinished).lose
  | leave id =>
      cases stepped
      exact safe.setPhase fun _ => trivial

section Runs

variable {row : StreamedRow} {steps : List (StreamedJob × StreamedJob.Action)} {last : StreamedJob}

theorem TopicsOrdered.initial : TopicsOrdered jobId (StreamedJob.initial row) where
  queued _ _ member := by cases member
  sorted _ := .nil
  bounded _ _ member := by cases member
  behind _ kept := by cases kept

theorem StreamsSafe.initial : StreamsSafe jobId (StreamedJob.initial row) where
  opened _ := Nat.le_refl 0
  relies _ _ := trivial

end Runs

section Replayed

def replayed : List StreamedJob.Action :=
  [.pass 1, .transition 5 .replay, .pass 2]

end Replayed

end IncidentPlatform.Properties
