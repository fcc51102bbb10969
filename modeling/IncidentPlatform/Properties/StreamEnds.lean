import IncidentPlatform.Properties.RetainedSnapshots
import IncidentPlatform.Properties.WiredViewers
import IncidentPlatform.Workers.ProgressStreams
import Mathlib.Data.Fintype.Card

namespace IncidentPlatform.Properties

open Concurrency Models Workers ProgressStreams

/-! # The end of a stream

A retained terminal event was set before it is published, so a stream that read
its snapshot too early is subscribed when it goes out.  What follows it to the
stream are events that were set before it and published after it.
-/

variable {Publisher : Type} {streams after : ProgressStreams Publisher}
  {jobId : String} {queue : Nat} {viewer : Viewer} {publisher : Publisher}

/-- A call that has set an event of the job and not published it. -/
def PublishCall.announces (jobId : String) : PublishCall → Bool
  | .retained event => event.jobId = jobId
  | _ => false

def arriving (streams : ProgressStreams Publisher) : List ProgressEvent :=
  match streams.broker.pubsub with
  | some pubsub => streams.incoming pubsub.id
  | none => []

/-- What was set is published, and what was published is handed out. -/
def FanOutFinished (streams : ProgressStreams Publisher) (jobId : String) : Prop :=
  (∀ publisher, PublishCall.announces jobId (streams.publishing publisher) = false) ∧
    ∀ event ∈ arriving streams, event.jobId ≠ jobId

/-- A stream that read its snapshot waits at an empty queue, and was told nothing
of the end that is retained. -/
def MissesEnd (streams : ProgressStreams Publisher) (viewer : Viewer) : Prop :=
  let stream := streams.stream viewer.queue
  stream.phase = .streaming ∧ stream.useSnapshot = true ∧ viewer.items = [] ∧
    (∀ event ∈ stream.yielded, event.status.terminal = false) ∧ FanOutFinished streams viewer.jobId ∧
    ∃ last, streams.snapshots.readLastEvent streams.now viewer.jobId = some last ∧ last.status.terminal = true

def NoneMissesEnd (streams : ProgressStreams Publisher) : Prop :=
  ∀ viewer ∈ streams.broker.subscribers, ¬ MissesEnd streams viewer

/-- The shared connection is subscribed to the channel of the job. -/
def Subscribed (broker : ProgressBroker) (jobId : String) : Prop :=
  ∃ pubsub, broker.pubsub = some pubsub ∧ jobId ∈ pubsub.channels

/-- The calls that have set an event of the job and not published it are among these. -/
def UnderWayAmong (streams : ProgressStreams Publisher) (jobId : String) (calls : Finset Publisher) : Prop :=
  ∀ publisher, PublishCall.announces jobId (streams.publishing publisher) = true → publisher ∈ calls

/-- A stream that registers for a job with registered queues finds its channel
subscribed, and what is published is one of as many events under way as a queue
can hold. -/
def KeepsEnds (streams : ProgressStreams Publisher) : ProgressStreams.Action Publisher → Prop
  | .register _ jobId _ => streams.broker.watched jobId = true → Subscribed streams.broker jobId
  | .announce publisher => ∀ event, streams.publishing publisher = .retained event →
      ∃ calls, UnderWayAmong streams event.jobId calls ∧ calls.card ≤ queueMaxsize
  | _ => True

section Broker

variable {broker next : ProgressBroker} {action : ProgressBroker.Action}

/-- What is handed out or taken aside, a step leaves the queues, and the
connection of each job that is still watched. -/
structure Quiet (broker next : ProgressBroker) (joins : Viewer → Prop) : Prop where
  viewers : ∀ viewer ∈ next.subscribers, viewer ∈ broker.subscribers ∨ joins viewer
  shared : ∀ viewer ∈ next.subscribers, ∀ pubsub, broker.pubsub = some pubsub →
    ∃ kept, next.pubsub = some kept ∧ kept.id = pubsub.id ∧
      (viewer.jobId ∈ pubsub.channels → viewer.jobId ∈ kept.channels)
  distinct : (broker.subscribers.map Viewer.queue).Nodup → (next.subscribers.map Viewer.queue).Nodup

theorem Quiet.subscribed {joins : Viewer → Prop} (quiet : Quiet broker next joins)
    (held : viewer ∈ next.subscribers) (subscribed : Subscribed broker viewer.jobId) :
    Subscribed next viewer.jobId := by
  obtain ⟨pubsub, present, channel⟩ := subscribed
  obtain ⟨kept, still, _, channels⟩ := quiet.shared viewer held pubsub present
  exact ⟨kept, still, channels channel⟩

theorem Quiet.finish {joins : Viewer → Prop} (quiet : Quiet broker next joins) :
    Quiet broker next.finishUnregister joins := by
  unfold ProgressBroker.finishUnregister
  split
  · rename_i empty
    have none : next.teardown.subscribers = [] := List.isEmpty_iff.mp empty
    exact ⟨fun viewer held => by simp [none] at held, fun viewer held => by simp [none] at held,
      fun _ => by simp [none]⟩
  · exact ⟨quiet.viewers, quiet.shared, quiet.distinct⟩

theorem quiet_register (registered : broker.register jobId queue = some next) :
    Quiet broker next fun viewer => viewer = ⟨queue, jobId, [], false⟩ := by
  obtain ⟨_, fresh, pubsub, connections, shared, ⟨_, rfl⟩ | ⟨_, rfl⟩⟩ := register_cases registered
  all_goals
    refine ⟨fun viewer held => ?_, fun viewer held before present => ?_, fun distinct => ?_⟩
    · simpa using held
    · obtain same | ⟨none, _⟩ := shared
      · cases same.symm.trans present
        exact ⟨pubsub, by simp, rfl, fun channel => channel⟩
      · cases none.symm.trans present
    · simpa [List.nodup_append] using ⟨distinct, fresh⟩

theorem quiet_subscribed {reply : RedisReply} (unfailing : reply ≠ .raises)
    (ended : broker.subscribed reply = some next) : Quiet broker next fun _ => False := by
  obtain ⟨_, _, pubsub, _, shared, ⟨_, rfl⟩ | ⟨raises, _⟩ | ⟨_, rfl⟩⟩ := subscribed_cases ended
  · refine ⟨fun viewer held => .inl (by simpa using held), fun viewer held before present => ?_,
      fun distinct => by simpa using distinct⟩
    cases shared.symm.trans present
    exact ⟨_, ensureReader_pubsub, rfl, List.mem_cons_of_mem _⟩
  · exact absurd raises unfailing
  · exact ⟨fun viewer held => .inl held, fun viewer held before present => ⟨before, present, rfl, id⟩, id⟩

theorem quiet_unregister (unregistered : broker.unregister queue = some next) :
    Quiet broker next fun _ => False := by
  obtain ⟨_, jobId, outcome⟩ := unregister_cases unregistered
  have left : Quiet broker { broker with
      subscribers := broker.subscribers.filter fun other => other.queue ≠ queue } fun _ => False :=
    ⟨fun viewer held => .inl (List.mem_of_mem_filter held),
      fun viewer held before present => ⟨before, present, rfl, id⟩,
      fun distinct => distinct.sublist (List.filter_sublist.map Viewer.queue)⟩
  obtain rfl | ⟨_, rfl⟩ | rfl := outcome
  · exact left
  · exact ⟨left.viewers, left.shared, left.distinct⟩
  · exact left.finish

theorem quiet_unsubscribed {reply : RedisReply} {reached : Bool} (consistent : Consistent broker)
    (ended : broker.unsubscribed reply reached = some next) : Quiet broker next fun _ => False := by
  obtain ⟨jobId, pubsub, kept, held, shared, same, channels, outcome⟩ := unsubscribed_cases ended
  have unwatched : ∀ viewer ∈ broker.subscribers, viewer.jobId ≠ jobId := by
    have lock := consistent.lock
    rw [held] at lock
    exact lock
  have left : Quiet broker { broker with pubsub := some kept } fun _ => False := by
    refine ⟨fun viewer held => .inl held, fun viewer held before present => ?_, id⟩
    cases shared.symm.trans present
    exact ⟨kept, rfl, same, fun channel => channels _ channel (unwatched viewer held)⟩
  obtain rfl | rfl := outcome
  · exact left.finish
  · exact ⟨left.viewers, left.shared, left.distinct⟩

end Broker

def pipeline (streams : ProgressStreams Publisher) (viewer : Viewer) : List QueueItem :=
  viewer.items ++ ((arriving streams).filter fun event => event.jobId = viewer.jobId).map .event

/-- The event is to be published, or on its way with too little behind it to be
pushed out of the queue. -/
def Due (streams : ProgressStreams Publisher) (viewer : Viewer) (last : ProgressEvent) : Prop :=
  (∃ publisher, streams.publishing publisher = .retained last) ∨
    ∃ before behind calls, pipeline streams viewer = before ++ .event last :: behind ∧
      UnderWayAmong streams viewer.jobId calls ∧ behind.length + calls.card < queueMaxsize

def Expects (streams : ProgressStreams Publisher) (viewer : Viewer) : Prop :=
  ∀ last, streams.snapshots.readLastEvent streams.now viewer.jobId = some last →
    last.status.terminal = true → Due streams viewer last

def StreamPhase.live : StreamPhase → Bool
  | .registered | .streaming | .closing => true
  | _ => false

structure ViewerSafe (streams : ProgressStreams Publisher) (viewer : Viewer) : Prop where
  named : (streams.stream viewer.queue).jobId = viewer.jobId
  subscribed : StreamPhase.live (streams.stream viewer.queue).phase = true →
    Subscribed streams.broker viewer.jobId
  expects : (streams.stream viewer.queue).phase = .streaming → (streams.stream viewer.queue).useSnapshot = true →
    Expects streams viewer

structure EndsSafe (streams : ProgressStreams Publisher) : Prop where
  consistent : Consistent streams.broker
  distinct : (streams.broker.subscribers.map Viewer.queue).Nodup
  keyed : ∀ jobId snapshot, streams.snapshots jobId = some snapshot → snapshot.event.jobId = jobId
  viewers : ∀ viewer ∈ streams.broker.subscribers, ViewerSafe streams viewer

theorem EndsSafe.retained_jobId (safe : EndsSafe streams) {last : ProgressEvent}
    (read : streams.snapshots.readLastEvent streams.now jobId = some last) : last.jobId = jobId := by
  obtain ⟨expiresAt, kept, _⟩ := readLastEvent_eq_some_iff.mp read
  exact safe.keyed jobId _ kept

theorem EndsSafe.noneMissesEnd (safe : EndsSafe streams) : NoneMissesEnd streams := by
  intro viewer held misses
  obtain ⟨streaming, useSnapshot, empty, _, ⟨published, handedOut⟩, last, read, ended⟩ := misses
  obtain ⟨publisher, retained⟩ | ⟨before, behind, calls, way, _⟩ :=
    (safe.viewers viewer held).expects streaming useSnapshot last read ended
  · have quiet := published publisher
    simp [retained, PublishCall.announces, safe.retained_jobId read] at quiet
  · have nothing : (arriving streams).filter (fun event => event.jobId = viewer.jobId) = [] := by
      simpa using handedOut
    simp [pipeline, empty, nothing] at way

theorem pipeline_of_same {other : ProgressStreams Publisher} (arrives : arriving other = arriving streams) :
    pipeline other viewer = pipeline streams viewer := by
  rw [pipeline, pipeline, arrives]

theorem Due.of_same {last : ProgressEvent} (due : Due streams viewer last)
    (arrives : arriving after = arriving streams)
    (kept : ∀ publisher, streams.publishing publisher = .retained last → after.publishing publisher = .retained last)
    (fewer : ∀ publisher, PublishCall.announces viewer.jobId (after.publishing publisher) = true →
      PublishCall.announces viewer.jobId (streams.publishing publisher) = true) : Due after viewer last := by
  obtain ⟨publisher, retained⟩ | ⟨before, behind, calls, way, among, few⟩ := due
  · exact .inl ⟨publisher, kept publisher retained⟩
  · exact .inr ⟨before, behind, calls, (pipeline_of_same arrives).trans way,
      fun publisher announces => among publisher (fewer publisher announces), few⟩

theorem ViewerSafe.setStream (safe : ViewerSafe streams viewer) {phase : StreamPhase}
    (live : viewer.queue = queue → StreamPhase.live phase = true → Subscribed streams.broker viewer.jobId)
    (expects : viewer.queue = queue → phase = .streaming → (streams.stream viewer.queue).useSnapshot = true →
      Expects streams viewer) : ViewerSafe (streams.setStream queue phase) viewer := by
  by_cases own : viewer.queue = queue
  · subst own
    constructor
    · simpa [ProgressStreams.setStream] using safe.named
    · intro lives
      exact live rfl (by simpa [ProgressStreams.setStream] using lives)
    · intro streaming useSnapshot
      exact expects rfl (by simpa [ProgressStreams.setStream] using streaming)
        (by simpa [ProgressStreams.setStream] using useSnapshot)
  · have same : (streams.setStream queue phase).stream viewer.queue = streams.stream viewer.queue :=
      Function.update_of_ne own ..
    constructor
    · rw [same]
      exact safe.named
    · rw [same]
      exact safe.subscribed
    · rw [same]
      exact safe.expects

theorem ViewerSafe.yields (safe : ViewerSafe streams viewer) {event : ProgressEvent}
    (live : viewer.queue = queue → Subscribed streams.broker viewer.jobId)
    (expects : viewer.queue = queue → event.status.terminal = false →
      (streams.stream viewer.queue).useSnapshot = true → Expects streams viewer) :
    ViewerSafe (streams.yields queue event) viewer := by
  by_cases own : viewer.queue = queue
  · subst own
    constructor
    · simpa [ProgressStreams.yields] using safe.named
    · exact fun _ => live rfl
    · intro streaming useSnapshot
      refine expects rfl ?_ (by simpa [ProgressStreams.yields] using useSnapshot)
      cases ended : event.status.terminal with
      | false => rfl
      | true => simp [ProgressStreams.yields, ended] at streaming
  · have same : (streams.yields queue event).stream viewer.queue = streams.stream viewer.queue :=
      Function.update_of_ne own ..
    constructor
    · rw [same]
      exact safe.named
    · rw [same]
      exact safe.subscribed
    · rw [same]
      exact safe.expects

section Publish

theorem EndsSafe.published (safe : EndsSafe streams) (broker : after.broker = streams.broker)
    (stream : after.stream = streams.stream)
    (keyed : ∀ jobId snapshot, after.snapshots jobId = some snapshot → snapshot.event.jobId = jobId)
    (expects : ∀ viewer ∈ streams.broker.subscribers, Subscribed streams.broker viewer.jobId →
      Expects streams viewer → Expects after viewer) : EndsSafe after := by
  refine ⟨broker ▸ safe.consistent, broker ▸ safe.distinct, keyed, fun viewer held => ?_⟩
  rw [broker] at held
  obtain ⟨named, subscribed, expected⟩ := safe.viewers viewer held
  constructor
  · rw [stream]
    exact named
  · rw [stream, broker]
    exact subscribed
  · rw [stream]
    intro streaming useSnapshot
    exact expects viewer held (subscribed (by rw [streaming]; rfl)) (expected streaming useSnapshot)

theorem EndsSafe.pass (safe : EndsSafe streams) (elapsed : Time) :
    EndsSafe { streams with now := streams.now + elapsed } := by
  refine safe.published rfl rfl safe.keyed fun viewer _ _ expects last read ended => ?_
  exact (expects last (readLastEvent_earlier (Nat.le_add_right ..) read) ended).of_same rfl
    (fun _ retained => retained) fun _ announces => announces

theorem pipeline_delivered {event : ProgressEvent} {publishing : Publisher → PublishCall}
    (subscribed : Subscribed streams.broker viewer.jobId) :
    pipeline { streams with publishing, incoming := streams.delivered event } viewer =
      pipeline streams viewer ++ if event.jobId = viewer.jobId then [.event event] else [] := by
  obtain ⟨pubsub, present, channel⟩ := subscribed
  by_cases own : event.jobId = viewer.jobId
  · simp [pipeline, arriving, delivered, present, own, channel]
  · by_cases listed : event.jobId ∈ pubsub.channels
    · simp [pipeline, arriving, delivered, present, listed, own]
    · simp [pipeline, arriving, delivered, present, listed, own]

variable [DecidableEq Publisher]

theorem EndsSafe.check (safe : EndsSafe streams) {event : ProgressEvent}
    (checked : streams.check publisher event = some after) : EndsSafe after := by
  unfold ProgressStreams.check at checked
  split at checked
  · rename_i idle
    split at checked <;> cases checked
    · refine safe.published rfl rfl safe.keyed fun viewer _ _ expects last read ended => ?_
      refine (expects last read ended).of_same rfl (fun other retained => ?_) fun other announces => ?_
      · have different : other ≠ publisher := by
          intro same
          rw [same, idle] at retained
          cases retained
        simpa [setPublishing, different] using retained
      · by_cases same : other = publisher
        · subst same
          simp [setPublishing, PublishCall.announces] at announces
        · simpa [setPublishing, same] using announces
    · exact safe
  · contradiction

theorem EndsSafe.retain (safe : EndsSafe streams) (retained : streams.retain publisher = some after) :
    EndsSafe after := by
  unfold ProgressStreams.retain at retained
  split at retained
  · rename_i event superseding
    cases retained
    refine safe.published rfl rfl (fun jobId snapshot kept => ?_) fun viewer _ _ expects last read ended => ?_
    · by_cases own : jobId = event.jobId
      · subst own
        cases retain_self.symm.trans kept
        rfl
      · exact safe.keyed jobId snapshot ((retain_other own).symm.trans kept)
    · by_cases own : viewer.jobId = event.jobId
      · rw [own] at read
        cases readLastEvent_retain_self.symm.trans read
        exact .inl ⟨publisher, Function.update_self ..⟩
      · have before : streams.snapshots.readLastEvent streams.now viewer.jobId = some last :=
          (readLastEvent_retain_other own).symm.trans read
        refine (expects last before ended).of_same rfl (fun other found => ?_) fun other announces => ?_
        · have different : other ≠ publisher := by
            intro same
            rw [same, superseding] at found
            cases found
          simpa [setPublishing, different] using found
        · by_cases same : other = publisher
          · subst same
            simp [setPublishing, PublishCall.announces, Ne.symm own] at announces
          · simpa [setPublishing, same] using announces
  · contradiction

theorem UnderWayAmong.erase {calls : Finset Publisher} (among : UnderWayAmong streams jobId calls)
    {incoming : Nat → List ProgressEvent} :
    UnderWayAmong { streams.setPublishing publisher .idle with incoming } jobId (calls.erase publisher) := by
  intro other announces
  by_cases same : other = publisher
  · subst same
    simp [setPublishing, PublishCall.announces] at announces
  · refine Finset.mem_erase.mpr ⟨same, among other ?_⟩
    simpa [setPublishing, same] using announces

theorem EndsSafe.announce (safe : EndsSafe streams) (permitted : KeepsEnds streams (.announce publisher))
    (announced : streams.announce publisher = some after) : EndsSafe after := by
  unfold ProgressStreams.announce at announced
  split at announced
  · rename_i event retained
    cases announced
    refine safe.published rfl rfl safe.keyed fun viewer _ subscribed expects last read ended => ?_
    have moved : pipeline { streams.setPublishing publisher .idle with incoming := streams.delivered event } viewer =
        pipeline streams viewer ++ if event.jobId = viewer.jobId then [.event event] else [] :=
      pipeline_delivered subscribed
    obtain ⟨other, found⟩ | ⟨before, behind, calls, way, among, few⟩ := expects last read ended
    · by_cases same : other = publisher
      · -- The retained event itself goes out, behind what is on its way.
        subst same
        cases retained.symm.trans found
        have own : event.jobId = viewer.jobId := safe.retained_jobId read
        obtain ⟨calls, among, fit⟩ := permitted event retained
        rw [if_pos own] at moved
        refine .inr ⟨pipeline streams viewer, [], calls.erase other, moved, own ▸ among.erase, ?_⟩
        have listed : other ∈ calls := among other (by simp [retained, PublishCall.announces])
        have one := Finset.card_erase_lt_of_mem listed
        rw [List.length_nil]
        omega
      · exact .inl ⟨other, by simpa [setPublishing, same] using found⟩
    · by_cases own : event.jobId = viewer.jobId
      · rw [if_pos own, way, List.append_assoc, List.cons_append] at moved
        refine .inr ⟨before, behind ++ [.event event], calls.erase publisher, moved, among.erase, ?_⟩
        have listed : publisher ∈ calls := among publisher (by simp [retained, PublishCall.announces, own])
        have one := Finset.card_erase_add_one listed
        rw [List.length_append, List.length_singleton]
        omega
      · rw [if_neg own, List.append_nil] at moved
        refine .inr ⟨before, behind, calls, moved.trans way, fun other announces => ?_, few⟩
        exact Finset.mem_of_mem_erase (among.erase other announces)
  · contradiction

end Publish

section Streams

theorem offer_keeps {later : List QueueItem} {event : ProgressEvent} {item : QueueItem}
    {before behind : List QueueItem}
    (way : viewer.items ++ .event event :: later = before ++ item :: behind)
    (few : behind.length < queueMaxsize) :
    ∃ kept, (viewer.offer (.event event)).items ++ later = kept ++ item :: behind := by
  have offered : (viewer.offer (.event event)).items ++ later =
      (if viewer.items.length < queueMaxsize then viewer.items else viewer.items.tail) ++ .event event :: later := by
    simp [Viewer.offer]
  rw [offered]
  by_cases room : viewer.items.length < queueMaxsize
  · exact ⟨before, by rw [if_pos room, way]⟩
  · rw [if_neg room]
    cases waiting : viewer.items with
    | nil =>
        rw [waiting] at room
        exact absurd (by decide) room
    | cons oldest rest =>
        rw [waiting] at way room
        cases before with
        | nil =>
            -- The oldest item has a whole queue behind it.
            have lengths := congrArg List.length way
            simp only [List.length_append, List.length_cons, List.nil_append] at lengths room
            omega
        | cons first kept =>
            rw [List.cons_append, List.cons_append] at way
            exact ⟨kept, (List.cons.inj way).2⟩

theorem arriving_of_pubsub {pubsub : PubSub} (present : streams.broker.pubsub = some pubsub) :
    arriving streams = streams.incoming pubsub.id := by
  rw [arriving, present]

def handedOut (streams : ProgressStreams Publisher) (connection : Nat) (event : ProgressEvent)
    (rest : List ProgressEvent) : ProgressStreams Publisher :=
  { streams with
    broker := streams.broker.dispatch event
    incoming := Function.update streams.incoming connection rest }

theorem pipeline_handedOut {pubsub : PubSub} {event : ProgressEvent} {rest : List ProgressEvent}
    (present : streams.broker.pubsub = some pubsub) :
    pipeline (handedOut streams pubsub.id event rest) viewer =
      viewer.items ++ (rest.filter fun event => event.jobId = viewer.jobId).map .event := by
  have stays : (handedOut streams pubsub.id event rest).broker.pubsub = some pubsub := present
  rw [pipeline, arriving_of_pubsub stays]
  simp [handedOut]

theorem ViewerSafe.handedOut {pubsub : PubSub} {event : ProgressEvent} {rest : List ProgressEvent}
    (safe : ViewerSafe streams viewer) (present : streams.broker.pubsub = some pubsub)
    (waiting : streams.incoming pubsub.id = event :: rest) :
    ViewerSafe (handedOut streams pubsub.id event rest)
      (if viewer.jobId = event.jobId then viewer.offer (.event event) else viewer) := by
  have before : pipeline streams viewer = viewer.items ++
      ((event :: rest).filter fun event => event.jobId = viewer.jobId).map .event := by
    rw [pipeline, arriving_of_pubsub present, waiting]
  by_cases own : viewer.jobId = event.jobId
  · rw [if_pos own]
    refine ⟨safe.named, safe.subscribed, fun streaming useSnapshot last read ended => ?_⟩
    have due := safe.expects streaming useSnapshot last read ended
    obtain retained | ⟨front, behind, calls, way, underway, few⟩ := due
    · exact .inl retained
    · have listed : ((event :: rest).filter fun event => event.jobId = viewer.jobId) =
          event :: rest.filter fun event => event.jobId = viewer.jobId := by
        simp [own]
      rw [before, listed, List.map_cons] at way
      obtain ⟨kept, still⟩ := offer_keeps way (by omega)
      exact .inr ⟨kept, behind, calls, (pipeline_handedOut present).trans still, underway, few⟩
  · rw [if_neg own]
    refine ⟨safe.named, safe.subscribed, fun streaming useSnapshot last read ended => ?_⟩
    have due := safe.expects streaming useSnapshot last read ended
    obtain retained | ⟨front, behind, calls, way, underway, few⟩ := due
    · exact .inl retained
    · have skipped : ((event :: rest).filter fun event => event.jobId = viewer.jobId) =
          rest.filter fun event => event.jobId = viewer.jobId := by
        simp [Ne.symm own]
      rw [before, skipped] at way
      exact .inr ⟨front, behind, calls, (pipeline_handedOut present).trans way, underway, few⟩

theorem queues_map {change : Viewer → Viewer} {subscribers : List Viewer}
    (kept : ∀ viewer, (change viewer).queue = viewer.queue) :
    (subscribers.map change).map Viewer.queue = subscribers.map Viewer.queue := by
  rw [List.map_map]
  exact List.map_congr_left fun viewer _ => kept viewer

theorem EndsSafe.receive (safe : EndsSafe streams) (received : streams.receive = some after) :
    EndsSafe after := by
  unfold ProgressStreams.receive at received
  split at received
  · rename_i connection runs
    split at received
    · rename_i event rest waiting
      obtain ⟨broker, dispatched, same⟩ := Option.map_eq_some_iff.mp received
      subst same
      have consistent := safe.consistent.step dispatched
      simp only [ProgressBroker.step, runs, Option.some.injEq] at dispatched
      subst dispatched
      obtain ⟨pubsub, present, pumps⟩ := safe.consistent.pumping _ runs
      have sameConnection : connection = pubsub.id := pumps
      subst sameConnection
      refine ⟨consistent, ?_, safe.keyed, fun viewer held => ?_⟩
      · have queues : (streams.broker.dispatch event).subscribers.map Viewer.queue =
            streams.broker.subscribers.map Viewer.queue :=
          queues_map fun viewer => by split <;> simp
        rw [queues]
        exact safe.distinct
      · obtain ⟨earlier, among, rfl⟩ := List.mem_map.mp held
        exact (safe.viewers earlier among).handedOut present waiting
    · contradiction
  · contradiction

theorem EndsSafe.quiet (safe : EndsSafe streams) {next : ProgressBroker} {joins : Viewer → Prop}
    {stream : Nat → ProgressStream} (consistent : Consistent next) (quiet : Quiet streams.broker next joins)
    (kept : ∀ viewer ∈ next.subscribers, viewer ∈ streams.broker.subscribers →
      (stream viewer.queue).jobId = (streams.stream viewer.queue).jobId ∧
      (StreamPhase.live (stream viewer.queue).phase = true →
        StreamPhase.live (streams.stream viewer.queue).phase = true ∨ Subscribed next viewer.jobId) ∧
      ((stream viewer.queue).phase = .streaming → stream viewer.queue = streams.stream viewer.queue))
    (joined : ∀ viewer ∈ next.subscribers, joins viewer → viewer ∉ streams.broker.subscribers →
      ViewerSafe { streams with broker := next, stream } viewer) :
    EndsSafe { streams with broker := next, stream } := by
  refine ⟨consistent, quiet.distinct safe.distinct, safe.keyed, fun viewer held => ?_⟩
  by_cases earlier : viewer ∈ streams.broker.subscribers
  · obtain ⟨named, live, streaming⟩ := kept viewer held earlier
    have safeEarlier := safe.viewers viewer earlier
    refine ⟨named.trans safeEarlier.named, fun lives => ?_, fun runs useSnapshot last read ended => ?_⟩
    · obtain before | now := live lives
      · exact quiet.subscribed held (safeEarlier.subscribed before)
      · exact now
    · have same := streaming runs
      have ran : (streams.stream viewer.queue).phase = .streaming :=
        (congrArg ProgressStream.phase same).symm.trans runs
      have used : (streams.stream viewer.queue).useSnapshot = true :=
        (congrArg ProgressStream.useSnapshot same).symm.trans useSnapshot
      have subscribed := safeEarlier.subscribed (by rw [ran]; rfl)
      obtain ⟨pubsub, present, _⟩ := subscribed
      obtain ⟨still, shares, sameId, _⟩ := quiet.shared viewer held pubsub present
      have arrives : arriving { streams with broker := next, stream } = arriving streams := by
        rw [arriving_of_pubsub present, arriving_of_pubsub shares, sameId]
      exact (safeEarlier.expects ran used last read ended).of_same arrives (fun _ retained => retained)
        fun _ announces => announces
  · obtain before | joins := quiet.viewers viewer held
    · exact absurd before earlier
    · exact joined viewer held joins earlier

section Steps

variable {useSnapshot cancelled reached : Bool}

theorem EndsSafe.register (safe : EndsSafe streams)
    (permitted : streams.broker.watched jobId = true → Subscribed streams.broker jobId)
    (registered : streams.register queue jobId useSnapshot = some after) : EndsSafe after := by
  unfold ProgressStreams.register at registered
  split at registered
  · obtain ⟨next, moved, same⟩ := Option.map_eq_some_iff.mp registered
    subst same
    have quiet := quiet_register moved
    obtain ⟨_, fresh, pubsub, connections, _, outcome⟩ := register_cases moved
    refine safe.quiet (safe.consistent.step moved) quiet (fun viewer _ earlier => ?_) fun viewer held joins _ => ?_
    · rw [Function.update_of_ne (fresh viewer earlier)]
      exact ⟨rfl, .inl, fun _ => rfl⟩
    · subst joins
      refine ⟨by simp, fun lives => ?_, fun streaming => ?_⟩
      · obtain ⟨watched, _⟩ | ⟨_, rfl⟩ := outcome
        · exact quiet.subscribed held (permitted watched)
        · simp [StreamPhase.live] at lives
      · simp only [Function.update_self] at streaming
        split at streaming <;> cases streaming
  · contradiction

theorem EndsSafe.subscribed (safe : EndsSafe streams) (ended : streams.subscribed cancelled = some after) :
    EndsSafe after := by
  unfold ProgressStreams.subscribed at ended
  split at ended
  · rename_i queue jobId held
    obtain ⟨next, moved, same⟩ := Option.map_eq_some_iff.mp ended
    subst same
    have unfailing : (if cancelled then RedisReply.cancelled else .returns) ≠ .raises := by
      split <;> simp
    have quiet := quiet_subscribed unfailing moved
    have own : ∀ viewer ∈ streams.broker.subscribers, viewer.queue = queue ↔ viewer.jobId = jobId := by
      have lock := safe.consistent.lock
      rw [held] at lock
      exact lock
    have live : ∀ viewer ∈ streams.broker.subscribers, viewer.queue = queue → cancelled = false →
        Subscribed next viewer.jobId := by
      intro viewer among same kept
      subst kept
      have returned : streams.broker.subscribed .returns = some next := moved
      obtain ⟨_, _, pubsub, lock, _, ⟨_, rfl⟩ | ⟨none, _⟩ | ⟨none, _⟩⟩ := subscribed_cases returned
      · cases held.symm.trans lock
        exact ⟨_, ensureReader_pubsub, by simp [(own viewer among).mp same]⟩
      · cases none
      · cases none
    refine safe.quiet (safe.consistent.step moved) quiet (fun viewer _ earlier => ?_) fun _ _ joins => joins.elim
    by_cases same : viewer.queue = queue
    · subst same
      simp only [Function.update_self]
      refine ⟨trivial, fun lives => .inr (live viewer earlier rfl ?_), fun streaming => ?_⟩
      · cases cancelled with
        | true => simp [StreamPhase.live] at lives
        | false => rfl
      · split at streaming <;> cases streaming
    · simp only [Function.update_of_ne same]
      exact ⟨trivial, .inl, fun _ => trivial⟩
  · contradiction

theorem EndsSafe.unregister (safe : EndsSafe streams) (unregistered : streams.unregister queue = some after) :
    EndsSafe after := by
  unfold ProgressStreams.unregister at unregistered
  split at unregistered
  · obtain ⟨next, moved, same⟩ := Option.map_eq_some_iff.mp unregistered
    subst same
    refine safe.quiet (safe.consistent.step moved) (quiet_unregister moved) (fun viewer _ _ => ?_)
      fun _ _ joins => joins.elim
    by_cases same : viewer.queue = queue
    · subst same
      simp [StreamPhase.live]
    · simp only [Function.update_of_ne same]
      exact ⟨trivial, .inl, fun _ => trivial⟩
  · contradiction

theorem EndsSafe.bookkeeping (safe : EndsSafe streams) {action : ProgressBroker.Action}
    (quiet : ∀ next, ProgressBroker.step action streams.broker = some next →
      Quiet streams.broker next fun _ => False)
    (ran : ((ProgressBroker.step action streams.broker).map fun broker => { streams with broker }) =
      some after) : EndsSafe after := by
  obtain ⟨next, moved, same⟩ := Option.map_eq_some_iff.mp ran
  subst same
  exact safe.quiet (safe.consistent.step moved) (quiet next moved) (fun _ _ _ => ⟨rfl, .inl, fun _ => rfl⟩)
    fun _ _ joins => joins.elim

theorem quiet_of_same {broker next : ProgressBroker} (subscribers : next.subscribers = broker.subscribers)
    (pubsub : next.pubsub = broker.pubsub) : Quiet broker next fun _ => False := by
  refine ⟨fun viewer held => .inl (subscribers ▸ held), fun viewer _ shared present => ?_, fun distinct => ?_⟩
  · exact ⟨shared, pubsub.trans present, rfl, id⟩
  · rw [subscribers]
    exact distinct

theorem quiet_connectionClosed {broker next : ProgressBroker}
    (moved : ProgressBroker.step .connectionClosed broker = some next) : Quiet broker next fun _ => False := by
  simp only [ProgressBroker.step] at moved
  split at moved
  · cases moved
    exact quiet_of_same rfl rfl
  · contradiction

theorem quiet_readerExits {broker next : ProgressBroker} {index : Nat}
    (moved : ProgressBroker.step (.readerExits index) broker = some next) : Quiet broker next fun _ => False := by
  simp only [ProgressBroker.step] at moved
  split at moved
  · cases moved
    exact quiet_of_same rfl rfl
  · contradiction

theorem EndsSafe.setStream (safe : EndsSafe streams) {phase : StreamPhase}
    (live : StreamPhase.live phase = true → StreamPhase.live (streams.stream queue).phase = true)
    (expects : phase = .streaming → (streams.stream queue).useSnapshot = true →
      ∀ viewer, viewer.jobId = (streams.stream queue).jobId → Expects streams viewer) :
    EndsSafe (streams.setStream queue phase) := by
  refine ⟨safe.consistent, safe.distinct, safe.keyed, fun viewer held => ?_⟩
  have safeViewer := safe.viewers viewer held
  refine safeViewer.setStream (fun own lives => ?_) fun own streaming useSnapshot => ?_
  · subst own
    exact safeViewer.subscribed (live lives)
  · subst own
    exact expects streaming useSnapshot viewer safeViewer.named.symm

theorem EndsSafe.readSnapshot (safe : EndsSafe streams) (read : streams.readSnapshot queue = some after) :
    EndsSafe after := by
  unfold ProgressStreams.readSnapshot at read
  simp only at read
  split at read
  · rename_i registered
    have live : StreamPhase.live (streams.stream queue).phase = true := by rw [registered]; rfl
    split at read
    · split at read <;> cases read
      · rename_i snapshot found
        refine ⟨safe.consistent, safe.distinct, safe.keyed, fun viewer held => ?_⟩
        have safeViewer := safe.viewers viewer held
        refine safeViewer.yields (fun own => ?_) fun own unfinished _ last again ended => ?_
        · subst own
          exact safeViewer.subscribed live
        · subst own
          rw [safeViewer.named, again] at found
          cases found
          rw [unfinished] at ended
          cases ended
      · rename_i none
        refine safe.setStream (fun _ => live) fun _ _ viewer named last again => ?_
        rw [← named, again] at none
        cases none
    · rename_i skips
      cases read
      exact safe.setStream (fun _ => live) fun _ useSnapshot => absurd useSnapshot skips
  · contradiction

theorem EndsSafe.leave (safe : EndsSafe streams) (left : streams.leave queue = some after) : EndsSafe after := by
  unfold ProgressStreams.leave at left
  split at left
  all_goals
    first
    | contradiction
    | rename_i runs
      cases left
      exact safe.setStream (fun _ => by rw [runs]; rfl) fun closing => nomatch closing

theorem EndsSafe.nextItem (safe : EndsSafe streams) {item : QueueItem}
    (next : streams.nextItem queue = some item) (held : viewer ∈ streams.broker.subscribers)
    (own : viewer.queue = queue) : viewer.items.head? = some item := by
  obtain ⟨found, finds, head⟩ := Option.bind_eq_some_iff.mp next
  have same : found = viewer := by
    refine List.inj_on_of_nodup_map safe.distinct (List.mem_of_find?_eq_some finds) held ?_
    exact (of_decide_eq_true (@List.find?_some _ (fun viewer : Viewer => viewer.queue = queue) _ _ finds)).trans
      own.symm
  exact same ▸ head

theorem Expects.take {item : QueueItem} {rest : List QueueItem} (expects : Expects streams viewer)
    (waiting : viewer.items = item :: rest)
    (unfinished : ∀ event, item = .event event → event.status.terminal = false)
    (arrives : arriving after = arriving streams) (snapshots : after.snapshots = streams.snapshots)
    (now : after.now = streams.now) (publishing : after.publishing = streams.publishing) :
    Expects after { viewer with items := rest } := by
  intro last read ended
  rw [snapshots, now] at read
  obtain ⟨publisher, retained⟩ | ⟨front, behind, calls, way, among, few⟩ := expects last read ended
  · exact .inl ⟨publisher, publishing ▸ retained⟩
  · rw [pipeline, waiting, List.cons_append] at way
    cases front with
    | nil =>
        have taken := unfinished last (List.cons.inj way).1
        rw [ended] at taken
        cases taken
    | cons first front =>
        refine .inr ⟨front, behind, calls, ?_, ?_, few⟩
        · rw [pipeline, arrives]
          exact (List.cons.inj way).2
        · intro other announces
          rw [publishing] at announces
          exact among other announces

theorem EndsSafe.before_take (safe : EndsSafe streams) {item : QueueItem} {next : ProgressBroker}
    (found : streams.nextItem queue = some item)
    (moved : ProgressBroker.step (.take queue) streams.broker = some next) :
    ∀ viewer ∈ next.subscribers, viewer.queue ≠ queue ∧ viewer ∈ streams.broker.subscribers ∨
      ∃ earlier ∈ streams.broker.subscribers, earlier.queue = queue ∧
        ∃ rest, earlier.items = item :: rest ∧ viewer = { earlier with items := rest } := by
  intro viewer held
  simp only [ProgressBroker.step, Option.some.injEq] at moved
  rw [← moved] at held
  obtain ⟨earlier, among, rfl⟩ := List.mem_map.mp held
  by_cases own : earlier.queue = queue
  · have head := safe.nextItem found among own
    rw [if_pos own]
    exact .inr ⟨earlier, among, own, earlier.items.tail, (List.cons_head?_tail head).symm, rfl⟩
  · rw [if_neg own]
    exact .inl ⟨own, among⟩

theorem EndsSafe.taken (safe : EndsSafe streams) {item : QueueItem} {next : ProgressBroker}
    {entry : ProgressStream} (streaming : (streams.stream queue).phase = .streaming)
    (found : streams.nextItem queue = some item)
    (moved : ProgressBroker.step (.take queue) streams.broker = some next)
    (jobId : entry.jobId = (streams.stream queue).jobId)
    (useSnapshot : entry.useSnapshot = (streams.stream queue).useSnapshot)
    (unfinished : entry.phase = .streaming → ∀ event, item = .event event → event.status.terminal = false) :
    EndsSafe { streams with broker := next, stream := Function.update streams.stream queue entry } := by
  have before := safe.before_take found moved
  have consistent := safe.consistent.step moved
  simp only [ProgressBroker.step, Option.some.injEq] at moved
  have pubsub : next.pubsub = streams.broker.pubsub := by rw [← moved]
  have arrives : arriving { streams with
      broker := next, stream := Function.update streams.stream queue entry } = arriving streams := by
    rw [arriving, arriving, pubsub]
  have subscribed : ∀ jobId, Subscribed streams.broker jobId → Subscribed next jobId := by
    intro jobId subscribed
    unfold Subscribed
    rw [pubsub]
    exact subscribed
  refine ⟨consistent, ?_, safe.keyed, fun viewer held => ?_⟩
  · have queues : next.subscribers.map Viewer.queue = streams.broker.subscribers.map Viewer.queue := by
      rw [← moved, queues_map fun viewer => by split <;> rfl]
    rw [queues]
    exact safe.distinct
  · obtain ⟨other, among⟩ | ⟨earlier, among, own, rest, waiting, rfl⟩ := before viewer held
    · obtain ⟨named, live, expects⟩ := safe.viewers viewer among
      constructor
      · simpa [other] using named
      · exact fun lives => subscribed _ (live (by simpa [other] using lives))
      · intro runs used last read ended
        have due := expects (by simpa [other] using runs) (by simpa [other] using used) last read ended
        exact due.of_same arrives (fun _ retained => retained) fun _ announces => announces
    · obtain ⟨named, live, expects⟩ := safe.viewers earlier among
      subst own
      constructor
      · simpa [jobId] using named
      · exact fun _ => subscribed _ (live (by rw [streaming]; rfl))
      · intro runs used
        simp only [Function.update_self] at runs used
        exact (expects streaming (useSnapshot ▸ used)).take waiting (unfinished runs) arrives rfl rfl rfl

theorem EndsSafe.take (safe : EndsSafe streams) (taken : streams.take queue = some after) : EndsSafe after := by
  unfold ProgressStreams.take at taken
  split at taken
  · rename_i streaming
    split at taken
    · rename_i item found
      obtain ⟨next, moved, same⟩ := Option.map_eq_some_iff.mp taken
      subst same
      cases item with
      | event event =>
          refine safe.taken streaming found moved rfl rfl fun runs taken same => ?_
          cases same
          cases ended : event.status.terminal with
          | false => rfl
          | true => simp [ended] at runs
      | closed => exact safe.taken streaming found moved rfl rfl fun closing => nomatch closing
    · contradiction
  · contradiction

end Steps

end Streams

section Runs

theorem EndsSafe.initial : EndsSafe (ProgressStreams.initial : ProgressStreams Publisher) where
  consistent := ⟨fun reader runs => by simp [ProgressStreams.initial, ProgressBroker.initial] at runs, trivial⟩
  distinct := List.nodup_nil
  keyed := fun jobId snapshot kept => by simp [ProgressStreams.initial] at kept
  viewers := fun viewer held => by simp [ProgressStreams.initial, ProgressBroker.initial] at held

variable [DecidableEq Publisher] {steps : List (ProgressStreams Publisher × ProgressStreams.Action Publisher)}
  {last : ProgressStreams Publisher}

theorem EndsSafe.step (safe : EndsSafe streams) {action : ProgressStreams.Action Publisher}
    (permitted : KeepsEnds streams action) (stepped : ProgressStreams.step action streams = some after) :
    EndsSafe after := by
  cases action with
  | pass elapsed =>
      cases stepped
      exact safe.pass elapsed
  | check publisher event => exact safe.check stepped
  | retain publisher => exact safe.retain stepped
  | announce publisher => exact safe.announce permitted stepped
  | receive => exact safe.receive stepped
  | register queue jobId useSnapshot => exact safe.register permitted stepped
  | subscribed cancelled => exact safe.subscribed stepped
  | readSnapshot queue => exact safe.readSnapshot stepped
  | take queue => exact safe.take stepped
  | leave queue => exact safe.leave stepped
  | unregister queue => exact safe.unregister stepped
  | unsubscribed cancelled reached =>
      refine safe.bookkeeping (fun next moved => ?_) stepped
      exact quiet_unsubscribed safe.consistent moved
  | connectionClosed => exact safe.bookkeeping (fun _ moved => quiet_connectionClosed moved) stepped
  | readerExits index => exact safe.bookkeeping (fun _ moved => quiet_readerExits moved) stepped

/-- No stream misses the end of its job in a run in which every stream joins a
subscribed channel and no more events are under way than a queue can hold. -/
theorem no_stream_misses_end (ran : (ProgressStreams.machine Publisher).Run steps last)
    (permitted : ∀ taken ∈ steps, KeepsEnds taken.1 taken.2) :
    ∀ streams ∈ Machine.visited steps last, NoneMissesEnd streams := by
  have safe : ∀ streams ∈ Machine.visited steps last, EndsSafe streams :=
    ran.always .initial (fun safe permitted stepped => safe.step permitted stepped) permitted
  exact fun streams visited => (safe streams visited).noneMissesEnd

end Runs

section Instances

variable {count : Nat} {streams : ProgressStreams (Fin count)}

instance : Decidable (FanOutFinished streams jobId) := inferInstanceAs (Decidable (_ ∧ _))

instance : Decidable (MissesEnd streams viewer) :=
  have : Decidable (∃ last, streams.snapshots.readLastEvent streams.now viewer.jobId = some last ∧
      last.status.terminal = true) :=
    decidable_of_iff (((streams.snapshots.readLastEvent streams.now viewer.jobId).any
      fun last => last.status.terminal) = true) (by simp [Option.any_eq_true])
  inferInstanceAs (Decidable (_ ∧ _ ∧ _ ∧ _ ∧ _ ∧ _))

instance : Decidable (NoneMissesEnd streams) := inferInstanceAs (Decidable (∀ _ ∈ _, _))

theorem keepsEnds_announce {publisher : Fin count} (few : count ≤ queueMaxsize) :
    KeepsEnds streams (.announce publisher) := by
  intro event _
  exact ⟨Finset.univ, fun publisher _ => Finset.mem_univ publisher, by simpa using few⟩

def reported (status : ProgressStatus) : ProgressEvent :=
  { jobId := "job", status, progress := 100, message := "", timestamp := 0 }

/-- The client of the first stream is gone before the `SUBSCRIBE` is sent. -/
def joinsCancelled : List (ProgressStreams.Action (Fin 1)) :=
  [.register 0 "job" true, .subscribed true, .register 1 "job" true, .readSnapshot 1,
    .check 0 (reported .completed), .retain 0, .announce 0]

theorem stream_misses_end : ∃ steps last, (ProgressStreams.machine (Fin 1)).Run steps last ∧
    ¬ NoneMissesEnd last := by
  obtain ⟨steps, last, ran, missed⟩ := @Machine.exists_run _ _ (ProgressStreams.machine (Fin 1)) joinsCancelled
    (fun _ last => !decide (NoneMissesEnd last)) (by decide +kernel)
  exact ⟨steps, last, ran, by simpa using missed⟩

def joinsInTime : List (ProgressStreams.Action (Fin 1)) :=
  [.register 0 "job" true, .subscribed false, .register 1 "job" true, .readSnapshot 1,
    .check 0 (reported .completed), .retain 0, .announce 0, .receive, .take 1]

def findsSubscribed (streams : ProgressStreams (Fin count)) : ProgressStreams.Action (Fin count) → Bool
  | .register _ jobId _ => !streams.broker.watched jobId ||
      streams.broker.pubsub.any fun pubsub => jobId ∈ pubsub.channels
  | _ => true

theorem no_stream_misses_end_of_two : ∃ steps last, (ProgressStreams.machine (Fin 1)).Run steps last ∧
    (last.stream 1).yielded.map ProgressEvent.status = [.completed] ∧
    ∀ streams ∈ Machine.visited steps last, NoneMissesEnd streams := by
  obtain ⟨steps, last, ran, checked⟩ := @Machine.exists_run _ _ (ProgressStreams.machine (Fin 1)) joinsInTime
    (fun steps last => decide ((last.stream 1).yielded.map ProgressEvent.status = [.completed]) &&
      steps.all fun taken => findsSubscribed taken.1 taken.2) (by decide +kernel)
  obtain ⟨yielded, inTime⟩ := Bool.and_eq_true_iff.mp checked
  refine ⟨steps, last, ran, of_decide_eq_true yielded, no_stream_misses_end ran fun taken member => ?_⟩
  have found := List.all_eq_true.mp inTime taken member
  obtain ⟨streams, action⟩ := taken
  cases action with
  | register queue jobId useSnapshot =>
      intro watched
      simpa [findsSubscribed, watched, Option.any_eq_true, Subscribed] using found
  | announce publisher => exact keepsEnds_announce (by decide)
  | _ => exact trivial

end Instances

end IncidentPlatform.Properties
