import IncidentPlatform.Workers.ProgressBroker

namespace IncidentPlatform.Properties

open Concurrency Workers ProgressBroker

/-! # Viewers and the connection that feeds them

`_register` subscribes for the first viewer of a job only, and takes the others
to be fed by that subscription.  What they find is the condition.
-/

variable {broker after : ProgressBroker} {jobId other : String} {queue : Nat} {viewer : Viewer}
  {pubsub : PubSub} {reply : RedisReply} {reached : Bool}

/-- The job's channel is subscribed on the shared connection and a reader that
has not exited pumps that connection. -/
def Wired (broker : ProgressBroker) (jobId : String) : Prop :=
  ∃ pubsub reader, broker.pubsub = some pubsub ∧ jobId ∈ pubsub.channels ∧
    broker.reader = some reader ∧ reader.exited = false ∧ reader.connection = pubsub.id

/-- Every viewer whose registration is over and that was not handed the close
marker is wired. -/
def ViewersWired (broker : ProgressBroker) : Prop :=
  ∀ viewer ∈ broker.subscribers, viewer.closed = false →
    broker.lock ≠ .subscribing viewer.queue viewer.jobId → Wired broker viewer.jobId

/-- A viewer that is not the first of its job finds the job's channel subscribed,
and a cancelled registration leaves no viewer that waits for a channel. -/
def JoinsSubscribed (broker : ProgressBroker) : Action → Prop
  | .register jobId _ => broker.watched jobId = true →
      ∃ pubsub, broker.pubsub = some pubsub ∧ jobId ∈ pubsub.channels
  | .subscribed .cancelled => ∀ viewer ∈ broker.subscribers, viewer.closed = false →
      broker.lock = .subscribing viewer.queue viewer.jobId → Wired broker viewer.jobId
  | _ => True

theorem watched_iff : broker.watched jobId = true ↔ ∃ viewer ∈ broker.subscribers, viewer.jobId = jobId := by
  simp [watched]

def LockHolds (broker : ProgressBroker) : BrokerLock → Prop
  | .free => True
  | .subscribing queue jobId => ∀ viewer ∈ broker.subscribers, viewer.queue = queue ↔ viewer.jobId = jobId
  | .unsubscribing jobId => ∀ viewer ∈ broker.subscribers, viewer.jobId ≠ jobId
  | .closing => broker.subscribers = []

structure Consistent (broker : ProgressBroker) : Prop where
  /-- A reader that runs is the one of the shared connection. -/
  pumping : ∀ reader, broker.reader = some reader →
    ∃ pubsub, broker.pubsub = some pubsub ∧ reader.connection = pubsub.id
  lock : LockHolds broker broker.lock

theorem Wired.mono (wired : Wired broker jobId)
    (subscribed : ∀ pubsub, broker.pubsub = some pubsub → jobId ∈ pubsub.channels →
      ∃ next, after.pubsub = some next ∧ next.id = pubsub.id ∧ jobId ∈ next.channels)
    (reader : after.reader = broker.reader) : Wired after jobId := by
  obtain ⟨pubsub, reading, shared, channel, runs, live, pumps⟩ := wired
  obtain ⟨next, same, id, kept⟩ := subscribed pubsub shared channel
  exact ⟨next, reading, same, kept, reader.trans runs, live, pumps.trans id.symm⟩

theorem Wired.of_same (wired : Wired broker jobId) (pubsub : after.pubsub = broker.pubsub)
    (reader : after.reader = broker.reader) : Wired after jobId :=
  wired.mono (fun shared found channel => ⟨shared, pubsub.trans found, rfl, channel⟩) reader

@[simp] theorem ensureReader_subscribers :
    (broker.ensureReader pubsub).subscribers = broker.subscribers := by
  unfold ensureReader
  split <;> rfl

@[simp] theorem ensureReader_pubsub : (broker.ensureReader pubsub).pubsub = broker.pubsub := by
  unfold ensureReader
  split <;> rfl

@[simp] theorem ensureReader_lock : (broker.ensureReader pubsub).lock = broker.lock := by
  unfold ensureReader
  split <;> rfl

theorem ensureReader_reader : (broker.ensureReader pubsub).reader = some ⟨pubsub.id, false⟩ ∨
    ∃ connection, broker.reader = some ⟨connection, false⟩ ∧
      (broker.ensureReader pubsub).reader = some ⟨connection, false⟩ := by
  unfold ensureReader
  split
  · rename_i connection runs
    exact .inr ⟨connection, runs, runs⟩
  · exact .inl rfl

theorem ensureReader_pumps (pumping : ∀ reader, broker.reader = some reader → reader.connection = pubsub.id) :
    (broker.ensureReader pubsub).reader = some ⟨pubsub.id, false⟩ := by
  obtain started | ⟨connection, runs, kept⟩ := @ensureReader_reader broker pubsub
  · exact started
  · rw [kept, ← pumping _ runs]

theorem ensured_connection {reader : ReaderTask}
    (runs : (broker.ensureReader pubsub).reader = some reader)
    (pumping : ∀ reader, broker.reader = some reader → reader.connection = pubsub.id) : reader.connection = pubsub.id := by
  rw [ensureReader_pumps pumping] at runs
  cases runs
  rfl

theorem wired_of_ensureReader (shared : broker.pubsub = some pubsub)
    (pumping : ∀ reader, broker.reader = some reader → reader.connection = pubsub.id)
    (channel : jobId ∈ pubsub.channels) : Wired (broker.ensureReader pubsub) jobId :=
  ⟨pubsub, ⟨pubsub.id, false⟩, by rw [ensureReader_pubsub, shared], channel,
    ensureReader_pumps pumping, rfl, rfl⟩

theorem register_cases (registered : broker.register jobId queue = some after) :
    broker.lock = .free ∧ (∀ viewer ∈ broker.subscribers, viewer.queue ≠ queue) ∧
    ∃ pubsub connections, (broker.pubsub = some pubsub ∨ broker.pubsub = none ∧ pubsub.channels = []) ∧
      let joined : ProgressBroker := { broker with
        subscribers := broker.subscribers ++ [⟨queue, jobId, [], false⟩], pubsub := some pubsub, connections }
      (broker.watched jobId = true ∧ after = joined.ensureReader pubsub ∨
        broker.watched jobId = false ∧ after = { joined with lock := .subscribing queue jobId }) := by
  unfold register at registered
  split at registered
  · rename_i enters
    refine ⟨enters.1, enters.2, broker.pubsub.getD ⟨broker.connections, []⟩,
      if broker.pubsub.isSome then broker.connections else broker.connections + 1, ?_, ?_⟩
    · cases broker.pubsub <;> simp
    · cases watched : broker.watched jobId with
      | true =>
          simp only [watched, ↓reduceIte] at registered
          cases registered
          exact .inl ⟨rfl, rfl⟩
      | false =>
          simp only [watched, Bool.false_eq_true, ↓reduceIte] at registered
          cases registered
          exact .inr ⟨rfl, rfl⟩
  · contradiction

theorem Consistent.pumping_of (consistent : Consistent broker) {reader : ReaderTask}
    (shared : broker.pubsub = some pubsub ∨ broker.pubsub = none ∧ pubsub.channels = [])
    (runs : broker.reader = some reader) : reader.connection = pubsub.id := by
  obtain ⟨found, present, pumps⟩ := consistent.pumping reader runs
  obtain same | ⟨none, _⟩ := shared
  · cases same.symm.trans present
    exact pumps
  · cases none.symm.trans present

theorem Consistent.register (consistent : Consistent broker)
    (registered : broker.register jobId queue = some after) : Consistent after := by
  obtain ⟨free, fresh, pubsub, connections, shared, ⟨_, rfl⟩ | ⟨unwatched, rfl⟩⟩ := register_cases registered
  · constructor
    · intro reader runs
      refine ⟨pubsub, ensureReader_pubsub, ensured_connection runs fun earlier ran => ?_⟩
      exact consistent.pumping_of shared ran
    · rw [ensureReader_lock]
      simp [free, LockHolds]
  · constructor
    · exact fun reader runs => ⟨pubsub, rfl, consistent.pumping_of shared runs⟩
    · intro viewer member
      obtain earlier | newest := List.mem_append.mp member
      · have watches : viewer.jobId ≠ jobId := fun same => by
          rw [watched_iff.mpr ⟨viewer, earlier, same⟩] at unwatched
          contradiction
        simp [fresh viewer earlier, watches]
      · simp [List.mem_singleton.mp newest]

theorem ViewersWired.register (holds : ViewersWired broker) (consistent : Consistent broker)
    (registered : broker.register jobId queue = some after) :
    ViewersWired after ↔ JoinsSubscribed broker (.register jobId queue) := by
  obtain ⟨free, fresh, pubsub, connections, shared, ⟨watched, rfl⟩ | ⟨unwatched, rfl⟩⟩ :=
    register_cases registered
  · have pumping : ∀ reader, broker.reader = some reader → reader.connection = pubsub.id :=
      fun reader runs => consistent.pumping_of shared runs
    constructor
    · intro wired _
      obtain ⟨found, reader, present, channel, _⟩ := wired ⟨queue, jobId, [], false⟩ (by simp) rfl (by simp [free])
      cases (ensureReader_pubsub.symm.trans present)
      obtain same | ⟨_, none⟩ := shared
      · exact ⟨pubsub, same, channel⟩
      · rw [none] at channel
        cases channel
    · intro permitted viewer member unclosed _
      obtain ⟨found, present, channel⟩ := permitted watched
      rw [ensureReader_subscribers] at member
      obtain earlier | newest := List.mem_append.mp member
      · obtain ⟨other, _, same, kept, _⟩ := holds viewer earlier unclosed (by simp [free])
        obtain shares | ⟨none, _⟩ := shared
        · cases shares.symm.trans same
          exact wired_of_ensureReader rfl pumping kept
        · cases none.symm.trans same
      · obtain shares | ⟨none, _⟩ := shared
        · cases shares.symm.trans present
          rw [List.mem_singleton.mp newest]
          exact wired_of_ensureReader rfl pumping channel
        · cases none.symm.trans present
  · refine ⟨fun _ watched => ?_, fun _ viewer member unclosed registering => ?_⟩
    · rw [watched] at unwatched
      contradiction
    · obtain earlier | newest := List.mem_append.mp member
      · refine (holds viewer earlier unclosed (by simp [free])).mono (fun found present channel => ?_) rfl
        obtain same | ⟨none, _⟩ := shared
        · cases same.symm.trans present
          exact ⟨pubsub, rfl, rfl, channel⟩
        · cases none.symm.trans present
      · exact absurd (by simp [List.mem_singleton.mp newest]) registering

theorem subscribed_cases (ended : broker.subscribed reply = some after) :
    ∃ queue jobId pubsub, broker.lock = .subscribing queue jobId ∧ broker.pubsub = some pubsub ∧
      (reply = .returns ∧ after = ({ broker with
          pubsub := some { pubsub with channels := jobId :: pubsub.channels }
          lock := .free }).ensureReader { pubsub with channels := jobId :: pubsub.channels } ∨
        reply = .raises ∧ after = { broker with
          subscribers := broker.offerTo queue .closed, lock := .free } ∨
        reply = .cancelled ∧ after = { broker with lock := .free }) := by
  unfold ProgressBroker.subscribed at ended
  split at ended
  · rename_i queue jobId pubsub held shared
    refine ⟨queue, jobId, pubsub, held, shared, ?_⟩
    cases reply <;> cases ended <;> simp
  · contradiction

theorem Consistent.subscribed (consistent : Consistent broker)
    (ended : broker.subscribed reply = some after) : Consistent after := by
  obtain ⟨queue, jobId, pubsub, held, shared, ⟨_, rfl⟩ | ⟨_, rfl⟩ | ⟨_, rfl⟩⟩ := subscribed_cases ended
  · have pumping : ∀ reader, broker.reader = some reader → reader.connection = pubsub.id :=
      fun reader runs => consistent.pumping_of (.inl shared) runs
    constructor
    · intro reader runs
      exact ⟨_, ensureReader_pubsub, ensured_connection runs pumping⟩
    · rw [ensureReader_lock]
      exact trivial
  · exact ⟨consistent.pumping, trivial⟩
  · exact ⟨consistent.pumping, trivial⟩

theorem ViewersWired.subscribed (holds : ViewersWired broker) (consistent : Consistent broker)
    (ended : broker.subscribed reply = some after) :
    ViewersWired after ↔ JoinsSubscribed broker (.subscribed reply) := by
  obtain ⟨queue, jobId, pubsub, held, shared, outcome⟩ := subscribed_cases ended
  have own : ∀ viewer ∈ broker.subscribers, viewer.queue = queue ↔ viewer.jobId = jobId := by
    have lock := consistent.lock
    rw [held] at lock
    exact lock
  obtain ⟨rfl, rfl⟩ | ⟨rfl, rfl⟩ | ⟨rfl, rfl⟩ := outcome
  · refine ⟨fun _ => trivial, fun _ viewer member unclosed _ => ?_⟩
    have pumping : ∀ reader, broker.reader = some reader → reader.connection = pubsub.id :=
      fun reader runs => consistent.pumping_of (.inl shared) runs
    rw [ensureReader_subscribers] at member
    refine wired_of_ensureReader rfl pumping ?_
    by_cases first : viewer.jobId = jobId
    · simp [first]
    · obtain ⟨found, _, present, channel, _⟩ := holds viewer member unclosed (by simp [held, Ne.symm first])
      cases shared.symm.trans present
      exact List.mem_cons_of_mem _ channel
  · refine ⟨fun _ => trivial, fun _ viewer member unclosed _ => ?_⟩
    obtain ⟨earlier, among, rfl⟩ := List.mem_map.mp member
    by_cases refused : earlier.queue = queue
    · simp [refused, Viewer.offer] at unclosed
    · simp only [refused, if_false] at unclosed ⊢
      exact (holds earlier among unclosed (by simp [held, Ne.symm refused])).of_same rfl rfl
  · constructor
    · exact fun wired viewer member unclosed _ =>
        (wired viewer member unclosed (by simp)).of_same rfl rfl
    · intro permitted viewer member unclosed _
      by_cases registering : broker.lock = .subscribing viewer.queue viewer.jobId
      · exact (permitted viewer member unclosed registering).of_same rfl rfl
      · exact (holds viewer member unclosed registering).of_same rfl rfl

def AllWired (broker : ProgressBroker) : Prop :=
  ∀ viewer ∈ broker.subscribers, viewer.closed = false → Wired broker viewer.jobId

theorem AllWired.finish (wired : AllWired broker) : ViewersWired broker.finishUnregister := by
  unfold finishUnregister
  split
  · rename_i empty
    intro viewer member
    change viewer ∈ broker.subscribers at member
    simp [List.isEmpty_iff.mp empty] at member
  · exact fun viewer member unclosed _ => (wired viewer member unclosed).of_same rfl rfl

theorem Consistent.finish (consistent : Consistent broker) : Consistent broker.finishUnregister := by
  unfold finishUnregister
  split
  · rename_i empty
    refine ⟨fun reader runs => by simp [teardown] at runs, ?_⟩
    cases shared : broker.pubsub with
    | none => simp [teardown, shared, LockHolds]
    | some pubsub => simpa [teardown, shared, LockHolds] using empty
  · exact ⟨consistent.pumping, trivial⟩

theorem unregister_cases (unregistered : broker.unregister queue = some after) :
    broker.lock = .free ∧ ∃ jobId,
      let left : ProgressBroker := { broker with
        subscribers := broker.subscribers.filter fun other => other.queue ≠ queue }
      (after = left ∨
        left.watched jobId = false ∧ after = { left with lock := .unsubscribing jobId } ∨
        after = left.finishUnregister) := by
  unfold unregister at unregistered
  split at unregistered
  · rename_i free
    split at unregistered
    · rename_i viewer found
      refine ⟨free, viewer.jobId, ?_⟩
      simp only at unregistered ⊢
      split at unregistered
      · cases unregistered
        exact .inl rfl
      · rename_i unwatched
        split at unregistered
        · cases unregistered
          exact .inr (.inl ⟨eq_false_of_ne_true unwatched, rfl⟩)
        · cases unregistered
          exact .inr (.inr rfl)
    · contradiction
  · contradiction

theorem Consistent.unregister (consistent : Consistent broker)
    (unregistered : broker.unregister queue = some after) : Consistent after := by
  obtain ⟨free, jobId, outcome⟩ := unregister_cases unregistered
  have left : Consistent { broker with
      subscribers := broker.subscribers.filter fun other => other.queue ≠ queue } := by
    refine ⟨consistent.pumping, ?_⟩
    simp [free, LockHolds]
  obtain rfl | ⟨unwatched, rfl⟩ | rfl := outcome
  · exact left
  · refine ⟨left.pumping, fun viewer member same => ?_⟩
    exact Bool.false_ne_true (unwatched.symm.trans (watched_iff.mpr ⟨viewer, member, same⟩))
  · exact left.finish

theorem ViewersWired.unregister (holds : ViewersWired broker)
    (unregistered : broker.unregister queue = some after) : ViewersWired after := by
  obtain ⟨free, jobId, outcome⟩ := unregister_cases unregistered
  have left : AllWired { broker with
      subscribers := broker.subscribers.filter fun other => other.queue ≠ queue } :=
    fun viewer member unclosed =>
      (holds viewer (List.mem_of_mem_filter member) unclosed (by simp [free])).of_same rfl rfl
  obtain rfl | ⟨unwatched, rfl⟩ | rfl := outcome
  · exact fun viewer member unclosed _ => left viewer member unclosed
  · exact fun viewer member unclosed _ => (left viewer member unclosed).of_same rfl rfl
  · exact left.finish

theorem unsubscribed_cases (ended : broker.unsubscribed reply reached = some after) :
    ∃ jobId pubsub next, broker.lock = .unsubscribing jobId ∧ broker.pubsub = some pubsub ∧
      next.id = pubsub.id ∧ (∀ other ∈ pubsub.channels, other ≠ jobId → other ∈ next.channels) ∧
      let left : ProgressBroker := { broker with pubsub := some next }
      (after = left.finishUnregister ∨ after = { left with lock := .free }) := by
  unfold unsubscribed at ended
  split at ended
  · rename_i jobId pubsub held shared
    by_cases gone : reply = .returns ∨ reached = true
    · refine ⟨jobId, pubsub, { pubsub with channels := pubsub.channels.filter fun channel => channel ≠ jobId },
        held, shared, rfl, fun other member kept => by simp [member, kept], ?_⟩
      simp only [gone, if_true] at ended
      cases reply <;> cases ended <;> simp
    · refine ⟨jobId, pubsub, pubsub, held, shared, rfl, fun _ member _ => member, ?_⟩
      have same : { broker with pubsub := some pubsub } = broker := by rw [← shared]
      simp only [gone, if_false] at ended
      simp only [same]
      cases reply <;> cases ended <;> simp [← shared]
  · contradiction

theorem Consistent.unsubscribed (consistent : Consistent broker)
    (ended : broker.unsubscribed reply reached = some after) : Consistent after := by
  obtain ⟨jobId, pubsub, next, held, shared, id, _, outcome⟩ := unsubscribed_cases ended
  have pumping : ∀ reader, broker.reader = some reader → reader.connection = next.id :=
    fun reader runs => (consistent.pumping_of (.inl shared) runs).trans id.symm
  obtain rfl | rfl := outcome
  · refine Consistent.finish ⟨fun reader runs => ⟨next, rfl, pumping reader runs⟩, ?_⟩
    have lock := consistent.lock
    rw [held] at lock
    simp only [held]
    exact lock
  · exact ⟨fun reader runs => ⟨next, rfl, pumping reader runs⟩, trivial⟩

theorem ViewersWired.unsubscribed (holds : ViewersWired broker) (consistent : Consistent broker)
    (ended : broker.unsubscribed reply reached = some after) : ViewersWired after := by
  obtain ⟨jobId, pubsub, next, held, shared, id, kept, outcome⟩ := unsubscribed_cases ended
  have unwatched : ∀ viewer ∈ broker.subscribers, viewer.jobId ≠ jobId := by
    have lock := consistent.lock
    rw [held] at lock
    exact lock
  have left : AllWired { broker with pubsub := some next } := by
    intro viewer member unclosed
    refine (holds viewer member unclosed (by simp [held])).mono (fun found present channel => ?_) rfl
    cases shared.symm.trans present
    exact ⟨next, rfl, id, kept _ channel (unwatched viewer member)⟩
  obtain rfl | rfl := outcome
  · exact left.finish
  · exact fun viewer member unclosed _ => (left viewer member unclosed).of_same rfl rfl

theorem ViewersWired.offered (holds : ViewersWired broker) {change : Viewer → Viewer}
    (jobs : ∀ viewer, (change viewer).queue = viewer.queue ∧ (change viewer).jobId = viewer.jobId)
    (closes : ∀ viewer, (change viewer).closed = false → viewer.closed = false) :
    ViewersWired { broker with subscribers := broker.subscribers.map change } := by
  intro viewer member unclosed unlocked
  obtain ⟨earlier, among, rfl⟩ := List.mem_map.mp member
  rw [(jobs earlier).1, (jobs earlier).2] at unlocked
  rw [(jobs earlier).2]
  exact (holds earlier among (closes earlier unclosed) unlocked).of_same rfl rfl

theorem Consistent.offered (consistent : Consistent broker) {change : Viewer → Viewer}
    (jobs : ∀ viewer, (change viewer).queue = viewer.queue ∧ (change viewer).jobId = viewer.jobId) :
    Consistent { broker with subscribers := broker.subscribers.map change } := by
  refine ⟨consistent.pumping, ?_⟩
  have lock := consistent.lock
  revert lock
  cases broker.lock <;> simp [LockHolds, jobs]

@[simp] theorem offer_queue (item : QueueItem) : (viewer.offer item).queue = viewer.queue := rfl

@[simp] theorem offer_jobId (item : QueueItem) : (viewer.offer item).jobId = viewer.jobId := rfl

theorem dispatch_wired (holds : ViewersWired broker) (event : ProgressEvent) :
    ViewersWired (broker.dispatch event) := by
  refine holds.offered (fun viewer => ?_) fun viewer => ?_
  · split <;> simp
  · split <;> simp [Viewer.offer]

theorem dispatch_consistent (consistent : Consistent broker) (event : ProgressEvent) :
    Consistent (broker.dispatch event) := by
  refine consistent.offered fun viewer => ?_
  split <;> simp

theorem closeAll_closed (member : viewer ∈ broker.closeAll.subscribers) : viewer.closed = true := by
  obtain ⟨earlier, _, rfl⟩ := List.mem_map.mp member
  simp [Viewer.offer]

theorem Consistent.step (consistent : Consistent broker) {action : Action}
    (stepped : ProgressBroker.step action broker = some after) : Consistent after := by
  cases action with
  | register jobId queue => exact consistent.register stepped
  | subscribed reply => exact consistent.subscribed stepped
  | unregister queue => exact consistent.unregister stepped
  | unsubscribed reply reached => exact consistent.unsubscribed stepped
  | connectionClosed =>
      simp only [ProgressBroker.step] at stepped
      split at stepped
      · cases stepped
        exact ⟨consistent.pumping, trivial⟩
      · contradiction
  | receive event =>
      simp only [ProgressBroker.step] at stepped
      split at stepped
      · cases stepped
        exact dispatch_consistent consistent event
      · contradiction
  | readFails =>
      simp only [ProgressBroker.step] at stepped
      split at stepped
      · rename_i connection runs
        cases stepped
        have closing : Consistent broker.closeAll := consistent.offered fun viewer => by simp
        refine ⟨fun reader exits => ?_, closing.lock⟩
        cases exits
        obtain ⟨pubsub, shared, same⟩ := consistent.pumping _ runs
        exact ⟨pubsub, shared, same⟩
      · contradiction
  | readerExits index =>
      simp only [ProgressBroker.step] at stepped
      split at stepped
      · cases stepped
        exact ⟨consistent.pumping, consistent.lock⟩
      · contradiction
  | take queue =>
      cases stepped
      exact consistent.offered fun viewer => by split <;> simp

theorem ViewersWired.step (holds : ViewersWired broker) (consistent : Consistent broker)
    {action : Action} (stepped : ProgressBroker.step action broker = some after) :
    ViewersWired after ↔ JoinsSubscribed broker action := by
  cases action with
  | register jobId queue => exact holds.register consistent stepped
  | subscribed reply => exact holds.subscribed consistent stepped
  | unregister queue => exact iff_of_true (holds.unregister stepped) trivial
  | unsubscribed reply reached => exact iff_of_true (holds.unsubscribed consistent stepped) trivial
  | connectionClosed =>
      refine iff_of_true ?_ trivial
      simp only [ProgressBroker.step] at stepped
      split at stepped
      · rename_i closing
        cases stepped
        exact fun viewer member unclosed _ =>
          (holds viewer member unclosed (by simp [closing])).of_same rfl rfl
      · contradiction
  | receive event =>
      refine iff_of_true ?_ trivial
      simp only [ProgressBroker.step] at stepped
      split at stepped
      · cases stepped
        exact dispatch_wired holds event
      · contradiction
  | readFails =>
      refine iff_of_true ?_ trivial
      simp only [ProgressBroker.step] at stepped
      split at stepped
      · cases stepped
        intro viewer member unclosed
        rw [closeAll_closed member] at unclosed
        contradiction
      · contradiction
  | readerExits index =>
      refine iff_of_true ?_ trivial
      simp only [ProgressBroker.step] at stepped
      split at stepped
      · cases stepped
        exact fun viewer member unclosed unlocked => (holds viewer member unclosed unlocked).of_same rfl rfl
      · contradiction
  | take queue =>
      refine iff_of_true ?_ trivial
      cases stepped
      refine holds.offered (fun viewer => ?_) fun viewer => ?_
      · split <;> simp
      · split <;> simp

section Runs

variable {steps : List (ProgressBroker × Action)} {last : ProgressBroker}

theorem viewers_wired_iff (ran : machine.Run steps last) :
    (∀ broker ∈ Machine.visited steps last, ViewersWired broker) ↔
      ∀ taken ∈ steps, JoinsSubscribed taken.1 taken.2 := by
  refine Machine.Run.always_iff_within Consistent ran (fun viewer member => ?_) ?_
    (fun consistent stepped => consistent.step stepped)
    fun consistent holds stepped => holds.step consistent stepped
  · simp [machine, initial] at member
  · exact ⟨fun reader runs => by simp [machine, initial] at runs, trivial⟩

/-- Two viewers of one job, and the `SUBSCRIBE` of the first fails. -/
def joinedTooEarly : List Action :=
  [.register "job" 0, .subscribed .raises, .register "job" 1]

def wired (broker : ProgressBroker) (jobId : String) : Bool :=
  match broker.pubsub, broker.reader with
  | some pubsub, some reader =>
      pubsub.channels.contains jobId && !reader.exited && reader.connection == pubsub.id
  | _, _ => false

theorem wired_of_Wired (live : Wired broker jobId) : wired broker jobId = true := by
  obtain ⟨pubsub, reader, shared, channel, runs, pumps, same⟩ := live
  simp [wired, shared, runs, channel, pumps, same]

/-- The second viewer waits on a channel that nobody subscribed to. -/
theorem viewer_waits_in_silence : ∃ steps last, machine.Run steps last ∧ ¬ ViewersWired last := by
  obtain ⟨steps, last, ran, checked⟩ := @Machine.exists_run _ _ machine joinedTooEarly
    (fun _ last => last.lock == .free && last.subscribers.any fun viewer =>
      !viewer.closed && !wired last viewer.jobId) (by decide +kernel)
  simp only [Bool.and_eq_true, List.any_eq_true, Bool.not_eq_true', beq_iff_eq] at checked
  obtain ⟨free, viewer, member, unclosed, unwired⟩ := checked
  refine ⟨steps, last, ran, fun holds => ?_⟩
  have live := wired_of_Wired (holds viewer member unclosed (by simp [free]))
  rw [unwired] at live
  contradiction

/-- Two viewers of one job, the first subscribed, and the connection is lost. -/
def joinedInTime : List Action :=
  [.register "job" 0, .subscribed .returns, .register "job" 1, .readFails, .unregister 0,
    .register "job" 2]

theorem viewers_wired_after_reconnect : ∃ steps last, machine.Run steps last ∧
    last.subscribers.length = 2 ∧ ((∀ broker ∈ Machine.visited steps last, ViewersWired broker) ↔
      ∀ taken ∈ steps, JoinsSubscribed taken.1 taken.2) := by
  obtain ⟨steps, last, ran, checked⟩ := @Machine.exists_run _ _ machine joinedInTime
    (fun _ last => decide (last.subscribers.length = 2)) (by decide +kernel)
  exact ⟨steps, last, ran, of_decide_eq_true checked, viewers_wired_iff ran⟩

end Runs

end IncidentPlatform.Properties
