import IncidentPlatform.Workers.ProgressBroker

namespace IncidentPlatform.Workers

open Concurrency Models

/-! # `publish` beside the broker's streams

Any calls of `publish`, each of which takes a snapshot, sets it and then
publishes, and the calls of `ProgressBroker.subscribe` in one process.  A
`SUBSCRIBE` is in effect when its await returns, and Redis does not fail.
-/

/-- How far a publisher's call of `publish` has come. -/
inductive PublishCall where
  | idle
  /-- The event supersedes what was retained when the call looked. -/
  | superseding (event : ProgressEvent)
  /-- The event is retained, and not published yet. -/
  | retained (event : ProgressEvent)
deriving DecidableEq

inductive StreamPhase where
  | absent
  /-- Its registration awaits the `SUBSCRIBE`. -/
  | registering
  | registered
  /-- The snapshot is read, or skipped. -/
  | streaming
  /-- In the `finally` clause. -/
  | closing
  | ended
deriving DecidableEq

/-- A call of `ProgressBroker.subscribe`. -/
structure ProgressStream where
  jobId : String
  useSnapshot : Bool
  phase : StreamPhase
  yielded : List ProgressEvent

structure ProgressStreams (Publisher : Type) where
  now : Time
  snapshots : Snapshots
  publishing : Publisher → PublishCall
  broker : ProgressBroker
  /-- What Redis sent to a connection and the reader has not read, oldest first. -/
  incoming : Nat → List ProgressEvent
  /-- The stream of a queue. -/
  stream : Nat → ProgressStream

namespace ProgressStreams

variable {Publisher : Type} [DecidableEq Publisher] (streams : ProgressStreams Publisher)

def initial : ProgressStreams Publisher where
  now := 0
  snapshots := fun _ => none
  publishing := fun _ => .idle
  broker := .initial
  incoming := fun _ => []
  stream := fun _ => ⟨"", false, .absent, []⟩

def setPublishing (publisher : Publisher) (phase : PublishCall) : ProgressStreams Publisher :=
  { streams with publishing := Function.update streams.publishing publisher phase }

/-- `read_last_event` and `_supersedes`. -/
def check (publisher : Publisher) (event : ProgressEvent) : Option (ProgressStreams Publisher) :=
  if streams.publishing publisher = .idle then
    if supersedes event (streams.snapshots.readLastEvent streams.now event.jobId) then
      some (streams.setPublishing publisher (.superseding event))
    else some streams
  else none

/-- The `SET`. -/
def retain (publisher : Publisher) : Option (ProgressStreams Publisher) :=
  match streams.publishing publisher with
  | .superseding event =>
      some { streams.setPublishing publisher (.retained event) with
        snapshots := streams.snapshots.retain streams.now event }
  | _ => none

/-- The messages after a `PUBLISH`, which reaches the subscribed connection. -/
def delivered (event : ProgressEvent) : Nat → List ProgressEvent :=
  match streams.broker.pubsub with
  | some pubsub =>
      if event.jobId ∈ pubsub.channels then
        Function.update streams.incoming pubsub.id (streams.incoming pubsub.id ++ [event])
      else streams.incoming
  | none => streams.incoming

/-- The `PUBLISH`. -/
def announce (publisher : Publisher) : Option (ProgressStreams Publisher) :=
  match streams.publishing publisher with
  | .retained event =>
      some { streams.setPublishing publisher .idle with incoming := streams.delivered event }
  | _ => none

/-- The reader gets its next message and hands it out. -/
def receive : Option (ProgressStreams Publisher) :=
  match streams.broker.reader with
  | some ⟨connection, false⟩ =>
      match streams.incoming connection with
      | event :: rest =>
          (ProgressBroker.step (.receive event) streams.broker).map fun broker =>
            { streams with broker, incoming := Function.update streams.incoming connection rest }
      | [] => none
  | _ => none

def setStream (queue : Nat) (phase : StreamPhase) : ProgressStreams Publisher :=
  { streams with stream := Function.update streams.stream queue { streams.stream queue with phase } }

/-- What a stream does with an event: it yields it, and returns after a terminal one. -/
def yields (queue : Nat) (event : ProgressEvent) : ProgressStreams Publisher :=
  let yielding : ProgressStream := { streams.stream queue with
    phase := if event.status.terminal then .closing else .streaming
    yielded := (streams.stream queue).yielded ++ [event] }
  { streams with stream := Function.update streams.stream queue yielding }

/-- `_register`, as far as its `SUBSCRIBE` for the first stream of a job. -/
def register (queue : Nat) (jobId : String) (useSnapshot : Bool) : Option (ProgressStreams Publisher) :=
  if (streams.stream queue).phase = .absent then
    (ProgressBroker.step (.register jobId queue) streams.broker).map fun broker =>
      let phase := if broker.lock = .subscribing queue jobId then .registering else .registered
      { streams with broker, stream := Function.update streams.stream queue ⟨jobId, useSnapshot, phase, []⟩ }
  else none

/-- The end of the `SUBSCRIBE`.  A cancellation leaves `subscribe` before its
`try`. -/
def subscribed (cancelled : Bool) : Option (ProgressStreams Publisher) :=
  match streams.broker.lock with
  | .subscribing queue _ =>
      (ProgressBroker.step (.subscribed (if cancelled then .cancelled else .returns)) streams.broker).map
        fun broker => { streams with broker }.setStream queue (if cancelled then .ended else .registered)
  | _ => none

def readSnapshot (queue : Nat) : Option (ProgressStreams Publisher) :=
  let stream := streams.stream queue
  if stream.phase = .registered then
    if stream.useSnapshot then
      match streams.snapshots.readLastEvent streams.now stream.jobId with
      | some snapshot => some (streams.yields queue snapshot)
      | none => some (streams.setStream queue .streaming)
    else some (streams.setStream queue .streaming)
  else none

/-- The oldest item of a queue. -/
def nextItem (queue : Nat) : Option QueueItem :=
  (streams.broker.subscribers.find? fun viewer => viewer.queue = queue).bind fun viewer => viewer.items.head?

def take (queue : Nat) : Option (ProgressStreams Publisher) :=
  if (streams.stream queue).phase = .streaming then
    match streams.nextItem queue with
    | some item =>
        (ProgressBroker.step (.take queue) streams.broker).map fun broker =>
          match item with
          | .event event => { streams with broker }.yields queue event
          | .closed => { streams with broker }.setStream queue .closing
    | none => none
  else none

/-- A timeout, or the client is gone. -/
def leave (queue : Nat) : Option (ProgressStreams Publisher) :=
  match (streams.stream queue).phase with
  | .registered | .streaming => some (streams.setStream queue .closing)
  | _ => none

/-- `_unregister`, as far as its `UNSUBSCRIBE`. -/
def unregister (queue : Nat) : Option (ProgressStreams Publisher) :=
  if (streams.stream queue).phase = .closing then
    (ProgressBroker.step (.unregister queue) streams.broker).map fun broker =>
      { streams with broker }.setStream queue .ended
  else none

inductive Action (Publisher : Type) where
  | pass (elapsed : Time)
  | check (publisher : Publisher) (event : ProgressEvent)
  | retain (publisher : Publisher)
  | announce (publisher : Publisher)
  | receive
  | register (queue : Nat) (jobId : String) (useSnapshot : Bool)
  | subscribed (cancelled : Bool)
  | readSnapshot (queue : Nat)
  | take (queue : Nat)
  | leave (queue : Nat)
  | unregister (queue : Nat)
  | unsubscribed (cancelled reached : Bool)
  | connectionClosed
  | readerExits (index : Nat)

def step : Action Publisher → ProgressStreams Publisher → Option (ProgressStreams Publisher)
  | .pass elapsed, streams => some { streams with now := streams.now + elapsed }
  | .check publisher event, streams => streams.check publisher event
  | .retain publisher, streams => streams.retain publisher
  | .announce publisher, streams => streams.announce publisher
  | .receive, streams => streams.receive
  | .register queue jobId useSnapshot, streams => streams.register queue jobId useSnapshot
  | .subscribed cancelled, streams => streams.subscribed cancelled
  | .readSnapshot queue, streams => streams.readSnapshot queue
  | .take queue, streams => streams.take queue
  | .leave queue, streams => streams.leave queue
  | .unregister queue, streams => streams.unregister queue
  | .unsubscribed cancelled reached, streams =>
      (ProgressBroker.step (.unsubscribed (if cancelled then .cancelled else .returns) reached)
        streams.broker).map fun broker => { streams with broker }
  | .connectionClosed, streams =>
      (ProgressBroker.step .connectionClosed streams.broker).map fun broker => { streams with broker }
  | .readerExits index, streams =>
      (ProgressBroker.step (.readerExits index) streams.broker).map fun broker => { streams with broker }

def machine (Publisher : Type) [DecidableEq Publisher] :
    Machine (ProgressStreams Publisher) (Action Publisher) where
  initial := initial
  step := step

end ProgressStreams

end IncidentPlatform.Workers
