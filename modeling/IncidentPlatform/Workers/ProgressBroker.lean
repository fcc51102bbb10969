import IncidentPlatform.Concurrency.Machine
import IncidentPlatform.Workers.Progress

namespace IncidentPlatform.Workers

open Concurrency

/-! # The broker of a process's progress streams

One event loop runs every viewer and the reader task, so a step is what happens
between two awaits.  `_lock` is held across the Redis commands: a step of
`_register` or `_unregister` that awaits one leaves it held.
-/

/-- `QUEUE_MAXSIZE`. -/
def queueMaxsize : Nat := 64

inductive QueueItem where
  | event (event : ProgressEvent)
  /-- `_CLOSED`. -/
  | closed
deriving DecidableEq

/-- A queue in `_subscribers`, under its job. -/
structure Viewer where
  queue : Nat
  jobId : String
  items : List QueueItem
  /-- `_CLOSED` has been offered to the queue. -/
  closed : Bool

/-- `_offer`: a full queue loses its oldest item. -/
def Viewer.offer (viewer : Viewer) (item : QueueItem) : Viewer :=
  { viewer with
    items := (if viewer.items.length < queueMaxsize then viewer.items else viewer.items.tail) ++ [item]
    closed := viewer.closed || item == .closed }

/-- What `redis.pubsub()` returned.  It subscribes to its channels again when it
reconnects, so a lost connection does not change them. -/
structure PubSub where
  id : Nat
  channels : List String

structure ReaderTask where
  connection : Nat
  exited : Bool

/-- What the holder of `_lock` awaits. -/
inductive BrokerLock where
  | free
  | subscribing (queue : Nat) (jobId : String)
  | unsubscribing (jobId : String)
  | closing
deriving DecidableEq

structure ProgressBroker where
  subscribers : List Viewer
  pubsub : Option PubSub
  reader : Option ReaderTask
  /-- The readers that were cancelled and have not ended. -/
  cancelled : List ReaderTask
  lock : BrokerLock
  /-- How often `redis.pubsub()` was called. -/
  connections : Nat

/-- How the await of a Redis command ends. -/
inductive RedisReply where
  | returns
  | raises
  | cancelled
deriving DecidableEq

namespace ProgressBroker

variable (broker : ProgressBroker)

def initial : ProgressBroker where
  subscribers := []
  pubsub := none
  reader := none
  cancelled := []
  lock := .free
  connections := 0

def watched (jobId : String) : Bool := broker.subscribers.any fun viewer => viewer.jobId = jobId

/-- `_ensure_reader` for the shared connection. -/
def ensureReader (pubsub : PubSub) : ProgressBroker :=
  match broker.reader with
  | some { exited := false, .. } => broker
  | _ => { broker with reader := some ⟨pubsub.id, false⟩ }

/-- `_register` as far as its `SUBSCRIBE`. -/
def register (jobId : String) (queue : Nat) : Option ProgressBroker :=
  if broker.lock = .free ∧ ∀ viewer ∈ broker.subscribers, viewer.queue ≠ queue then
    let pubsub := broker.pubsub.getD ⟨broker.connections, []⟩
    let joined : ProgressBroker := { broker with
      subscribers := broker.subscribers ++ [⟨queue, jobId, [], false⟩]
      pubsub := some pubsub
      connections := if broker.pubsub.isSome then broker.connections else broker.connections + 1 }
    if broker.watched jobId then some (joined.ensureReader pubsub)
    else some { joined with lock := .subscribing queue jobId }
  else none

def offerTo (queue : Nat) (item : QueueItem) : List Viewer :=
  broker.subscribers.map fun viewer => if viewer.queue = queue then viewer.offer item else viewer

/-- The rest of `_register`. -/
def subscribed (reply : RedisReply) : Option ProgressBroker :=
  match broker.lock, broker.pubsub with
  | .subscribing queue jobId, some pubsub =>
      match reply with
      | .returns =>
          let pubsub := { pubsub with channels := jobId :: pubsub.channels }
          some ({ broker with pubsub := some pubsub, lock := .free }.ensureReader pubsub)
      | .raises => some { broker with subscribers := broker.offerTo queue .closed, lock := .free }
      | .cancelled => some { broker with lock := .free }
  | _, _ => none

/-- `_teardown` as far as `aclose`. -/
def teardown : ProgressBroker :=
  { broker with
    reader := none
    cancelled := (broker.reader.filter fun reader => !reader.exited).toList ++ broker.cancelled
    pubsub := none
    lock := if broker.pubsub.isSome then .closing else .free }

/-- The end of `_unregister`. -/
def finishUnregister : ProgressBroker :=
  if broker.subscribers.isEmpty then broker.teardown else { broker with lock := .free }

/-- `_unregister` as far as its `UNSUBSCRIBE`. -/
def unregister (queue : Nat) : Option ProgressBroker :=
  if broker.lock = .free then
    match broker.subscribers.find? fun viewer => viewer.queue = queue with
    | some viewer =>
        let left : ProgressBroker := { broker with
          subscribers := broker.subscribers.filter fun other => other.queue ≠ queue }
        if left.watched viewer.jobId then some left
        else if broker.pubsub.isSome then some { left with lock := .unsubscribing viewer.jobId }
        else some left.finishUnregister
    | none => none
  else none

/-- The rest of `_unregister`; a command that does not return may have `reached`
Redis. -/
def unsubscribed (reply : RedisReply) (reached : Bool) : Option ProgressBroker :=
  match broker.lock, broker.pubsub with
  | .unsubscribing jobId, some pubsub =>
      let left : ProgressBroker :=
        if reply = .returns ∨ reached then
          { broker with pubsub := some { pubsub with
              channels := pubsub.channels.filter fun channel => channel ≠ jobId } }
        else broker
      match reply with
      | .returns | .raises => some left.finishUnregister
      | .cancelled => some { left with lock := .free }
  | _, _ => none

/-- `_dispatch` of an event. -/
def dispatch (event : ProgressEvent) : ProgressBroker :=
  { broker with
    subscribers := broker.subscribers.map fun viewer =>
      if viewer.jobId = event.jobId then viewer.offer (.event event) else viewer }

/-- `_close_all`. -/
def closeAll : ProgressBroker :=
  { broker with subscribers := broker.subscribers.map fun viewer => viewer.offer .closed }

inductive Action where
  | register (jobId : String) (queue : Nat)
  | subscribed (reply : RedisReply)
  | unregister (queue : Nat)
  | unsubscribed (reply : RedisReply) (reached : Bool)
  /-- `aclose` has ended, however. -/
  | connectionClosed
  /-- The reader gets an event from the connection. -/
  | receive (event : ProgressEvent)
  /-- The reader's read fails. -/
  | readFails
  /-- A cancelled reader ends. -/
  | readerExits (index : Nat)
  /-- A viewer takes the oldest item of its queue. -/
  | take (queue : Nat)

def step : Action → ProgressBroker → Option ProgressBroker
  | .register jobId queue, broker => broker.register jobId queue
  | .subscribed reply, broker => broker.subscribed reply
  | .unregister queue, broker => broker.unregister queue
  | .unsubscribed reply reached, broker => broker.unsubscribed reply reached
  | .connectionClosed, broker =>
      if broker.lock = .closing then some { broker with lock := .free } else none
  | .receive event, broker =>
      match broker.reader with
      | some { exited := false, .. } => some (broker.dispatch event)
      | _ => none
  | .readFails, broker =>
      match broker.reader with
      | some ⟨connection, false⟩ => some { broker.closeAll with reader := some ⟨connection, true⟩ }
      | _ => none
  | .readerExits index, broker =>
      if index < broker.cancelled.length then
        some { broker with cancelled := broker.cancelled.eraseIdx index }
      else none
  | .take queue, broker =>
      some { broker with
        subscribers := broker.subscribers.map fun viewer =>
          if viewer.queue = queue then { viewer with items := viewer.items.tail } else viewer }

def machine : Machine ProgressBroker Action where
  initial := initial
  step := step

end ProgressBroker

end IncidentPlatform.Workers
