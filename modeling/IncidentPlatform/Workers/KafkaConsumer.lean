import IncidentPlatform.Concurrency.Machine

namespace IncidentPlatform.Workers

open Concurrency

/-! # The base consumer: polling, processing and committing

One consumer of one group over the partition logs it reads.  `getmany` hands out
the records from each partition's position and moves the position past them;
what is then processed, committed or abandoned is up to `_process_batch`.
-/

structure TopicPartition where
  topic : String
  partition : Nat
deriving DecidableEq

/-- What a log has at an offset: nothing (a gap), a message, or a message that
its topic's schema rejects. -/
inductive LogContent where
  | absent
  | valid
  | schemaInvalid
deriving DecidableEq

abbrev PartitionLogs := TopicPartition → Nat → LogContent

/-- `max_records` of `getmany`. -/
def maxPollRecords : Nat := 10

/-- The records of a batch that are left, by partition. -/
abbrev PollBatch := List (TopicPartition × List Nat)

structure BaseKafkaConsumer where
  /-- `run` polls again once the batch is done. -/
  polling : Bool
  /-- The next offset to fetch; `none` for a partition that is not assigned. -/
  position : TopicPartition → Option Nat
  /-- The group's committed offsets. -/
  committed : TopicPartition → Nat
  batch : PollBatch
  /-- The messages that `handle_message` has returned for. -/
  handled : TopicPartition → Nat → Bool

namespace BaseKafkaConsumer

variable (logs : PartitionLogs) (consumer : BaseKafkaConsumer)

def initial : BaseKafkaConsumer where
  polling := false
  position := fun _ => none
  committed := fun _ => 0
  batch := []
  handled := fun _ _ => false

def setPosition (partition : TopicPartition) (position : Option Nat) :
    TopicPartition → Option Nat :=
  fun other => if other = partition then position else consumer.position other

def commit (partition : TopicPartition) (offset : Nat) : BaseKafkaConsumer :=
  { consumer with
    committed := fun other => if other = partition then offset else consumer.committed other }

/-- `seek`; for a partition that is no longer assigned it raises, which is only
logged. -/
def seek (partition : TopicPartition) (offset : Nat) : BaseKafkaConsumer :=
  { consumer with
    position := consumer.setPosition partition ((consumer.position partition).map fun _ => offset) }

/-- The records of a log from `position` up to `upto`. -/
def recordsOf (content : Nat → LogContent) (position upto : Nat) : List Nat :=
  (List.range' position (upto - position)).filter fun offset => content offset ≠ .absent

/-- The entries of a batch that still have records. -/
def pending (batch : PollBatch) : PollBatch :=
  batch.filter fun entry => !entry.2.isEmpty

/-- One partition's part of `getmany`. -/
def fetch (fetched : TopicPartition × Nat) : Option BaseKafkaConsumer :=
  match consumer.position fetched.1 with
  | some position =>
      if position ≤ fetched.2 ∧ fetched.1 ∉ consumer.batch.map Prod.fst then
        some { consumer with
          position := consumer.setPosition fetched.1 (some fetched.2)
          batch := consumer.batch ++ pending [(fetched.1, recordsOf (logs fetched.1) position fetched.2)] }
      else none
  | none => none

def getmany (fetched : List (TopicPartition × Nat)) : Option BaseKafkaConsumer :=
  if consumer.polling ∧ consumer.batch = [] then
    (fetched.foldlM (fetch logs) consumer).filter fun after =>
      (after.batch.map fun entry => entry.2.length).sum ≤ maxPollRecords
  else none

/-- How the awaits of `_process_one` end. -/
inductive Delivery where
  | commits
  | handlerRaises
  | commitRaises
  | cancelledInHandler
  | cancelledInCommit

inductive ProcessResult where
  | returned (ok : Bool)
  | raised
  | cancelled

def handle (partition : TopicPartition) (offset : Nat) : BaseKafkaConsumer :=
  { consumer with
    handled := fun other earlier =>
      consumer.handled other earlier || decide (other = partition ∧ earlier = offset) }

def processOne (partition : TopicPartition) (offset : Nat) :
    LogContent → Delivery → Option (ProcessResult × BaseKafkaConsumer)
  | .schemaInvalid, .commits => some (.returned true, consumer.commit partition (offset + 1))
  -- The commit past a poison pill stands outside the second `try`.
  | .schemaInvalid, .commitRaises => some (.raised, consumer)
  | .schemaInvalid, .cancelledInCommit => some (.cancelled, consumer)
  | .valid, .commits =>
      some (.returned true, (consumer.handle partition offset).commit partition (offset + 1))
  | .valid, .handlerRaises => some (.returned false, consumer)
  | .valid, .commitRaises => some (.returned false, consumer.handle partition offset)
  | .valid, .cancelledInHandler => some (.cancelled, consumer)
  | .valid, .cancelledInCommit => some (.cancelled, consumer.handle partition offset)
  | _, _ => none

/-- The next message of `_process_batch`, and what `run` makes of its end. -/
def processBatch (delivery : Delivery) : Option BaseKafkaConsumer :=
  match consumer.batch with
  | (partition, offset :: rest) :: others =>
      match consumer.processOne partition offset (logs partition offset) delivery with
      | some (.returned true, after) =>
          some { after with batch := pending ((partition, rest) :: others) }
      | some (.returned false, after) => some { after.seek partition offset with batch := others }
      -- `run` logs the error, pauses and polls again.
      | some (.raised, after) => some { after with batch := [] }
      -- `run` takes the cancellation for a shutdown.
      | some (.cancelled, after) => some { after with batch := [], polling := false }
      | none => none
  | _ => none

inductive Action where
  | assign (partition : TopicPartition)
  | revoke (partition : TopicPartition)
  | getmany (fetched : List (TopicPartition × Nat))
  | process (delivery : Delivery)
  | stop
  | start

def step : Action → BaseKafkaConsumer → Option BaseKafkaConsumer
  | .assign partition, consumer =>
      some { consumer with
        position := consumer.setPosition partition (some (consumer.committed partition)) }
  | .revoke partition, consumer =>
      some { consumer with position := consumer.setPosition partition none }
  | .getmany fetched, consumer => consumer.getmany logs fetched
  | .process delivery, consumer => consumer.processBatch logs delivery
  | .stop, consumer => some { consumer with polling := false }
  -- A new client, also after the process crashed.
  | .start, consumer =>
      some { consumer with polling := true, batch := [], position := fun _ => none }

def machine : Machine BaseKafkaConsumer Action where
  initial := initial
  step := step logs

end BaseKafkaConsumer

end IncidentPlatform.Workers
