import IncidentPlatform.Concurrency.Machine
import IncidentPlatform.Platform.System

namespace IncidentPlatform.Workers

open Concurrency Models Platform Services Storage

/-! # The outbox relay under one leader

`_outbox_relay_tick` again and again, one tick at a time, while other
transactions commit rows.  A tick may be cut short before any of its
operations; its open transaction is then rolled back.
-/

/-- A row as `OutboxRepository.add` is asked for it, with the id it gets. -/
structure OutboxDraft where
  id : Uuid
  tenantId : Uuid
  topic : Topic
  key : Uuid × Uuid
  event : Event

/-- The server's `now()` is the time the inserting transaction began. -/
def OutboxDraft.row (began : Time) (draft : OutboxDraft) : OutboxRow where
  id := draft.id
  tenantId := draft.tenantId
  topic := draft.topic
  key := draft.key
  event := draft.event
  createdAt := began

/-- The sessions of the relay and of whoever adds rows. -/
def relaySession : Pid := 0
def writerSession : Pid := 1

def insertAll : List OutboxRow → Table Uuid OutboxRow → Option (Table Uuid OutboxRow)
  | [], outbox => some outbox
  | row :: rest, outbox => (outbox.insert writerSession row.id row).bind (insertAll rest)

/-- A publish of the relay and how it ended. -/
abbrev PublishAttempt := OutboxRow × PublishResult

structure OutboxRelay where
  world : World
  /-- What is left of the tick in progress. -/
  tick : Option (Prog Unit)
  /-- The rows that the last fetch read. -/
  fetched : List OutboxRow
  /-- The publishes of the tick in progress, oldest first. -/
  attempts : List PublishAttempt
  /-- The publishes of the ticks that committed their marks. -/
  recorded : List PublishAttempt

namespace OutboxRelay

inductive Action where
  /-- A transaction that began at `began` commits these rows. -/
  | transaction (began : Time) (drafts : List OutboxDraft)
  | outside (readings : Outside)
  | reorder (order : List Uuid)
  | begin
  | run
  | crash

/-- The relay after one operation of its tick. -/
def perform (relay : OutboxRelay) (world : World) (rest : Prog Unit) :
    (operation : Op) → Reply operation → OutboxRelay
  | .query (.unpublished _ _), events => { relay with world, tick := some rest, fetched := events }
  | .publishRaw row, result =>
      { relay with world, tick := some rest, attempts := relay.attempts ++ [(row, result)] }
  | .commit, _ =>
      { relay with
        world, tick := some rest, attempts := [], recorded := relay.recorded ++ relay.attempts }
  | _, _ => { relay with world, tick := some rest }

def step (settings : Settings) : Action → OutboxRelay → Option OutboxRelay
  | .transaction began drafts, relay =>
      match insertAll (drafts.map (OutboxDraft.row began)) relay.world.outbox with
      | some outbox =>
          some { relay with world := { relay.world with outbox := outbox.commit writerSession } }
      | none => none
  | .outside readings, relay => some { relay with world := { relay.world with outside := readings } }
  | .reorder order, relay =>
      if same : order.Perm relay.world.outbox.keys then
        some { relay with
          world := { relay.world with outbox := relay.world.outbox.reorder order same } }
      else none
  | .begin, relay =>
      match relay.tick with
      | none => some { relay with tick := some (outboxRelayTick settings) }
      | some _ => none
  | .run, relay =>
      match relay.tick with
      | some (.call operation next) =>
          match relay.world.operate relaySession operation with
          | some (reply, world) => some (relay.perform world (next reply) operation reply)
          | none => none
      | some (.done _) => some { relay with tick := none }
      | none => none
  | .crash, relay =>
      match relay.tick with
      | some _ =>
          some { relay with world := relay.world.rollback relaySession, tick := none, attempts := [] }
      | none => none

def machine (settings : Settings) (outside : Outside) : Machine OutboxRelay Action where
  initial := {
    world := .fresh outside
    tick := none
    fetched := []
    attempts := []
    recorded := [] }
  step := step settings

end OutboxRelay

end IncidentPlatform.Workers
