import IncidentPlatform.Concurrency.Machine
import IncidentPlatform.Models.Job

namespace IncidentPlatform.Workers

open Concurrency Models

/-! # The consumers that record every event

`EventLogConsumer` and `AuditConsumer` insert one row for a message, under the
message's own coordinates, and take an `IntegrityError` of that INSERT for a
redelivery.
-/

/-- What names a message in Kafka: the columns of the unique constraints. -/
structure KafkaCoordinates where
  topic : String
  partition : Int
  offset : Int
deriving DecidableEq

/-- A message as `_process_one` hands it over.  `json.loads` leaves no key of an
object twice. -/
structure KafkaMessage where
  coordinates : KafkaCoordinates
  value : Json

/-- The conversions of the standard library that the consumers call. -/
structure Conversions where
  /-- `uuid.UUID` of a text; `none` is its `ValueError`. -/
  uuid : String → Option Uuid
  uuid_empty : uuid "" = none
  /-- Whether the number with this literal is not zero. -/
  nonzero : String → Bool
  /-- `str` of a value. -/
  str : Json → String

/-- `bool` of a value. -/
def Conversions.truthy (conversions : Conversions) : Json → Bool
  | .null => false
  | .bool value => value
  | .number literal => conversions.nonzero literal
  | .string text => text ≠ ""
  | .array items => !items.isEmpty
  | .object fields => !fields.isEmpty

/-- `_parse_uuid`. -/
def Conversions.parseUuid (conversions : Conversions) : Option Json → Option Uuid
  | some (.string text) => if text = "" then none else conversions.uuid text
  | _ => none

/-- A row of `job_events`. -/
structure JobEvent where
  coordinates : KafkaCoordinates
  tenantId : Uuid
  jobId : Option Uuid
  eventName : String
  payload : List (String × Json)

/-- A row of `audit_logs`; an inline writer leaves it without coordinates. -/
structure AuditLog where
  coordinates : Option KafkaCoordinates
  action : String
  tenantId : Uuid
  userId : Option Uuid
  principalType : String
  principalId : Option Uuid
  jobId : Option Uuid
  resourceType : Option String
  /-- The identifier in the text of `resource_id`. -/
  resourceId : Option Uuid
  extraData : List (String × Json)

/-- What a handler does with a message before it opens a session. -/
inductive Reading (Row : Type) where
  | skip
  | raise
  | insert (row : Row)

section Readings

variable (conversions : Conversions) (message : KafkaMessage)

/-- `EventLogConsumer.handle_message` up to its session. -/
def JobEvent.reading : Reading JobEvent :=
  match message.value with
  | .object fields =>
      match fields.lookup "event" with
      | some event =>
          if conversions.truthy event then
            match fields.lookup "tenant_id" with
            | some (.string tenant) =>
                match conversions.uuid tenant with
                | some tenantId => .insert {
                    coordinates := message.coordinates
                    tenantId
                    jobId :=
                      match fields.lookup "job_id" with
                      | some (.string job) => conversions.uuid job
                      | _ => none
                    eventName := conversions.str event
                    payload := fields }
                | none => .skip
            | _ => .skip
          else .skip
      | none => .skip
  | _ => .skip

/-- `_EVENT_TO_ACTION`. -/
def eventToAction : List (String × String) :=
  [("job.submitted", "event.job.submitted"), ("job.completed", "event.job.completed"),
    ("job.failed", "event.job.failed"), ("job.cancelled", "event.job.cancelled")]

def deadLettered (fields : List (String × Json)) : Bool :=
  match fields.lookup "dead_lettered" with
  | some (.bool value) => value
  | _ => false

/-- The action that an event is recorded under. -/
def auditAction (fields : List (String × Json)) (event : Json) : Reading String :=
  match event with
  | .string name =>
      if name = "job.failed" ∧ deadLettered fields then .insert "event.job.dead_letter"
      else
        match eventToAction.lookup name with
        | some action => .insert action
        | none => .skip
  -- A list or a dict is no key: the lookup is a `TypeError`.
  | .array _ | .object _ => .raise
  | _ => .skip

/-- `AuditConsumer.handle_message` up to its session. -/
def AuditLog.reading : Reading AuditLog :=
  match message.value with
  | .object fields =>
      match fields.lookup "event" with
      | some event =>
          if conversions.truthy event then
            match auditAction fields event with
            | .insert action =>
                let jobId := conversions.parseUuid (fields.lookup "job_id")
                let userId := conversions.parseUuid (fields.lookup "user_id")
                match conversions.parseUuid (fields.lookup "tenant_id") with
                | some tenantId => .insert {
                    coordinates := some message.coordinates
                    action
                    tenantId
                    userId
                    principalType := "user"
                    principalId := userId
                    jobId
                    resourceType := some "job"
                    resourceId := jobId
                    extraData := fields.filter fun field =>
                      field.1 ∉ ["event", "tenant_id", "job_id", "user_id"] }
                | none => .skip
            | .raise => .raise
            | .skip => .skip
          else .skip
      | none => .skip
  | _ => .skip

end Readings

/-- The two tables, and the keys of the tables that they refer to. -/
structure EventTables where
  jobEvents : List JobEvent
  auditLogs : List AuditLog
  tenants : Uuid → Bool
  users : Uuid → Bool
  jobs : Uuid → Bool

/-- How the connection fares during the transaction. -/
inductive Connection where
  | kept
  | lost
  | lostAfterCommit
deriving DecidableEq

namespace EventTables

variable (tables : EventTables)

/-- The row that `job_events` refers to is there. -/
def ReferredByEvent (row : JobEvent) : Prop := tables.tenants row.tenantId

/-- The rows that `audit_logs` refers to are there. -/
def ReferredByAudit (row : AuditLog) : Prop :=
  tables.tenants row.tenantId ∧ row.userId.all tables.users ∧ row.jobId.all tables.jobs

instance (row : JobEvent) : Decidable (tables.ReferredByEvent row) := inferInstanceAs (Decidable (_ = true))

instance (row : AuditLog) : Decidable (tables.ReferredByAudit row) := inferInstanceAs (Decidable (_ ∧ _ ∧ _))

/-- An INSERT of a row with coordinates; `none` is an `IntegrityError`. -/
def insertEvent (row : JobEvent) : Option EventTables :=
  if tables.ReferredByEvent row ∧ row.coordinates ∉ tables.jobEvents.map JobEvent.coordinates then
    some { tables with jobEvents := tables.jobEvents ++ [row] }
  else none

def insertAudit (row : AuditLog) : Option EventTables :=
  if tables.ReferredByAudit row ∧
      (row.coordinates.isSome → row.coordinates ∉ tables.auditLogs.map AuditLog.coordinates) then
    some { tables with auditLogs := tables.auditLogs ++ [row] }
  else none

/-- A handler: whether it returns, and the tables it leaves. -/
def handle {Row : Type} (insert : Row → Option EventTables) (connection : Connection) :
    Reading Row → Bool × EventTables
  | .skip => (true, tables)
  | .raise => (false, tables)
  | .insert row =>
      match connection, insert row with
      | .lost, _ => (false, tables)
      -- The `except IntegrityError`.
      | _, none => (true, tables)
      | .kept, some inserted => (true, inserted)
      | .lostAfterCommit, some inserted => (false, inserted)

/-- `EventLogConsumer.handle_message`. -/
def handleEvent (conversions : Conversions) (message : KafkaMessage) (connection : Connection) : Bool × EventTables :=
  tables.handle tables.insertEvent connection (JobEvent.reading conversions message)

/-- `AuditConsumer.handle_message`. -/
def handleAudit (conversions : Conversions) (message : KafkaMessage) (connection : Connection) : Bool × EventTables :=
  tables.handle tables.insertAudit connection (AuditLog.reading conversions message)

/-- The other tables change: what `job_events` and `audit_logs` name as tenant
stays (RESTRICT), a user or job that is deleted is set to NULL. -/
def change (tenants users jobs : Uuid → Bool) : Option EventTables :=
  if (∀ row ∈ tables.jobEvents, tenants row.tenantId) ∧ ∀ row ∈ tables.auditLogs, tenants row.tenantId then
    some { tables with
      tenants, users, jobs
      auditLogs := tables.auditLogs.map fun row =>
        { row with userId := row.userId.filter users, jobId := row.jobId.filter jobs } }
  else none

inductive Action where
  | eventLog (message : KafkaMessage) (connection : Connection)
  | audit (message : KafkaMessage) (connection : Connection)
  /-- An inline writer of `audit_logs`. -/
  | logged (row : AuditLog)
  | changed (tenants users jobs : Uuid → Bool)

def step (conversions : Conversions) : Action → EventTables → Option EventTables
  | .eventLog message connection, tables => some (tables.handleEvent conversions message connection).2
  | .audit message connection, tables => some (tables.handleAudit conversions message connection).2
  | .logged row, tables => if row.coordinates = none then tables.insertAudit row else none
  | .changed tenants users jobs, tables => tables.change tenants users jobs

/-- The deliveries to the two consumers, from any content of the other tables. -/
def machine (conversions : Conversions) (tenants users jobs : Uuid → Bool) : Machine EventTables Action where
  initial := { jobEvents := [], auditLogs := [], tenants, users, jobs }
  step := step conversions

end EventTables

end IncidentPlatform.Workers
