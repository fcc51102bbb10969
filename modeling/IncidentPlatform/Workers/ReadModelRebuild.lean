import IncidentPlatform.Schemas.JobEvents
import IncidentPlatform.Storage.Keyspace
import IncidentPlatform.Workers.ReadModel
import Mathlib.Data.List.Dedup

namespace IncidentPlatform.Workers

open Models Schemas Storage

/-! # The keys of the read model, their readers and their rebuild from the table -/

def TrackedStatus.jobStatus : TrackedStatus → JobStatus
  | .running => .running
  | .completed => .completed
  | .failed => .failed
  | .deadLetter => .deadLetter
  | .cancelled => .cancelled

/-- The member of `_TRACKED_STATUSES` that a status is. -/
def JobStatus.tracked (status : JobStatus) : Option TrackedStatus :=
  trackedStatuses.find? fun tracked => tracked.jobStatus = status

def tenantKey (tenantId : String) (status : TrackedStatus) : String :=
  "jobs:tenant:" ++ tenantId ++ ":status:" ++ status.jobStatus.text

def userKey (userId : String) (status : TrackedStatus) : String :=
  "jobs:user:" ++ userId ++ ":status:" ++ status.jobStatus.text

def evictedKey (statusKey : String) : String := statusKey ++ ":evicted"

abbrev Redis := Keyspace Time Time

/-- `int(evicted) if evicted else 0`. -/
def evictedCount : Option StoredText → Except CommandError Int
  | none => .ok 0
  | some (.number value) => .ok value
  | some (.text written) => if written.isEmpty then .ok 0 else .error .notANumber

/-- `_member_count`. -/
def memberCount (redis : Redis) (key : String) : Except CommandError Int :=
  match redis.zcard key with
  | .error .wrongType => (redis.scard key).map Nat.cast
  | .error failure => .error failure
  | .ok live => do
      let evicted ← evictedCount (← redis.get (evictedKey key))
      return live + evicted

def readGlobalStats (redis : Redis) (tenantId : String) :
    Except CommandError (List (TrackedStatus × Int)) :=
  trackedStatuses.mapM fun status => (memberCount redis (tenantKey tenantId status)).map (status, ·)

def readUserStats (redis : Redis) (userId : String) :
    Except CommandError (List (TrackedStatus × Int)) :=
  trackedStatuses.mapM fun status => (memberCount redis (userKey userId status)).map (status, ·)

/-- A scope and a status. -/
abbrev Group := Uuid × TrackedStatus

section Queries

variable (jobs : List Job) (scopeColumn : Job → Uuid) (tenantId : Option Uuid)

/-- The group of a row, when its status is tracked. -/
def groupOf (job : Job) : Option Group := (JobStatus.tracked job.status).map (scopeColumn job, ·)

/-- The rows of a tenant, or all rows. -/
def inTenant : List Job := jobs.filter fun job => tenantId.all fun tenantId => job.tenantId = tenantId

/-- `_status_counts`: each group with a row, and how many rows it has. -/
def statusCounts : List (Group × Nat) :=
  let groups := (inTenant jobs tenantId).filterMap (groupOf scopeColumn)
  groups.dedup.map fun group => (group, groups.count group)

/-- `ORDER BY updated_at DESC, id DESC`. -/
def newerFirst (job other : Job) : Prop :=
  other.updatedAt < job.updatedAt ∨ other.updatedAt = job.updatedAt ∧ other.id ≤ job.id

instance : DecidableRel newerFirst := fun _ _ => inferInstanceAs (Decidable (_ ∨ _))

/-- `_windowed_members`: the ids of a group that were updated last, with their
scores. -/
def windowedMembers (group : Group) : List (String × Time) :=
  let ranked := ((inTenant jobs tenantId).filter fun job => groupOf scopeColumn job = some group).insertionSort
    newerFirst
  (ranked.take readModelWindow).map fun job => (uuidText job.id, job.updatedAt)

end Queries

structure RebuildSummary where
  keys : Nat := 0
  members : Nat := 0
  evicted : Nat := 0

/-- One turn of the loop that writes the views of one kind of scope. -/
def writeView (keyFor : String → TrackedStatus → String) (members : Group → List (String × Time))
    (written : Redis × RebuildSummary) (counted : Group × Nat) :
    Except CommandError (Redis × RebuildSummary) := do
  let (redis, summary) := written
  let ((scopeId, status), total) := counted
  let key := keyFor (uuidText scopeId) status
  let retained := members (scopeId, status)
  let redis ← if retained.isEmpty then pure redis
    else do
      let added ← redis.zadd key retained
      pure (added.expire key readModelTtl)
  let evicted := total - retained.length
  let redis := if evicted = 0 then redis
    else redis.setFor (evictedKey key) (.number evicted) readModelTtl
  return (redis, {
    keys := summary.keys + 1
    members := summary.members + retained.length
    evicted := summary.evicted + evicted })

/-- The keys that the rebuild deletes first: those of every scope, or those of
the tenant and of the users that it is about to rewrite. -/
def clearViews (redis : Redis) (tenantId : Option Uuid) (userCounts : List (Group × Nat)) : Redis :=
  match tenantId with
  | none => (redis.scanDelete "jobs:tenant:*").scanDelete "jobs:user:*"
  | some scope =>
      userCounts.foldl
        (fun redis counted => redis.scanDelete ("jobs:user:" ++ uuidText counted.1.1 ++ ":status:*"))
        (redis.scanDelete ("jobs:tenant:" ++ uuidText scope ++ ":status:*"))

/-- `rebuild_read_model`. -/
def rebuildReadModel (jobs : List Job) (redis : Redis) (tenantId : Option Uuid) :
    Except CommandError (Redis × RebuildSummary) := do
  let tenantCounts := statusCounts jobs Job.tenantId tenantId
  let userCounts := statusCounts jobs Job.userId tenantId
  let cleared := clearViews redis tenantId userCounts
  let tenants ← tenantCounts.foldlM (writeView tenantKey (windowedMembers jobs Job.tenantId tenantId)) (cleared, {})
  userCounts.foldlM (writeView userKey (windowedMembers jobs Job.userId tenantId)) tenants

end IncidentPlatform.Workers
