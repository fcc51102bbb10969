import IncidentPlatform.Concurrency.Machine
import IncidentPlatform.Models.Lifecycle
import IncidentPlatform.Storage.SortedSet
import Mathlib.Logic.Function.Basic

namespace IncidentPlatform.Workers

open Concurrency Models Storage

/-! # The projection of job statuses into bounded sorted sets -/

inductive TrackedStatus where
  | running
  | completed
  | failed
  | deadLetter
  | cancelled
deriving DecidableEq

/-- `_TRACKED_STATUSES`. -/
def trackedStatuses : List TrackedStatus := [.running, .completed, .failed, .deadLetter, .cancelled]

/-- `_TERMINAL_STATUSES`. -/
def terminalStatuses : List TrackedStatus := [.completed, .deadLetter, .cancelled]

inductive ViewScope where
  | tenant (id : String)
  | user (id : String)
deriving DecidableEq

/-- `_tenant_key` and `_user_key`. -/
structure StatusKey where
  scope : ViewScope
  status : TrackedStatus
deriving DecidableEq

/-- `READ_MODEL_WINDOW` and `READ_MODEL_TTL_SECONDS`. -/
def readModelWindow : Nat := 10000
def readModelTtl : Time := seconds (7 * 24 * 3600)

/-- A sorted set under its key, with the counter beside it. -/
structure StatusView where
  set : SortedSet String Time := []
  expiresAt : Option Time := none
  evicted : Nat := 0
  evictedExpiresAt : Option Time := none

namespace StatusView

variable (textOrder : String → String → Bool) (view : StatusView) (now : Time)

/-- The set, unless its TTL is over. -/
def live : SortedSet String Time :=
  if view.expiresAt.all fun expiresAt => now < expiresAt then view.set else []

def zadd (jobId : String) (score : Time) : StatusView :=
  { view with
    set := (view.live now).add jobId score
    expiresAt := view.expiresAt.filter fun expiresAt => now < expiresAt }

/-- `ZREM`: a key that it empties is gone, with its TTL. -/
def zrem (jobId : String) : StatusView :=
  let left := (view.live now).remove [jobId]
  { view with
    set := left
    expiresAt := if left.isEmpty then none else view.expiresAt.filter fun expiresAt => now < expiresAt }

/-- What is outside of the window. -/
def overflow : List String :=
  (view.live now).lowest textOrder ((view.live now).length - readModelWindow)

/-- `ZREMRANGEBYRANK`, counted in the `:evicted` key. -/
def trim : StatusView :=
  let removed := view.overflow textOrder now
  if removed.isEmpty then view
  else
    { view with
      set := (view.live now).remove removed
      evicted := removed.length +
        if view.evictedExpiresAt.all fun expiresAt => now < expiresAt then view.evicted else 0
      evictedExpiresAt := some (now + readModelTtl) }

def expire : StatusView := { view with expiresAt := some (now + readModelTtl) }

/-- `_project` at one key. -/
def project (jobId : String) (score : Time) : StatusView :=
  ((view.zadd now jobId score).trim textOrder now).expire now

/-- `_member_count`: what the set holds, and what its trims have evicted. -/
def memberCount : Nat :=
  (view.live now).length +
    if view.evictedExpiresAt.all fun expiresAt => now < expiresAt then view.evicted else 0

end StatusView

abbrev ReadModel := StatusKey → StatusView

namespace ReadModel

variable (textOrder : String → String → Bool) (model : ReadModel) (now : Time)

def change (key : StatusKey) (command : StatusView → StatusView) : ReadModel :=
  Function.update model key (command (model key))

/-- `_move`, with the clock for its score. -/
def move (tenantId userId jobId : String) (newStatus : TrackedStatus) : ReadModel :=
  let removed := (trackedStatuses.filter fun status => status ≠ newStatus).foldl
    (fun (model : ReadModel) status =>
      (model.change ⟨.tenant tenantId, status⟩ fun view => view.zrem now jobId).change
        ⟨.user userId, status⟩ fun view => view.zrem now jobId) model
  (removed.change ⟨.tenant tenantId, newStatus⟩ fun view => view.project textOrder now jobId now).change
    ⟨.user userId, newStatus⟩ fun view => view.project textOrder now jobId now

/-- Whether a view has the job (`ZSCORE`). -/
def has (key : StatusKey) (jobId : String) : Bool := ((model key).live now).members.contains jobId

end ReadModel

/-- The status that an event implies. -/
def projectedStatus (event : String) (deadLettered : Bool) : Option TrackedStatus :=
  if event = "job.failed" then some (if deadLettered then .deadLetter else .failed)
  else if event = "job.progress" then some .running
  else if event = "job.completed" then some .completed
  else if event = "job.cancelled" then some .cancelled
  else none

/-- `ReadModelProjector.handle_message`. -/
def ReadModel.handleMessage (textOrder : String → String → Bool) (model : ReadModel) (now : Time)
    (value : LifecycleMessage) : ReadModel :=
  match given value.jobId, given value.userId, given value.tenantId, given value.event with
  | some jobId, some userId, some tenantId, some event =>
      match projectedStatus event value.deadLettered with
      | some newStatus =>
          if newStatus ∉ terminalStatuses ∧ terminalStatuses.any fun status =>
              model.has now ⟨.tenant tenantId, status⟩ jobId then model
          else model.move textOrder now tenantId userId jobId newStatus
      | none => model
  | _, _, _, _ => model

/-- The ids of a job, as its events carry them. -/
structure JobIds where
  tenantId : String
  userId : String
  jobId : String
  tenant_nonempty : tenantId ≠ ""
  user_nonempty : userId ≠ ""
  job_nonempty : jobId ≠ ""

structure ProjectedJob where
  now : Time
  /-- The status in the row. -/
  status : JobStatus
  /-- The messages put on each topic, oldest first. -/
  emitted : LifecycleTopic → List LifecycleMessage
  /-- How many of them have been handled. -/
  handled : LifecycleTopic → Nat
  model : ReadModel

namespace ProjectedJob

variable (textOrder : String → String → Bool) (ids : JobIds) (job : ProjectedJob)

def initial (status : JobStatus) : ProjectedJob where
  now := 0
  status
  emitted := fun _ => []
  handled := fun _ => 0
  model := fun _ => {}

def message (event : String) (deadLettered : Bool) : LifecycleMessage where
  event := some event
  tenantId := some ids.tenantId
  jobId := some ids.jobId
  userId := some ids.userId
  deadLettered

def emit (topic : LifecycleTopic) (message : LifecycleMessage) : ProjectedJob :=
  { job with emitted := Function.update job.emitted topic (job.emitted topic ++ [message]) }

/-- `update_status`: a terminal status is announced on its topic. -/
def updateStatus (status : JobStatus) : ProjectedJob :=
  let written := { job with status }
  match status with
  | .completed => written.emit .completed (message ids "job.completed" false)
  | .deadLetter => written.emit .dlq (message ids "job.failed" true)
  | .cancelled => written.emit .cancelled (message ids "job.cancelled" false)
  | _ => written

def handle (value : LifecycleMessage) : ProjectedJob :=
  { job with model := job.model.handleMessage textOrder job.now value }

inductive Action where
  | pass (elapsed : Time)
  | updateStatus (status : JobStatus)
  /-- A run reports progress, or that it is retried. -/
  | progress
  | retry
  /-- The first delivery of a topic's next message. -/
  | deliver (topic : LifecycleTopic)
  /-- A message that was handled is delivered again. -/
  | redeliver (topic : LifecycleTopic) (index : Nat)
  /-- A message of another job. -/
  | other (value : LifecycleMessage)

def step : Action → ProjectedJob → Option ProjectedJob
  | .pass elapsed, job => some { job with now := job.now + elapsed }
  | .updateStatus status, job => some (job.updateStatus ids status)
  | .progress, job => some (job.emit .progress (message ids "job.progress" false))
  | .retry, job => some (job.emit .failed (message ids "job.failed" false))
  | .deliver topic, job => do
      let value ← (job.emitted topic)[job.handled topic]?
      return { job.handle textOrder value with
        handled := Function.update job.handled topic (job.handled topic + 1) }
  | .redeliver topic index, job =>
      if index < job.handled topic then
        ((job.emitted topic)[index]?).map fun value => job.handle textOrder value
      else none
  | .other value, job =>
      if value.jobId = some ids.jobId then none else some (job.handle textOrder value)

def machine (status : JobStatus) : Machine ProjectedJob Action where
  initial := initial status
  step := step textOrder ids

end ProjectedJob

end IncidentPlatform.Workers
