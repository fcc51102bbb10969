import IncidentPlatform.Models.Job

namespace IncidentPlatform.Models

/-! # Lifecycle messages

What the consumers of the lifecycle topics read off a message that its topic's
schema has admitted.
-/

/-- The topics that the projections follow. -/
inductive LifecycleTopic where
  | progress
  | completed
  | failed
  | cancelled
  | dlq
deriving DecidableEq, Repr

def LifecycleTopic.name : LifecycleTopic → String
  | .progress => "job.progress"
  | .completed => "job.completed"
  | .failed => "job.failed"
  | .cancelled => "job.cancelled"
  | .dlq => "job.dlq"

theorem LifecycleTopic.name_ne_empty (topic : LifecycleTopic) : topic.name ≠ "" := by
  cases topic <;> decide

structure LifecycleMessage where
  event : Option String
  tenantId : Option String
  jobId : Option String
  userId : Option String
  /-- `dead_lettered` is `True`. -/
  deadLettered : Bool := false
  percent : Option Int := none
  message : Option String := none
  retryCount : Option Int := none
deriving DecidableEq

/-- `value or default` of a text field. -/
def given (text : Option String) : Option String :=
  text.filter fun text => text ≠ ""

end IncidentPlatform.Models
