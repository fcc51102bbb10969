import IncidentPlatform.Models.Lifecycle

namespace IncidentPlatform.Workers

open Models

/-! # Progress events and the retained snapshot -/

inductive ProgressStatus where
  | running
  | completed
  | failed
  | deadLetter
  | retrying
  | cancelled
deriving DecidableEq, Repr

def ProgressStatus.text : ProgressStatus → String
  | .running => "running"
  | .completed => "completed"
  | .failed => "failed"
  | .deadLetter => "dead_letter"
  | .retrying => "retrying"
  | .cancelled => "cancelled"

/-- `TERMINAL_STATUSES`. -/
def ProgressStatus.terminal : ProgressStatus → Bool
  | .completed | .failed | .deadLetter | .cancelled => true
  | .running | .retrying => false

/-- `LAST_EVENT_TTL_SECONDS`. -/
def lastEventTtl : Time := seconds 3600

structure ProgressEvent where
  jobId : String
  status : ProgressStatus
  progress : Int
  message : String
  retryCount : Int := 0
  timestamp : Time
  source : String := ""
  sequence : Option Int := none
deriving DecidableEq

/-- `_supersedes`. -/
def supersedes (new : ProgressEvent) : Option ProgressEvent → Bool
  | none => true
  | some retained =>
      if retained.status.terminal && !new.status.terminal then false
      else if new.source ≠ "" && new.source == retained.source then
        match new.sequence, retained.sequence with
        | some offset, some seen => !decide (offset ≤ seen)
        | _, _ => true
      else true

/-- A snapshot under its key, with the end of its TTL. -/
structure Snapshot where
  event : ProgressEvent
  expiresAt : Time
deriving DecidableEq

/-- The keys `job:progress:last:{job_id}`. -/
abbrev Snapshots := String → Option Snapshot

namespace Snapshots

variable (snapshots : Snapshots) (now : Time)

def readLastEvent (jobId : String) : Option ProgressEvent :=
  ((snapshots jobId).filter fun snapshot => now < snapshot.expiresAt).map Snapshot.event

/-- The `SET` of `publish`. -/
def retain (event : ProgressEvent) : Snapshots :=
  Function.update snapshots event.jobId (some ⟨event, now + lastEventTtl⟩)

/-- `publish` without interruption: the snapshots, and whether the event went
out on the channel. -/
def publish (event : ProgressEvent) : Snapshots × Bool :=
  if supersedes event (snapshots.readLastEvent now event.jobId) then (snapshots.retain now event, true)
  else (snapshots, false)

end Snapshots

end IncidentPlatform.Workers
