import IncidentPlatform.Concurrency.Machine
import IncidentPlatform.Services.Job
import IncidentPlatform.Storage.Slot

namespace IncidentPlatform.Mcp

open Concurrency Models Services Storage

/-! # Fences, hints and replays of one dead-lettered job

`mark_dlq_permanent`, triage, `replay_dlq_by_category`, replays that name the
job, and the scheduled replays of one job.  A step is one statement, one Redis
command or one commit; a write waits for the row to be let go.
-/

/-- The categories of `jobs.remediation_hint`. -/
inductive RemediationHint where
  | replaySafe
  | waitAndReplay
  | humanRequired
deriving DecidableEq

def RemediationHint.text : RemediationHint → String
  | .replaySafe => "replay_safe"
  | .waitAndReplay => "wait_and_replay"
  | .humanRequired => "human_required"

/-- `_REPLAYABLE_CATEGORIES`. -/
def RemediationHint.replayable : RemediationHint → Bool
  | .replaySafe | .waitAndReplay => true
  | .humanRequired => false

/-- What a hint is derived from; the confidence is in hundredths. -/
structure TriageAnalysis where
  rootCauseCategory : String
  isRetryable : Bool
  confidence : Nat

/-- `remediation_hint_for`. -/
def remediationHintFor (analysis : TriageAnalysis) : Option RemediationHint :=
  if analysis.confidence < 50 then none
  else if analysis.rootCauseCategory = "unknown" then none
  else if analysis.isRetryable = false then some .humanRequired
  else if analysis.rootCauseCategory = "external_api_failure" ∨
      analysis.rootCauseCategory = "infrastructure" then some .waitAndReplay
  else some .replaySafe

/-- Who calls `replay_job`: an endpoint or tool that names the job, the batch of a
category, or the promote loop. -/
inductive ReplayCaller where
  | named
  | category
  | scheduled (principal : Uuid)

/-- The await that a task is at. -/
inductive DlqPhase where
  | idle
  /-- `mark_dlq_permanent` has read the job in DEAD_LETTER. -/
  | marking (loaded : Job)
  /-- It has flushed, and which columns its UPDATE names. -/
  | marked (hint stamps : Bool)
  /-- Triage of the `job.dlq` event of an episode. -/
  | analysing (episode : Nat)
  | storing (episode : Nat) (hint : RemediationHint)
  | stored (episode : Nat) (written : Bool)
  /-- A replay that names the job has been called. -/
  | called
  /-- The job is in the batch of a category, as the session has read it. -/
  | listed
  | promoting (principal : Uuid)
  /-- `replay_job` has passed its checks. -/
  | replaying (caller : ReplayCaller)
  | replayed (caller : ReplayCaller)
  | armed (principal : Uuid)
  | acking (principal : Uuid)

structure DlqJob where
  job : Slot Job
  /-- How often the job has been dead-lettered: the `job.dlq` events so far. -/
  episodes : Nat
  /-- The episodes that the hint and the stamps come from. -/
  hintEpisode : Nat
  fenceEpisode : Nat
  /-- A fence has committed on the job in DEAD_LETTER, and no replay that names
  the job has been called since. -/
  fenced : Bool
  /-- The principals with a member for the job in the two sorted sets. -/
  scheduled : List Uuid
  inflight : List Uuid
  phase : Nat → DlqPhase

inductive DlqAction where
  /-- A write of the job's own life, which does not name the hint or the stamps. -/
  | run (write : StatusWrite) (now : Time)
  | mark (task : Nat)
  | flushMark (task : Nat) (now : Time) (principal : String)
  | consume (task : Nat) (episode : Nat)
  | analyse (task : Nat) (analysis : TriageAnalysis)
  | setHint (task : Nat)
  | callReplay (task : Nat)
  | list (task : Nat) (category : RemediationHint)
  | load (task : Nat)
  /-- A pause or an error before the write. -/
  | refuse (task : Nat)
  | writeReplay (task : Nat) (now : Time)
  | arm (task : Nat) (principal : Uuid)
  | cancel (task : Nat)
  | claim (task : Nat) (principal : Uuid)
  | defer (task : Nat)
  | ack (task : Nat)
  | commit (task : Nat)
  /-- The transaction rolls back, or the task dies. -/
  | abort (task : Nat)

/-- A column that the session flushes: an UPDATE names only what differs from the
row as it was loaded. -/
def flushColumn {Value : Type} [DecidableEq Value] (loaded value current : Value) : Value :=
  if value = loaded then current else value

/-- The row that `mark_dlq_permanent` leaves. -/
def markPermanent (loaded : Job) (now : Time) (principal : String) (job : Job) : Job :=
  { job with
    remediationHint :=
      flushColumn loaded.remediationHint (some RemediationHint.humanRequired.text) job.remediationHint
    fencedAt := flushColumn loaded.fencedAt (some now) job.fencedAt
    fencedBy := flushColumn loaded.fencedBy (some principal) job.fencedBy }

/-- `replay_job` takes the job. -/
def replayableStatus (status : JobStatus) : Bool := status = .failed ∨ status = .deadLetter

/-- Where a task goes when its replay ends. -/
def ReplayCaller.after : ReplayCaller → DlqPhase
  | .named | .category => .idle
  | .scheduled principal => .acking principal

namespace DlqJob

variable (dlq : DlqJob) (task : Nat)

def move (phase : DlqPhase) : DlqJob :=
  { dlq with phase := fun other => if other = task then phase else dlq.phase other }

def withJob (job : Slot Job) : DlqJob := { dlq with job }

/-- The row for an UPDATE, unless another transaction has it. -/
def rowFor (slot : Slot Job) (task : Nat) : Option Job :=
  match slot.holder with
  | some (owner, row) => if owner = task then some row else none
  | none => slot.committed

def step : DlqAction → DlqJob → Option DlqJob
  | .run write now, dlq =>
      match dlq.job.holder, dlq.job.committed with
      | none, some row =>
          if row.status = .deadLetter then none
          else if write.remediationHint.isSome ∨ write.fencedAt.isSome ∨ write.fencedBy.isSome then none
          else some { dlq with
            job := { dlq.job with committed := some (write.apply now row) }
            episodes := if write.status = .deadLetter then dlq.episodes + 1 else dlq.episodes }
      | _, _ => none
  | .mark task, dlq =>
      match dlq.phase task, dlq.job.visible task with
      | .idle, some row => if row.status = .deadLetter then some (dlq.move task (.marking row)) else none
      | _, _ => none
  | .flushMark task now principal, dlq =>
      match dlq.phase task, rowFor dlq.job task with
      | .marking loaded, some row =>
          some ((dlq.withJob (dlq.job.write task (markPermanent loaded now principal row))).move task
            (.marked (loaded.remediationHint ≠ some RemediationHint.humanRequired.text)
              (loaded.fencedAt ≠ some now ∨ loaded.fencedBy ≠ some principal)))
      | _, _ => none
  | .consume task episode, dlq =>
      match dlq.phase task with
      | .idle =>
          if 1 ≤ episode ∧ episode ≤ dlq.episodes then some (dlq.move task (.analysing episode)) else none
      | _ => none
  | .analyse task analysis, dlq =>
      match dlq.phase task, remediationHintFor analysis with
      | .analysing episode, some hint => some (dlq.move task (.storing episode hint))
      | .analysing _, none => some (dlq.move task .idle)
      | _, _ => none
  | .setHint task, dlq =>
      match dlq.phase task, rowFor dlq.job task with
      | .storing episode hint, some row =>
          if row.remediationHint = none then
            some ((dlq.withJob (dlq.job.write task
              { row with remediationHint := some hint.text })).move task (.stored episode true))
          else some (dlq.move task (.stored episode false))
      | _, _ => none
  | .callReplay task, dlq =>
      match dlq.phase task with
      | .idle => some { dlq.move task .called with fenced := false }
      | _ => none
  | .list task category, dlq =>
      match dlq.phase task, dlq.job.visible task with
      | .idle, some row =>
          if category.replayable = true ∧ row.status = .deadLetter ∧
              row.remediationHint = some category.text then some (dlq.move task .listed)
          else none
      | _, _ => none
  | .load task, dlq =>
      match dlq.phase task, dlq.job.visible task with
      | .called, some row =>
          some (dlq.move task (if replayableStatus row.status then .replaying .named else .idle))
      | .promoting principal, some row =>
          some (dlq.move task
            (if replayableStatus row.status then .replaying (.scheduled principal) else .acking principal))
      | _, _ => none
  | .refuse task, dlq =>
      match dlq.phase task with
      | .called | .listed => some (dlq.move task .idle)
      | .promoting principal => some (dlq.move task (.acking principal))
      | .replaying caller => some (dlq.move task caller.after)
      | _ => none
  | .writeReplay task now, dlq =>
      match dlq.phase task, rowFor dlq.job task with
      | .replaying caller, some row =>
          some ((dlq.withJob (dlq.job.write task (replayWrite.apply now row))).move task (.replayed caller))
      | .listed, some row =>
          some ((dlq.withJob (dlq.job.write task (replayWrite.apply now row))).move task
            (.replayed .category))
      | _, _ => none
  | .arm task principal, dlq =>
      match dlq.phase task, dlq.job.visible task with
      | .listed, _ =>
          some { dlq.move task (.armed principal) with scheduled := principal :: dlq.scheduled }
      | .called, some row =>
          if replayableStatus row.status then
            some { dlq.move task (.armed principal) with scheduled := principal :: dlq.scheduled }
          else some (dlq.move task .idle)
      | _, _ => none
  | .cancel task, dlq =>
      match dlq.phase task with
      | .armed principal =>
          some { dlq.move task .idle with scheduled := dlq.scheduled.filter (· ≠ principal) }
      | _ => none
  | .claim task principal, dlq =>
      match dlq.phase task with
      | .idle =>
          if principal ∈ dlq.scheduled ∨ principal ∈ dlq.inflight then
            some { dlq.move task (.promoting principal) with
              scheduled := dlq.scheduled.filter (· ≠ principal)
              inflight := principal :: dlq.inflight }
          else none
      | _ => none
  | .defer task, dlq =>
      match dlq.phase task with
      | .promoting principal =>
          some { dlq.move task (.acking principal) with scheduled := principal :: dlq.scheduled }
      | _ => none
  | .ack task, dlq =>
      match dlq.phase task with
      | .acking principal =>
          some { dlq.move task .idle with inflight := dlq.inflight.filter (· ≠ principal) }
      | _ => none
  | .commit task, dlq =>
      let committed := dlq.withJob (dlq.job.commit task)
      match dlq.phase task with
      | .marked hint stamps =>
          some { committed.move task .idle with
            hintEpisode := if hint then dlq.episodes else dlq.hintEpisode
            fenceEpisode := if stamps then dlq.episodes else dlq.fenceEpisode
            fenced := dlq.fenced || (dlq.job.visible task).any fun row => row.status = .deadLetter }
      | .stored episode written =>
          some { committed.move task .idle with
            hintEpisode := if written then episode else dlq.hintEpisode }
      | .replayed caller => some (committed.move task caller.after)
      | .armed _ => some (committed.move task .idle)
      | _ => none
  | .abort task, dlq => some ((dlq.withJob (dlq.job.rollback task)).move task .idle)

end DlqJob

/-- The tasks around one job, from its insert on. -/
def dlqActions (draft : JobDraft) (id : Uuid) (now : Time) : Machine DlqJob DlqAction where
  initial := {
    job := ⟨some (draft.row id now), none⟩
    episodes := 0
    hintEpisode := 0
    fenceEpisode := 0
    fenced := false
    scheduled := []
    inflight := []
    phase := fun _ => .idle }
  step := DlqJob.step

end IncidentPlatform.Mcp
