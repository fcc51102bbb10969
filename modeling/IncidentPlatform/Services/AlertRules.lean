import IncidentPlatform.Models.Job
import Mathlib.Data.List.Dedup
import Mathlib.Data.List.Sort
import Mathlib.Data.Prod.Lex

namespace IncidentPlatform.Services

open Models

/-! # The dead-letter depth rule

`_evaluate_dlq_depth` up to the episodes it raises, over the rows of `jobs` that
its session reads.
-/

def dlqDepthFingerprint : String := "dlq_depth_warning"
def dlqDepthAlertSource : String := "dlq:threshold"
def dlqSubject : String := "total"
def severityCritical : String := "critical"

def dlqSummary (depth threshold : Int) (hint : Option String) : String :=
  let sliceWords := match hint with
    | some hint => " The rows above the baseline are categorised `" ++ hint ++ "`."
    | none => " The rows above the baseline carry no category yet."
  toString depth ++ " jobs are in the dead-letter queue (threshold " ++ toString threshold ++ ")." ++ sliceWords

structure DlqPayload where
  fingerprint : String
  severity : String
  source : String
  dlqDepth : Int
  threshold : Int
  remediationHint : Option String
  dlqScope : Option String
  measuredAt : String
  summary : String

def dlqPayload (depth threshold : Int) (hint : Option String) (summary : String) (measuredAt : Time) : DlqPayload where
  fingerprint := dlqDepthFingerprint
  severity := severityCritical
  source := dlqDepthAlertSource
  dlqDepth := depth
  threshold := threshold
  remediationHint := hint
  dlqScope := if hint.isSome then none else some "unclassified"
  measuredAt := isoformat measuredAt
  summary := summary

def deadLetters (jobs : List Job) (tenantId : Uuid) : List Job :=
  jobs.filter fun job => job.tenantId = tenantId ∧ job.status = .deadLetter

/-- `_dlq_depth_by_tenant`: the tenants that have a dead letter, with their depth. -/
def dlqDepthByTenant (jobs : List Job) : List (Uuid × Int) :=
  ((jobs.filter fun job => job.status = .deadLetter).map Job.tenantId).dedup.map fun tenantId =>
    (tenantId, ((deadLetters jobs tenantId).length : Int))

/-- `COALESCE(completed_at, created_at)`, then the id. -/
def deadLetterOrder (job : Job) : Lex (Time × Uuid) := toLex (job.completedAt.getD job.createdAt, job.id)

/-- The hints of the newest `above` dead letters. -/
def newestHints (jobs : List Job) (tenantId : Uuid) (above : Int) : List (Option String) :=
  (((deadLetters jobs tenantId).insertionSort fun first second =>
    deadLetterOrder second ≤ deadLetterOrder first).take above.toNat).map Job.remediationHint

/-- `_dominant_hint_above_baseline`. -/
def dominantHintAboveBaseline (jobs : List Job) (tenantId : Uuid) (above : Int) : Option String :=
  if above ≤ 0 then none
  else
    let categories := ((newestHints jobs tenantId above).filterMap id).dedup
    if categories.length ≠ 1 then none else categories.head?

structure Episode where
  fingerprint : String
  subject : String
  tenantId : Uuid
  source : String
  title : String
  summary : String
  payload : DlqPayload

/-- The episodes that one evaluation of the rule raises. -/
def dlqEpisodes (jobs : List Job) (threshold : Int) (measuredAt : Time) : List Episode :=
  let breaching := (dlqDepthByTenant jobs).filter fun entry => ¬ entry.2 < threshold
  breaching.map fun entry =>
    let hint := dominantHintAboveBaseline jobs entry.1 (entry.2 - (threshold - 1))
    let summary := dlqSummary entry.2 threshold hint
    { fingerprint := dlqDepthFingerprint
      subject := dlqSubject
      tenantId := entry.1
      source := dlqDepthAlertSource
      title := "Dead-letter queue depth " ++ toString entry.2 ++ " (threshold " ++ toString threshold ++ ")"
      summary
      payload := dlqPayload entry.2 threshold hint summary measuredAt }

end IncidentPlatform.Services
