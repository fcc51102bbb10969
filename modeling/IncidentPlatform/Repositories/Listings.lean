import IncidentPlatform.Models.Job
import IncidentPlatform.Storage.Listing
import IncidentPlatform.Text.Wildcards

namespace IncidentPlatform.Repositories

open Models Storage Text

/-! # The listings of jobs and of audit rows

Every filter runs in SQL, before the limit, and the total counts by the same
`WHERE`.
-/

/-- The pattern of `LIKE`, with its escape character.  None ends with that
character here: each ends with `%`. -/
def likePattern : List Char → List (Wildcard Char)
  | [] => []
  | '\\' :: symbol :: rest => .itself symbol :: likePattern rest
  | '%' :: rest => .anyText :: likePattern rest
  | '_' :: rest => .anyOne :: likePattern rest
  | symbol :: rest => .itself symbol :: likePattern rest

/-- `column.like(f"{prefix}%")`. -/
def likePrefix (text stem : String) : Bool := matchesAll (likePattern (stem ++ "%").toList) text.toList

/-- A text that starts with the stem is like it, where the stem has no escape and
no `%`: a `_` in it matches itself too. -/
theorem likePrefix_of_prefix {text stem : String}
    (plain : ∀ symbol ∈ stem.toList, symbol ≠ '\\' ∧ symbol ≠ '%') (starts : stem.toList <+: text.toList) :
    likePrefix text stem = true := by
  have compiled : ∀ stem : List Char, (∀ symbol ∈ stem, symbol ≠ '\\' ∧ symbol ≠ '%') →
      ∃ front, likePattern (stem ++ ['%']) = front ++ [.anyText] ∧ List.Forall₂ Wildcard.fits front stem := by
    intro stem plain
    induction stem with
    | nil => exact ⟨[], rfl, .nil⟩
    | cons symbol rest ih =>
        obtain ⟨front, same, fits⟩ := ih fun other held => plain other (List.mem_cons_of_mem _ held)
        obtain ⟨notEscape, _⟩ := plain symbol List.mem_cons_self
        by_cases one : symbol = '_'
        · subst one
          exact ⟨.anyOne :: front, by simp [likePattern, same], .cons (.inr rfl) fits⟩
        · exact ⟨.itself symbol :: front, by simp [likePattern, same, notEscape],
            .cons (.inl rfl) fits⟩
  obtain ⟨front, same, fits⟩ := compiled stem.toList plain
  have appended : (stem ++ "%").toList = stem.toList ++ ['%'] := by simp
  rw [likePrefix, appended, same]
  exact matchesAll_of_fits fits starts

/-- A row of `audit_logs`. -/
structure AuditLog where
  id : Uuid
  tenantId : Uuid
  userId : Option Uuid
  principalType : String
  principalId : Option Uuid
  jobId : Option Uuid
  action : String
  resourceType : Option String
  resourceId : Option String
  requestId : Option String
  extraData : Option Json
  createdAt : Time

/-- The arguments of `AuditRepository.list_logs`. -/
structure LogQuery where
  offset : Nat := 0
  limit : Nat := 20
  userId : Option Uuid := none
  jobId : Option Uuid := none
  action : Option String := none
  actionPrefix : Option String := none
  actionPrefixes : List String := []
  excludeActionPrefixes : List String := []
  principalType : Option String := none
  tenantId : Option Uuid := none
  requestId : Option String := none

namespace LogQuery

variable (query : LogQuery) (row : AuditLog)

def wanted : List String := query.actionPrefix.toList ++ query.actionPrefixes

/-- The `WHERE`: a null column is equal to nothing. -/
def admits : Bool :=
  (query.userId.all fun userId => row.userId = some userId) &&
  (query.jobId.all fun jobId => row.jobId = some jobId) &&
  (query.action.all fun action => row.action = action) &&
  (query.wanted.isEmpty || query.wanted.any fun stem => likePrefix row.action stem) &&
  (query.excludeActionPrefixes.all fun excluded => !likePrefix row.action excluded) &&
  (query.principalType.all fun principalType => row.principalType = principalType) &&
  (query.tenantId.all fun tenantId => row.tenantId = tenantId) &&
  query.requestId.all fun requestId => row.requestId = some requestId

end LogQuery

/-- `AuditRepository.list_logs`. -/
def listLogs (logs : List AuditLog) (query : LogQuery) : List AuditLog × Nat :=
  listing AuditLog.createdAt AuditLog.id query.admits query.offset query.limit logs

inductive JobSort where
  | createdAt
  | deadLetteredAt

/-- The arguments of `JobRepository.list_jobs`. -/
structure JobQuery where
  tenantId : Uuid
  offset : Nat := 0
  limit : Nat := 20
  userId : Option Uuid := none
  status : Option String := none
  jobType : Option String := none
  traceId : Option String := none
  createdAfter : Option Time := none
  createdBefore : Option Time := none
  retryCountMin : Option Int := none
  retryCountMax : Option Int := none
  remediationHint : Option String := none
  excludeRemediationHints : List String := []
  requireTraceId : Bool := false
  sort : JobSort := .createdAt

def JobQuery.admits (query : JobQuery) (job : Job) : Bool :=
  job.tenantId = query.tenantId &&
  (query.userId.all fun userId => job.userId = userId) &&
  (query.status.all fun status => job.status.text = status) &&
  (query.jobType.all fun jobType => job.type = jobType) &&
  (query.traceId.all fun traceId => job.traceId = some traceId) &&
  (query.createdAfter.all fun after => after ≤ job.createdAt) &&
  (query.createdBefore.all fun before => job.createdAt ≤ before) &&
  (query.retryCountMin.all fun least => least ≤ (job.retryCount : Int)) &&
  (query.retryCountMax.all fun most => (job.retryCount : Int) ≤ most) &&
  (query.remediationHint.all fun hint => job.remediationHint = some hint) &&
  (query.excludeRemediationHints.isEmpty ||
    job.remediationHint.all fun hint => !query.excludeRemediationHints.contains hint) &&
  (!query.requireTraceId || job.traceId.any fun traceId => traceId ≠ "")

def JobQuery.sortKey (query : JobQuery) (job : Job) : Time :=
  match query.sort with
  | .createdAt => job.createdAt
  | .deadLetteredAt => job.completedAt.getD job.createdAt

/-- `JobRepository.list_jobs`. -/
def listJobs (jobs : List Job) (query : JobQuery) : List Job × Nat :=
  listing query.sortKey Job.id query.admits query.offset query.limit jobs

end IncidentPlatform.Repositories
