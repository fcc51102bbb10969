import IncidentPlatform.Mcp.AuditTools

namespace IncidentPlatform.Properties

open Mcp Models Repositories Storage

/-! # What the audit tools withhold -/

/-- The row is of the principal's tenant, and of no stream that is hidden from it. -/
def Shown (principal : Caller) (row : AuditLog) : Prop :=
  row.tenantId = principal.tenantId ∧
    ∀ hidden ∈ hiddenAuditActionPrefixes principal, ¬ hidden.toList <+: row.action.toList

/-- The records differ in no job, and in no audit row that is shown. -/
structure SameShown (principal : Caller) (records other : Records) : Prop where
  jobs : ∀ job, job ∈ records.jobs ↔ job ∈ other.jobs
  logs : ∀ row, Shown principal row → (row ∈ records.logs ↔ row ∈ other.logs)

section Streams

variable {principal : Caller} {records other : Records} {query : LogQuery} {row : AuditLog}

theorem hidden_plain {stem : String} (hidden : stem ∈ hiddenAuditActionPrefixes principal) :
    ∀ symbol ∈ stem.toList, symbol ≠ '\\' ∧ symbol ≠ '%' := by
  have named : stem = "chaos." ∨ stem = "lab." ∨ stem = "agent.run_reported" := by
    unfold hiddenAuditActionPrefixes at hidden
    split at hidden <;> split at hidden <;> simp at hidden <;> tauto
  obtain rfl | rfl | rfl := named <;> simp

theorem shown_of_admits (tenant : query.tenantId = some principal.tenantId)
    (excluded : query.excludeActionPrefixes = hiddenAuditActionPrefixes principal)
    (admitted : query.admits row = true) : Shown principal row := by
  simp only [LogQuery.admits, Bool.and_eq_true, tenant, excluded, List.all_eq_true, Option.all_some,
    decide_eq_true_eq, Bool.not_eq_true'] at admitted
  refine ⟨admitted.1.2, fun hidden listed starts => ?_⟩
  have alike := likePrefix_of_prefix (hidden_plain listed) starts
  exact absurd alike (Bool.not_eq_true _ ▸ admitted.1.1.1.2 hidden listed)

theorem listLogs_congr (same : SameShown principal records other)
    (tenant : query.tenantId = some principal.tenantId)
    (excluded : query.excludeActionPrefixes = hiddenAuditActionPrefixes principal) :
    listLogs records.logs query = listLogs other.logs query :=
  listing_congr records.logsKeyed other.logsKeyed fun row admitted =>
    same.logs row (shown_of_admits tenant excluded admitted)

theorem listJobs_congr {jobQuery : JobQuery} (same : SameShown principal records other) :
    listJobs records.jobs jobQuery = listJobs other.jobs jobQuery :=
  listing_congr records.jobsKeyed other.jobsKeyed fun job _ => same.jobs job

/-- No output of the two tools depends on the rows of another tenant or of a
hidden stream. -/
theorem withheld_streams_invisible (same : SameShown principal records other) :
    (∀ input, listAuditEvents records principal input = listAuditEvents other principal input) ∧
      ∀ input, getTrace records principal input = getTrace other principal input := by
  constructor
  · intro input
    have logs := @listLogs_congr principal records other (input.query principal) same rfl rfl
    simp only [listAuditEvents, logs]
  · intro input
    have logs := @listLogs_congr principal records other (input.query principal) same rfl rfl
    simp only [getTrace, logs, listJobs_congr same]

def responder : Caller where
  tenantId := 1
  principal := { kind := "service_account", id := 2 }
  scopes := ["incidents:read", "agent_runs:write"]

def drillRow : AuditLog where
  id := 3
  tenantId := 1
  userId := none
  principalType := "service_account"
  principalId := some 4
  jobId := none
  action := "chaos.tool_invoked"
  resourceType := none
  resourceId := none
  requestId := some "trace"
  extraData := none
  createdAt := 5

def quietRecords : Records := ⟨[], [], List.nodup_nil, List.nodup_nil⟩
def drilledRecords : Records := ⟨[], [drillRow], List.nodup_nil, List.nodup_singleton _⟩

theorem withheld_streams_invisible_in_drill :
    (∀ input, listAuditEvents quietRecords responder input = listAuditEvents drilledRecords responder input) ∧
      ∀ input, getTrace quietRecords responder input = getTrace drilledRecords responder input := by
  refine withheld_streams_invisible ⟨fun _ => Iff.rfl, fun row shown => ?_⟩
  have absent : row ∉ [drillRow] := by
    intro held
    rw [List.mem_singleton.mp held] at shown
    exact shown.2 "chaos." (by decide) (by decide)
  exact iff_of_false List.not_mem_nil absent

end Streams

end IncidentPlatform.Properties
