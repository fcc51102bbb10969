import IncidentPlatform.Mcp.ToolRequest
import IncidentPlatform.Repositories.Listings
import IncidentPlatform.Schemas.JobEvents

namespace IncidentPlatform.Mcp

open Models Repositories Schemas

/-! # The tools that read the audit log -/

/-- The rows that the two tools read.  Each row has an id of its own. -/
structure Records where
  jobs : List Job
  logs : List AuditLog
  jobsKeyed : (jobs.map Job.id).Nodup
  logsKeyed : (logs.map AuditLog.id).Nodup

/-- `hidden_audit_action_prefixes`. -/
def hiddenAuditActionPrefixes (principal : Caller) : List String :=
  (if "chaos:invoke" ∈ principal.scopes then [] else ["chaos.", "lab."]) ++
    if "agent_runs:write" ∈ principal.scopes then ["agent.run_reported"] else []

inductive PrincipalType where
  | user
  | serviceAccount
deriving DecidableEq

def PrincipalType.text : PrincipalType → String
  | .user => "user"
  | .serviceAccount => "service_account"

structure ListAuditEventsInput where
  action : Option String := none
  actionPrefix : Option String := none
  principalType : Option PrincipalType := none
  limit : Nat := 50
  positive : 1 ≤ limit := by decide
  bounded : limit ≤ 200 := by decide

structure AuditEventEntry where
  id : String
  action : String
  principalType : String
  principalId : Option String
  resourceType : Option String
  resourceId : Option String
  requestId : Option String
  createdAt : Time
  extraData : Option Json

structure ListAuditEventsOutput where
  total : Nat
  events : List AuditEventEntry

def auditEventEntry (row : AuditLog) : AuditEventEntry where
  id := uuidText row.id
  action := row.action
  principalType := row.principalType
  principalId := row.principalId.map uuidText
  resourceType := row.resourceType
  resourceId := row.resourceId
  requestId := row.requestId
  createdAt := row.createdAt
  extraData := row.extraData

/-- The query of `list_audit_events`: a prefix is ignored beside an action. -/
def ListAuditEventsInput.query (input : ListAuditEventsInput) (principal : Caller) : LogQuery where
  offset := 0
  limit := input.limit
  action := input.action
  actionPrefix := if input.action.isNone then input.actionPrefix else none
  excludeActionPrefixes := hiddenAuditActionPrefixes principal
  principalType := input.principalType.map PrincipalType.text
  tenantId := some principal.tenantId

def listAuditEvents (records : Records) (principal : Caller) (input : ListAuditEventsInput) :
    ListAuditEventsOutput :=
  let (rows, total) := listLogs records.logs (input.query principal)
  { total, events := rows.map auditEventEntry }

def maxTraceJobs : Nat := 50
def maxTraceAuditRows : Nat := 200

structure GetTraceInput where
  traceId : String
  includeAudit : Bool := true
  nonempty : 1 ≤ traceId.length := by decide
  bounded : traceId.length ≤ 255 := by decide

structure TracedJob where
  id : String
  type : String
  status : String
  userId : Option String
  retryCount : Nat
  errorMessage : Option String
  createdAt : Time
  updatedAt : Option Time

structure TracedAuditRow where
  action : String
  resourceType : Option String
  resourceId : Option String
  principalType : String
  createdAt : Time
  extraData : Option Json

structure GetTraceOutput where
  traceId : String
  jobs : List TracedJob
  auditEvents : List TracedAuditRow
  truncated : Bool
  totalJobs : Nat
  totalAuditEvents : Option Nat

def tracedJob (job : Job) : TracedJob where
  id := uuidText job.id
  type := job.type
  status := job.status.text
  userId := some (uuidText job.userId)
  retryCount := job.retryCount
  errorMessage := job.errorMessage
  createdAt := job.createdAt
  updatedAt := some job.updatedAt

def tracedAuditRow (row : AuditLog) : TracedAuditRow where
  action := row.action
  resourceType := row.resourceType
  resourceId := row.resourceId
  principalType := row.principalType
  createdAt := row.createdAt
  extraData := row.extraData

/-- The audit query of `get_trace`: the request id of a row is its trace. -/
def GetTraceInput.query (input : GetTraceInput) (principal : Caller) : LogQuery where
  offset := 0
  limit := maxTraceAuditRows
  requestId := some input.traceId
  tenantId := some principal.tenantId
  excludeActionPrefixes := hiddenAuditActionPrefixes principal

def getTrace (records : Records) (principal : Caller) (input : GetTraceInput) : GetTraceOutput :=
  let (jobs, totalJobs) := listJobs records.jobs
    { tenantId := principal.tenantId, offset := 0, limit := maxTraceJobs, traceId := some input.traceId }
  let (auditRows, totalAudit) : List TracedAuditRow × Option Nat :=
    if input.includeAudit then
      let (rows, total) := listLogs records.logs (input.query principal)
      (rows.map tracedAuditRow, some total)
    else ([], none)
  { traceId := input.traceId
    truncated := jobs.length < totalJobs || totalAudit.any fun total => auditRows.length < total
    totalJobs
    totalAuditEvents := totalAudit
    jobs := jobs.map tracedJob
    auditEvents := auditRows }

end IncidentPlatform.Mcp
