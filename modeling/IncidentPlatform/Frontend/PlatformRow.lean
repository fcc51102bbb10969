import IncidentPlatform.Frontend.Stations

namespace IncidentPlatform.Frontend

open IncidentPlatform.Models (Json)

/-! # The platform's row

What the platform can say about the world without taking the agent's word for it.
-/

/-- What the row asks of the browser: how a timestamp reads as a time and on the
local clock, and how a number prints with one digit. -/
structure Browser where
  getTime : DateParser
  clockHms : JsString → String
  toFixed : Option ℚ → String

inductive DemoPhase where
  | healthy
  | faultInjected
  | agentInvestigating
  | agentPlanning
  | awaitingApproval
  | agentRemediating
  | verifying
  | recovered
  | escalated
deriving DecidableEq

structure AgentRunStepRecord where
  seq : Int
  kind : String
  tool : Option String
  stamp : Option JsString

structure PlatformPhaseInput where
  audit : List AuditLog
  /-- The take this reading is about; the current one where it is left out. -/
  take : Option Take
  /-- The run's own `service_account_id`. -/
  runPrincipalId : Option String
  /-- The fault this take is about, latched by the page. -/
  faultAt : Option JsString
  metricKnown : Bool
  metricInsideThreshold : Bool
  metricBreachedSinceFault : Bool

structure PlatformRowInput extends PlatformPhaseInput where
  recoveredAt : Option JsString
  runSteps : Option (List AgentRunStepRecord)
  runPhaseHistory : Option (List AgentRunPhase)

/-- The Tier-1 action tools. -/
def actionTools : List String :=
  ["restart_consumer_group", "replay_dlq_by_ids", "replay_dlq_by_category", "replay_dlq_messages",
    "mark_dlq_permanent", "pause_dag", "invalidate_cache_key"]

structure ToolCall where
  tool : String
  args : Json
  stamp : JsString

/-- The `{tool_name, arguments}` an `*.tool_invoked` row carries. -/
def toolCall (row : AuditLog) : Option ToolCall :=
  match row.extra "tool_name" with
  | some (.string tool) => some {
      tool
      args := match row.extra "arguments" with
        | some (.object fields) => .object fields
        | some (.array items) => .array items
        | _ => .object []
      stamp := row.createdAt }
  | _ => none

def isAgentToolRow (row : AuditLog) : Bool := row.action = agentToolAction

/-- An `agent.tool_invoked` row the selected run made; with no run selected
nothing counts. -/
def isRunToolRow (row : AuditLog) (principalId : Option String) : Bool :=
  if isAgentToolRow row then
    match principalId with
    | none => false
    | some principalId => row.principalId = some principalId
  else false

/-- The test on a run's row that its call is an action. -/
def isActionCall (row : AuditLog) : Bool := (toolCall row).any fun call => actionTools.contains call.tool

def oldest (rows : List AuditLog) : Option AuditLog :=
  rows.foldl (fun best row => match best with
    | none => some row
    | some best => if row.createdAt < best.createdAt then some row else some best) none

structure PlatformPhaseReading where
  phase : DemoPhase
  faultAt : Option JsString
  resetAt : Option JsString
  metricKnown : Bool

/-- The latch and the rows, whichever is earlier, and neither one if it falls
outside the take. -/
def latchedFaultAt (latched derived : Option JsString) (take : Take) : Option JsString :=
  match ([latched, derived].filterMap id).filter take.within with
  | [] => none
  | first :: rest => some (rest.foldl (fun first second => if first < second then first else second) first)

def platformPhase (input : PlatformPhaseInput) : PlatformPhaseReading :=
  let take := input.take.getD (currentTake input.audit)
  let audit := rowsInTake input.audit take
  let reading (phase : DemoPhase) (faultAt : Option JsString) : PlatformPhaseReading :=
    { phase, faultAt, resetAt := take.startAt, metricKnown := input.metricKnown }
  match latchedFaultAt input.faultAt ((oldest (audit.filter isFaultRow)).map AuditLog.createdAt) take with
  | none => reading .healthy none
  | some faultAt =>
    if input.metricKnown && input.metricBreachedSinceFault && input.metricInsideThreshold then
      reading .recovered (some faultAt)
    else
      let sinceFault := audit.filter fun row => isRunToolRow row input.runPrincipalId && faultAt ≤ row.createdAt
      if sinceFault.any isActionCall then reading .agentRemediating (some faultAt)
      else if 0 < sinceFault.length then reading .agentInvestigating (some faultAt)
      else reading .faultInjected (some faultAt)

structure ActingReading where
  stamp : Option JsString
  note : Option String
  /-- Whether that first call was a read rather than an action. -/
  firstIsRead : Option Bool
  /-- "<action> fired after N reads", once an action has fired. -/
  fired : Option String

/-- When the run reported its first state. -/
def runStartedAt (dates : DateParser) (history : Option (List AgentRunPhase)) : Option JsString :=
  (history.getD []).foldl (fun first entry => match first with
    | none => some entry.stamp
    | some first => if (msBetween dates entry.stamp first).any fun gap => 0 < gap then some entry.stamp else some first) none

def readsPhrase (reads : Int) : String := toString reads ++ " read" ++ if reads = 1 then "" else "s"

def actingFromSteps (steps : List AgentRunStepRecord) : ActingReading :=
  let calls := (steps.filter fun step => step.kind = "read" || step.kind = "action").insertionSort
    fun first second => first.seq ≤ second.seq
  match (calls.find? fun step => step.stamp.isSome).bind AgentRunStepRecord.stamp with
  | none => { stamp := none, note := none, firstIsRead := none, fired := none }
  | some stamp =>
    let action := calls.find? fun step => step.kind = "action"
    let reads := (calls.filter fun step => step.kind = "read" && action.all fun action => step.seq < action.seq).length
    let fired := action.map fun action => action.tool.getD "a Tier-1 action" ++ " fired after " ++ readsPhrase reads
    { stamp := some stamp
      firstIsRead := some ((calls.find? fun step => step.stamp.isSome).any fun step => step.kind = "read")
      fired
      note := some (fired.getD (readsPhrase reads ++ ", no action yet")) }

/-- The station's line once the run has started. -/
def startedNote (browser : Browser) (startedAt : JsString) (calls : ActingReading) : String :=
  match calls.stamp with
  | none => "run started · no read yet"
  | some stamp =>
    let gap := (msBetween browser.getTime startedAt stamp).map fun gap => max 0 gap / 1000
    let parts :=
      ["run started " ++ browser.clockHms startedAt,
        (if calls.firstIsRead = some false then "first call" else "first read") ++ " +" ++ browser.toFixed gap ++ " s"]
    " · ".intercalate (parts ++ (calls.fired.filter (· ≠ "")).toList)

structure Cell (K : Type) where
  key : K
  label : String
  stamp : Option JsString
  reached : Bool
  note : Option String
  /-- Where the duration is measured from, when not `stamp`. -/
  durationFrom : Option JsString

def stationRow {K : Type} (dates : DateParser) (cells : List (Cell K)) : List (Station K) :=
  let lastReached := cells.zipIdx.foldl (fun found entry => if entry.1.reached then some entry.2 else found) none
  cells.zipIdx.map fun (cell, i) =>
    let nextAt := ((cells.drop (i + 1)).find? fun next => next.reached && next.stamp.isSome).bind Cell.stamp
    { key := cell.key
      label := cell.label
      stamp := if cell.reached then cell.stamp else none
      durationMs := match cell.durationFrom.or cell.stamp, nextAt with
        | some start, some nextAt => if cell.reached then some (msBetween dates start nextAt) else none
        | _, _ => none
      state := if some i = lastReached then .current else if cell.reached then .passed else .pending
      note := cell.note
      visits := if cell.reached then 1 else 0
      reportedAt := none }

inductive PlatformStationKey where
  | healthy
  | faultInjected
  | paged
  | agentActing
  | recovered
deriving DecidableEq

def PlatformStationKey.label : PlatformStationKey → String
  | .healthy => "healthy"
  | .faultInjected => "fault injected"
  | .paged => "paged"
  | .agentActing => "agent acting"
  | .recovered => "recovered"

/-- What the audit rows say of the run's calls since the fault. -/
def actingFromAudit (callsSinceFault : List AuditLog) : ActingReading :=
  let actions := callsSinceFault.filter isActionCall
  let reads : Int := callsSinceFault.length - actions.length
  let firstCall := oldest callsSinceFault
  let firedAudit := (oldest actions).map fun firstAction =>
    ((toolCall firstAction).map ToolCall.tool).getD "a Tier-1 action" ++ " fired after " ++ readsPhrase reads
  { stamp := firstCall.map AuditLog.createdAt
    -- `actions` holds the calls that are actions, so it has the first call where that is one
    firstIsRead := some (firstCall.any fun row => ! isActionCall row)
    fired := firedAudit
    note := firedAudit.or
      (if 0 < callsSinceFault.length then some (readsPhrase reads ++ ", no action yet") else none) }

def platformRow (browser : Browser) (input : PlatformRowInput) : List (Station PlatformStationKey) :=
  let reading := platformPhase input.toPlatformPhaseInput
  let take := input.take.getD (currentTake input.audit)
  let audit := rowsInTake input.audit take
  let faultAt := reading.faultAt
  let alert := alertInTake input.audit take
  let callsSinceFault := match faultAt with
    | none => []
    | some faultAt => audit.filter fun row => isRunToolRow row input.runPrincipalId && faultAt ≤ row.createdAt
  let fromAudit := actingFromAudit callsSinceFault
  let fromSteps := actingFromSteps (input.runSteps.getD [])
  let usable := fromSteps.stamp.any fun stamp => faultAt.any fun faultAt => faultAt ≤ stamp
  let calls := if usable then fromSteps else fromAudit
  let startedAt := (runStartedAt browser.getTime input.runPhaseHistory).filter fun started =>
    faultAt.any fun faultAt => (msBetween browser.getTime faultAt started).any fun gap => 0 ≤ gap
  let actingAt := startedAt.or calls.stamp
  let note := match startedAt with
    | none => calls.note
    | some startedAt => some (startedNote browser startedAt calls)
  let recoveredReached := reading.phase = .recovered
  stationRow browser.getTime [
    { key := .healthy
      label := PlatformStationKey.healthy.label
      stamp := reading.resetAt
      reached := true
      note := some (if reading.resetAt = none then "no reset boundary in view" else "since the reset")
      durationFrom := none },
    { key := .faultInjected
      label := PlatformStationKey.faultInjected.label
      stamp := faultAt
      reached := faultAt.isSome
      note := if faultAt = none then none else some "the lab’s own audit row"
      durationFrom := none },
    { key := .paged
      label := PlatformStationKey.paged.label
      stamp := alert.map RaisedAlert.stamp
      reached := alert.isSome
      note := match alert with
        | none => some "not paged"
        | some alert =>
          let words := " · ".intercalate ([alert.fingerprint, alert.summary].filterMap id)
          some (if words = "" then "the alert carried no fingerprint or summary" else words)
      durationFrom := none },
    { key := .agentActing
      label := PlatformStationKey.agentActing.label
      stamp := actingAt
      reached := actingAt.isSome
      note
      durationFrom := calls.stamp },
    { key := .recovered
      label := PlatformStationKey.recovered.label
      stamp := if recoveredReached then input.recoveredAt else none
      reached := recoveredReached
      note := if reading.metricKnown then none else some "the metric has no reading right now"
      durationFrom := none }]

end IncidentPlatform.Frontend
