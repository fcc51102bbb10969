import IncidentPlatform.Frontend.Stations

namespace IncidentPlatform.Frontend

open IncidentPlatform.Models (Json)

/-! # The agent's row

The run's own word for where it is, from `phase_history`.
-/

inductive AgentStationKey where
  | triage
  | investigating
  | planning
  | awaitingApproval
  | remediating
  | verifying
  | terminal
deriving DecidableEq

/-- `AGENT_ROW`, the stations in display order. -/
def agentRowKeys : List AgentStationKey :=
  [.triage, .investigating, .planning, .awaitingApproval, .remediating, .verifying, .terminal]

def AgentStationKey.label : AgentStationKey → String
  | .triage => "triage"
  | .investigating => "investigating"
  | .planning => "planning"
  | .awaitingApproval => "awaiting approval"
  | .remediating => "remediating"
  | .verifying => "verifying"
  | .terminal => "resolved | escalated | failed"

def AgentRunState.word : AgentRunState → String
  | .triage => "triage"
  | .investigating => "investigating"
  | .planning => "planning"
  | .awaitingApproval => "awaiting_approval"
  | .remediating => "remediating"
  | .verifying => "verifying"
  | .resolved => "resolved"
  | .escalated => "escalated"
  | .failed => "failed"
  | .unknown word => word

/-- `STATE_TO_STATION`: the three terminals share the last station. -/
def stateToStation : AgentRunState → Option AgentStationKey
  | .triage => some .triage
  | .investigating => some .investigating
  | .planning => some .planning
  | .awaitingApproval => some .awaitingApproval
  | .remediating => some .remediating
  | .verifying => some .verifying
  | .resolved | .escalated | .failed => some .terminal
  | .unknown _ => none

def terminalStates : List AgentRunState := [.resolved, .escalated, .failed]

def agentRunReportAction : String := "agent.run_reported"

/-- One state more in the arrivals, which keep the earliest row of each. -/
def withArrival (arrivals : List (String × JsString)) (state : String) (createdAt : JsString) : List (String × JsString) :=
  match arrivals.lookup state with
  | none => (state, createdAt) :: arrivals
  | some seen => if createdAt < seen then (state, createdAt) :: arrivals.filter (fun entry => entry.1 ≠ state) else arrivals

/-- When each state the run reported reached the platform. -/
def reportArrivals (audit : List AuditLog) (runId : Option String) : List (String × JsString) :=
  match runId with
  | none => []
  | some runId =>
    audit.foldl (fun arrivals row =>
      if row.action ≠ agentRunReportAction then arrivals
      else match row.extra "arguments" with
        | some (.object fields) => match fields.lookup "run_id", fields.lookup "state" with
          | some (.string named), some (.string state) =>
            if named = runId then withArrival arrivals state row.createdAt else arrivals
          | _, _ => arrivals
        | _ => arrivals) []

structure AgentRowOptions where
  arrivals : Option (List (String × JsString)) := none
  reveal : Option Int := none
  /-- `LATE_REPORT_MS`, how late a report has to be to show. -/
  lateAfterMs : ℚ := 5000

/-- The history by its times; the sort is stable. -/
def inTimeOrder (history : List AgentRunPhase) : List AgentRunPhase :=
  history.insertionSort fun first second => first.stamp ≤ second.stamp

/-- The station of one key in `agentRow`. -/
def agentStation (dates : DateParser) (run : Option AgentRun) (options : AgentRowOptions) (key : AgentStationKey) :
    Station AgentStationKey :=
  let history := inTimeOrder ((run.map AgentRun.phaseHistory).getD [])
  let currentStation := run.bind fun run => stateToStation run.state
  let terminalEntry := history.find? fun entry => terminalStates.contains entry.state
  let terminalLabel := (terminalEntry.map fun entry => entry.state.word).or
    ((run.filter fun run => terminalStates.contains run.state).map fun run => run.state.word)
  let visits := history.zipIdx.filter fun entry => stateToStation entry.1.state = some key
  let durations := visits.map fun entry =>
    let closesAt := ((history[entry.2 + 1]?).map AgentRunPhase.stamp).or (run.bind AgentRun.finishedAt)
    closesAt.map fun closesAt => msBetween dates entry.1.stamp closesAt
  let closed := durations.filterMap id
  let first := visits.head?.map Prod.fst
  let arrival := first.bind fun first => options.arrivals.bind (List.lookup first.state.word)
  { key
    label := if key = .terminal then terminalLabel.getD AgentStationKey.terminal.label else key.label
    stamp := first.map AgentRunPhase.stamp
    durationMs :=
      if 0 < closed.length then
        some (closed.foldl (fun total duration => do return (← total) + (← duration)) (some 0))
      else none
    state :=
      if currentStation = some key then .current
      else if 0 < visits.length then .passed
      else .pending
    note := if 1 < visits.length then some ("entered " ++ toString visits.length ++ " times") else none
    visits := visits.length
    reportedAt := match first, arrival with
      | some first, some arrival =>
        if (msBetween dates first.stamp arrival).any fun lateBy => options.lateAfterMs < lateBy then some arrival else none
      | _, _ => none }

def agentRow (dates : DateParser) (run : Option AgentRun) (options : AgentRowOptions) : List (Station AgentStationKey) :=
  revealStations (agentRowKeys.map (agentStation dates run options)) options.reveal

/-- The row that the page latches: the run of the poll, with the arrivals of its rows. -/
def agentReading (dates : DateParser) (run : AgentRun) (auditRows : List AuditLog) : List (Station AgentStationKey) :=
  agentRow dates (some run) { arrivals := some (reportArrivals auditRows (some run.id)) }

end IncidentPlatform.Frontend
