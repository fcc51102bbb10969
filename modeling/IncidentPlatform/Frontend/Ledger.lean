import IncidentPlatform.Frontend.AgentRow
import IncidentPlatform.Frontend.PlatformRow
import Mathlib.Data.List.ModifyLast

namespace IncidentPlatform.Frontend

/-! # The action ledger

The run's steps and phases and the audit rows in one list, newest first.
-/

inductive PrincipalType where
  | user
  | serviceAccount
deriving DecidableEq

/-- An audit row with the kind of principal that wrote it. -/
structure AuditRow extends AuditLog where
  principalType : PrincipalType

inductive LedgerKind where
  | step
  | agentAudit
  | agentReport
  | lab
  | alert
  /-- A read the lab took under the agent's token. -/
  | labProbe
  /-- A tool row by a principal that is not this run's. -/
  | otherPrincipal
  | reset
  | jobEvent
  | human
  /-- One `phase_history` entry, drawn as a divider. -/
  | phase
deriving DecidableEq

structure LedgerEntry where
  id : String
  stamp : JsString
  kind : LedgerKind
  step : Option AgentRunStepRecord
  row : Option AuditRow
  phase : Option AgentRunPhase

structure LedgerInput where
  /-- The selected run's steps. -/
  steps : List AgentRunStepRecord
  /-- The audit rows the page holds. -/
  audit : List AuditRow
  showJobEvents : Option Bool
  /-- The run's own `service_account_id`. -/
  runPrincipalId : Option String
  showHiddenReads : Option Bool
  oldestFirst : Option Bool
  phaseHistory : Option (List AgentRunPhase)

/-- `Date.parse` and `new Date(time).toISOString()` of the browser. -/
structure DateTexts where
  parse : DateParser
  toIsoString : ℚ → JsString

def jobEventPrefix : String := "event."

structure LedgerExclusions where
  labProbe : Nat
  otherPrincipal : Nat
  total : Nat

/-- An `agent.tool_invoked` row this run did not make; every one while no run is
selected. -/
def isForeignToolRow (row : AuditRow) (runPrincipalId : Option String) : Bool :=
  if row.action ≠ agentToolAction then false
  else match runPrincipalId with
    | none => true
    | some principal => row.principalId ≠ some principal

/-- One row of the loop that counts the probes and the foreign tool rows. -/
def countExclusion (runPrincipalId : Option String) (counts : Nat × Nat) (row : AuditRow) : Nat × Nat :=
  if isResetRow row.toAuditLog then counts
  else if isProbeRow row.toAuditLog then (counts.1 + 1, counts.2)
  else if isForeignToolRow row runPrincipalId then (counts.1, counts.2 + 1)
  else counts

def ledgerExclusions (audit : List AuditRow) (runPrincipalId : Option String) : LedgerExclusions :=
  let counts := audit.foldl (countExclusion runPrincipalId) (0, 0)
  { labProbe := counts.1, otherPrincipal := counts.2, total := counts.1 + counts.2 }

structure LedgerOptions where
  haveSteps : Bool
  showJobEvents : Bool
  showHiddenReads : Bool
  runPrincipalId : Option String

def auditLedgerKind (row : AuditRow) (options : LedgerOptions) : Option LedgerKind :=
  if isResetRow row.toAuditLog then some .reset
  else if isFaultRow row.toAuditLog then some .lab
  else if isAlertRow row.toAuditLog then some .alert
  else if isProbeRow row.toAuditLog then if options.showHiddenReads then some .labProbe else none
  else if startsWith row.action jobEventPrefix then if options.showJobEvents then some .jobEvent else none
  else if row.action = agentRunReportAction then if options.haveSteps then none else some .agentReport
  else if row.action = agentToolAction then
    if isForeignToolRow row options.runPrincipalId then
      if options.showHiddenReads then some .otherPrincipal else none
    else if options.haveSteps then none else some .agentAudit
  else if row.principalType = .user then some .human
  else none

def LedgerInput.options (input : LedgerInput) : LedgerOptions where
  haveSteps := 0 < input.steps.length
  showJobEvents := input.showJobEvents = some true
  showHiddenReads := input.showHiddenReads = some true
  runPrincipalId := input.runPrincipalId

/-- One step of the loop that carries the last known time along: the time so far,
and the times by `seq`, the latest setting first. -/
def carryTime (state : Option JsString × List (Int × JsString)) (step : AgentRunStepRecord) :
    Option JsString × List (Int × JsString) :=
  match step.stamp.or state.1 with
  | some stamp => (some stamp, (step.seq, stamp) :: state.2)
  | none => (none, state.2)

/-- The times by `seq`: a step without one takes that of the step before it. -/
def stepTimes (steps : List AgentRunStepRecord) : List (Int × JsString) :=
  ((steps.insertionSort fun first second => first.seq ≤ second.seq).foldl carryTime (none, [])).2

def stepEntry (times : List (Int × JsString)) (step : AgentRunStepRecord) : LedgerEntry where
  id := "step-" ++ toString step.seq
  stamp := (step.stamp.or (times.lookup step.seq)).getD []
  kind := .step
  step := some step
  row := none
  phase := none

def rowEntry (options : LedgerOptions) (row : AuditRow) : Option LedgerEntry :=
  (auditLedgerKind row options).map fun kind => {
    id := "row-" ++ row.id
    stamp := row.createdAt
    kind
    step := none
    row := some row
    phase := none }

/-- A `+00:00` time as the `Z` form the steps use. -/
def utcIso (dates : DateTexts) (stamp : JsString) : JsString :=
  if (jsString "Z").isSuffixOf stamp then stamp
  else if (jsString "+00:00").isSuffixOf stamp then stamp.take (stamp.length - 6) ++ jsString "Z"
  else match dates.parse stamp with
    | none => stamp
    | some parsed => dates.toIsoString parsed

def phaseEntry (dates : DateTexts) (phase : AgentRunPhase × Nat) : LedgerEntry where
  id := "phase-" ++ toString phase.2
  stamp := utcIso dates phase.1.stamp
  kind := .phase
  step := none
  row := none
  phase := some phase.1

/-- The entries in the order they are pushed. -/
def ledgerEntries (dates : DateTexts) (input : LedgerInput) : List LedgerEntry :=
  input.steps.map (stepEntry (stepTimes input.steps)) ++
    input.audit.filterMap (rowEntry input.options) ++
    (input.phaseHistory.getD []).zipIdx.map (phaseEntry dates)

/-- The comparator.  A transition opens its state, so it counts as the older of
two at one instant; then the later step is the newer. -/
def compareEntries (first second : LedgerEntry) : Int :=
  if first.stamp ≠ second.stamp then if first.stamp < second.stamp then 1 else -1
  else if decide (first.kind = .phase) ≠ decide (second.kind = .phase) then
    if first.kind = .phase then 1 else -1
  else (second.step.elim 0 AgentRunStepRecord.seq) - (first.step.elim 0 AgentRunStepRecord.seq)

/-- The sort is stable. -/
def newestEntriesFirst (entries : List LedgerEntry) : List LedgerEntry :=
  entries.insertionSort fun first second => compareEntries first second ≤ 0

def buildLedger (dates : DateTexts) (input : LedgerInput) : List LedgerEntry :=
  let newestFirst := newestEntriesFirst (ledgerEntries dates input)
  if input.oldestFirst = some true then newestFirst.reverse else newestFirst

/-- A divider and its rows, oldest first; no divider for what precedes them all. -/
structure LedgerSection where
  head : Option LedgerEntry
  rows : List LedgerEntry

def isPhaseEntry (entry : LedgerEntry) : Bool := entry.kind = .phase

def addEntry (sections : List LedgerSection) (entry : LedgerEntry) : List LedgerSection :=
  if isPhaseEntry entry then sections ++ [{ head := some entry, rows := [] }]
  else sections.modifyLast fun last => { last with rows := last.rows ++ [entry] }

/-- Each divider heads the rows of its own state. -/
def ledgerDisplayOrder (newestFirst : List LedgerEntry) : List LedgerEntry :=
  if newestFirst.any isPhaseEntry then
    (newestFirst.reverse.foldl addEntry [{ head := none, rows := [] }]).reverse.flatMap fun one =>
      one.head.toList ++ one.rows.reverse
  else newestFirst

end IncidentPlatform.Frontend
