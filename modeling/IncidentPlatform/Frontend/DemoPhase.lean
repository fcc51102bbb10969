import IncidentPlatform.Models.Job
import Mathlib.Data.List.Lex
import Mathlib.Data.List.Sort
import Mathlib.Data.List.Dedup
import Mathlib.Order.Fin.Basic

namespace IncidentPlatform.Frontend

open IncidentPlatform.Models (Json)

/-! # The takes of the demo page

The page cuts the history it holds into takes, at the audit rows that an
environment reset writes.  Timestamps stay the strings the API sends.
-/

/-- A string, by the UTF-16 code units that comparison and `sort` go by. -/
abbrev JsString := List (Fin 65536)

instance instNeZeroCodeUnits : NeZero 65536 := ⟨by decide⟩

/-- The code units of a literal. -/
def jsString (text : String) : JsString :=
  text.toList.flatMap fun char =>
    if char.toNat < 65536 then [Fin.ofNat 65536 char.toNat]
    else [Fin.ofNat 65536 (55296 + (char.toNat - 65536) / 1024), Fin.ofNat 65536 (56320 + (char.toNat - 65536) % 1024)]

structure AuditLog where
  id : String
  principalId : Option String
  action : String
  extraData : Option (List (String × Json))
  createdAt : JsString

/-- `row.extra_data?.[key]`; nothing where that is `undefined`. -/
def AuditLog.extra (row : AuditLog) (key : String) : Option Json := row.extraData.bind (List.lookup key)

/-- The reportable states, and any word that this build does not know. -/
inductive AgentRunState where
  | triage
  | investigating
  | planning
  | awaitingApproval
  | remediating
  | verifying
  | resolved
  | escalated
  | failed
  | unknown (word : String)
deriving DecidableEq

structure AgentRunPhase where
  state : AgentRunState
  stamp : JsString

structure AgentRun where
  id : String
  state : AgentRunState
  phaseHistory : List AgentRunPhase
  startedAt : JsString
  finishedAt : Option JsString

structure Take where
  /-- The boundary that opened this take, or null when none is in view. -/
  startAt : Option JsString
  /-- The boundary that closed it, or null while it is the take now running. -/
  endAt : Option JsString
deriving DecidableEq

def labActionPrefix : String := "chaos."
def chaosInvokeAction : String := "chaos.tool_invoked"
def labProbeReasonField : String := "lab_probe_reason"
def agentToolAction : String := "agent.tool_invoked"
def worldResetAction : String := "lab.world_reset"
def alertRaisedAction : String := "alert.raised"

def isResetRow (row : AuditLog) : Bool := row.action = worldResetAction

/-- The lab injecting this take's fault.  An outcome that the row leaves out is
no failure. -/
def isFaultRow (row : AuditLog) : Bool :=
  if row.action ≠ chaosInvokeAction then false
  else if (row.extra labProbeReasonField).isSome then false
  else match row.extra "outcome" with
    | some (.string outcome) => outcome = "success"
    | _ => true

/-- `text.startsWith(start)`. -/
def startsWith (text start : String) : Bool := start.toList.isPrefixOf text.toList

def isLabRow (row : AuditLog) : Bool := startsWith row.action labActionPrefix

/-- A read the lab took under the agent's token. -/
def isLabProbeRow (row : AuditLog) : Bool := startsWith row.action "lab." && !isResetRow row

/-- A refusal, a hook that raised, or a row the lab labelled. -/
def isChaosProbeRow (row : AuditLog) : Bool := isLabRow row && !isFaultRow row

def isProbeRow (row : AuditLog) : Bool := isLabProbeRow row || isChaosProbeRow row

def isAlertRow (row : AuditLog) : Bool := row.action = alertRaisedAction

def newest (rows : List AuditLog) : Option AuditLog :=
  rows.foldl (fun best row => match best with
    | none => some row
    | some best => if best.createdAt < row.createdAt then some row else some best) none

/-- When the world was last reset; nothing where no boundary is in view. -/
def newestResetAt (audit : List AuditLog) : Option JsString := (newest (audit.filter isResetRow)).map AuditLog.createdAt

/-- Every boundary in view, oldest first, de-duplicated. -/
def takeBoundaries (audit : List AuditLog) : List JsString :=
  ((audit.filter isResetRow).map AuditLog.createdAt).dedup.insertionSort (· ≤ ·)

def currentTake (audit : List AuditLog) : Take where
  startAt := (takeBoundaries audit).getLast?
  endAt := none

/-- The take an instant falls in. -/
def takeAt (audit : List AuditLog) : Option JsString → Take
  | none => currentTake audit
  | some point => {
      startAt := (takeBoundaries audit).reverse.find? fun bound => bound < point
      endAt := (takeBoundaries audit).find? fun bound => point ≤ bound }

def takeOfRun (audit : List AuditLog) (run : Option AgentRun) : Take :=
  takeAt audit (run.map AgentRun.startedAt)

/-- The test that `rowsInTake` and `runsInTake` make of a timestamp. -/
def Take.within (take : Take) (stamp : JsString) : Bool :=
  (take.startAt.all fun startAt => startAt < stamp) && take.endAt.all fun endAt => stamp ≤ endAt

def rowsInTake (audit : List AuditLog) (take : Take) : List AuditLog :=
  audit.filter fun row => take.within row.createdAt

/-- Rows by their timestamp; the sort is stable. -/
def byCreatedAt (rows : List AuditLog) : List AuditLog :=
  rows.insertionSort fun first second => first.createdAt ≤ second.createdAt

def faultRowsInTake (audit : List AuditLog) (take : Take) : List AuditLog :=
  byCreatedAt ((rowsInTake audit take).filter isFaultRow)

def faultInTake (audit : List AuditLog) (take : Take) : Option JsString :=
  (faultRowsInTake audit take).head?.map AuditLog.createdAt

/-- What an `alert.raised` row says, for the station that draws it. -/
structure RaisedAlert where
  stamp : JsString
  fingerprint : Option String
  summary : Option String
  severity : Option String
  alertId : Option String

def raisedAlert (row : AuditLog) : RaisedAlert :=
  let text (key : String) : Option String := match row.extra key with
    | some (.string text) => if text ≠ "" then some text else none
    | _ => none
  { stamp := row.createdAt
    fingerprint := text "fingerprint"
    summary := text "summary"
    severity := text "severity"
    alertId := text "alert_id" }

/-- The alert that paged this take: its first. -/
def alertInTake (audit : List AuditLog) (take : Take) : Option RaisedAlert :=
  (byCreatedAt ((rowsInTake audit take).filter isAlertRow)).head?.map raisedAlert

/-- Newest first; the comparator puts the later of two runs that start together
before the other. -/
def newestFirst (runs : List AgentRun) : List AgentRun :=
  runs.insertionSort fun first second => second.startedAt < first.startedAt

def runsInTake (runs : List AgentRun) (take : Take) : List AgentRun :=
  newestFirst (runs.filter fun run => take.within run.startedAt)

/-- Every take in view, oldest first. -/
def takeSpans (audit : List AuditLog) : List Take :=
  match takeBoundaries audit with
  | [] => [{ startAt := none, endAt := none }]
  | first :: rest =>
      { startAt := none, endAt := some first } ::
        ((first :: rest).zip rest).map (fun pair => { startAt := some pair.1, endAt := some pair.2 }) ++
        [{ startAt := (first :: rest).getLast?, endAt := none }]

/-- One string per take. -/
def takeKey (take : Take) : JsString :=
  take.startAt.getD (jsString "open") ++ jsString "→" ++ take.endAt.getD (jsString "now")

/-- A take has something to show: the lab's own fault row, or a run. -/
def takeHasWork (take : Take) (audit : List AuditLog) (runs : List AgentRun) : Bool :=
  (faultInTake audit take).isSome || 0 < (runsInTake runs take).length

/-- Why the page is showing the take it is showing. -/
inductive TakeChoice where
  | requested
  | currentRun
  | currentEmpty
  | held
deriving DecidableEq

structure TakeSelection where
  take : Take
  run : Option AgentRun
  /-- Every run in view, newest first. -/
  runs : List AgentRun
  /-- The runs of the selected take, newest first. -/
  takeRuns : List AgentRun
  why : TakeChoice
  current : Bool
  cleaningUpSince : Option JsString

/-- The take that `selectTake` falls back to, with no run pinned. -/
def newestTake (runs : List AgentRun) (audit : List AuditLog) : TakeSelection :=
  let current := currentTake audit
  let running := {
    take := current
    run := (runsInTake runs current).head?
    runs
    takeRuns := runsInTake runs current
    why := if (runsInTake runs current).head?.isNone then .currentEmpty else .currentRun
    current := true
    cleaningUpSince := none }
  match (takeSpans audit).reverse.find? fun span => takeHasWork span audit runs with
  | none => running
  | some held =>
      if takeKey held ≠ takeKey current then {
        take := held
        run := (runsInTake runs held).head?
        runs
        takeRuns := runsInTake runs held
        why := .held
        current := false
        cleaningUpSince := current.startAt }
      else running

/-- Which take, and therefore which run, the page reads.  A wanted run that the
page does not have falls through to the default. -/
def selectTake (runs : List AgentRun) (audit : List AuditLog) (wanted : Option String) : TakeSelection :=
  let runs := newestFirst runs
  let wanted := wanted.getD ""
  match if wanted ≠ "" then runs.find? fun run => run.id = wanted else none with
  | some found => {
      take := takeOfRun audit (some found)
      run := some found
      runs
      takeRuns := runsInTake runs (takeOfRun audit (some found))
      why := .requested
      current := takeKey (takeOfRun audit (some found)) = takeKey (currentTake audit)
      cleaningUpSince := none }
  | none => newestTake runs audit

end IncidentPlatform.Frontend
