import IncidentPlatform.Concurrency.Machine
import IncidentPlatform.Core.ConsumerLag
import IncidentPlatform.Services.AlertRules
import IncidentPlatform.Storage.Table
import IncidentPlatform.Storage.UniqueIndex

namespace IncidentPlatform.Services

open Concurrency IncidentPlatform.Core Models Python Storage Text

/-! # Alert episodes

What the replicas do to `alerts` and `audit_logs` while they evaluate the alert
rules: `_raise_episode` and `_resolve_episode`, one SQL statement at a time.
-/

def defaultTenantId : Uuid := 0xd3fa17de7a17de7a17de7a17de7a17de

def consumerStalledFingerprint : String := "consumer_stalled"
def consumerLagAlertSource : String := "kafka:consumer_lag"
def alertRaisedAction : String := "alert.raised"
def alertResolvedAction : String := "alert.resolved"
def alertResourceType : String := "alert"
def dedupNamespace : String := "rule"

def liveRefreshedGroup : String := "worker-dispatcher"
def liveRefreshedGroups : List String := [liveRefreshedGroup, "dependency-resolver"]
def pagedLagGroups : List String := [liveRefreshedGroup]

/-- `_measured_groups`. -/
def measuredGroups : List String := pagedLagGroups.filter (· ∈ liveRefreshedGroups)

structure LagPayload where
  fingerprint : String
  severity : String
  source : String
  consumerGroup : String
  group : String
  lag : Int
  measuredAt : String
  threshold : Int
  summary : String

/-- `Alert.extra_data` of a page. -/
inductive RulePayload where
  | lag (payload : LagPayload)
  | dlqDepth (payload : DlqPayload)

/-- `_Episode`, of either rule. -/
structure RuleEpisode where
  fingerprint : String
  subject : String
  tenantId : Uuid
  source : String
  title : String
  summary : String
  payload : RulePayload

def Episode.forRule (episode : Episode) : RuleEpisode where
  fingerprint := episode.fingerprint
  subject := episode.subject
  tenantId := episode.tenantId
  source := episode.source
  title := episode.title
  summary := episode.summary
  payload := .dlqDepth episode.payload

/-- `isoformat` of an aware reading, with its offset. -/
def awareIsoFormat (stamp : AwareDateTime) : String :=
  let offset := stamp.offset.natAbs
  let seconds := offset / 1000000
  let text := dateText stamp.instant.date ++ 84 :: clockText stamp.instant ++
    (if stamp.offset < 0 then 45 else 43) :: (fixedWidth digitCode 2 (seconds / 3600) ++
      58 :: fixedWidth digitCode 2 (seconds / 60 % 60)) ++
    (if seconds % 60 = 0 ∧ offset % 1000000 = 0 then []
      else 58 :: fixedWidth digitCode 2 (seconds % 60) ++ fractionText (offset % 1000000))
  String.ofList (text.map Char.ofNat)

def lagSummary (group : String) (sample : LagSampleReading) (threshold : Int) : String :=
  group ++ " is " ++ toString sample.lag ++ " messages behind (threshold " ++ toString threshold ++ "); " ++
    "the group holds its assignment and keeps reporting, so the backlog is real. Measured at " ++
    awareIsoFormat sample.measuredAt ++ "."

def lagEpisode (group : String) (sample : LagSampleReading) (threshold : Int) : RuleEpisode where
  fingerprint := consumerStalledFingerprint
  subject := group
  tenantId := defaultTenantId
  source := consumerLagAlertSource
  title := "Consumer lag on " ++ group ++ ": " ++ toString sample.lag ++ " messages behind"
  summary := lagSummary group sample threshold
  payload := .lag {
    fingerprint := consumerStalledFingerprint
    severity := severityCritical
    source := consumerLagAlertSource
    consumerGroup := group
    group
    lag := sample.lag
    measuredAt := awareIsoFormat sample.measuredAt
    threshold
    summary := lagSummary group sample threshold }

/-- One (tenant, fingerprint, subject), whose episodes are numbered. -/
structure Series where
  tenantId : Uuid
  fingerprint : String
  subject : String
deriving DecidableEq

def RuleEpisode.series (episode : RuleEpisode) : Series := ⟨episode.tenantId, episode.fingerprint, episode.subject⟩

/-- The series that the two rules raise. -/
def Series.OfRules (series : Series) : Prop :=
  series.tenantId = defaultTenantId ∧ series.fingerprint = consumerStalledFingerprint ∧ series.subject ∈ measuredGroups ∨
    series.fingerprint = dlqDepthFingerprint ∧ series.subject = dlqSubject

instance (series : Series) : Decidable series.OfRules := inferInstanceAs (Decidable (_ ∨ _))

inductive RuleCall where
  | raise (episode : RuleEpisode)
  | resolve (series : Series) (reason : String)

def RuleCall.series : RuleCall → Series
  | .raise episode => episode.series
  | .resolve series _ => series

/-- `_evaluate_consumer_lag` on one group with these recent samples.  Without a
measurement it asks for nothing. -/
def lagCall (threshold : Int) (group : String) : List LagSampleReading → Option RuleCall
  | [] => none
  | sample :: _ =>
      if threshold ≤ sample.lag then some (.raise (lagEpisode group sample threshold))
      else some (.resolve ⟨defaultTenantId, consumerStalledFingerprint, group⟩
        ("lag measured at " ++ toString sample.lag ++ ", below the threshold of " ++ toString threshold))

/-- `_evaluate_consumer_lag`. -/
def lagCalls (threshold : Int) (recentSamples : String → List LagSampleReading) : List RuleCall :=
  measuredGroups.filterMap fun group => lagCall threshold group (recentSamples group)

/-- `_evaluate_dlq_depth`, with the tenants that have an open episode. -/
def dlqCalls (jobs : List Job) (threshold : Int) (measuredAt : Time) (withOpenEpisode : List Uuid) : List RuleCall :=
  let breaching := dlqEpisodes jobs threshold measuredAt
  breaching.map (fun episode => .raise episode.forRule) ++
    (withOpenEpisode.filter fun tenantId => tenantId ∉ breaching.map Episode.tenantId).map fun tenantId =>
      .resolve ⟨tenantId, dlqDepthFingerprint, dlqSubject⟩
        ("depth " ++ toString (deadLetters jobs tenantId).length ++ ", below the threshold of " ++ toString threshold)

/-- A row of `alerts`. -/
structure Alert where
  id : Uuid
  tenantId : Uuid
  severity : String
  source : String
  title : String
  description : Option String
  firedAt : Time
  resolvedAt : Option Time := none
  extraData : Option RulePayload
  dedupKey : Option String

/-- The columns of `uq_alerts_tenant_dedup_key`. -/
def Alert.index (alert : Alert) : Option (Uuid × String) := alert.dedupKey.map fun key => (alert.tenantId, key)

def Alert.isOpen (alert : Alert) : Bool := alert.resolvedAt.isNone

def Alert.resolve (alert : Alert) (now : Time) : Alert := { alert with resolvedAt := some now }

def dedupPrefix (fingerprint subject : String) : String :=
  dedupNamespace ++ ":" ++ fingerprint ++ ":" ++ subject ++ ":"

def dedupKey (fingerprint subject : String) (ordinal : Nat) : String :=
  dedupPrefix fingerprint subject ++ toString ordinal

def Series.key (series : Series) (ordinal : Nat) : String := dedupKey series.fingerprint series.subject ordinal

/-- `dedup_key.startswith(stem, autoescape=True)`, which tests for the stem itself. -/
def keyStartsWith (stem : String) (alert : Alert) : Bool :=
  alert.dedupKey.any fun key => stem.toList.isPrefixOf key.toList

/-- The rows that the bookkeeping of a series reads. -/
def Series.matches (series : Series) (alert : Alert) : Bool :=
  alert.tenantId = series.tenantId && keyStartsWith (dedupPrefix series.fingerprint series.subject) alert

def Series.episodes (series : Series) (alerts : List Alert) : List Alert := alerts.filter series.matches

/-- `_open_alert`: the newest open one, whose id is the answer; `none` where the
answer is not one that the database can give. -/
def openAlert (alerts : List Alert) (series : Series) (answer : Option Uuid) : Option (Option Alert) :=
  let unresolved := (series.episodes alerts).filter Alert.isOpen
  match answer with
  | none => if unresolved.isEmpty then some none else none
  | some id =>
      match unresolved.find? fun alert => alert.id = id with
      | some alert => if unresolved.all fun other => other.firedAt ≤ alert.firedAt then some (some alert) else none
      | none => none

/-- The series that `resolve_open_episodes` reads off a key: the parts between
the colons, of which the subject may have several. -/
def seriesOfKey (tenantId : Uuid) (key : String) : Option Series :=
  let parts := key.toList.splitOn ':'
  if parts.length < 4 then none
  else some ⟨tenantId, String.ofList (parts.getD 1 []), String.ofList ([':'].intercalate (parts.drop 2).dropLast)⟩

/-- The series that `resolve_open_episodes` closes. -/
def openSeries (alerts : List Alert) : List Series :=
  (alerts.filter fun alert => alert.isOpen && keyStartsWith (dedupNamespace ++ ":") alert).filterMap fun alert =>
    alert.dedupKey.bind (seriesOfKey alert.tenantId)

/-- `_episodes_so_far`. -/
def episodesSoFar (alerts : List Alert) (series : Series) : Nat := (series.episodes alerts).length

def allowedSeverities : List String := ["low", "info", "warning", "critical"]

/-- The row that `create_alert` inserts for an episode. -/
def RuleEpisode.alert (episode : RuleEpisode) (id : Uuid) (firedAt : Time) (ordinal : Nat) : Alert where
  id
  tenantId := episode.tenantId
  severity := severityCritical
  source := episode.source
  title := episode.title
  description := some episode.summary
  firedAt
  extraData := some episode.payload
  dedupKey := some (episode.series.key ordinal)

/-- `_record_transition`. -/
def recordTransition (action : String) (alert : Alert) (series : Series) (summary : String)
    (extra : List (String × Json)) : AuditEntry where
  action
  tenantId := alert.tenantId
  principalType := "service_account"
  resourceType := some alertResourceType
  resourceId := some (toString alert.id)
  extraData := .object ([
    ("alert_id", .string (toString alert.id)),
    ("fingerprint", .string series.fingerprint),
    ("subject", .string series.subject),
    ("source", .string alert.source),
    ("severity", .string alert.severity),
    ("summary", .string summary),
    ("dedup_key", alert.dedupKey.elim .null .string)] ++ extra)

def raisedEntry (episode : RuleEpisode) (alert : Alert) : AuditEntry :=
  recordTransition alertRaisedAction alert episode.series episode.summary []

def resolvedEntry (series : Series) (reason : String) (alert : Alert) : AuditEntry :=
  recordTransition alertResolvedAction alert series (series.subject ++ ": " ++ reason)
    [("resolved_reason", .string reason)]

/-- Where the evaluation of one replica is. -/
inductive Evaluation where
  | idle
  /-- `_raise_episode`, with its transaction open since `startedAt`. -/
  | raising (episode : RuleEpisode) (startedAt : Time)
  | foundNoneOpen (episode : RuleEpisode) (startedAt : Time)
  | counted (episode : RuleEpisode) (startedAt : Time) (ordinal : Nat)
  | inserted (episode : RuleEpisode) (alert : Alert)
  | raised (episode : RuleEpisode) (alert : Alert)
  /-- The page is committed, its webhook still queued. -/
  | paging (alert : Alert)
  /-- `_resolve_episode`. -/
  | resolving (series : Series) (reason : String)
  | found (series : Series) (reason : String) (alert : Alert)
  | stamped (series : Series) (reason : String) (alert : Alert) (resolvedAt : Time)
  | resolved (series : Series) (reason : String) (alert : Alert) (resolvedAt : Time)

structure Evaluators where
  alerts : IndexedRows Uuid Alert
  audit : Journal AuditEntry
  phase : Pid → Evaluation
  /-- The webhooks sent, oldest first. -/
  delivered : List Uuid
  /-- How many alert ids have been drawn. -/
  drawn : Nat

namespace Evaluators

def initial : Evaluators where
  alerts := .empty
  audit := .empty
  phase := fun _ => .idle
  delivered := []
  drawn := 0

inductive Action where
  | begin (pid : Pid) (call : RuleCall) (now : Time)
  | selectOpen (pid : Pid) (answer : Option Uuid)
  | count (pid : Pid)
  | insert (pid : Pid)
  | stamp (pid : Pid) (now : Time)
  | record (pid : Pid)
  | commit (pid : Pid)
  | deliver (pid : Pid)
  /-- The transaction fails, or the replica dies. -/
  | abort (pid : Pid)
  /-- Another producer commits an alert. -/
  | other (alert : Alert)

variable (evaluators : Evaluators) (pid : Pid)

def enter (phase : Evaluation) : Evaluators :=
  { evaluators with phase := Function.update evaluators.phase pid phase }

@[simp] theorem enter_self {phase : Evaluation} : (evaluators.enter pid phase).phase pid = phase :=
  Function.update_self ..

theorem enter_other {phase : Evaluation} {other : Pid} (different : other ≠ pid) :
    (evaluators.enter pid phase).phase other = evaluators.phase other :=
  Function.update_of_ne different ..

def beginCall (call : RuleCall) (now : Time) : Option Evaluators :=
  match evaluators.phase pid with
  | .idle =>
      if call.series.OfRules then
        match call with
        | .raise episode => some (evaluators.enter pid (.raising episode now))
        | .resolve series reason => some (evaluators.enter pid (.resolving series reason))
      else none
  | _ => none

def selectOpen (answer : Option Uuid) : Option Evaluators :=
  match evaluators.phase pid with
  | .raising episode startedAt =>
      match openAlert evaluators.alerts.committed episode.series answer with
      | some none => some (evaluators.enter pid (.foundNoneOpen episode startedAt))
      | some (some _) => some (evaluators.enter pid .idle)
      | none => none
  | .resolving series reason =>
      match openAlert evaluators.alerts.committed series answer with
      | some none => some (evaluators.enter pid .idle)
      | some (some alert) => some (evaluators.enter pid (.found series reason alert))
      | none => none
  | _ => none

def count : Option Evaluators :=
  match evaluators.phase pid with
  | .foundNoneOpen episode startedAt => some (evaluators.enter pid
      (.counted episode startedAt (episodesSoFar evaluators.alerts.committed episode.series)))
  | _ => none

/-- `create_alert` up to its flush; its refusals and an `IntegrityError` end the
transaction. -/
def insert : Option Evaluators :=
  match evaluators.phase pid with
  | .counted episode startedAt ordinal =>
      let alert := episode.alert evaluators.drawn startedAt ordinal
      if alert.severity ∉ allowedSeverities ∨ alert.title = "" then some (evaluators.enter pid .idle)
      else
        match evaluators.alerts.insert pid Alert.index alert with
        | .waits => none
        | .conflicts => some (evaluators.enter pid .idle)
        | .inserts alerts => some { evaluators.enter pid (.inserted episode alert) with
            alerts
            drawn := evaluators.drawn + 1 }
  | _ => none

def stamp (now : Time) : Option Evaluators :=
  match evaluators.phase pid with
  | .found series reason alert =>
      match evaluators.alerts.update pid alert.id fun row => row.resolve now with
      | some alerts => some { evaluators.enter pid (.stamped series reason alert now) with alerts }
      | none => none
  | _ => none

def record : Option Evaluators :=
  match evaluators.phase pid with
  | .inserted episode alert => some { evaluators.enter pid (.raised episode alert) with
      audit := evaluators.audit.append pid [raisedEntry episode alert] }
  | .stamped series reason alert resolvedAt =>
      some { evaluators.enter pid (.resolved series reason alert resolvedAt) with
        audit := evaluators.audit.append pid [resolvedEntry series reason alert] }
  | _ => none

/-- The tables after the transaction of `pid` has committed. -/
def publish : Evaluators :=
  { evaluators with
    alerts := evaluators.alerts.commit pid Alert.id
    audit := evaluators.audit.commit pid }

def commit : Option Evaluators :=
  match evaluators.phase pid with
  | .raised _ alert => some ((evaluators.publish pid).enter pid (.paging alert))
  | .resolved .. => some ((evaluators.publish pid).enter pid .idle)
  | _ => none

/-- `run_post_commit`. -/
def deliver : Option Evaluators :=
  match evaluators.phase pid with
  | .paging alert => some { evaluators.enter pid .idle with delivered := evaluators.delivered ++ [alert.id] }
  | _ => none

def abort : Option Evaluators :=
  match evaluators.phase pid with
  | .idle => none
  | _ => some { evaluators.enter pid .idle with
      alerts := evaluators.alerts.rollback pid
      audit := evaluators.audit.rollback pid }

/-- The other producers use no key of the rules. -/
def other (alert : Alert) : Option Evaluators :=
  if keyStartsWith (dedupNamespace ++ ":") alert ∨ alert.id ≠ evaluators.drawn then none
  else (evaluators.alerts.store Alert.index alert).map fun alerts =>
    { evaluators with alerts, drawn := evaluators.drawn + 1 }

def step : Action → Evaluators → Option Evaluators
  | .begin pid call now, evaluators => evaluators.beginCall pid call now
  | .selectOpen pid answer, evaluators => evaluators.selectOpen pid answer
  | .count pid, evaluators => evaluators.count pid
  | .insert pid, evaluators => evaluators.insert pid
  | .stamp pid now, evaluators => evaluators.stamp pid now
  | .record pid, evaluators => evaluators.record pid
  | .commit pid, evaluators => evaluators.commit pid
  | .deliver pid, evaluators => evaluators.deliver pid
  | .abort pid, evaluators => evaluators.abort pid
  | .other alert, evaluators => evaluators.other alert

def machine : Machine Evaluators Action where
  initial := initial
  step := step

end Evaluators

end IncidentPlatform.Services
