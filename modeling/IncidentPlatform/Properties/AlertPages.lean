import IncidentPlatform.Properties.AlertEpisodes

namespace IncidentPlatform.Properties

open Concurrency Models Services Storage Evaluators

/-! # What is paged

The audit rows and the webhooks of the episodes, and when two episodes of one
series can be open.
-/

variable {evaluators before after last : Evaluators} {action : Action} {pid other : Pid}
  {series : Series} {alert : Alert} {episode : RuleEpisode} {reason : String} {now : Time}
  {steps : List (Evaluators × Action)}

section Announcements

def namedBy (action : String) (audit : List AuditEntry) : List (Option String) :=
  (audit.filter fun row => row.action = action).map AuditEntry.resourceId

def nameOf (alert : Alert) : Option String := some (toString alert.id)

theorem nameOf_injective {first second : Alert} (same : nameOf first = nameOf second) : first.id = second.id :=
  Text.toString_injective (Option.some.inj same)

/-- Every alert of the rules has one raised row, in the order of the commits; it
is resolved exactly if a resolved row names it; and its webhook is sent at most
once, after its commit. -/
structure Paged (evaluators : Evaluators) : Prop where
  raised : namedBy alertRaisedAction evaluators.audit.committed =
    (evaluators.alerts.committed.filter ofRules).map nameOf
  resolved : ∀ alert ∈ evaluators.alerts.committed, ofRules alert = true →
    (alert.isOpen = false ↔ nameOf alert ∈ namedBy alertResolvedAction evaluators.audit.committed)
  named : ∀ name ∈ namedBy alertResolvedAction evaluators.audit.committed,
    ∃ alert ∈ evaluators.alerts.committed, ofRules alert = true ∧ nameOf alert = name
  sent : ∀ id ∈ evaluators.delivered, ∃ alert ∈ evaluators.alerts.committed, ofRules alert = true ∧ alert.id = id
  once : evaluators.delivered.Nodup
  queued : ∀ pid alert, evaluators.phase pid = .paging alert → alert.id ∉ evaluators.delivered
  apart : ∀ pid other alert theirs, evaluators.phase pid = .paging alert → evaluators.phase other = .paging theirs →
    alert.id = theirs.id → pid = other

theorem paged_initial : Paged initial where
  raised := rfl
  resolved _ absent := by cases absent
  named _ absent := by cases absent
  sent _ absent := by cases absent
  once := List.nodup_nil
  queued _ _ paging := by cases paging
  apart _ _ _ _ paging := by cases paging

theorem namedBy_append {action : String} {audit rows : List AuditEntry} :
    namedBy action (audit ++ rows) = namedBy action audit ++ namedBy action rows := by
  simp [namedBy]

theorem namedBy_raisedEntry : namedBy alertRaisedAction [raisedEntry episode alert] = [nameOf alert] ∧
    namedBy alertResolvedAction [raisedEntry episode alert] = [] := by
  simp [namedBy, raisedEntry, recordTransition, alertRaisedAction, alertResolvedAction, nameOf]

theorem namedBy_resolvedEntry : namedBy alertRaisedAction [resolvedEntry series reason alert] = [] ∧
    namedBy alertResolvedAction [resolvedEntry series reason alert] = [nameOf alert] := by
  simp [namedBy, resolvedEntry, recordTransition, alertRaisedAction, alertResolvedAction, nameOf]

theorem publish_audit (consistent : Agreed before) :
    (before.publish pid).audit.committed = before.audit.committed ++ newEntries (before.phase pid) := by
  rw [← consistent.entries pid]
  rfl

theorem idle_ne_paging (alert : Alert) : Evaluation.idle ≠ .paging alert := by simp

theorem phase_of_paging {next : Evaluation} (quiet : ∀ alert, next ≠ .paging alert)
    (paging : (before.enter pid next).phase other = .paging alert) : before.phase other = .paging alert := by
  by_cases same : other = pid
  · subst same
    rw [enter_self] at paging
    exact absurd paging (quiet alert)
  · rwa [Evaluators.enter_other _ _ same] at paging

theorem PhaseMove.ne_paging {rows : IndexedRows Uuid Alert} {was next : Evaluation}
    (move : PhaseMove pid rows action was next) (alert : Alert) :
    next ≠ .paging alert := by
  cases move <;> simp

theorem Paged.entered {next : Evaluation} (announced : Paged before)
    (rows : after.alerts.committed = before.alerts.committed) (audit : after.audit.committed = before.audit.committed)
    (delivered : after.delivered = before.delivered) (phases : after.phase = (before.enter pid next).phase)
    (quiet : ∀ alert, next ≠ .paging alert) : Paged after where
  raised := by
    rw [rows, audit]
    exact announced.raised
  resolved := by
    rw [rows, audit]
    exact announced.resolved
  named := by
    rw [rows, audit]
    exact announced.named
  sent := by
    rw [rows, delivered]
    exact announced.sent
  once := by
    rw [delivered]
    exact announced.once
  queued := by
    rw [delivered, phases]
    exact fun _ _ paging => announced.queued _ _ (phase_of_paging quiet paging)
  apart := by
    rw [phases]
    exact fun _ _ _ _ mine theirs =>
      announced.apart _ _ _ _ (phase_of_paging quiet mine) (phase_of_paging quiet theirs)

theorem unstored_of_raised (consistent : Agreed before) (was : before.phase pid = .raised episode alert) :
    ∀ stored ∈ before.alerts.committed, stored.id ≠ alert.id := by
  intro stored held same
  have written : (pid, alert) ∈ before.alerts.inserted := by
    refine inserted_of_phase consistent ?_
    rw [was]
    exact List.mem_cons_self
  exact consistent.ids.unstored written rfl held (congrArg some same)

theorem Paged.paged (announced : Paged before) (consistent : Agreed before) (numbered : Numbered before)
    (was : before.phase pid = .raised episode alert) : Paged ((before.publish pid).enter pid (.paging alert)) := by
  have claims := numbered.claims pid
  rw [was] at claims
  obtain ⟨rules, id, firedAt, named⟩ := claims
  have ours : ofRules alert = true := by
    have matching : episode.series.matches alert = true := by
      rw [named]
      exact (matches_alert_iff rules rules).mpr rfl
    exact ofRules_of_matches matching
  have unresolved : alert.isOpen = true := by
    rw [named]
    rfl
  have rows : ((before.publish pid).enter pid (.paging alert)).alerts.committed = before.alerts.committed ++ [alert] :=
    publish_raised consistent was
  have audit : ((before.publish pid).enter pid (.paging alert)).audit.committed =
      before.audit.committed ++ [raisedEntry episode alert] := by
    rw [enter, publish_audit consistent, was]
    rfl
  have resolutions : namedBy alertResolvedAction ((before.publish pid).enter pid (.paging alert)).audit.committed =
      namedBy alertResolvedAction before.audit.committed := by
    rw [audit, namedBy_append, namedBy_raisedEntry.2, List.append_nil]
  have fresh := unstored_of_raised consistent was
  have undelivered : alert.id ∉ before.delivered := by
    intro held
    obtain ⟨stored, committed, -, same⟩ := announced.sent _ held
    exact fresh stored committed same
  have queuedElsewhere : ∀ other theirs, before.phase other = .paging theirs → theirs.id ≠ alert.id := by
    intro other theirs paging
    have claims := numbered.claims other
    rw [paging] at claims
    obtain ⟨_, _, stored, held, same⟩ := claims
    exact same ▸ fresh stored (List.mem_of_mem_filter held)
  refine ⟨?_, ?_, ?_, ?_, announced.once, ?_, ?_⟩
  · rw [rows, audit, namedBy_append, namedBy_raisedEntry.1, announced.raised, List.filter_append, List.map_append]
    simp [ours]
  · intro stored held known
    rw [resolutions]
    rw [rows] at held
    obtain older | new := List.mem_append.mp held
    · exact announced.resolved stored older known
    · rw [List.mem_singleton.mp new, unresolved]
      refine iff_of_false (by decide) fun member => ?_
      obtain ⟨earlier, committed, -, same⟩ := announced.named _ member
      exact fresh earlier committed (nameOf_injective same)
  · intro name member
    rw [resolutions] at member
    obtain ⟨stored, held, rest⟩ := announced.named name member
    exact ⟨stored, rows ▸ List.mem_append_left _ held, rest⟩
  · intro id member
    obtain ⟨stored, held, rest⟩ := announced.sent id member
    exact ⟨stored, rows ▸ List.mem_append_left _ held, rest⟩
  · intro other theirs paging
    by_cases same : other = pid
    · subst same
      rw [enter_self] at paging
      cases paging
      exact undelivered
    · rw [Evaluators.enter_other _ _ same] at paging
      exact announced.queued other theirs paging
  · intro first second mine theirs one two same
    by_cases isFirst : first = pid <;> by_cases isSecond : second = pid
    · rw [isFirst, isSecond]
    · subst isFirst
      rw [enter_self] at one
      rw [Evaluators.enter_other _ _ isSecond] at two
      cases one
      exact absurd same.symm (queuedElsewhere second theirs two)
    · subst isSecond
      rw [enter_self] at two
      rw [Evaluators.enter_other _ _ isFirst] at one
      cases two
      exact absurd same (queuedElsewhere first mine one)
    · rw [Evaluators.enter_other _ _ isFirst] at one
      rw [Evaluators.enter_other _ _ isSecond] at two
      exact announced.apart first second mine theirs one two same

theorem isOpen_resolvedBy {id : Uuid} : (resolvedBy id now alert).isOpen = false ↔ alert.id = id ∨ alert.isOpen = false := by
  unfold resolvedBy
  split
  · rename_i same
    exact iff_of_true rfl (.inl same)
  · rename_i different
    exact ⟨.inr, fun either => either.resolve_left different⟩

theorem Paged.closed (announced : Paged before) (consistent : Agreed before) (numbered : Numbered before)
    (was : before.phase pid = .resolved series reason alert now) :
    Paged ((before.publish pid).enter pid .idle) := by
  have claims := numbered.claims pid
  rw [was] at claims
  obtain ⟨rules, stored, held, same⟩ := claims
  obtain ⟨committed, matching⟩ := List.mem_filter.mp held
  have rows : ((before.publish pid).enter pid .idle).alerts.committed =
      before.alerts.committed.map (resolvedBy alert.id now) := publish_resolved consistent was
  have audit : ((before.publish pid).enter pid .idle).audit.committed =
      before.audit.committed ++ [resolvedEntry series reason alert] := by
    rw [enter, publish_audit consistent, was]
    rfl
  have raisings : namedBy alertRaisedAction ((before.publish pid).enter pid .idle).audit.committed =
      namedBy alertRaisedAction before.audit.committed := by
    rw [audit, namedBy_append, namedBy_resolvedEntry.1, List.append_nil]
  have resolutions : namedBy alertResolvedAction ((before.publish pid).enter pid .idle).audit.committed =
      namedBy alertResolvedAction before.audit.committed ++ [nameOf alert] := by
    rw [audit, namedBy_append, namedBy_resolvedEntry.2]
  have stays : ∀ {earlier : Alert}, earlier ∈ before.alerts.committed → ofRules earlier = true →
      ∃ later ∈ ((before.publish pid).enter pid .idle).alerts.committed,
        ofRules later = true ∧ later.id = earlier.id := by
    intro earlier older ours
    rw [rows]
    exact ⟨_, List.mem_map_of_mem older, ofRules_resolvedBy.trans ours, resolvedBy_id⟩
  refine ⟨?_, ?_, ?_, ?_, announced.once, ?_, ?_⟩
  · rw [raisings, announced.raised, rows, List.filter_map, List.map_map]
    have kept : before.alerts.committed.filter (ofRules ∘ resolvedBy alert.id now) =
        before.alerts.committed.filter ofRules := List.filter_congr fun _ _ => ofRules_resolvedBy
    rw [kept]
    refine List.map_congr_left fun row _ => ?_
    simp [nameOf]
  · intro row member known
    rw [rows] at member
    obtain ⟨earlier, older, rfl⟩ := List.mem_map.mp member
    rw [ofRules_resolvedBy] at known
    have sameName : nameOf (resolvedBy alert.id now earlier) = nameOf earlier := by simp [nameOf]
    rw [resolutions, List.mem_append, List.mem_singleton, isOpen_resolvedBy, sameName,
      announced.resolved earlier older known, or_comm]
    refine or_congr_right ⟨fun equal => ?_, nameOf_injective⟩
    rw [nameOf, equal]
    rfl
  · intro name member
    rw [resolutions] at member
    obtain older | new := List.mem_append.mp member
    · obtain ⟨earlier, committed, ours, rfl⟩ := announced.named name older
      obtain ⟨later, found, ours, equal⟩ := stays committed ours
      exact ⟨later, found, ours, by rw [nameOf, equal]; rfl⟩
    · obtain ⟨later, found, ours, equal⟩ := stays committed (ofRules_of_matches matching)
      rw [List.mem_singleton.mp new]
      exact ⟨later, found, ours, by rw [nameOf, equal, same]; rfl⟩
  · intro id member
    obtain ⟨earlier, older, ours, rfl⟩ := announced.sent id member
    exact stays older ours
  · exact fun _ _ paging => announced.queued _ _ (phase_of_paging idle_ne_paging paging)
  · exact fun _ _ _ _ mine theirs => announced.apart _ _ _ _ (phase_of_paging idle_ne_paging mine)
      (phase_of_paging idle_ne_paging theirs)

theorem Paged.delivered (announced : Paged before) (numbered : Numbered before)
    (was : before.phase pid = .paging alert) :
    Paged { before.enter pid .idle with delivered := before.delivered ++ [alert.id] } := by
  have claims := numbered.claims pid
  rw [was] at claims
  obtain ⟨series, -, stored, held, same⟩ := claims
  obtain ⟨committed, matching⟩ := List.mem_filter.mp held
  refine ⟨announced.raised, announced.resolved, announced.named, ?_, ?_, ?_, ?_⟩
  · intro id member
    obtain older | new := List.mem_append.mp member
    · exact announced.sent id older
    · rw [List.mem_singleton.mp new]
      exact ⟨stored, committed, ofRules_of_matches matching, same⟩
  · rw [List.nodup_append]
    refine ⟨announced.once, List.nodup_singleton _, fun id older other new equal => ?_⟩
    rw [List.mem_singleton.mp new] at equal
    exact announced.queued pid alert was (equal ▸ older)
  · intro other theirs paging member
    have queued := phase_of_paging idle_ne_paging paging
    obtain older | new := List.mem_append.mp member
    · exact announced.queued other theirs queued older
    · have mine := announced.apart other pid theirs alert queued was (List.mem_singleton.mp new)
      subst mine
      exact idle_ne_paging theirs ((enter_self ..).symm.trans paging)
  · exact fun _ _ _ _ mine theirs => announced.apart _ _ _ _ (phase_of_paging idle_ne_paging mine)
      (phase_of_paging idle_ne_paging theirs)

theorem Paged.foreign (announced : Paged before) (foreign : ofRules alert = false) :
    Paged { before with
      alerts := { before.alerts with committed := before.alerts.committed ++ [alert] }
      drawn := before.drawn + 1 } := by
  refine ⟨?_, ?_, ?_, ?_, announced.once, announced.queued, announced.apart⟩
  · rw [List.filter_append]
    simpa [foreign] using announced.raised
  · intro stored held ours
    obtain older | new := List.mem_append.mp held
    · exact announced.resolved stored older ours
    · rw [List.mem_singleton.mp new, foreign] at ours
      cases ours
  · intro name member
    obtain ⟨stored, held, rest⟩ := announced.named name member
    exact ⟨stored, List.mem_append_left _ held, rest⟩
  · intro id member
    obtain ⟨stored, held, rest⟩ := announced.sent id member
    exact ⟨stored, List.mem_append_left _ held, rest⟩

theorem Paged.turned (announced : Paged before) (consistent : Agreed before) (numbered : Numbered before)
    (turned : Turned before action after) : Paged after := by
  cases turned with
  | moved pid next move => exact announced.entered rfl rfl rfl rfl move.ne_paging
  | inserted => exact announced.entered rfl rfl rfl rfl (by simp)
  | stamped _ _ _ _ _ _ _ updated =>
      exact announced.entered (IndexedRows.update_committed updated) rfl rfl rfl (by simp)
  | raised => exact announced.entered rfl rfl rfl rfl (by simp)
  | resolved => exact announced.entered rfl rfl rfl rfl (by simp)
  | paged pid episode alert was => exact announced.paged consistent numbered was
  | closed pid series reason alert now was => exact announced.closed consistent numbered was
  | delivered pid alert was => exact announced.delivered numbered was
  | aborted => exact announced.entered rfl rfl rfl rfl (by simp)
  | other alert foreign id free => exact announced.foreign foreign

end Announcements

section Runs

structure Kept (evaluators : Evaluators) : Prop where
  consistent : Agreed evaluators
  numbered : Numbered evaluators
  announced : Paged evaluators

theorem kept_initial : Kept initial := ⟨agreed_initial, numbered_initial, paged_initial⟩

theorem Kept.step (kept : Kept before) (stepped : machine.step action before = some after) : Kept after := by
  have turned := step_turned stepped
  exact ⟨kept.consistent.turned turned, kept.numbered.turned kept.consistent turned,
    kept.announced.turned kept.consistent kept.numbered turned⟩

theorem kept_of_run (ran : machine.Run steps last) : ∀ state ∈ Machine.visited steps last, Kept state :=
  ran.everywhere kept_initial fun kept stepped => kept.step stepped

/-- The bookkeeping of the episodes in a committed state: each series numbered
from zero in the order of its commits, every alert of the rules raised in one
audit row, resolved exactly if a row says it is, its webhook sent at most once,
and its key read back as its series. -/
structure EpisodesKept (evaluators : Evaluators) : Prop where
  ordinals : ∀ series : Series, series.OfRules →
    (series.episodes evaluators.alerts.committed).map Alert.dedupKey =
      (List.range (series.episodes evaluators.alerts.committed).length).map fun ordinal => some (series.key ordinal)
  ids : (evaluators.alerts.committed.map Alert.id).Nodup
  raised : namedBy alertRaisedAction evaluators.audit.committed =
    (evaluators.alerts.committed.filter ofRules).map nameOf
  resolved : ∀ alert ∈ evaluators.alerts.committed, ofRules alert = true →
    (alert.isOpen = false ↔ nameOf alert ∈ namedBy alertResolvedAction evaluators.audit.committed)
  sent : evaluators.delivered.Nodup ∧
    ∀ id ∈ evaluators.delivered, ∃ alert ∈ evaluators.alerts.committed, ofRules alert = true ∧ alert.id = id
  readBack : ∀ alert ∈ evaluators.alerts.committed, ofRules alert = true → ∃ series : Series, series.OfRules ∧
    series.matches alert = true ∧ alert.dedupKey.bind (seriesOfKey alert.tenantId) = some series

theorem Kept.readBack (kept : Kept evaluators) (held : alert ∈ evaluators.alerts.committed) (ours : ofRules alert = true) :
    ∃ series : Series, series.OfRules ∧ series.matches alert = true ∧
      alert.dedupKey.bind (seriesOfKey alert.tenantId) = some series := by
  obtain ⟨series, rules, matching⟩ := kept.numbered.known alert held ours
  have keyed : alert.dedupKey ∈ (series.episodes evaluators.alerts.committed).map Alert.dedupKey :=
    List.mem_map_of_mem (List.mem_filter.mpr ⟨held, matching⟩)
  rw [kept.numbered.ordinals series rules] at keyed
  obtain ⟨ordinal, -, keyed⟩ := List.mem_map.mp keyed
  have tenant : alert.tenantId = series.tenantId := by
    unfold Series.matches at matching
    exact of_decide_eq_true (Bool.and_eq_true_iff.mp matching).1
  refine ⟨series, rules, matching, ?_⟩
  rw [← keyed, tenant, Option.bind_some, seriesOfKey_key (plain_of_rules rules).1]

/-- In every interleaving the bookkeeping of the episodes is kept. -/
theorem episodes_kept (ran : machine.Run steps last) : ∀ state ∈ Machine.visited steps last, EpisodesKept state := by
  intro state reached
  have kept := kept_of_run ran state reached
  have ids := kept.consistent.ids.committed
  rw [List.filterMap_eq_map'] at ids
  exact ⟨kept.numbered.ordinals, ids, kept.announced.raised, kept.announced.resolved,
    ⟨kept.announced.once, kept.announced.sent⟩, fun _ held ours => kept.readBack held ours⟩

def deepQueue : RuleEpisode where
  fingerprint := dlqDepthFingerprint
  subject := dlqSubject
  tenantId := 7
  source := dlqDepthAlertSource
  title := "Dead-letter queue depth 51 (threshold 50)"
  summary := "51 jobs"
  payload := .dlqDepth (dlqPayload 51 50 none "51 jobs" 0)

/-- Two replicas count the same episodes: the second INSERT is refused. -/
def countedTwice : List Action :=
  [.begin 0 (.raise deepQueue) 0, .begin 1 (.raise deepQueue) 0, .selectOpen 0 none, .selectOpen 1 none,
    .count 0, .count 1, .insert 0, .record 0, .commit 0, .insert 1, .deliver 0]

theorem episodes_kept_countedTwice : ∃ last : Evaluators,
    last.alerts.committed.map Alert.dedupKey = [some "rule:dlq_depth_warning:total:0"] ∧ last.delivered = [0] ∧
    EpisodesKept last := by
  obtain ⟨steps, last, ran, checked⟩ := @Machine.exists_run _ _ machine countedTwice
    (fun _ last => decide (last.alerts.committed.map Alert.dedupKey = [some "rule:dlq_depth_warning:total:0"] ∧
      last.delivered = [0])) (by decide +kernel)
  obtain ⟨keys, delivered⟩ := of_decide_eq_true checked
  exact ⟨last, keys, delivered, episodes_kept ran last List.mem_cons_self⟩

end Runs

section OneOpen

variable {alerts : List Alert} {next : Evaluation}

def NoneOpen (alerts : List Alert) (series : Series) : Prop := ∀ alert ∈ series.episodes alerts, alert.isOpen = false

def opensIn (series : Series) (taken : Evaluators × Action) : Bool :=
  match taken.2 with
  | .commit pid =>
      match taken.1.phase pid with
      | .raised episode _ => episode.series = series
      | _ => false
  | _ => false

def resolvesIn (id : Uuid) (taken : Evaluators × Action) : Bool :=
  match taken.2 with
  | .commit pid =>
      match taken.1.phase pid with
      | .resolved _ _ alert _ => alert.id = id
      | _ => false
  | _ => false

/-- The steps since the replica last looked for an open episode, newest first. -/
def sinceLook (pid : Pid) (steps : List (Evaluators × Action)) : List (Evaluators × Action) :=
  steps.takeWhile fun taken =>
    match taken.2 with
    | .selectOpen other _ => other ≠ pid
    | _ => true

/-- A count follows its open-check with no page of the series in between, and an
UPDATE the read of its alert with no resolution of it. -/
def inTime (earlier : List (Evaluators × Action)) (before : Evaluators) : Action → Bool
  | .count pid =>
      match before.phase pid with
      | .foundNoneOpen episode _ => !(sinceLook pid earlier).any (opensIn episode.series)
      | _ => true
  | .stamp pid _ =>
      match before.phase pid with
      | .found _ _ alert => !(sinceLook pid earlier).any (resolvesIn alert.id)
      | _ => true
  | _ => true

/-- No episode of a series opens between a replica's open-check and its count,
and no alert is resolved between a replica's read and its UPDATE. -/
def undisturbed : List (Evaluators × Action) → Bool
  | [] => true
  | (before, action) :: earlier => inTime earlier before action && undisturbed earlier

def Unrivalled (alerts : List Alert) : Evaluation → Prop
  | .counted episode _ ordinal => ordinal = episodesSoFar alerts episode.series → NoneOpen alerts episode.series
  | .inserted episode _ | .raised episode _ => NoneOpen alerts episode.series
  | .stamped _ _ alert _ | .resolved _ _ alert _ => ∀ stored ∈ alerts, stored.id = alert.id → stored.isOpen = true
  | _ => True

structure OneOpen (evaluators : Evaluators) : Prop where
  one : ∀ series : Series, series.OfRules →
    (series.episodes evaluators.alerts.committed).countP Alert.isOpen ≤ 1
  once : (namedBy alertResolvedAction evaluators.audit.committed).Nodup
  alone : ∀ pid, Unrivalled evaluators.alerts.committed (evaluators.phase pid)

theorem oneOpen_initial : OneOpen initial := ⟨fun _ _ => Nat.zero_le _, List.nodup_nil, fun _ => trivial⟩

theorem unrivalled_entered (own : Unrivalled alerts next) (others : ∀ other, other ≠ pid → Unrivalled alerts (before.phase other)) :
    ∀ other, Unrivalled alerts ((before.enter pid next).phase other) := by
  intro other
  by_cases same : other = pid
  · subst same
    rwa [enter_self]
  · rw [Evaluators.enter_other _ _ same]
    exact others other same

theorem OneOpen.entered (oneOpen : OneOpen before) (rows : after.alerts.committed = before.alerts.committed)
    (audit : after.audit.committed = before.audit.committed) (phases : after.phase = (before.enter pid next).phase)
    (own : Unrivalled before.alerts.committed next) : OneOpen after where
  one := by
    rw [rows]
    exact oneOpen.one
  once := by
    rw [audit]
    exact oneOpen.once
  alone := by
    rw [rows, phases]
    exact unrivalled_entered own fun other _ => oneOpen.alone other

theorem unmatched_of_foreign (foreign : keyStartsWith (dedupNamespace ++ ":") alert = false) :
    series.matches alert = false := by
  refine Bool.eq_false_iff.mpr fun matching => ?_
  have ours : ofRules alert = false := foreign
  rw [ofRules_of_matches matching] at ours
  cases ours

theorem closed_append (foreign : series.matches alert = false) :
    NoneOpen (alerts ++ [alert]) series ↔ NoneOpen alerts series := by
  unfold NoneOpen
  rw [episodes_append, foreign, if_neg Bool.false_ne_true, List.append_nil]

theorem episodesSoFar_append (foreign : series.matches alert = false) :
    episodesSoFar (alerts ++ [alert]) series = episodesSoFar alerts series := by
  unfold episodesSoFar
  rw [episodes_append, foreign, if_neg Bool.false_ne_true, List.append_nil]

/-- A new row disturbs no evaluation of another series; nor one of its own series
that has only counted, for the count is out of date. -/
theorem Unrivalled.append {phase : Evaluation} (alone : Unrivalled alerts phase) (claims : Claims alerts phase)
    (foreign : ∀ episode alert', phase = .inserted episode alert' ∨ phase = .raised episode alert' →
      episode.series.matches alert = false)
    (unresolved : alert.isOpen = true ∨ ∀ stored ∈ alerts, stored.id ≠ alert.id) : Unrivalled (alerts ++ [alert]) phase := by
  have stamp : ∀ {series : Series} {mine : Alert}, (∃ stored ∈ series.episodes alerts, stored.id = mine.id) →
      (∀ stored ∈ alerts, stored.id = mine.id → stored.isOpen = true) →
      ∀ stored ∈ alerts ++ [alert], stored.id = mine.id → stored.isOpen = true := by
    rintro series mine ⟨known, held, named⟩ still stored member same
    obtain older | new := List.mem_append.mp member
    · exact still stored older same
    · rw [List.mem_singleton.mp new] at same ⊢
      exact unresolved.resolve_right fun fresh => fresh known (List.mem_of_mem_filter held) (named.trans same.symm)
  cases phase with
  | counted episode startedAt ordinal =>
      intro upToDate
      by_cases matching : episode.series.matches alert = true
      · unfold episodesSoFar at upToDate
        rw [episodes_append, if_pos matching, List.length_append, List.length_singleton] at upToDate
        have counted : ordinal ≤ (episode.series.episodes alerts).length := claims.2
        omega
      · rw [Bool.not_eq_true] at matching
        rw [episodesSoFar_append matching] at upToDate
        exact (closed_append matching).mpr (alone upToDate)
  | inserted episode mine => exact (closed_append (foreign _ _ (.inl rfl))).mpr alone
  | raised episode mine => exact (closed_append (foreign _ _ (.inr rfl))).mpr alone
  | stamped | resolved => exact stamp claims.2 alone
  | _ => trivial

theorem OneOpen.paged (oneOpen : OneOpen before) (kept : Kept before)
    (was : before.phase pid = .raised episode alert) : OneOpen ((before.publish pid).enter pid (.paging alert)) := by
  have alone := oneOpen.alone pid
  have claims := kept.numbered.claims pid
  rw [was] at alone claims
  obtain ⟨rules, id, firedAt, named⟩ := claims
  have rows : ((before.publish pid).enter pid (.paging alert)).alerts.committed = before.alerts.committed ++ [alert] :=
    publish_raised kept.consistent was
  have matching : ∀ series : Series, series.OfRules → (series.matches alert = true ↔ series = episode.series) := by
    intro series known
    rw [named]
    exact matches_alert_iff known rules
  refine ⟨?_, ?_, ?_⟩
  · intro series known
    rw [rows, episodes_append, List.countP_append]
    by_cases same : series = episode.series
    · subst same
      have none : (episode.series.episodes before.alerts.committed).countP Alert.isOpen = 0 := by
        rw [List.countP_eq_zero]
        intro stored held
        rw [alone stored held]
        exact Bool.false_ne_true
      rw [none, Nat.zero_add]
      exact List.countP_le_length.trans (by split <;> simp)
    · rw [if_neg (mt (matching series known).mp same), List.countP_nil]
      exact oneOpen.one series known
  · rw [enter, publish_audit kept.consistent, was]
    simpa [newEntries, namedBy_append, namedBy_raisedEntry.2] using oneOpen.once
  · rw [rows]
    refine unrivalled_entered trivial fun other different =>
      (oneOpen.alone other).append (kept.numbered.claims other) ?_ (.inl (by rw [named]; rfl))
    intro second theirs phase
    refine Bool.eq_false_iff.mpr fun same => different (kept.numbered.sole_page kept.consistent phase (.inr was) ?_)
    refine (matching _ ?_).mp same
    have claims := kept.numbered.claims other
    obtain phase | phase := phase <;> rw [phase] at claims <;> exact claims.1

theorem countP_resolvedBy {id : Uuid} :
    ((series.episodes alerts).map (resolvedBy id now)).countP Alert.isOpen ≤ (series.episodes alerts).countP Alert.isOpen := by
  rw [List.countP_map]
  refine List.countP_mono_left fun row _ isOpen => ?_
  cases already : row.isOpen with
  | true => rfl
  | false =>
      have later : (resolvedBy id now row).isOpen = false := isOpen_resolvedBy.mpr (.inr already)
      rw [Function.comp, later] at isOpen
      cases isOpen

theorem closed_resolvedBy {id : Uuid} (closed : NoneOpen alerts series) : NoneOpen (alerts.map (resolvedBy id now)) series := by
  intro row held
  rw [episodes_resolvedBy] at held
  obtain ⟨earlier, older, rfl⟩ := List.mem_map.mp held
  exact isOpen_resolvedBy.mpr (.inr (closed earlier older))

theorem Unrivalled.resolvedBy {phase : Evaluation} {id : Uuid} (alone : Unrivalled alerts phase)
    (apart : ∀ change ∈ newStamps phase, change.1 ≠ id) : Unrivalled (alerts.map (Properties.resolvedBy id now)) phase := by
  have stamp : ∀ {mine : Alert}, mine.id ≠ id → (∀ stored ∈ alerts, stored.id = mine.id → stored.isOpen = true) →
      ∀ stored ∈ alerts.map (Properties.resolvedBy id now), stored.id = mine.id → stored.isOpen = true := by
    intro mine different still stored member same
    obtain ⟨earlier, older, rfl⟩ := List.mem_map.mp member
    rw [resolvedBy_id] at same
    rw [Properties.resolvedBy, if_neg (same ▸ different)]
    exact still earlier older same
  cases phase with
  | counted episode startedAt ordinal =>
      intro upToDate
      rw [episodesSoFar_resolvedBy] at upToDate
      exact closed_resolvedBy (alone upToDate)
  | inserted | raised => exact closed_resolvedBy alone
  | stamped | resolved => exact stamp (apart _ List.mem_cons_self) alone
  | _ => trivial

theorem OneOpen.closed (oneOpen : OneOpen before) (kept : Kept before)
    (was : before.phase pid = .resolved series reason alert now) : OneOpen ((before.publish pid).enter pid .idle) := by
  have alone := oneOpen.alone pid
  have claims := kept.numbered.claims pid
  have mine := kept.consistent.changed pid
  rw [was] at alone claims mine
  obtain ⟨rules, stored, held, same⟩ := claims
  obtain ⟨committed, matching⟩ := List.mem_filter.mp held
  have rows : ((before.publish pid).enter pid .idle).alerts.committed =
      before.alerts.committed.map (resolvedBy alert.id now) := publish_resolved kept.consistent was
  refine ⟨?_, ?_, ?_⟩
  · intro series known
    rw [rows, episodes_resolvedBy]
    exact countP_resolvedBy.trans (oneOpen.one series known)
  · rw [enter, publish_audit kept.consistent, was]
    simp only [newEntries, namedBy_append, namedBy_resolvedEntry.2]
    have name : nameOf stored = nameOf alert := by rw [nameOf, same, nameOf]
    refine List.nodup_append.mpr ⟨oneOpen.once, List.nodup_singleton _, fun first earlier second new equal => ?_⟩
    rw [List.mem_singleton.mp new, ← name] at equal
    have closed := (kept.announced.resolved stored committed (ofRules_of_matches matching)).mpr (equal ▸ earlier)
    rw [alone stored committed same] at closed
    cases closed
  · rw [rows]
    have ours : (alert.id, fun row : Alert => row.resolve now) ∈
        newStamps (.resolved series reason alert now) := List.mem_cons_self
    refine unrivalled_entered trivial fun other different => ?_
    refine (oneOpen.alone other).resolvedBy fun change written equal => different ?_
    rw [← kept.consistent.changed other] at written
    rw [← mine] at ours
    exact kept.consistent.exclusive.sole written ours equal

theorem OneOpen.foreign (oneOpen : OneOpen before) (kept : Kept before) (foreign : ofRules alert = false)
    (id : alert.id = before.drawn) :
    OneOpen { before with
      alerts := { before.alerts with committed := before.alerts.committed ++ [alert] }
      drawn := before.drawn + 1 } := by
  have unmatched : ∀ series : Series, series.matches alert = false := fun _ => unmatched_of_foreign foreign
  refine ⟨?_, oneOpen.once, ?_⟩
  · intro series known
    rw [episodes_append, unmatched, if_neg Bool.false_ne_true, List.append_nil]
    exact oneOpen.one series known
  · intro other
    refine (oneOpen.alone other).append (kept.numbered.claims other) (fun _ _ _ => unmatched _) (.inr ?_)
    intro stored held same
    have drawn := kept.consistent.drawn stored (List.mem_append_left _ held)
    rw [same, id] at drawn
    exact Nat.lt_irrefl _ drawn

/-- What a replica has looked at is still so, or has been changed since. -/
def StillSo (pid : Pid) (steps : List (Evaluators × Action)) (alerts : List Alert) : Evaluation → Prop
  | .foundNoneOpen episode _ => (sinceLook pid steps).any (opensIn episode.series) = true ∨ NoneOpen alerts episode.series
  | .found _ _ alert => (sinceLook pid steps).any (resolvesIn alert.id) = true ∨
      ∀ stored ∈ alerts, stored.id = alert.id → stored.isOpen = true
  | _ => True

theorem noneOpen_of_filter (closed : (series.episodes alerts).filter Alert.isOpen = []) : NoneOpen alerts series := by
  intro alert held
  exact Bool.eq_false_iff.mpr fun isOpen => List.filter_eq_nil_iff.mp closed alert held isOpen

theorem NoneOpen.turned (none : NoneOpen before.alerts.committed series) (rules : series.OfRules) (kept : Kept before)
    (turned : Turned before action after) :
    opensIn series (before, action) = true ∨ NoneOpen after.alerts.committed series := by
  cases turned with
  | stamped _ _ _ _ _ _ _ updated => exact .inr (by rwa [IndexedRows.update_committed updated])
  | paged pid episode alert was =>
      have claims := kept.numbered.claims pid
      rw [was] at claims
      obtain ⟨theirs, id, firedAt, named⟩ := claims
      by_cases same : episode.series = series
      · exact .inl (by simp [opensIn, was, same])
      · have foreign : series.matches alert = false := by
          refine Bool.eq_false_iff.mpr fun matching => same ?_
          rw [named] at matching
          exact ((matches_alert_iff rules theirs).mp matching).symm
        refine .inr ?_
        have rows : ((before.publish pid).enter pid (.paging alert)).alerts.committed =
            before.alerts.committed ++ [alert] := publish_raised kept.consistent was
        rw [rows]
        exact (closed_append foreign).mpr none
  | closed pid _ _ alert now was =>
      refine .inr ?_
      have rows : ((before.publish pid).enter pid .idle).alerts.committed =
          before.alerts.committed.map (resolvedBy alert.id now) := publish_resolved kept.consistent was
      rw [rows]
      exact closed_resolvedBy none
  | other alert foreign => exact .inr ((closed_append (unmatched_of_foreign foreign)).mpr none)
  | _ => exact .inr none

theorem open_turned {id : Uuid} (known : ∃ stored ∈ before.alerts.committed, stored.id = id)
    (isOpen : ∀ stored ∈ before.alerts.committed, stored.id = id → stored.isOpen = true) (kept : Kept before)
    (turned : Turned before action after) :
    resolvesIn id (before, action) = true ∨ ∀ stored ∈ after.alerts.committed, stored.id = id → stored.isOpen = true := by
  have appended : ∀ alert : Alert, (alert.id = id → alert.isOpen = true) →
      ∀ stored ∈ before.alerts.committed ++ [alert], stored.id = id → stored.isOpen = true := by
    intro alert new stored held same
    obtain older | rfl := (List.mem_append.mp held).imp_right List.mem_singleton.mp
    · exact isOpen stored older same
    · exact new same
  cases turned with
  | stamped _ _ _ _ _ _ _ updated => exact .inr (by rwa [IndexedRows.update_committed updated])
  | paged pid episode alert was =>
      have claims := kept.numbered.claims pid
      rw [was] at claims
      obtain ⟨_, _, _, named⟩ := claims
      have rows : ((before.publish pid).enter pid (.paging alert)).alerts.committed =
          before.alerts.committed ++ [alert] := publish_raised kept.consistent was
      rw [rows]
      exact .inr (appended alert fun _ => by rw [named]; rfl)
  | closed pid _ _ alert now was =>
      by_cases same : alert.id = id
      · exact .inl (by simp [resolvesIn, was, same])
      · have rows : ((before.publish pid).enter pid .idle).alerts.committed =
            before.alerts.committed.map (resolvedBy alert.id now) := publish_resolved kept.consistent was
        rw [rows]
        refine .inr fun stored held equal => ?_
        obtain ⟨earlier, older, rfl⟩ := List.mem_map.mp held
        rw [resolvedBy_id] at equal
        rw [resolvedBy, if_neg (equal ▸ Ne.symm same)]
        exact isOpen earlier older equal
  | other alert foreign drawn =>
      refine .inr (appended alert fun same => ?_)
      obtain ⟨stored, held, named⟩ := known
      have below := kept.consistent.drawn stored (List.mem_append_left _ held)
      rw [named, ← same, drawn] at below
      exact absurd below (Nat.lt_irrefl _)
  | _ => exact .inr isOpen

theorem StillSo.moved {phase next : Evaluation} (move : PhaseMove pid before.alerts action phase next) (kept : Kept before) :
    StillSo pid ((before, action) :: steps) before.alerts.committed next := by
  cases move with
  | noneOpen episode startedAt answer closed => exact .inr (noneOpen_of_filter closed)
  | found series reason answer alert held isOpen =>
      refine .inr fun stored member same => ?_
      have ids := kept.consistent.ids.committed
      rw [List.filterMap_eq_map'] at ids
      rwa [List.inj_on_of_nodup_map ids member (List.mem_of_mem_filter held) same]
  | _ => trivial

theorem StillSo.turned {phase : Evaluation} (still : StillSo pid steps before.alerts.committed phase)
    (claims : Claims before.alerts.committed phase) (kept : Kept before) (turned : Turned before action after)
    (others : ∀ answer, action ≠ .selectOpen pid answer) :
    StillSo pid ((before, action) :: steps) after.alerts.committed phase := by
  have since : sinceLook pid ((before, action) :: steps) = (before, action) :: sinceLook pid steps := by
    refine List.takeWhile_cons_of_pos ?_
    cases action with
    | selectOpen other answer =>
        refine decide_eq_true fun same => ?_
        exact others answer (by rw [same])
    | _ => rfl
  cases phase with
  | foundNoneOpen episode startedAt =>
      simp only [StillSo, since, List.any_cons, Bool.or_eq_true] at still ⊢
      obtain opened | none := still
      · exact .inl (.inr opened)
      · exact (none.turned claims kept turned).imp_left .inl
  | found series reason alert =>
      simp only [StillSo, since, List.any_cons, Bool.or_eq_true] at still ⊢
      obtain resolved | isOpen := still
      · exact .inl (.inr resolved)
      · obtain ⟨-, stored, held, same⟩ := claims
        exact (open_turned ⟨stored, List.mem_of_mem_filter held, same⟩ isOpen kept turned).imp_left .inl
  | _ => trivial

theorem stillSo_step (still : ∀ pid, StillSo pid steps before.alerts.committed (before.phase pid)) (kept : Kept before)
    (stepped : machine.step action before = some after) :
    ∀ pid, StillSo pid ((before, action) :: steps) after.alerts.committed (after.phase pid) := by
  have turned := step_turned stepped
  intro other
  have quiet : ∀ {pid next}, after.phase = (before.enter pid next).phase →
      (∀ alerts, StillSo other ((before, action) :: steps) alerts next) → (∀ answer, action ≠ .selectOpen other answer) →
      StillSo other ((before, action) :: steps) after.alerts.committed (after.phase other) := by
    intro pid next phases blank unlooked
    rw [phases]
    by_cases same : other = pid
    · subst same
      rw [enter_self]
      exact blank _
    · rw [Evaluators.enter_other _ _ same]
      exact (still other).turned (kept.numbered.claims other) kept turned unlooked
  cases turned with
  | moved pid next move =>
      by_cases same : other = pid
      · subst same
        rw [enter_self]
        exact StillSo.moved move kept
      · rw [Evaluators.enter_other _ _ same]
        refine (still other).turned (kept.numbered.claims other) kept (.moved pid next move) fun answer looks => ?_
        subst looks
        generalize before.phase pid = phase at move
        cases move <;> exact same rfl
  | other alert foreign id free =>
      exact (still other).turned (kept.numbered.claims other) kept (.other alert foreign id free) fun _ looks => by cases looks
  | inserted => exact quiet rfl (fun _ => trivial) fun _ looks => by cases looks
  | stamped => exact quiet rfl (fun _ => trivial) fun _ looks => by cases looks
  | raised => exact quiet rfl (fun _ => trivial) fun _ looks => by cases looks
  | resolved => exact quiet rfl (fun _ => trivial) fun _ looks => by cases looks
  | paged => exact quiet rfl (fun _ => trivial) fun _ looks => by cases looks
  | closed => exact quiet rfl (fun _ => trivial) fun _ looks => by cases looks
  | delivered => exact quiet rfl (fun _ => trivial) fun _ looks => by cases looks
  | aborted => exact quiet rfl (fun _ => trivial) fun _ looks => by cases looks

theorem OneOpen.step (oneOpen : OneOpen before) (kept : Kept before)
    (still : ∀ pid, StillSo pid steps before.alerts.committed (before.phase pid))
    (prompt : inTime steps before action = true) (stepped : machine.step action before = some after) : OneOpen after := by
  cases step_turned stepped with
  | moved pid next move =>
      refine oneOpen.entered rfl rfl rfl ?_
      have seen := still pid
      generalize was : before.phase pid = phase at move seen
      cases move with
      | counted episode startedAt =>
          simp only [inTime, was, Bool.not_eq_true'] at prompt
          rw [StillSo, prompt] at seen
          exact fun _ => seen.resolve_left Bool.false_ne_true
      | _ => trivial
  | inserted pid episode startedAt ordinal was free =>
      have claims := kept.numbered.claims pid
      have alone := oneOpen.alone pid
      rw [was] at claims alone
      exact oneOpen.entered rfl rfl rfl (alone (kept.numbered.counted claims.1 claims.2 free))
  | stamped pid series reason alert now rows was updated =>
      have seen := still pid
      simp only [inTime, was, Bool.not_eq_true'] at prompt
      rw [was, StillSo, prompt] at seen
      exact oneOpen.entered (IndexedRows.update_committed updated) rfl rfl (seen.resolve_left Bool.false_ne_true)
  | raised pid episode alert was =>
      have alone := oneOpen.alone pid
      rw [was] at alone
      exact oneOpen.entered rfl rfl rfl alone
  | resolved pid series reason alert now was =>
      have alone := oneOpen.alone pid
      rw [was] at alone
      exact oneOpen.entered rfl rfl rfl alone
  | paged pid episode alert was => exact oneOpen.paged kept was
  | closed pid series reason alert now was => exact oneOpen.closed kept was
  | delivered => exact oneOpen.entered rfl rfl rfl trivial
  | aborted => exact oneOpen.entered rfl rfl rfl trivial
  | other alert foreign id free => exact oneOpen.foreign kept foreign id

theorem oneOpen_of_run (ran : machine.Run steps last) (calm : undisturbed steps = true) :
    (∀ pid, StillSo pid steps last.alerts.committed (last.phase pid)) ∧
      ∀ state ∈ Machine.visited steps last, OneOpen state := by
  induction ran with
  | start =>
      refine ⟨fun _ => trivial, fun state reached => ?_⟩
      rw [List.mem_singleton.mp reached]
      exact oneOpen_initial
  | @step steps before after action ran stepped ih =>
      obtain ⟨prompt, calm⟩ := Bool.and_eq_true_iff.mp calm
      obtain ⟨still, oneOpen⟩ := ih calm
      have kept := kept_of_run ran before List.mem_cons_self
      refine ⟨stillSo_step still kept stepped, fun state reached => ?_⟩
      obtain rfl | older := List.mem_cons.mp reached
      · exact (oneOpen before List.mem_cons_self).step kept still prompt stepped
      · exact oneOpen state older

/-- Where no replica is disturbed, each series has at most one open episode and
no episode is resolved in two audit rows. -/
theorem one_open_episode (ran : machine.Run steps last) (calm : undisturbed steps = true) :
    ∀ state ∈ Machine.visited steps last,
      (∀ series : Series, series.OfRules →
        ((series.episodes state.alerts.committed).filter Alert.isOpen).length ≤ 1) ∧
      (namedBy alertResolvedAction state.audit.committed).Nodup := by
  intro state reached
  have oneOpen := (oneOpen_of_run ran calm).2 state reached
  refine ⟨fun series rules => ?_, oneOpen.once⟩
  rw [← List.countP_eq_length_filter]
  exact oneOpen.one series rules

/-- A page is resolved, and two replicas count the next one: one INSERT is
refused, and its replica then finds the page open. -/
def pagedAgain : List Action :=
  [.begin 0 (.raise deepQueue) 0, .selectOpen 0 none, .count 0, .insert 0, .record 0, .commit 0, .deliver 0,
    .begin 1 (.resolve deepQueue.series "depth 0") 1, .selectOpen 1 (some 0), .stamp 1 1, .record 1, .commit 1,
    .begin 0 (.raise deepQueue) 2, .begin 1 (.raise deepQueue) 2, .selectOpen 0 none, .selectOpen 1 none, .count 0,
    .count 1, .insert 1, .record 1, .commit 1, .insert 0, .begin 0 (.raise deepQueue) 3, .selectOpen 0 (some 1)]

theorem one_open_episode_pagedAgain : ∃ last : Evaluators, last.alerts.committed.map Alert.isOpen = [false, true] ∧
    ((deepQueue.series.episodes last.alerts.committed).filter Alert.isOpen).length ≤ 1 := by
  obtain ⟨steps, last, ran, checked⟩ := @Machine.exists_run _ _ machine pagedAgain
    (fun steps last => decide (last.alerts.committed.map Alert.isOpen = [false, true]) && undisturbed steps)
    (by decide +kernel)
  obtain ⟨unresolved, calm⟩ := Bool.and_eq_true_iff.mp checked
  exact ⟨last, of_decide_eq_true unresolved,
    (one_open_episode ran calm last List.mem_cons_self).1 deepQueue.series (by decide +kernel)⟩

end OneOpen

end IncidentPlatform.Properties
