import IncidentPlatform.Properties.AlertPages
import Mathlib.Data.List.MinMax

namespace IncidentPlatform.Properties

open Concurrency Models Services Storage Evaluators

/-! # A replica that is left alone

One evaluation after another, each with nobody else at work, is an alarm that
latches: it opens the next episode when none is open, and closes it again.
-/

/-- How many episodes a series has had, and how many of them are open. -/
structure Alarm where
  episodes : Nat
  unresolved : Nat
deriving DecidableEq

def Alarm.react (alarm : Alarm) : RuleCall → Alarm
  | .raise _ => if alarm.unresolved = 0 then ⟨alarm.episodes + 1, 1⟩ else alarm
  | .resolve .. => { alarm with unresolved := alarm.unresolved - 1 }

def alarmOf (alerts : List Alert) (series : Series) : Alarm where
  episodes := episodesSoFar alerts series
  unresolved := (series.episodes alerts).countP Alert.isOpen

variable {before after state last : Evaluators} {pid other : Pid} {series : Series} {alert : Alert}
  {episode : RuleEpisode} {now startedAt : Time} {phase next : Evaluation} {call : RuleCall}
  {alerts : List Alert} {action : Action} {steps : List (Evaluators × Action)} {alarm : Alarm}

def ownStep (pid : Pid) : Action → Bool
  | .begin other _ _ | .selectOpen other _ | .count other | .insert other | .stamp other _ | .record other
  | .commit other | .deliver other => other = pid
  | .abort _ | .other _ => false

def begunBy : Action → Option RuleCall
  | .begin _ call _ => some call
  | _ => none

def callsOf (steps : List (Evaluators × Action)) : List RuleCall :=
  steps.reverse.filterMap fun taken => begunBy taken.2

/-- From `state` the replica has made these calls, alone, and is done with them. -/
structure Completed (pid : Pid) (state : Evaluators) (calls : List RuleCall) (steps : List (Evaluators × Action))
    (last : Evaluators) : Prop where
  ran : machine.Segment state steps last
  own : ∀ taken ∈ steps, ownStep pid taken.2 = true
  calls : callsOf steps = calls
  ended : last.phase pid = .idle

def Titled : RuleCall → Prop
  | .raise episode => episode.title ≠ ""
  | .resolve .. => True

theorem callsOf_cons : callsOf ((before, action) :: steps) = callsOf steps ++ (begunBy action).toList := by
  unfold callsOf
  rw [List.reverse_cons, List.filterMap_append]
  cases called : begunBy action <;> simp [called]

/-- Only the evaluation of `pid` is under way. -/
def LoneAt (pid : Pid) (evaluators : Evaluators) (phase : Evaluation) : Prop :=
  ∀ other, evaluators.phase other = if other = pid then phase else .idle

section Steps

theorem LoneAt.own (lone : LoneAt pid before phase) : before.phase pid = phase := (lone pid).trans (if_pos rfl)

theorem LoneAt.enter (lone : LoneAt pid before phase) (phases : after.phase = (before.enter pid next).phase) :
    LoneAt pid after next := by
  intro other
  rw [phases]
  by_cases same : other = pid
  · subst same
    rw [enter_self, if_pos rfl]
  · rw [Evaluators.enter_other _ _ same, lone other, if_neg same, if_neg same]

theorem uninserted (kept : Kept before) (lone : LoneAt pid before phase) (unwritten : newAlerts phase = []) :
    before.alerts.inserted = [] := by
  refine IndexedRows.eq_nil_of_ofPid fun other => ?_
  have known := kept.consistent.inserted other
  rw [lone other] at known
  refine known.trans ?_
  split
  · exact unwritten
  · rfl

theorem unchanged (kept : Kept before) (lone : LoneAt pid before phase) (unwritten : newStamps phase = []) :
    before.alerts.changed = [] := by
  refine IndexedRows.eq_nil_of_ofPid fun other => ?_
  have known := kept.consistent.changed other
  rw [lone other] at known
  refine known.trans ?_
  split
  · exact unwritten
  · rfl

theorem openAlert_answers (ids : (alerts.map Alert.id).Nodup) (series : Series) :
    ∃ answer found, openAlert alerts series answer = some found := by
  cases newest : ((series.episodes alerts).filter Alert.isOpen).argmax Alert.firedAt with
  | none => exact ⟨none, none, by simp [openAlert, List.argmax_eq_none.mp newest]⟩
  | some alert =>
      have held := List.argmax_mem newest
      have among : ∀ row ∈ (series.episodes alerts).filter Alert.isOpen, row ∈ alerts :=
        fun row member => List.mem_of_mem_filter (List.mem_of_mem_filter member)
      have located : ((series.episodes alerts).filter Alert.isOpen).find? (fun row => row.id = alert.id) = some alert := by
        cases found : ((series.episodes alerts).filter Alert.isOpen).find? fun row => row.id = alert.id with
        | none => exact absurd (List.find?_eq_none.mp found alert held) (by simp)
        | some row =>
            have same : row.id = alert.id := by simpa using List.find?_some found
            have listed := List.mem_of_find?_eq_some found
            rw [List.inj_on_of_nodup_map ids (among row listed) (among alert held) same]
      refine ⟨some alert.id, some alert, ?_⟩
      simp only [openAlert, located]
      rw [if_pos]
      exact List.all_eq_true.mpr fun row member => decide_eq_true (List.le_of_mem_argmax member newest)

def remaining : Evaluation → Nat
  | .idle => 0
  | .paging _ | .resolved .. => 1
  | .raised .. | .stamped .. => 2
  | .inserted .. | .found .. => 3
  | .counted .. | .resolving .. => 4
  | .foundNoneOpen .. => 5
  | .raising .. => 6

/-- A lone evaluation has a next step. -/
structure NextStep (pid : Pid) (before : Evaluators) (phase : Evaluation) (action : Action) (after : Evaluators)
    (next : Evaluation) : Prop where
  own : ownStep pid action = true
  calls : begunBy action = none
  stepped : machine.step action before = some after
  lone : LoneAt pid after next
  less : remaining next < remaining phase

theorem lone_selects (kept : Kept before) (lone : LoneAt pid before phase)
    (selects : (∃ episode startedAt, phase = .raising episode startedAt ∧ series = episode.series) ∨
      ∃ reason, phase = .resolving series reason) : ∃ action after next, NextStep pid before phase action after next := by
  have ids := kept.consistent.ids.committed
  rw [List.filterMap_eq_map'] at ids
  obtain ⟨answer, found, answered⟩ := openAlert_answers ids series
  have own := lone.own
  obtain ⟨episode, startedAt, rfl, rfl⟩ | ⟨reason, rfl⟩ := selects
  · cases found with
    | none =>
        refine ⟨.selectOpen pid answer, before.enter pid (.foundNoneOpen episode startedAt), _, by simp [ownStep], rfl, ?_,
          lone.enter rfl, by simp [remaining]⟩
        simp [machine, step, Evaluators.selectOpen, own, answered]
    | some alert =>
        refine ⟨.selectOpen pid answer, before.enter pid .idle, _, by simp [ownStep], rfl, ?_, lone.enter rfl, by simp [remaining]⟩
        simp [machine, step, Evaluators.selectOpen, own, answered]
  · cases found with
    | none =>
        refine ⟨.selectOpen pid answer, before.enter pid .idle, _, by simp [ownStep], rfl, ?_, lone.enter rfl, by simp [remaining]⟩
        simp [machine, step, Evaluators.selectOpen, own, answered]
    | some alert =>
        refine ⟨.selectOpen pid answer, before.enter pid (.found series reason alert), _, by simp [ownStep], rfl, ?_,
          lone.enter rfl, by simp [remaining]⟩
        simp [machine, step, Evaluators.selectOpen, own, answered]

theorem lone_inserts {ordinal : Nat} (kept : Kept before) (lone : LoneAt pid before (.counted episode startedAt ordinal)) :
    ∃ action after next, NextStep pid before (.counted episode startedAt ordinal) action after next := by
  have own := lone.own
  have none := uninserted kept lone rfl
  by_cases refused : (episode.alert before.drawn startedAt ordinal).severity ∉ allowedSeverities ∨
      (episode.alert before.drawn startedAt ordinal).title = ""
  · refine ⟨.insert pid, before.enter pid .idle, _, by simp [ownStep], rfl, ?_, lone.enter rfl, by simp [remaining]⟩
    simp only [machine, step, Evaluators.insert, own]
    rw [if_pos refused]
  · cases ended : before.alerts.insert pid Alert.index (episode.alert before.drawn startedAt ordinal) with
    | waits =>
        simp [IndexedRows.insert, RuleEpisode.alert, Alert.index, none] at ended
        split at ended <;> cases ended
    | conflicts =>
        refine ⟨.insert pid, before.enter pid .idle, _, by simp [ownStep], rfl, ?_, lone.enter rfl, by simp [remaining]⟩
        simp only [machine, step, Evaluators.insert, own]
        rw [if_neg refused, ended]
    | inserts rows =>
        refine ⟨.insert pid, { before.enter pid (.inserted episode (episode.alert before.drawn startedAt ordinal)) with
          alerts := rows
          drawn := before.drawn + 1 }, _, by simp [ownStep], rfl, ?_, lone.enter rfl, by simp [remaining]⟩
        simp only [machine, step, Evaluators.insert, own]
        rw [if_neg refused, ended]

theorem lone_advances (kept : Kept before) (lone : LoneAt pid before phase) (busy : phase ≠ .idle) :
    ∃ action after next, NextStep pid before phase action after next := by
  have own := lone.own
  cases phase with
  | idle => exact absurd rfl busy
  | raising episode startedAt => exact lone_selects kept lone (.inl ⟨episode, startedAt, rfl, rfl⟩)
  | resolving series reason => exact lone_selects kept lone (.inr ⟨reason, rfl⟩)
  | foundNoneOpen episode startedAt =>
      refine ⟨.count pid, before.enter pid (.counted episode startedAt (episodesSoFar before.alerts.committed episode.series)),
        _, by simp [ownStep], rfl, ?_, lone.enter rfl, by simp [remaining]⟩
      simp [machine, step, Evaluators.count, own]
  | counted episode startedAt ordinal => exact lone_inserts kept lone
  | inserted episode alert =>
      refine ⟨.record pid, { before.enter pid (.raised episode alert) with
        audit := before.audit.append pid [raisedEntry episode alert] }, _, by simp [ownStep], rfl, ?_, lone.enter rfl, by simp [remaining]⟩
      simp [machine, step, Evaluators.record, own]
  | raised episode alert =>
      refine ⟨.commit pid, (before.publish pid).enter pid (.paging alert), _, by simp [ownStep], rfl, ?_,
        lone.enter rfl, by simp [remaining]⟩
      simp [machine, step, Evaluators.commit, own]
  | paging alert =>
      refine ⟨.deliver pid, { before.enter pid .idle with delivered := before.delivered ++ [alert.id] }, _,
        by simp [ownStep], rfl, ?_, lone.enter rfl, by simp [remaining]⟩
      simp [machine, step, Evaluators.deliver, own]
  | found series reason alert =>
      have none := unchanged kept lone rfl
      refine ⟨.stamp pid 0, { before.enter pid (.stamped series reason alert 0) with
        alerts := { before.alerts with changed := [(pid, alert.id, fun row => row.resolve 0)] } }, _,
        by simp [ownStep], rfl, ?_, lone.enter rfl, by simp [remaining]⟩
      simp [machine, step, Evaluators.stamp, own, IndexedRows.update, none]
  | stamped series reason alert resolvedAt =>
      refine ⟨.record pid, { before.enter pid (.resolved series reason alert resolvedAt) with
        audit := before.audit.append pid [resolvedEntry series reason alert] }, _, by simp [ownStep], rfl, ?_,
        lone.enter rfl, by simp [remaining]⟩
      simp [machine, step, Evaluators.record, own]
  | resolved series reason alert resolvedAt =>
      refine ⟨.commit pid, (before.publish pid).enter pid .idle, _, by simp [ownStep], rfl, ?_, lone.enter rfl, by simp [remaining]⟩
      simp [machine, step, Evaluators.commit, own]

end Steps

section Ends

/-- A segment of the replica's own steps in which these calls begin. -/
structure Makes (pid : Pid) (calls : List RuleCall) (state : Evaluators) (steps : List (Evaluators × Action))
    (last : Evaluators) : Prop where
  ran : machine.Segment state steps last
  own : ∀ taken ∈ steps, ownStep pid taken.2 = true
  calls : callsOf steps = calls

theorem Makes.start : Makes pid [] state [] state := ⟨.start, by simp, rfl⟩

theorem Makes.step {calls : List RuleCall} (makes : Makes pid calls state steps before)
    (own : ownStep pid action = true) (stepped : machine.step action before = some after) :
    Makes pid (calls ++ (begunBy action).toList) state ((before, action) :: steps) after := by
  refine ⟨makes.ran.step stepped, List.forall_mem_cons.mpr ⟨own, makes.own⟩, ?_⟩
  rw [callsOf_cons, makes.calls]

theorem lone_ends {calls : List RuleCall} (makes : Makes pid calls state steps before) (kept : Kept before)
    (lone : LoneAt pid before phase) :
    ∃ steps last, Makes pid calls state steps last ∧ Kept last ∧ LoneAt pid last .idle := by
  induction left : remaining phase using Nat.strongRecOn generalizing steps before phase with
  | ind count ih =>
      by_cases idle : phase = .idle
      · subst idle
        exact ⟨steps, before, makes, kept, lone⟩
      · obtain ⟨action, after, next, advances⟩ := lone_advances kept lone idle
        have more := makes.step advances.own advances.stepped
        rw [advances.calls, Option.toList_none, List.append_nil] at more
        exact ih _ (left ▸ advances.less) more (kept.step advances.stepped) advances.lone rfl

def begunAt (now : Time) : RuleCall → Evaluation
  | .raise episode => .raising episode now
  | .resolve series reason => .resolving series reason

theorem lone_completes (kept : Kept state) (lone : LoneAt pid state .idle) (calls : List RuleCall)
    (rules : ∀ call ∈ calls, call.series.OfRules) : ∃ steps last, Completed pid state calls steps last := by
  have made : ∃ steps last, Makes pid calls state steps last ∧ Kept last ∧ LoneAt pid last .idle := by
    induction calls using List.reverseRecOn with
    | nil => exact ⟨[], state, .start, kept, lone⟩
    | append_singleton calls call ih =>
        obtain ⟨earlier, known⟩ := List.forall_mem_append.mp rules
        obtain ⟨steps, before, makes, kept, lone⟩ := ih earlier
        have begun : machine.step (.begin pid call 0) before = some (before.enter pid (begunAt 0 call)) := by
          cases call <;> simp [machine, step, beginCall, lone.own, known _ List.mem_cons_self, begunAt]
        exact lone_ends (makes.step (by simp [ownStep]) begun) (kept.step begun) (lone.enter rfl)
  obtain ⟨steps, last, makes, -, lone⟩ := made
  exact ⟨steps, last, makes.ran, makes.own, makes.calls, lone.own⟩

end Ends

section Turns

/-- The call that an evaluation has begun and not yet settled. -/
def underway : Evaluation → Option RuleCall
  | .raising episode _ | .foundNoneOpen episode _ | .counted episode _ _ | .inserted episode _ | .raised episode _ =>
      some (.raise episode)
  | .resolving series reason | .found series reason _ | .stamped series reason _ _ | .resolved series reason _ _ =>
      some (.resolve series reason)
  | .idle | .paging _ => none

def Sighted (alerts : List Alert) : Evaluation → Prop
  | .foundNoneOpen episode _ | .inserted episode _ | .raised episode _ => NoneOpen alerts episode.series
  | .counted episode _ ordinal => NoneOpen alerts episode.series ∧ ordinal = episodesSoFar alerts episode.series
  | .found series _ alert | .stamped series _ alert _ | .resolved series _ alert _ =>
      ∃ stored ∈ series.episodes alerts, stored.isOpen = true ∧ stored.id = alert.id
  | _ => True

/-- The calls that are settled have turned the series, and one may be under way. -/
structure Turning (pid : Pid) (series : Series) (start : Alarm) (steps : List (Evaluators × Action)) (state : Evaluators) :
    Prop where
  kept : Kept state
  lone : LoneAt pid state (state.phase pid)
  sighted : Sighted state.alerts.committed (state.phase pid)
  told : ∃ settled, callsOf steps = settled ++ (underway (state.phase pid)).toList ∧
    alarmOf state.alerts.committed series = settled.foldl Alarm.react start

theorem Turning.begins (turning : Turning pid series alarm steps before) (kept : Kept after)
    (rows : after.alerts.committed = before.alerts.committed) (phases : after.phase = (before.enter pid next).phase)
    (begun : begunBy action = underway next) (was : underway (before.phase pid) = none)
    (sighted : Sighted before.alerts.committed next) : Turning pid series alarm ((before, action) :: steps) after := by
  obtain ⟨settled, calls, turned⟩ := turning.told
  have entered : after.phase pid = next := by rw [phases, enter_self]
  rw [was, Option.toList_none, List.append_nil] at calls
  refine ⟨kept, entered ▸ turning.lone.enter phases, by rwa [entered, rows], settled, ?_, rows ▸ turned⟩
  rw [callsOf_cons, calls, entered, begun]

theorem Turning.along (turning : Turning pid series alarm steps before) (kept : Kept after)
    (rows : after.alerts.committed = before.alerts.committed) (phases : after.phase = (before.enter pid next).phase)
    (quiet : begunBy action = none) (same : underway next = underway (before.phase pid))
    (sighted : Sighted before.alerts.committed next) : Turning pid series alarm ((before, action) :: steps) after := by
  obtain ⟨settled, calls, turned⟩ := turning.told
  have entered : after.phase pid = next := by rw [phases, enter_self]
  refine ⟨kept, entered ▸ turning.lone.enter phases, by rwa [entered, rows], settled, ?_, rows ▸ turned⟩
  rw [callsOf_cons, calls, entered, quiet, same, Option.toList_none, List.append_nil]

theorem Turning.settles (turning : Turning pid series alarm steps before) (kept : Kept after)
    (phases : after.phase = (before.enter pid next).phase) (quiet : begunBy action = none)
    (was : underway (before.phase pid) = some call) (ended : underway next = none)
    (sighted : Sighted after.alerts.committed next)
    (turned : alarmOf after.alerts.committed series = (alarmOf before.alerts.committed series).react call) :
    Turning pid series alarm ((before, action) :: steps) after := by
  obtain ⟨settled, calls, earlier⟩ := turning.told
  have entered : after.phase pid = next := by rw [phases, enter_self]
  refine ⟨kept, entered ▸ turning.lone.enter phases, by rwa [entered], settled ++ [call], ?_, ?_⟩
  · rw [callsOf_cons, calls, quiet, entered, ended, was]
    simp
  · rw [turned, earlier, List.foldl_append]
    rfl

theorem next_key_free (kept : Kept before) (rules : series.OfRules) :
    ∀ stored ∈ before.alerts.committed,
      stored.index ≠ some (series.tenantId, series.key (episodesSoFar before.alerts.committed series)) := by
  intro stored held same
  obtain ⟨key, keyed, equal⟩ := Option.map_eq_some_iff.mp same
  obtain ⟨tenant, rfl⟩ := Prod.mk.inj equal
  have matching : series.matches stored = true :=
    (matches_key_iff (plain_of_rules rules) (plain_of_rules rules) tenant keyed).mpr rfl
  have listed : stored.dedupKey ∈ (series.episodes before.alerts.committed).map Alert.dedupKey :=
    List.mem_map_of_mem (List.mem_filter.mpr ⟨held, matching⟩)
  rw [kept.numbered.ordinals series rules, keyed] at listed
  obtain ⟨ordinal, earlier, same⟩ := List.mem_map.mp listed
  have equal := (key_injective (plain_of_rules rules) (plain_of_rules rules) rfl (Option.some.inj same)).2
  exact Nat.ne_of_lt (List.mem_range.mp earlier) equal

theorem countP_of_noneOpen (none : NoneOpen alerts series) : (series.episodes alerts).countP Alert.isOpen = 0 := by
  rw [List.countP_eq_zero]
  intro alert held
  rw [none alert held]
  exact Bool.false_ne_true

theorem alarmOf_append (none : NoneOpen alerts series) (matching : series.matches alert = true) (isOpen : alert.isOpen = true) :
    alarmOf (alerts ++ [alert]) series = (alarmOf alerts series).react (.raise episode) := by
  unfold alarmOf episodesSoFar Alarm.react
  rw [episodes_append, if_pos matching, countP_of_noneOpen none, if_pos rfl, List.countP_append, countP_of_noneOpen none,
    List.countP_singleton, if_pos isOpen, List.length_append]
  rfl

theorem countP_resolve {stored : Alert} (ids : (alerts.map Alert.id).Nodup) (held : stored ∈ alerts)
    (isOpen : stored.isOpen = true) :
    (alerts.map (resolvedBy stored.id now)).countP Alert.isOpen + 1 = alerts.countP Alert.isOpen := by
  induction alerts with
  | nil => cases held
  | cons row rest ih =>
      obtain ⟨absent, distinct⟩ := List.nodup_cons.mp ids
      rw [List.map_cons, List.countP_cons, List.countP_cons]
      obtain rfl | later := List.mem_cons.mp held
      · have same : rest.map (resolvedBy stored.id now) = rest.map fun other => other := by
          refine List.map_congr_left fun other member => ?_
          have apart : other.id ≠ stored.id := fun equal => absent (equal ▸ List.mem_map_of_mem member)
          exact if_neg apart
        have closed : (resolvedBy stored.id now stored).isOpen = false := isOpen_resolvedBy.mpr (.inl rfl)
        rw [same, List.map_id', closed, isOpen]
        rfl
      · have different : row.id ≠ stored.id := fun same => absent (same ▸ List.mem_map_of_mem later)
        have kept : resolvedBy stored.id now row = row := if_neg different
        rw [kept, ← ih distinct later]
        omega

theorem alarmOf_resolvedBy {stored : Alert} {theirs : Series} (ids : (alerts.map Alert.id).Nodup)
    (held : stored ∈ series.episodes alerts) (isOpen : stored.isOpen = true) :
    alarmOf (alerts.map (resolvedBy stored.id now)) series = (alarmOf alerts series).react (.resolve theirs reason) := by
  have less : ((series.episodes alerts).map (resolvedBy stored.id now)).countP Alert.isOpen + 1 =
      (series.episodes alerts).countP Alert.isOpen :=
    countP_resolve ((List.filter_sublist.map Alert.id).nodup ids) held isOpen
  unfold alarmOf Alarm.react
  rw [episodesSoFar_resolvedBy, episodes_resolvedBy]
  congr 1
  exact Nat.eq_sub_of_add_eq less

theorem Turning.moves (turning : Turning pid series alarm steps before) (rules : series.OfRules)
    (current : ∀ call, underway (before.phase pid) = some call → call.series = series ∧ Titled call)
    (kept : Kept (before.enter pid next)) (move : PhaseMove pid before.alerts action (before.phase pid) next) :
    Turning pid series alarm ((before, action) :: steps) (before.enter pid next) := by
  have sighted := turning.sighted
  have lone := turning.lone
  generalize was : before.phase pid = phase at move
  rw [was] at current sighted lone
  cases move with
  | raise episode now => exact turning.begins kept rfl rfl rfl (by rw [was]; rfl) trivial
  | resolve series reason now => exact turning.begins kept rfl rfl rfl (by rw [was]; rfl) trivial
  | noneOpen episode startedAt answer closed =>
      exact turning.along kept rfl rfl rfl (by rw [was]; rfl) (noneOpen_of_filter closed)
  | alreadyOpen episode startedAt answer alert held isOpen =>
      obtain ⟨rfl, -⟩ := current _ rfl
      refine turning.settles kept rfl rfl (by rw [was]; rfl) rfl trivial ?_
      have some_ : (alarmOf before.alerts.committed episode.series).unresolved ≠ 0 :=
        Nat.ne_of_gt (List.countP_pos_iff.mpr ⟨alert, held, isOpen⟩)
      exact (if_neg some_).symm
  | nothingOpen theirs reason answer closed =>
      have same : theirs = series := (current _ rfl).1
      subst same
      refine turning.settles kept rfl rfl (by rw [was]; rfl) rfl trivial ?_
      have none := countP_of_noneOpen (noneOpen_of_filter closed)
      simp [alarmOf, Alarm.react, enter, none]
  | found series reason answer alert held isOpen =>
      exact turning.along kept rfl rfl rfl (by rw [was]; rfl) ⟨alert, held, isOpen, rfl⟩
  | counted episode startedAt => exact turning.along kept rfl rfl rfl (by rw [was]; rfl) ⟨sighted, rfl⟩
  | refused episode startedAt ordinal refusal =>
      obtain ⟨rfl, titled⟩ := current _ rfl
      obtain ⟨-, rfl⟩ := sighted
      refine absurd refusal (not_or.mpr ⟨titled, not_not.mpr ?_⟩)
      intro stored held
      rw [uninserted turning.kept lone rfl, List.map_nil, List.append_nil] at held
      exact next_key_free turning.kept rules stored held

theorem Turning.step (turning : Turning pid series alarm steps before) (own : ownStep pid action = true)
    (rules : series.OfRules)
    (asked : ∀ call ∈ callsOf ((before, action) :: steps), call.series = series ∧ Titled call)
    (stepped : machine.step action before = some after) : Turning pid series alarm ((before, action) :: steps) after := by
  have kept := turning.kept.step stepped
  have sighted := turning.sighted
  have current : ∀ call, underway (before.phase pid) = some call → call.series = series ∧ Titled call := by
    intro call was
    obtain ⟨settled, calls, -⟩ := turning.told
    refine asked call ?_
    rw [callsOf_cons, calls, was]
    simp
  cases step_turned stepped with
  | moved mine next move =>
      have same : mine = pid := by
        generalize before.phase mine = phase at move
        cases move <;> exact of_decide_eq_true own
      subst same
      exact turning.moves rules current kept move
  | inserted mine episode startedAt ordinal was free =>
      obtain rfl : mine = pid := of_decide_eq_true own
      rw [was] at sighted
      exact turning.along kept rfl rfl rfl (by rw [was]; rfl) sighted.1
  | stamped mine series reason alert now rows was updated =>
      obtain rfl : mine = pid := of_decide_eq_true own
      rw [was] at sighted
      exact turning.along kept (IndexedRows.update_committed updated) rfl rfl (by rw [was]; rfl) sighted
  | raised mine episode alert was =>
      obtain rfl : mine = pid := of_decide_eq_true own
      rw [was] at sighted
      exact turning.along kept rfl rfl rfl (by rw [was]; rfl) sighted
  | resolved mine series reason alert now was =>
      obtain rfl : mine = pid := of_decide_eq_true own
      rw [was] at sighted
      exact turning.along kept rfl rfl rfl (by rw [was]; rfl) sighted
  | paged mine episode alert was =>
      obtain rfl : mine = pid := of_decide_eq_true own
      have claims := turning.kept.numbered.claims mine
      rw [was] at sighted current claims
      obtain ⟨rfl, -⟩ := current _ rfl
      obtain ⟨-, id, firedAt, named⟩ := claims
      refine turning.settles kept rfl rfl (by rw [was]; rfl) rfl trivial ?_
      have rows : ((before.publish mine).enter mine (.paging alert)).alerts.committed =
          before.alerts.committed ++ [alert] := publish_raised turning.kept.consistent was
      rw [rows]
      exact alarmOf_append sighted (by rw [named]; exact (matches_alert_iff rules rules).mpr rfl) (by rw [named]; rfl)
  | closed mine theirs reason alert now was =>
      obtain rfl : mine = pid := of_decide_eq_true own
      rw [was] at sighted current
      have ours : theirs = series := (current _ rfl).1
      subst ours
      obtain ⟨stored, held, isOpen, same⟩ := sighted
      refine turning.settles kept rfl rfl (by rw [was]; rfl) rfl trivial ?_
      have rows : ((before.publish mine).enter mine .idle).alerts.committed =
          before.alerts.committed.map (resolvedBy alert.id now) := publish_resolved turning.kept.consistent was
      have ids := turning.kept.consistent.ids.committed
      rw [List.filterMap_eq_map'] at ids
      rw [rows, ← same]
      exact alarmOf_resolvedBy ids held isOpen
  | delivered mine alert was =>
      obtain rfl : mine = pid := of_decide_eq_true own
      exact turning.along kept rfl rfl rfl (by rw [was]; rfl) trivial
  | aborted => cases own
  | other => cases own

/-- Between two evaluations of any run, a replica that is then left alone with
calls of one series can complete them, and turns it as the alarm whenever it has. -/
theorem lone_evaluator (ran : machine.Run steps state) (idle : ∀ pid, state.phase pid = .idle) (rules : series.OfRules)
    (pid : Pid) (calls : List RuleCall) (asked : ∀ call ∈ calls, call.series = series ∧ Titled call) :
    (∃ later last, Completed pid state calls later last) ∧
      ∀ later last, Completed pid state calls later last →
        alarmOf last.alerts.committed series = calls.foldl Alarm.react (alarmOf state.alerts.committed series) := by
  have kept := kept_of_run ran state List.mem_cons_self
  have lone : LoneAt pid state .idle := fun other => (idle other).trans (by split <;> rfl)
  refine ⟨lone_completes kept lone calls fun call member => (asked call member).1 ▸ rules, ?_⟩
  intro later last completed
  have turning : Turning pid series (alarmOf state.alerts.committed series) later last := by
    obtain ⟨ran, own, rfl, -⟩ := completed
    induction ran with
    | start => exact ⟨kept, (idle pid).symm ▸ lone, by rw [idle]; trivial, [], by rw [idle]; rfl, rfl⟩
    | step ran stepped ih =>
        obtain ⟨mine, earlier⟩ := List.forall_mem_cons.mp own
        refine Turning.step (ih earlier ?_) mine rules asked stepped
        intro call member
        exact asked call (by rw [callsOf_cons]; exact List.mem_append_left _ member)
  obtain ⟨settled, told, turned⟩ := turning.told
  rw [completed.ended, completed.calls] at told
  rw [turned, told]
  simp [underway]

/-- Two raises, a resolution and a raise: two episodes, the second one open. -/
theorem lone_evaluator_deepQueue : ∃ later last,
    Completed 3 Evaluators.initial [.raise deepQueue, .raise deepQueue, .resolve deepQueue.series "depth 0", .raise deepQueue]
      later last ∧ alarmOf last.alerts.committed deepQueue.series = ⟨2, 1⟩ := by
  have rules : deepQueue.series.OfRules := by decide +kernel
  obtain ⟨⟨later, last, completed⟩, turns⟩ := lone_evaluator .start (fun _ => rfl) rules 3
    [.raise deepQueue, .raise deepQueue, .resolve deepQueue.series "depth 0", .raise deepQueue]
    (by simp [RuleCall.series, Titled, deepQueue, RuleEpisode.series])
  exact ⟨later, last, completed, turns later last completed⟩

theorem rules_lagCall {call : RuleCall} {threshold : Int} {group : String} {samples : List Core.LagSampleReading}
    (measured : group ∈ measuredGroups) (asked : lagCall threshold group samples = some call) :
    call.series.OfRules ∧ Titled call := by
  cases samples with
  | nil => cases asked
  | cons sample older =>
      rw [lagCall] at asked
      split at asked
      · obtain rfl := Option.some.inj asked
        exact ⟨.inl ⟨rfl, rfl, measured⟩, by simp [Titled, lagEpisode]⟩
      · obtain rfl := Option.some.inj asked
        exact ⟨.inl ⟨rfl, rfl, measured⟩, trivial⟩

theorem rules_dlqCalls {call : RuleCall} {jobs : List Job} {threshold : Int} {measuredAt : Time}
    {withOpenEpisode : List Uuid} (asked : call ∈ dlqCalls jobs threshold measuredAt withOpenEpisode) :
    call.series.OfRules ∧ Titled call := by
  rcases List.mem_append.mp asked with raised | resolved
  · obtain ⟨episode, breaching, rfl⟩ := List.mem_map.mp raised
    obtain ⟨entry, -, rfl⟩ := List.mem_map.mp breaching
    exact ⟨.inr ⟨rfl, rfl⟩, by simp [Titled, Episode.forRule]⟩
  · obtain ⟨tenantId, -, rfl⟩ := List.mem_map.mp resolved
    exact ⟨.inr ⟨rfl, rfl⟩, trivial⟩

end Turns

end IncidentPlatform.Properties
