import IncidentPlatform.Services.AlertEpisodes
import IncidentPlatform.Text.Decimal

namespace IncidentPlatform.Properties

open Concurrency Models Services Storage Evaluators

/-! # The episodes of the alert rules -/

variable {evaluators before after last : Evaluators} {action : Action} {pid other : Pid}
  {series : Series} {alert : Alert} {alerts : List Alert} {ordinal : Nat} {id : Uuid}

section Keys

def PlainSeries (series : Series) : Prop := ':' ∉ series.fingerprint.toList ∧ ':' ∉ series.subject.toList

theorem plain_of_rules (rules : series.OfRules) : PlainSeries series := by
  have plain : ':' ∉ consumerStalledFingerprint.toList ∧ ':' ∉ dlqDepthFingerprint.toList ∧ ':' ∉ dlqSubject.toList ∧
      ∀ group ∈ measuredGroups, ':' ∉ group.toList := by decide
  obtain ⟨stalled, depth, total, groups⟩ := plain
  obtain ⟨-, fingerprint, subject⟩ | ⟨fingerprint, subject⟩ := rules
  · exact ⟨fingerprint ▸ stalled, groups _ subject⟩
  · exact ⟨fingerprint ▸ depth, subject ▸ total⟩

theorem toList_stem : (dedupPrefix series.fingerprint series.subject).toList =
    dedupNamespace.toList ++ ':' :: (series.fingerprint.toList ++ ':' :: (series.subject.toList ++ [':'])) := by
  simp [dedupPrefix]

theorem toList_key : (series.key ordinal).toList =
    dedupNamespace.toList ++ ':' :: (series.fingerprint.toList ++ ':' :: (series.subject.toList ++
      ':' :: (toString ordinal).toList)) := by
  simp [Series.key, dedupKey, dedupPrefix]

theorem namespace_plain : ':' ∉ dedupNamespace.toList := by decide

theorem splitOn_key (fingerprint : ':' ∉ series.fingerprint.toList) :
    (series.key ordinal).toList.splitOn ':' = dedupNamespace.toList :: series.fingerprint.toList ::
      (series.subject.toList.splitOn ':' ++ [(toString ordinal).toList]) := by
  have digits : ':' ∉ (toString ordinal).toList := by
    intro held
    have digit : ':'.isDigit = true := by
      refine Nat.isDigit_of_mem_toDigits (b := 10) (n := ordinal) (by decide) (by decide) ?_
      simpa [toString, Nat.repr_eq_ofList_toDigits] using held
    contradiction
  rw [toList_key, List.splitOn_append_cons_self_of_not_mem namespace_plain,
    List.splitOn_append_cons_self_of_not_mem fingerprint, List.splitOn_append_cons_self,
    List.splitOn_eq_singleton digits]

theorem seriesOfKey_key (fingerprint : ':' ∉ series.fingerprint.toList) :
    seriesOfKey series.tenantId (series.key ordinal) = some series := by
  have parts : (series.key ordinal).toList.splitOn ':' = _ := splitOn_key fingerprint
  have subject := List.splitOn_ne_nil ':' series.subject.toList
  have many : 0 < (series.subject.toList.splitOn ':').length := List.length_pos_iff.mpr subject
  unfold seriesOfKey
  simp only [parts, List.length_cons, List.length_append, List.length_nil]
  rw [if_neg (by omega)]
  simp [List.intercalate_splitOn, String.ofList_toList]

theorem key_injective {other : Series} {first second : Nat} (plain : PlainSeries series) (theirs : PlainSeries other)
    (tenant : series.tenantId = other.tenantId) (same : series.key first = other.key second) :
    series = other ∧ first = second := by
  have read : seriesOfKey series.tenantId (series.key first) = some series := seriesOfKey_key plain.1
  rw [same, tenant, seriesOfKey_key theirs.1] at read
  cases read
  refine ⟨rfl, Text.toString_injective ?_⟩
  have lists := congrArg String.toList same
  rw [toList_key, toList_key] at lists
  refine String.toList_injective ?_
  simpa only [List.append_cancel_left_eq, List.cons.injEq, true_and] using lists

theorem matches_key_iff {other : Series} (plain : PlainSeries series) (theirs : PlainSeries other)
    (tenant : alert.tenantId = other.tenantId) (keyed : alert.dedupKey = some (other.key ordinal)) :
    series.matches alert = true ↔ series = other := by
  have starts : series.matches alert = true ↔ alert.tenantId = series.tenantId ∧
      (dedupPrefix series.fingerprint series.subject).toList <+: (other.key ordinal).toList := by
    simp [Series.matches, keyStartsWith, keyed, List.isPrefixOf_iff_prefix]
  rw [starts]
  constructor
  · rintro ⟨same, rest, whole⟩
    rw [toList_stem, toList_key] at whole
    have parts := congrArg (List.splitOn ':') whole
    simp only [List.append_assoc, List.cons_append, List.nil_append] at parts
    rw [List.splitOn_append_cons_self_of_not_mem namespace_plain, List.splitOn_append_cons_self_of_not_mem plain.1,
      List.splitOn_append_cons_self_of_not_mem plain.2, List.splitOn_append_cons_self_of_not_mem namespace_plain,
      List.splitOn_append_cons_self_of_not_mem theirs.1, List.splitOn_append_cons_self_of_not_mem theirs.2] at parts
    simp only [List.cons.injEq, true_and] at parts
    obtain ⟨fingerprint, subject, -⟩ := parts
    have first := String.toList_injective fingerprint
    have second := String.toList_injective subject
    cases series
    cases other
    simp_all
  · rintro rfl
    refine ⟨tenant, (toString ordinal).toList, ?_⟩
    rw [toList_stem, toList_key]
    simp

end Keys

section Written

def newAlerts : Evaluation → List Alert
  | .inserted _ alert | .raised _ alert => [alert]
  | _ => []

def newStamps : Evaluation → List (Uuid × (Alert → Alert))
  | .stamped _ _ alert now | .resolved _ _ alert now => [(alert.id, fun row => row.resolve now)]
  | _ => []

def newEntries : Evaluation → List AuditEntry
  | .raised episode alert => [raisedEntry episode alert]
  | .resolved series reason alert _ => [resolvedEntry series reason alert]
  | _ => []

/-- The tables hold for each replica what its evaluation has written, no two
rows with the same id or under the same key, and ids that have been drawn. -/
structure Agreed (evaluators : Evaluators) : Prop where
  keys : evaluators.alerts.Distinct Alert.index
  ids : evaluators.alerts.Distinct fun alert => some alert.id
  drawn : ∀ alert ∈ evaluators.alerts.committed ++ evaluators.alerts.inserted.map Prod.snd, alert.id < evaluators.drawn
  exclusive : evaluators.alerts.Exclusive
  inserted : ∀ pid, evaluators.alerts.insertedBy pid = newAlerts (evaluators.phase pid)
  changed : ∀ pid, evaluators.alerts.changedBy pid = newStamps (evaluators.phase pid)
  entries : ∀ pid, evaluators.audit.pending pid = newEntries (evaluators.phase pid)

theorem agreed_initial : Agreed initial where
  keys := List.nodup_nil
  ids := List.nodup_nil
  drawn := by simp [initial, IndexedRows.empty]
  exclusive := by simp [IndexedRows.Exclusive, initial, IndexedRows.empty]
  inserted _ := rfl
  changed _ := rfl
  entries _ := rfl

end Written

section Steps

inductive PhaseMove (pid : Pid) (rows : IndexedRows Uuid Alert) : Action → Evaluation → Evaluation → Prop where
  | raise (episode : RuleEpisode) (now : Time) (rules : episode.series.OfRules) :
      PhaseMove pid rows (.begin pid (.raise episode) now) .idle (.raising episode now)
  | resolve (series : Series) (reason : String) (now : Time) (rules : series.OfRules) :
      PhaseMove pid rows (.begin pid (.resolve series reason) now) .idle (.resolving series reason)
  | noneOpen (episode : RuleEpisode) (startedAt : Time) (answer : Option Uuid)
      (closed : (episode.series.episodes rows.committed).filter Alert.isOpen = []) :
      PhaseMove pid rows (.selectOpen pid answer) (.raising episode startedAt) (.foundNoneOpen episode startedAt)
  | alreadyOpen (episode : RuleEpisode) (startedAt : Time) (answer : Option Uuid) (alert : Alert)
      (held : alert ∈ episode.series.episodes rows.committed) (unresolved : alert.isOpen = true) :
      PhaseMove pid rows (.selectOpen pid answer) (.raising episode startedAt) .idle
  | nothingOpen (series : Series) (reason : String) (answer : Option Uuid)
      (closed : (series.episodes rows.committed).filter Alert.isOpen = []) :
      PhaseMove pid rows (.selectOpen pid answer) (.resolving series reason) .idle
  | found (series : Series) (reason : String) (answer : Option Uuid) (alert : Alert)
      (held : alert ∈ series.episodes rows.committed) (unresolved : alert.isOpen = true) :
      PhaseMove pid rows (.selectOpen pid answer) (.resolving series reason) (.found series reason alert)
  | counted (episode : RuleEpisode) (startedAt : Time) :
      PhaseMove pid rows (.count pid) (.foundNoneOpen episode startedAt)
        (.counted episode startedAt (episodesSoFar rows.committed episode.series))
  | refused (episode : RuleEpisode) (startedAt : Time) (ordinal : Nat)
      (refusal : episode.title = "" ∨ ¬ rows.Free Alert.index (episode.tenantId, episode.series.key ordinal)) :
      PhaseMove pid rows (.insert pid) (.counted episode startedAt ordinal) .idle

inductive Turned (before : Evaluators) : Action → Evaluators → Prop where
  | moved {action : Action} (pid : Pid) (next : Evaluation)
      (move : PhaseMove pid before.alerts action (before.phase pid) next) : Turned before action (before.enter pid next)
  | inserted (pid : Pid) (episode : RuleEpisode) (startedAt : Time) (ordinal : Nat)
      (was : before.phase pid = .counted episode startedAt ordinal)
      (free : before.alerts.Free Alert.index (episode.tenantId, episode.series.key ordinal)) :
      Turned before (.insert pid)
        { before.enter pid (.inserted episode (episode.alert before.drawn startedAt ordinal)) with
          alerts := before.alerts.add pid (episode.alert before.drawn startedAt ordinal)
          drawn := before.drawn + 1 }
  | stamped (pid : Pid) (series : Series) (reason : String) (alert : Alert) (now : Time)
      (rows : IndexedRows Uuid Alert) (was : before.phase pid = .found series reason alert)
      (updated : before.alerts.update pid alert.id (fun row => row.resolve now) = some rows) :
      Turned before (.stamp pid now) { before.enter pid (.stamped series reason alert now) with alerts := rows }
  | raised (pid : Pid) (episode : RuleEpisode) (alert : Alert) (was : before.phase pid = .inserted episode alert) :
      Turned before (.record pid) { before.enter pid (.raised episode alert) with
        audit := before.audit.append pid [raisedEntry episode alert] }
  | resolved (pid : Pid) (series : Series) (reason : String) (alert : Alert) (now : Time)
      (was : before.phase pid = .stamped series reason alert now) :
      Turned before (.record pid) { before.enter pid (.resolved series reason alert now) with
        audit := before.audit.append pid [resolvedEntry series reason alert] }
  | paged (pid : Pid) (episode : RuleEpisode) (alert : Alert) (was : before.phase pid = .raised episode alert) :
      Turned before (.commit pid) ((before.publish pid).enter pid (.paging alert))
  | closed (pid : Pid) (series : Series) (reason : String) (alert : Alert) (now : Time)
      (was : before.phase pid = .resolved series reason alert now) :
      Turned before (.commit pid) ((before.publish pid).enter pid .idle)
  | delivered (pid : Pid) (alert : Alert) (was : before.phase pid = .paging alert) :
      Turned before (.deliver pid) { before.enter pid .idle with delivered := before.delivered ++ [alert.id] }
  | aborted (pid : Pid) (busy : before.phase pid ≠ .idle) :
      Turned before (.abort pid) { before.enter pid .idle with
        alerts := before.alerts.rollback pid
        audit := before.audit.rollback pid }
  | other (alert : Alert) (foreign : keyStartsWith (dedupNamespace ++ ":") alert = false)
      (id : alert.id = before.drawn) (free : ∀ wanted, alert.index = some wanted → before.alerts.Free Alert.index wanted) :
      Turned before (.other alert) { before with
        alerts := { before.alerts with committed := before.alerts.committed ++ [alert] }
        drawn := before.drawn + 1 }

theorem openAlert_cases {answer : Option Uuid} {found : Option Alert} (answered : openAlert alerts series answer = some found) :
    match found with
    | none => (series.episodes alerts).filter Alert.isOpen = []
    | some alert => alert ∈ series.episodes alerts ∧ alert.isOpen = true := by
  unfold openAlert at answered
  cases answer with
  | none =>
      dsimp only at answered
      split at answered
      · rename_i empty
        cases answered
        exact List.isEmpty_iff.mp empty
      · cases answered
  | some id =>
      dsimp only at answered
      split at answered
      · rename_i alert located
        split at answered
        · cases answered
          exact List.mem_filter.mp (List.mem_of_find?_eq_some located)
        · cases answered
      · cases answered

theorem beginCall_turned {call : RuleCall} {now : Time} (begun : before.beginCall pid call now = some after) :
    Turned before (.begin pid call now) after := by
  unfold beginCall at begun
  split at begun
  · rename_i idle
    split at begun
    · rename_i rules
      cases call with
      | raise episode =>
          cases begun
          exact .moved pid _ (idle ▸ .raise episode now rules)
      | resolve series reason =>
          cases begun
          exact .moved pid _ (idle ▸ .resolve series reason now rules)
    · cases begun
  · cases begun

theorem selectOpen_turned {answer : Option Uuid} (selected : before.selectOpen pid answer = some after) :
    Turned before (.selectOpen pid answer) after := by
  unfold Evaluators.selectOpen at selected
  split at selected
  · rename_i episode startedAt was
    split at selected
    · rename_i answered
      cases selected
      exact .moved pid _ (was ▸ .noneOpen episode startedAt answer (openAlert_cases answered))
    · rename_i alert answered
      cases selected
      obtain ⟨held, unresolved⟩ := openAlert_cases answered
      exact .moved pid _ (was ▸ .alreadyOpen episode startedAt answer alert held unresolved)
    · cases selected
  · rename_i series reason was
    split at selected
    · rename_i answered
      cases selected
      exact .moved pid _ (was ▸ .nothingOpen series reason answer (openAlert_cases answered))
    · rename_i alert answered
      cases selected
      obtain ⟨held, unresolved⟩ := openAlert_cases answered
      exact .moved pid _ (was ▸ .found series reason answer alert held unresolved)
    · cases selected
  · cases selected

theorem insert_turned (inserted : before.insert pid = some after) : Turned before (.insert pid) after := by
  unfold Evaluators.insert at inserted
  split at inserted
  · rename_i episode startedAt ordinal was
    dsimp only at inserted
    split at inserted
    · rename_i refusal
      cases inserted
      have severe : (episode.alert before.drawn startedAt ordinal).severity ∈ allowedSeverities := by
        simp [RuleEpisode.alert, severityCritical, allowedSeverities]
      have untitled : episode.title = "" := refusal.resolve_left (not_not.mpr severe)
      exact .moved pid _ (was ▸ .refused episode startedAt ordinal (.inl untitled))
    · split at inserted
      · cases inserted
      · rename_i ended
        cases inserted
        have taken := IndexedRows.not_free_of_conflicts ended rfl
        exact .moved pid _ (was ▸ .refused episode startedAt ordinal (.inr taken))
      · rename_i rows ended
        cases inserted
        obtain ⟨rfl, free⟩ := IndexedRows.insert_cases ended
        exact .inserted pid episode startedAt ordinal was (free _ rfl)
  · cases inserted

theorem step_turned (stepped : machine.step action before = some after) : Turned before action after := by
  cases action with
  | begin pid call now => exact beginCall_turned stepped
  | selectOpen pid answer => exact selectOpen_turned stepped
  | count pid =>
      simp only [machine, step, Evaluators.count] at stepped
      split at stepped
      · rename_i episode startedAt was
        cases stepped
        exact .moved pid _ (was ▸ .counted episode startedAt)
      · cases stepped
  | insert pid => exact insert_turned stepped
  | stamp pid now =>
      simp only [machine, step, Evaluators.stamp] at stepped
      split at stepped
      · rename_i series reason alert was
        split at stepped
        · rename_i rows updated
          cases stepped
          exact .stamped pid series reason alert now rows was updated
        · cases stepped
      · cases stepped
  | record pid =>
      simp only [machine, step, Evaluators.record] at stepped
      split at stepped
      · rename_i episode alert was
        cases stepped
        exact .raised pid episode alert was
      · rename_i series reason alert now was
        cases stepped
        exact .resolved pid series reason alert now was
      · cases stepped
  | commit pid =>
      simp only [machine, step, Evaluators.commit] at stepped
      split at stepped
      · rename_i episode alert was
        cases stepped
        exact .paged pid episode alert was
      · rename_i series reason alert now was
        cases stepped
        exact .closed pid series reason alert now was
      · cases stepped
  | deliver pid =>
      simp only [machine, step, Evaluators.deliver] at stepped
      split at stepped
      · rename_i alert was
        cases stepped
        exact .delivered pid alert was
      · cases stepped
  | abort pid =>
      simp only [machine, step, Evaluators.abort] at stepped
      split at stepped
      · cases stepped
      · rename_i busy
        cases stepped
        exact .aborted pid busy
  | other alert =>
      simp only [machine, step, Evaluators.other] at stepped
      split at stepped
      · cases stepped
      · rename_i allowed
        obtain ⟨rows, stored, rfl⟩ := Option.map_eq_some_iff.mp stepped
        obtain ⟨rfl, free⟩ := IndexedRows.store_cases stored
        rw [not_or, Bool.not_eq_true, not_not] at allowed
        exact .other alert allowed.1 allowed.2 free

theorem PhaseMove.unwritten {rows : IndexedRows Uuid Alert} {was next : Evaluation}
    (move : PhaseMove pid rows action was next) :
    (newAlerts was = [] ∧ newAlerts next = []) ∧ (newStamps was = [] ∧ newStamps next = []) ∧
      newEntries was = [] ∧ newEntries next = [] := by
  cases move <;> exact ⟨⟨rfl, rfl⟩, ⟨rfl, rfl⟩, rfl, rfl⟩

theorem holds_entered {Written : Type} {written : Pid → Written} {holds : Evaluation → Written} {next : Evaluation}
    (own : written pid = holds next) (others : ∀ other, other ≠ pid → written other = holds (before.phase other)) :
    ∀ other, written other = holds ((before.enter pid next).phase other) := by
  intro other
  by_cases same : other = pid
  · subst same
    rwa [enter_self]
  · rw [Evaluators.enter_other _ _ same]
    exact others other same

theorem index_amended {changes : List (Uuid × (Alert → Alert))} (stamps : ∃ phase, changes = newStamps phase) :
    (IndexedRows.amended Alert.id changes alert).index = alert.index ∧
      (IndexedRows.amended Alert.id changes alert).id = alert.id := by
  obtain ⟨phase, rfl⟩ := stamps
  cases phase with
  | stamped | resolved =>
      unfold newStamps
      rw [IndexedRows.amended_one]
      split <;> exact ⟨rfl, rfl⟩
  | _ => exact ⟨rfl, rfl⟩

theorem Agreed.publish (consistent : Agreed before) {next : Evaluation} (quiet : newAlerts next = [] ∧
    newStamps next = [] ∧ newEntries next = []) : Agreed ((before.publish pid).enter pid next) where
  keys := consistent.keys.commit fun _ => (index_amended ⟨_, consistent.changed pid⟩).1
  ids := consistent.ids.commit fun _ => congrArg some (index_amended ⟨_, consistent.changed pid⟩).2
  drawn := by
    intro alert member
    cases List.mem_append.mp member with
    | inl committed =>
        cases List.mem_append.mp committed with
        | inl amended =>
            obtain ⟨row, held, rfl⟩ := List.mem_map.mp amended
            rw [(index_amended ⟨_, consistent.changed pid⟩).2]
            exact consistent.drawn row (List.mem_append_left _ held)
        | inr inserted =>
            exact consistent.drawn alert (List.mem_append_right _
              (List.mem_map.mpr ⟨(pid, alert), IndexedRows.mem_ofPid.mp inserted, rfl⟩))
    | inr inserted =>
        obtain ⟨entry, held, rfl⟩ := List.mem_map.mp inserted
        exact consistent.drawn _ (List.mem_append_right _ (List.mem_map_of_mem (List.mem_of_mem_filter held)))
  exclusive := consistent.exclusive.commit
  inserted := holds_entered (by rw [quiet.1]; exact IndexedRows.commit_insertedBy.trans (if_pos rfl)) fun other different =>
    (IndexedRows.commit_insertedBy.trans (if_neg different)).trans (consistent.inserted other)
  changed := holds_entered (by rw [quiet.2.1]; exact IndexedRows.commit_changedBy.trans (if_pos rfl)) fun other different =>
    (IndexedRows.commit_changedBy.trans (if_neg different)).trans (consistent.changed other)
  entries := holds_entered (by rw [quiet.2.2]; exact if_pos rfl) fun other different =>
    (if_neg different).trans (consistent.entries other)

theorem Agreed.turned (consistent : Agreed before) (turned : Turned before action after) : Agreed after := by
  have keys := consistent.keys
  have ids := consistent.ids
  have drawn := consistent.drawn
  have inserted := consistent.inserted
  have changed := consistent.changed
  have entries := consistent.entries
  cases turned with
  | moved pid next move =>
      obtain ⟨alerts, stamps, rows⟩ := move.unwritten
      exact ⟨keys, ids, drawn, consistent.exclusive,
        holds_entered ((inserted pid).trans (alerts.1.trans alerts.2.symm)) fun other _ => inserted other,
        holds_entered ((changed pid).trans (stamps.1.trans stamps.2.symm)) fun other _ => changed other,
        holds_entered ((entries pid).trans (rows.1.trans rows.2.symm)) fun other _ => entries other⟩
  | inserted pid episode startedAt ordinal was free =>
      have fresh : before.alerts.Free (fun alert => some alert.id) before.drawn := by
        intro stored held same
        exact Nat.ne_of_lt (drawn stored held) (Option.some.inj same)
      refine ⟨keys.add ?_, ids.add ?_, ?_, consistent.exclusive, holds_entered ?_ ?_, holds_entered ?_ ?_,
        holds_entered ?_ ?_⟩
      · rintro _ ⟨⟩
        exact free
      · rintro _ ⟨⟩
        exact fresh
      · intro stored held
        simp only [IndexedRows.add, List.map_append, ← List.append_assoc] at held
        cases List.mem_append.mp held with
        | inl older => exact Nat.lt_succ_of_lt (drawn stored older)
        | inr new =>
            rw [List.mem_singleton.mp new]
            exact Nat.lt_succ_self _
      · rw [IndexedRows.add_insertedBy, if_pos rfl, inserted, was]
        rfl
      · intro other different
        rw [IndexedRows.add_insertedBy, if_neg different, inserted]
      · rw [IndexedRows.add_changedBy, changed, was]
        rfl
      · exact fun other _ => changed other
      · exact (entries pid).trans (by rw [was]; rfl)
      · exact fun other _ => entries other
  | stamped pid series reason alert now rows was updated =>
      have same := IndexedRows.update_committed updated
      have insertions : rows.inserted = before.alerts.inserted := by
        unfold IndexedRows.update at updated
        split at updated <;> cases updated
        rfl
      refine ⟨?_, ?_, ?_, consistent.exclusive.update updated, holds_entered ?_ ?_, holds_entered ?_ ?_,
        holds_entered ?_ ?_⟩
      · simpa [IndexedRows.Distinct, same, insertions] using keys
      · simpa [IndexedRows.Distinct, same, insertions] using ids
      · simpa [same, insertions, enter] using drawn
      · rw [IndexedRows.update_insertedBy updated, inserted, was]
        rfl
      · intro other _
        rw [IndexedRows.update_insertedBy updated, inserted]
      · rw [IndexedRows.update_changedBy updated, if_pos rfl, changed, was]
        rfl
      · intro other different
        rw [IndexedRows.update_changedBy updated, if_neg different, changed]
      · exact (entries pid).trans (by rw [was]; rfl)
      · exact fun other _ => entries other
  | raised pid episode alert was =>
      refine ⟨keys, ids, drawn, consistent.exclusive,
        holds_entered ((inserted pid).trans (by rw [was]; rfl)) fun other _ => inserted other,
        holds_entered ((changed pid).trans (by rw [was]; rfl)) fun other _ => changed other, holds_entered ?_ ?_⟩
      · exact (if_pos rfl).trans (by rw [entries, was]; rfl)
      · exact fun other different => (if_neg different).trans (entries other)
  | resolved pid series reason alert now was =>
      refine ⟨keys, ids, drawn, consistent.exclusive,
        holds_entered ((inserted pid).trans (by rw [was]; rfl)) fun other _ => inserted other,
        holds_entered ((changed pid).trans (by rw [was]; rfl)) fun other _ => changed other, holds_entered ?_ ?_⟩
      · exact (if_pos rfl).trans (by rw [entries, was]; rfl)
      · exact fun other different => (if_neg different).trans (entries other)
  | paged pid episode alert was => exact consistent.publish ⟨rfl, rfl, rfl⟩
  | closed pid series reason alert now was => exact consistent.publish ⟨rfl, rfl, rfl⟩
  | delivered pid alert was =>
      exact ⟨keys, ids, drawn, consistent.exclusive,
        holds_entered ((inserted pid).trans (by rw [was]; rfl)) fun other _ => inserted other,
        holds_entered ((changed pid).trans (by rw [was]; rfl)) fun other _ => changed other,
        holds_entered ((entries pid).trans (by rw [was]; rfl)) fun other _ => entries other⟩
  | aborted pid busy =>
      refine ⟨keys.rollback, ids.rollback, ?_, consistent.exclusive.rollback,
        holds_entered (IndexedRows.rollback_insertedBy.trans (if_pos rfl)) ?_,
        holds_entered (IndexedRows.rollback_changedBy.trans (if_pos rfl)) ?_, holds_entered (if_pos rfl) ?_⟩
      · intro stored held
        refine drawn stored (List.mem_append.mpr ((List.mem_append.mp held).imp id fun inserted => ?_))
        obtain ⟨entry, member, rfl⟩ := List.mem_map.mp inserted
        exact List.mem_map_of_mem (List.mem_of_mem_filter member)
      · intro other different
        rw [IndexedRows.rollback_insertedBy, if_neg different, inserted]
      · intro other different
        rw [IndexedRows.rollback_changedBy, if_neg different, changed]
      · exact fun other different => (if_neg different).trans (entries other)
  | other alert foreign id free =>
      refine ⟨keys.append free, ids.append ?_, ?_, consistent.exclusive, inserted, changed, entries⟩
      · rintro _ ⟨⟩ stored held same
        exact Nat.ne_of_lt (drawn stored held) ((Option.some.inj same).trans id)
      · intro stored held
        simp only [List.append_assoc, List.mem_append, List.mem_singleton] at held
        obtain committed | rfl | inserted := held
        · exact Nat.lt_succ_of_lt (drawn stored (List.mem_append_left _ committed))
        · rw [id]
          exact Nat.lt_succ_self _
        · exact Nat.lt_succ_of_lt (drawn stored (List.mem_append_right _ inserted))

end Steps

section Rows

def resolvedBy (id : Uuid) (now : Time) (row : Alert) : Alert := if row.id = id then row.resolve now else row

def ofRules (alert : Alert) : Bool := keyStartsWith (dedupNamespace ++ ":") alert

variable {now : Time}

@[simp] theorem resolvedBy_id : (resolvedBy id now alert).id = alert.id := by
  unfold resolvedBy
  split <;> rfl

@[simp] theorem resolvedBy_dedupKey : (resolvedBy id now alert).dedupKey = alert.dedupKey := by
  unfold resolvedBy
  split <;> rfl

@[simp] theorem matches_resolvedBy : series.matches (resolvedBy id now alert) = series.matches alert := by
  unfold resolvedBy
  split <;> rfl

@[simp] theorem ofRules_resolvedBy : ofRules (resolvedBy id now alert) = ofRules alert := by
  unfold ofRules keyStartsWith
  rw [resolvedBy_dedupKey]

theorem episodes_append : series.episodes (alerts ++ [alert]) =
    series.episodes alerts ++ if series.matches alert then [alert] else [] := by
  rw [Series.episodes, List.filter_append, List.filter_singleton, Bool.cond_eq_ite, Series.episodes]

theorem episodes_resolvedBy :
    series.episodes (alerts.map (resolvedBy id now)) = (series.episodes alerts).map (resolvedBy id now) := by
  rw [Series.episodes, List.filter_map]
  exact congrArg _ (List.filter_congr fun row _ => matches_resolvedBy)

theorem episodesSoFar_resolvedBy : episodesSoFar (alerts.map (resolvedBy id now)) series = episodesSoFar alerts series := by
  rw [episodesSoFar, episodes_resolvedBy, List.length_map, episodesSoFar]

theorem ofRules_of_matches (matching : series.matches alert = true) : ofRules alert = true := by
  unfold Series.matches at matching
  obtain ⟨-, starts⟩ := Bool.and_eq_true_iff.mp matching
  unfold ofRules
  unfold keyStartsWith at starts ⊢
  cases keyed : alert.dedupKey with
  | none =>
      rw [keyed] at starts
      cases starts
  | some key =>
      rw [keyed, Option.any_some, List.isPrefixOf_iff_prefix, toList_stem] at starts
      rw [Option.any_some, List.isPrefixOf_iff_prefix]
      refine List.IsPrefix.trans ?_ starts
      exact ⟨series.fingerprint.toList ++ ':' :: (series.subject.toList ++ [':']), by simp⟩

end Rows

section Numbering

def Claims (alerts : List Alert) : Evaluation → Prop
  | .idle => True
  | .raising episode _ | .foundNoneOpen episode _ => episode.series.OfRules
  | .counted episode _ ordinal => episode.series.OfRules ∧ ordinal ≤ episodesSoFar alerts episode.series
  | .inserted episode alert | .raised episode alert => episode.series.OfRules ∧
      ∃ id firedAt, alert = episode.alert id firedAt (episodesSoFar alerts episode.series)
  | .paging alert => ∃ series : Series, series.OfRules ∧ ∃ stored ∈ series.episodes alerts, stored.id = alert.id
  | .resolving series _ => series.OfRules
  | .found series _ alert | .stamped series _ alert _ | .resolved series _ alert _ =>
      series.OfRules ∧ ∃ stored ∈ series.episodes alerts, stored.id = alert.id

/-- The committed episodes of each series are numbered from zero, in the order of
their commits, and every alert of the rules is one of them. -/
structure Numbered (evaluators : Evaluators) : Prop where
  ordinals : ∀ series : Series, series.OfRules →
    (series.episodes evaluators.alerts.committed).map Alert.dedupKey =
      (List.range (episodesSoFar evaluators.alerts.committed series)).map fun ordinal => some (series.key ordinal)
  known : ∀ alert ∈ evaluators.alerts.committed, ofRules alert = true →
    ∃ series : Series, series.OfRules ∧ series.matches alert = true
  claims : ∀ pid, Claims evaluators.alerts.committed (evaluators.phase pid)

theorem numbered_initial : Numbered initial where
  ordinals _ _ := rfl
  known _ absent := by cases absent
  claims _ := trivial

variable {episode : RuleEpisode} {startedAt : Time} {grown : List Alert} {phase next : Evaluation}

theorem matches_alert_iff (rules : series.OfRules) (theirs : episode.series.OfRules) :
    series.matches (episode.alert id startedAt ordinal) = true ↔ series = episode.series :=
  matches_key_iff (plain_of_rules rules) (plain_of_rules theirs) rfl rfl

theorem Claims.kept (claims : Claims alerts phase)
    (more : ∀ series, episodesSoFar alerts series ≤ episodesSoFar grown series)
    (stays : ∀ series : Series, ∀ stored ∈ series.episodes alerts, ∃ now ∈ series.episodes grown, now.id = stored.id)
    (pending : ∀ episode alert, phase = .inserted episode alert ∨ phase = .raised episode alert →
      episodesSoFar grown episode.series = episodesSoFar alerts episode.series) : Claims grown phase := by
  have named : ∀ series : Series, ∀ id, (∃ stored ∈ series.episodes alerts, stored.id = id) →
      ∃ now ∈ series.episodes grown, now.id = id := by
    rintro series _ ⟨stored, held, rfl⟩
    exact stays series stored held
  cases phase with
  | counted => exact ⟨claims.1, claims.2.trans (more _)⟩
  | inserted episode alert =>
      obtain ⟨rules, id, firedAt, rfl⟩ := claims
      exact ⟨rules, id, firedAt, by rw [pending _ _ (.inl rfl)]⟩
  | raised episode alert =>
      obtain ⟨rules, id, firedAt, rfl⟩ := claims
      exact ⟨rules, id, firedAt, by rw [pending _ _ (.inr rfl)]⟩
  | paging =>
      obtain ⟨series, rules, found⟩ := claims
      exact ⟨series, rules, named series _ found⟩
  | found | stamped | resolved => exact ⟨claims.1, named _ _ claims.2⟩
  | _ => exact claims

theorem Claims.moved {rows : IndexedRows Uuid Alert} (claims : Claims rows.committed phase)
    (move : PhaseMove pid rows action phase next) : Claims rows.committed next := by
  cases move with
  | raise _ _ rules | resolve _ _ _ rules => exact rules
  | noneOpen => exact claims
  | found series reason answer alert held => exact ⟨claims, alert, held, rfl⟩
  | counted => exact ⟨claims, Nat.le_refl _⟩
  | _ => trivial

theorem claims_entered (own : Claims alerts next) (others : ∀ other, other ≠ pid → Claims alerts (before.phase other)) :
    ∀ other, Claims alerts ((before.enter pid next).phase other) := by
  intro other
  by_cases same : other = pid
  · subst same
    rwa [enter_self]
  · rw [Evaluators.enter_other _ _ same]
    exact others other same

theorem Numbered.entered (numbered : Numbered before) (same : after.alerts.committed = before.alerts.committed)
    (phases : after.phase = (before.enter pid next).phase) (own : Claims before.alerts.committed next) : Numbered after where
  ordinals := by
    rw [same]
    exact numbered.ordinals
  known := by
    rw [same]
    exact numbered.known
  claims := by
    rw [same, phases]
    exact claims_entered own fun other _ => numbered.claims other

theorem Numbered.counted (numbered : Numbered before) (rules : series.OfRules)
    (counted : ordinal ≤ episodesSoFar before.alerts.committed series)
    (free : before.alerts.Free Alert.index (series.tenantId, series.key ordinal)) :
    ordinal = episodesSoFar before.alerts.committed series := by
  by_contra different
  have earlier : ordinal < episodesSoFar before.alerts.committed series := Nat.lt_of_le_of_ne counted different
  have used : some (series.key ordinal) ∈ (series.episodes before.alerts.committed).map Alert.dedupKey := by
    rw [numbered.ordinals series rules]
    exact List.mem_map.mpr ⟨ordinal, List.mem_range.mpr earlier, rfl⟩
  obtain ⟨stored, held, keyed⟩ := List.mem_map.mp used
  obtain ⟨committed, matching⟩ := List.mem_filter.mp held
  have tenant : stored.tenantId = series.tenantId := by
    unfold Series.matches at matching
    exact of_decide_eq_true (Bool.and_eq_true_iff.mp matching).1
  refine free stored (List.mem_append_left _ committed) ?_
  rw [Alert.index, keyed, Option.map_some, tenant]

theorem publish_raised (consistent : Agreed before) (was : before.phase pid = .raised episode alert) :
    (before.publish pid).alerts.committed = before.alerts.committed ++ [alert] := by
  have inserted := consistent.inserted pid
  have changed := consistent.changed pid
  rw [was] at inserted changed
  simp only [publish, IndexedRows.commit_committed, inserted, changed, newAlerts, newStamps, IndexedRows.amended_nil,
    List.map_id]

theorem publish_resolved (consistent : Agreed before) {reason : String} {now : Time}
    (was : before.phase pid = .resolved series reason alert now) :
    (before.publish pid).alerts.committed = before.alerts.committed.map (resolvedBy alert.id now) := by
  have inserted := consistent.inserted pid
  have changed := consistent.changed pid
  rw [was] at inserted changed
  simp only [publish, IndexedRows.commit_committed, inserted, changed, newAlerts, newStamps, List.append_nil]
  rfl

theorem inserted_of_phase (consistent : Agreed before) (held : alert ∈ newAlerts (before.phase pid)) :
    (pid, alert) ∈ before.alerts.inserted := by
  rw [← consistent.inserted] at held
  exact IndexedRows.mem_ofPid.mp held

theorem Numbered.sole_page (numbered : Numbered before) (consistent : Agreed before) {second : RuleEpisode}
    {theirs : Alert} (mine : before.phase pid = .inserted episode alert ∨ before.phase pid = .raised episode alert)
    (held : before.phase other = .inserted second theirs ∨ before.phase other = .raised second theirs)
    (same : episode.series = second.series) : pid = other := by
  have page : ∀ {pid episode alert},
      before.phase pid = .inserted episode alert ∨ before.phase pid = .raised episode alert →
      (pid, alert) ∈ before.alerts.inserted ∧ alert.index =
        some (episode.series.tenantId, episode.series.key (episodesSoFar before.alerts.committed episode.series)) := by
    intro pid episode alert phase
    have claims := numbered.claims pid
    have written : alert ∈ newAlerts (before.phase pid) → (pid, alert) ∈ before.alerts.inserted :=
      inserted_of_phase consistent
    obtain phase | phase := phase
    · rw [phase] at claims written
      obtain ⟨-, id, firedAt, rfl⟩ := claims
      exact ⟨written List.mem_cons_self, rfl⟩
    · rw [phase] at claims written
      obtain ⟨-, id, firedAt, rfl⟩ := claims
      exact ⟨written List.mem_cons_self, rfl⟩
  obtain ⟨first, one⟩ := page mine
  obtain ⟨second, two⟩ := page held
  rw [← same] at two
  exact congrArg Prod.fst (consistent.keys.sole first second one two)

theorem Numbered.paged (numbered : Numbered before) (consistent : Agreed before)
    (was : before.phase pid = .raised episode alert) : Numbered ((before.publish pid).enter pid (.paging alert)) := by
  have claims := numbered.claims pid
  rw [was] at claims
  obtain ⟨rules, id, firedAt, named⟩ := claims
  have rows : ((before.publish pid).enter pid (.paging alert)).alerts.committed = before.alerts.committed ++ [alert] :=
    publish_raised consistent was
  have matching : ∀ series : Series, series.OfRules → (series.matches alert = true ↔ series = episode.series) := by
    intro series known
    rw [named]
    exact matches_alert_iff known rules
  have more : ∀ series, episodesSoFar before.alerts.committed series ≤
      episodesSoFar (before.alerts.committed ++ [alert]) series := by
    intro series
    unfold episodesSoFar
    rw [episodes_append, List.length_append]
    exact Nat.le_add_right _ _
  have stays : ∀ series : Series, ∀ stored ∈ series.episodes before.alerts.committed,
      ∃ now ∈ series.episodes (before.alerts.committed ++ [alert]), now.id = stored.id := by
    intro series stored held
    rw [episodes_append]
    exact ⟨stored, List.mem_append_left _ held, rfl⟩
  constructor
  · intro series known
    rw [rows, episodesSoFar, episodes_append]
    by_cases same : series = episode.series
    · subst same
      rw [if_pos ((matching _ rules).mpr rfl), List.map_append, numbered.ordinals _ rules, List.length_append,
        List.length_singleton, List.range_succ, List.map_append, ← episodesSoFar]
      simp only [List.map_cons, List.map_nil, named]
      rfl
    · rw [if_neg (mt (matching series known).mp same), List.append_nil]
      exact numbered.ordinals series known
  · intro stored held ours
    rw [rows] at held
    obtain older | new := List.mem_append.mp held
    · exact numbered.known stored older ours
    · rw [List.mem_singleton.mp new]
      exact ⟨episode.series, rules, (matching _ rules).mpr rfl⟩
  · rw [rows]
    refine claims_entered ?_ fun other different => (numbered.claims other).kept more stays ?_
    · refine ⟨episode.series, rules, alert, ?_, rfl⟩
      rw [episodes_append, if_pos ((matching _ rules).mpr rfl)]
      exact List.mem_append_right _ List.mem_cons_self
    · intro second theirs phase
      have apart : second.series ≠ episode.series := fun same =>
        different (numbered.sole_page consistent phase (.inr was) same)
      have known : second.series.OfRules := by
        have claims := numbered.claims other
        obtain phase | phase := phase <;> rw [phase] at claims <;> exact claims.1
      unfold episodesSoFar
      rw [episodes_append, if_neg (mt (matching _ known).mp apart), List.append_nil]

theorem Numbered.closed (numbered : Numbered before) (consistent : Agreed before) {reason : String} {now : Time}
    (was : before.phase pid = .resolved series reason alert now) : Numbered ((before.publish pid).enter pid .idle) := by
  have rows : ((before.publish pid).enter pid .idle).alerts.committed =
      before.alerts.committed.map (resolvedBy alert.id now) := publish_resolved consistent was
  constructor
  · intro series known
    rw [rows, episodesSoFar_resolvedBy, episodes_resolvedBy, List.map_map, ← numbered.ordinals series known]
    exact List.map_congr_left fun _ _ => resolvedBy_dedupKey
  · intro stored held ours
    rw [rows] at held
    obtain ⟨row, older, rfl⟩ := List.mem_map.mp held
    rw [ofRules_resolvedBy] at ours
    obtain ⟨series, known, matching⟩ := numbered.known row older ours
    exact ⟨series, known, matches_resolvedBy.trans matching⟩
  · rw [rows]
    refine claims_entered trivial fun other _ => (numbered.claims other).kept ?_ ?_ ?_
    · exact fun series => episodesSoFar_resolvedBy.ge
    · intro series stored held
      rw [episodes_resolvedBy]
      exact ⟨_, List.mem_map_of_mem held, resolvedBy_id⟩
    · exact fun _ _ _ => episodesSoFar_resolvedBy

theorem Numbered.foreign (numbered : Numbered before) (foreign : ofRules alert = false) :
    Numbered { before with
      alerts := { before.alerts with committed := before.alerts.committed ++ [alert] }
      drawn := before.drawn + 1 } := by
  have unmatched : ∀ series : Series, series.matches alert = false := by
    intro series
    refine Bool.eq_false_iff.mpr fun matching => ?_
    rw [ofRules_of_matches matching] at foreign
    cases foreign
  have same : ∀ series : Series, series.episodes (before.alerts.committed ++ [alert]) =
      series.episodes before.alerts.committed := by
    intro series
    rw [episodes_append, unmatched]
    exact List.append_nil _
  have total : ∀ series, episodesSoFar (before.alerts.committed ++ [alert]) series =
      episodesSoFar before.alerts.committed series := fun series => congrArg List.length (same series)
  constructor
  · intro series known
    rw [same, total]
    exact numbered.ordinals series known
  · intro stored held ours
    obtain older | new := List.mem_append.mp held
    · exact numbered.known stored older ours
    · rw [List.mem_singleton.mp new, foreign] at ours
      cases ours
  · intro other
    refine (numbered.claims other).kept (fun series => (total series).ge) (fun series stored held => ?_)
      fun _ _ _ => total _
    rw [same]
    exact ⟨stored, held, rfl⟩

theorem Numbered.turned (numbered : Numbered before) (consistent : Agreed before) (turned : Turned before action after) :
    Numbered after := by
  cases turned with
  | moved pid next move => exact numbered.entered rfl rfl ((numbered.claims pid).moved move)
  | inserted pid episode startedAt ordinal was free =>
      have claims := numbered.claims pid
      rw [was] at claims
      have counted := numbered.counted claims.1 claims.2 free
      refine numbered.entered rfl rfl ⟨claims.1, before.drawn, startedAt, ?_⟩
      rw [← counted]
  | stamped pid series reason alert now rows was updated =>
      have claims := numbered.claims pid
      rw [was] at claims
      exact numbered.entered (IndexedRows.update_committed updated) rfl claims
  | raised pid episode alert was =>
      have claims := numbered.claims pid
      rw [was] at claims
      exact numbered.entered rfl rfl claims
  | resolved pid series reason alert now was =>
      have claims := numbered.claims pid
      rw [was] at claims
      exact numbered.entered rfl rfl claims
  | paged pid episode alert was => exact numbered.paged consistent was
  | closed pid series reason alert now was => exact numbered.closed consistent was
  | delivered pid alert was => exact numbered.entered rfl rfl trivial
  | aborted pid busy => exact numbered.entered rfl rfl trivial
  | other alert foreign id free => exact numbered.foreign foreign

end Numbering

end IncidentPlatform.Properties
