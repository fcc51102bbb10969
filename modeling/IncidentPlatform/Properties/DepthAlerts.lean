import IncidentPlatform.Services.AlertRules

namespace IncidentPlatform.Properties

open Models Services

/-! # What the depth alert says of its slice

The picker reads the categories above the baseline as a set, so it tells apart
neither an uncategorised row from a categorised one beside it nor several
categories from none.
-/

/-- The categories of the newest dead letters, down to the baseline. -/
def rowsAboveBaseline (jobs : List Job) (tenantId : Uuid) (threshold : Int) : List (Option String) :=
  newestHints jobs tenantId ((deadLetters jobs tenantId).length - threshold + 1)

def Unanimous (rows : List (Option String)) : Prop := ∃ category, ∀ row ∈ rows, row = category

def Disagree (rows : List (Option String)) : Prop := ∃ first ∈ rows, ∃ second ∈ rows, first ≠ second

def SaysUncategorised (summary : String) : Prop :=
  ∃ lead, summary = lead ++ " The rows above the baseline carry no category yet."

structure NamesSlice (rows : List (Option String)) (payload : DlqPayload) : Prop where
  hint : ∀ hint, payload.remediationHint = some hint → ∀ row ∈ rows, row = some hint
  scope : payload.dlqScope = some "unclassified" → ∀ row ∈ rows, row = none
  summary : SaysUncategorised payload.summary → ∀ row ∈ rows, row = none
  neither : Disagree rows → payload.remediationHint = none ∧ payload.dlqScope = none

section Picker

variable {jobs : List Job} {tenantId : Uuid} {threshold above : Int} {rows : List (Option String)} {hint : String}

theorem categories_eq_singleton : (rows.filterMap id).dedup = [hint] ↔
    some hint ∈ rows ∧ ∀ category, some category ∈ rows → category = hint := by
  have member (category : String) : category ∈ (rows.filterMap id).dedup ↔ some category ∈ rows := by
    simp
  constructor
  · intro single
    simp only [single, List.mem_singleton] at member
    exact ⟨(member hint).mp rfl, fun category carried => (member category).mpr carried⟩
  · rintro ⟨carried, unique⟩
    refine List.perm_singleton.mp ((List.perm_ext_iff_of_nodup (List.nodup_dedup _) (List.nodup_singleton _)).mpr ?_)
    intro category
    rw [member, List.mem_singleton]
    exact ⟨unique category, fun same => same ▸ carried⟩

theorem dominant_eq_some (positive : 0 < above) : dominantHintAboveBaseline jobs tenantId above = some hint ↔
    some hint ∈ newestHints jobs tenantId above ∧
      ∀ category, some category ∈ newestHints jobs tenantId above → category = hint := by
  rw [← categories_eq_singleton, dominantHintAboveBaseline, if_neg (by omega)]
  match ((newestHints jobs tenantId above).filterMap id).dedup with
  | [] => simp
  | [single] => simp
  | first :: second :: rest => simp

theorem disagree_iff : Disagree rows ↔ ¬ Unanimous rows := by
  constructor
  · rintro ⟨first, firstIn, second, secondIn, apart⟩ ⟨category, agree⟩
    exact apart ((agree first firstIn).trans (agree second secondIn).symm)
  · intro mixed
    by_contra agree
    refine mixed ?_
    match rows with
    | [] => exact ⟨none, by simp⟩
    | head :: rest =>
      refine ⟨head, fun row member => ?_⟩
      by_contra apart
      exact agree ⟨row, member, head, List.mem_cons_self, apart⟩

end Picker

section Payload

variable {depth threshold : Int} {hint : Option String} {measuredAt : Time} {rows : List (Option String)}

theorem saysUncategorised_iff : SaysUncategorised (dlqSummary depth threshold hint) ↔ hint = none := by
  constructor
  · rintro ⟨lead, same⟩
    match hint with
    | none => rfl
    | some hint =>
      have ends := congrArg (fun text : String => text.toList.reverse.take 2) same
      simp only [dlqSummary, String.toList_append, List.reverse_append] at ends
      have quoted : "`.".toList.reverse = ['.', '`'] := rfl
      have plain : " The rows above the baseline carry no category yet.".toList.reverse.take 2 = ['.', 't'] := rfl
      rw [List.append_assoc, quoted, List.take_append_of_le_length (by decide),
        List.take_append_of_le_length (by decide), plain] at ends
      cases ends
  · rintro rfl
    exact ⟨_, rfl⟩

theorem namesSlice_dlqPayload_iff :
    NamesSlice rows (dlqPayload depth threshold hint (dlqSummary depth threshold hint) measuredAt) ↔
      ∀ row ∈ rows, row = hint := by
  constructor
  · intro names
    match hint with
    | some hint => exact names.hint hint rfl
    | none => exact names.scope rfl
  · intro agree
    have unanimous : Unanimous rows := ⟨hint, agree⟩
    refine ⟨?_, ?_, ?_, fun mixed => absurd unanimous (disagree_iff.mp mixed)⟩
    · rintro named rfl
      exact agree
    · intro scope
      match hint with
      | none => exact agree
      | some hint => cases scope
    · intro uncategorised
      rw [← saysUncategorised_iff.mp uncategorised]
      exact agree

end Payload

section Episodes

variable {jobs : List Job} {tenantId : Uuid} {threshold : Int} {measuredAt : Time}

theorem agree_dominant_iff {above : Int} (positive : 0 < above) :
    (∀ row ∈ newestHints jobs tenantId above, row = dominantHintAboveBaseline jobs tenantId above) ↔
      Unanimous (newestHints jobs tenantId above) := by
  refine ⟨fun agree => ⟨_, agree⟩, ?_⟩
  rintro ⟨category, agree⟩ row member
  rw [agree row member]
  match category with
  | some hint =>
    refine ((dominant_eq_some positive).mpr ⟨agree row member ▸ member, ?_⟩).symm
    intro category carried
    exact Option.some.inj (agree _ carried)
  | none =>
    refine (Option.eq_none_iff_forall_ne_some.mpr fun hint picked => ?_).symm
    exact absurd (agree _ ((dominant_eq_some positive).mp picked).1) (by simp)

theorem depthByTenant_filter (present : deadLetters jobs tenantId ≠ []) :
    (dlqDepthByTenant jobs).filter (fun entry => entry.1 = tenantId) =
      [(tenantId, ((deadLetters jobs tenantId).length : Int))] := by
  have only : ((jobs.filter fun job => job.status = .deadLetter).map Job.tenantId).dedup.filter
      (fun tenant => tenant = tenantId) = [tenantId] := by
    obtain ⟨job, member⟩ := List.exists_mem_of_ne_nil _ present
    simp only [deadLetters, List.mem_filter, decide_eq_true_eq] at member
    have listed : tenantId ∈ ((jobs.filter fun job => job.status = .deadLetter).map Job.tenantId).dedup := by
      rw [List.mem_dedup, List.mem_map]
      exact ⟨job, by simp [member], member.2.1⟩
    refine List.perm_singleton.mp ((List.perm_ext_iff_of_nodup ((List.nodup_dedup _).filter _)
      (List.nodup_singleton _)).mpr fun tenant => ?_)
    simp only [List.mem_filter, decide_eq_true_eq, List.mem_singleton]
    exact ⟨And.right, fun same => ⟨same ▸ listed, same⟩⟩
  rw [dlqDepthByTenant, List.filter_map]
  exact congrArg (List.map _) only

theorem episodes_filter_tenant (present : deadLetters jobs tenantId ≠ [])
    (breach : threshold ≤ (deadLetters jobs tenantId).length) :
    ∃ episode, (dlqEpisodes jobs threshold measuredAt).filter (fun episode => episode.tenantId = tenantId) = [episode] ∧
      ∃ hint, hint = dominantHintAboveBaseline jobs tenantId ((deadLetters jobs tenantId).length - threshold + 1) ∧
        episode.payload = dlqPayload (deadLetters jobs tenantId).length threshold hint
          (dlqSummary (deadLetters jobs tenantId).length threshold hint) measuredAt := by
  have above : ((deadLetters jobs tenantId).length : Int) - threshold + 1 =
      (deadLetters jobs tenantId).length - (threshold - 1) := by omega
  have breaching : ((dlqDepthByTenant jobs).filter fun entry => ¬ entry.2 < threshold).filter
      (fun entry => entry.1 = tenantId) = [(tenantId, ((deadLetters jobs tenantId).length : Int))] := by
    rw [List.filter_filter]
    simp only [Bool.and_comm (decide (_ = tenantId))]
    rw [← List.filter_filter, depthByTenant_filter present]
    simp [breach]
  rw [dlqEpisodes, List.filter_map, above]
  refine ⟨_, congrArg (List.map _) breaching, _, rfl, rfl⟩

/-- The alert names its slice truthfully exactly when the rows above the
baseline are of one mind: all of one category, or none with a category. -/
theorem depth_alert_names_slice_iff (jobs : List Job) (tenantId : Uuid) (threshold : Int) (measuredAt : Time)
    (present : deadLetters jobs tenantId ≠ []) (breach : threshold ≤ (deadLetters jobs tenantId).length) :
    ∃ episode, (dlqEpisodes jobs threshold measuredAt).filter (fun episode => episode.tenantId = tenantId) = [episode] ∧
      (NamesSlice (rowsAboveBaseline jobs tenantId threshold) episode.payload ↔
        Unanimous (rowsAboveBaseline jobs tenantId threshold)) := by
  obtain ⟨episode, raised, hint, picked, payload⟩ := 
    @episodes_filter_tenant jobs tenantId threshold measuredAt present breach
  refine ⟨episode, raised, ?_⟩
  rw [payload, namesSlice_dlqPayload_iff, picked]
  exact agree_dominant_iff (by omega)

def deadLetter (id : Uuid) (remediationHint : Option String) (completedAt : Time) : Job where
  id
  tenantId := 7
  userId := 8
  type := "csv_upload"
  status := .deadLetter
  maxAttempts := 3
  remediationHint
  completedAt := some completedAt
  createdAt := 0
  updatedAt := completedAt

theorem depth_alert_names_slice_iff_of_backlog :
    ∃ episode, (dlqEpisodes [deadLetter 1 none 5, deadLetter 2 (some "replay_safe") 6] 2 9).filter
        (fun episode => episode.tenantId = 7) = [episode] ∧
      (NamesSlice (rowsAboveBaseline [deadLetter 1 none 5, deadLetter 2 (some "replay_safe") 6] 7 2) episode.payload ↔
        Unanimous (rowsAboveBaseline [deadLetter 1 none 5, deadLetter 2 (some "replay_safe") 6] 7 2)) :=
  depth_alert_names_slice_iff _ 7 2 9 (by simp [deadLetters, deadLetter]) (by simp [deadLetters, deadLetter])

/-- Two categories above the baseline are told as none; one category and an
uncategorised row are told as that category. -/
theorem depth_alert_misnames_slice :
    (∃ episode ∈ dlqEpisodes [deadLetter 1 (some "human_required") 5, deadLetter 2 (some "replay_safe") 6] 1 9,
      episode.payload.dlqScope = some "unclassified" ∧ SaysUncategorised episode.payload.summary ∧
        ¬ NamesSlice (rowsAboveBaseline [deadLetter 1 (some "human_required") 5, deadLetter 2 (some "replay_safe") 6] 7 1)
          episode.payload) ∧
    (∃ episode ∈ dlqEpisodes [deadLetter 1 none 5, deadLetter 2 (some "replay_safe") 6] 1 9,
      episode.payload.remediationHint = some "replay_safe" ∧
        ¬ NamesSlice (rowsAboveBaseline [deadLetter 1 none 5, deadLetter 2 (some "replay_safe") 6] 7 1) episode.payload) := by
  constructor
  · refine ⟨_, List.mem_cons_self, rfl, ⟨_, rfl⟩, fun names => ?_⟩
    exact absurd (names.scope rfl (some "human_required") (by decide)) (by decide)
  · refine ⟨_, List.mem_cons_self, rfl, fun names => ?_⟩
    exact absurd (names.hint "replay_safe" rfl none (by decide)) (by decide)

end Episodes

end IncidentPlatform.Properties
