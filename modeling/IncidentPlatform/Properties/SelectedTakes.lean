import IncidentPlatform.Properties.Takes
import IncidentPlatform.Search.Pages

namespace IncidentPlatform.Properties

open Frontend IncidentPlatform.Order

/-! # The take that the page reads

A reset beyond the rows and runs in view closes the last take and opens an empty
one, so the newest take with work is the same take, closed.
-/

/-- The characters of the timestamps that the API sends. -/
def ApiStamp (stamp : JsString) : Prop := ∀ unit ∈ stamp, unit ∈ jsString "0123456789-T:.Z+"

instance (stamp : JsString) : Decidable (ApiStamp stamp) := List.decidableBAll _ stamp

def HasWork (audit : List AuditLog) (runs : List AgentRun) (take : Take) : Prop :=
  (∃ row ∈ audit, isFaultRow row = true ∧ take.within row.createdAt = true) ∨
    ∃ run ∈ runs, take.within run.startedAt = true

/-- The newest run of the take; none where the take has none. -/
structure NewestRun (runs : List AgentRun) (take : Take) (selected : Option AgentRun) : Prop where
  present : ∀ newest ∈ selected, newest ∈ runs ∧ take.within newest.startedAt = true
  newest : ∀ run ∈ runs, take.within run.startedAt = true →
    ∃ newest ∈ selected, run.startedAt ≤ newest.startedAt

/-- The newest take with work, and its newest run. -/
structure SelectsNewest (audit : List AuditLog) (runs : List AgentRun) (selection : TakeSelection) : Prop where
  take : ∃ earlier later, takeSpans audit = earlier ++ selection.take :: later ∧
    HasWork audit runs selection.take ∧ ∀ other ∈ later, ¬ HasWork audit runs other
  run : NewestRun runs selection.take selection.run

def Unpinned (runs : List AgentRun) (wanted : Option String) : Prop :=
  wanted.getD "" = "" ∨ ∀ run ∈ runs, run.id ≠ wanted.getD ""

section Keys

variable {audit : List AuditLog} {take : Take} {first second : JsString}

def ApiTake (take : Take) : Prop := (∀ stamp ∈ take.startAt, ApiStamp stamp) ∧ ∀ stamp ∈ take.endAt, ApiStamp stamp

theorem getD_injective {first second : Option JsString} {word : JsString} (apart : ¬ ApiStamp word)
    (api : ∀ stamp ∈ first, ApiStamp stamp) (other : ∀ stamp ∈ second, ApiStamp stamp)
    (same : first.getD word = second.getD word) : first = second := by
  match first, second with
  | none, none => rfl
  | some first, some second => exact congrArg some same
  | none, some second =>
    rw [Option.getD_none, Option.getD_some] at same
    exact absurd (other second rfl) (same ▸ apart)
  | some first, none =>
    rw [Option.getD_none, Option.getD_some] at same
    exact absurd (api first rfl) (same ▸ apart)

theorem arrow_notMem {bound : Option JsString} {word : String} (api : ∀ stamp ∈ bound, ApiStamp stamp)
    (plain : (8594 : Fin 65536) ∉ jsString word) : (8594 : Fin 65536) ∉ bound.getD (jsString word) := by
  match bound with
  | none => exact plain
  | some stamp =>
    intro member
    exact absurd (api stamp rfl 8594 member) (by decide)

theorem takeKey_injective {first second : Take} (api : ApiTake first) (other : ApiTake second)
    (same : takeKey first = takeKey second) : first = second := by
  have arrow : jsString "→" = [8594] := by decide
  simp only [takeKey, arrow, List.append_assoc, List.singleton_append] at same
  have start : (8594 : Fin 65536) ∉ first.startAt.getD (jsString "open") := arrow_notMem api.1 (by decide)
  have close : (8594 : Fin 65536) ∉ first.endAt.getD (jsString "now") := arrow_notMem api.2 (by decide)
  obtain ⟨starts, -, ends⟩ := (List.append_cons_inj_of_notMem start close).mp same
  rw [Take.mk.injEq]
  exact ⟨getD_injective (by decide) api.1 other.1 starts, getD_injective (by decide) api.2 other.2 ends⟩

theorem spansFrom_bounds {lower : Option JsString} {cuts : List JsString} {span : Span JsString}
    (api : ∀ stamp ∈ lower, ApiStamp stamp) (stamps : ∀ stamp ∈ cuts, ApiStamp stamp)
    (member : span ∈ spansFrom lower cuts) : ApiTake (takeOf span) := by
  induction cuts generalizing lower with
  | nil =>
    rw [List.mem_singleton.mp member]
    exact ⟨api, by simp [takeOf]⟩
  | cons cut rest ih =>
    obtain ⟨first, later⟩ := List.forall_mem_cons.mp stamps
    rcases List.mem_cons.mp member with rfl | member
    · refine ⟨api, fun stamp found => ?_⟩
      rw [← Option.some.inj found]
      exact first
    · refine ih (fun stamp found => ?_) later member
      rw [← Option.some.inj found]
      exact first

theorem mem_takeBoundaries {audit : List AuditLog} {stamp : JsString} :
    stamp ∈ takeBoundaries audit ↔ ∃ row ∈ audit, isResetRow row = true ∧ row.createdAt = stamp := by
  simp [takeBoundaries, and_assoc]

theorem apiTake_of_mem {audit : List AuditLog} (stamps : ∀ row ∈ audit, ApiStamp row.createdAt) {take : Take}
    (member : take ∈ takeSpans audit) : ApiTake take := by
  rw [takeSpans_eq, List.mem_map] at member
  obtain ⟨span, spanIn, rfl⟩ := member
  refine spansFrom_bounds (by simp) (fun stamp bound => ?_) spanIn
  obtain ⟨row, rowIn, -, rfl⟩ := mem_takeBoundaries.mp bound
  exact stamps row rowIn

theorem eq_currentTake_of_key {audit : List AuditLog} (stamps : ∀ row ∈ audit, ApiStamp row.createdAt) {take : Take}
    (member : take ∈ takeSpans audit) (same : takeKey take = takeKey (currentTake audit)) : take = currentTake audit :=
  takeKey_injective (apiTake_of_mem stamps member)
    (apiTake_of_mem stamps (List.mem_of_getLast? (getLast_takeSpans audit))) same

end Keys

section Selection

variable {audit : List AuditLog} {runs : List AgentRun} {take : Take}

theorem mem_faultRowsInTake {row : AuditLog} : row ∈ faultRowsInTake audit take ↔
    row ∈ audit ∧ isFaultRow row = true ∧ take.within row.createdAt = true := by
  rw [faultRowsInTake, byCreatedAt, List.mem_insertionSort, rowsInTake, List.filter_filter, List.mem_filter,
    Bool.and_eq_true]

theorem mem_newestFirst {run : AgentRun} : run ∈ newestFirst runs ↔ run ∈ runs := List.mem_insertionSort _

theorem head?_isSome_iff {items : List AuditLog} : items.head?.isSome = true ↔ ∃ item, item ∈ items := by
  cases items with
  | nil => simp
  | cons item rest => simp only [List.head?_cons, Option.isSome_some, true_iff]; exact ⟨item, List.mem_cons_self⟩

theorem takeHasWork_iff : takeHasWork take audit runs = true ↔ HasWork audit runs take := by
  have fault : (faultInTake audit take).isSome = true ↔
      ∃ row ∈ audit, isFaultRow row = true ∧ take.within row.createdAt = true := by
    rw [faultInTake, Option.isSome_map, head?_isSome_iff]
    simp only [mem_faultRowsInTake]
  have run : 0 < (runsInTake runs take).length ↔ ∃ run ∈ runs, take.within run.startedAt = true := by
    rw [List.length_pos_iff_exists_mem]
    simp only [runsInTake, mem_newestFirst, List.mem_filter]
  rw [takeHasWork, Bool.or_eq_true, decide_eq_true_eq, fault, run, HasWork]

theorem orderedInsert_sorted {run : AgentRun}
    (sorted : runs.Pairwise fun first second => second.startedAt < first.startedAt)
    (apart : ∀ other ∈ runs, run.startedAt ≠ other.startedAt) :
    (runs.orderedInsert (fun first second => second.startedAt < first.startedAt) run).Pairwise
      fun first second => second.startedAt < first.startedAt := by
  induction runs with
  | nil => simp
  | cons head rest ih =>
    obtain ⟨below, sorted⟩ := List.pairwise_cons.mp sorted
    obtain ⟨headApart, apart⟩ := List.forall_mem_cons.mp apart
    rw [List.orderedInsert_cons]
    split
    case isTrue newer =>
      refine List.pairwise_cons.mpr ⟨fun other member => ?_, List.pairwise_cons.mpr ⟨below, sorted⟩⟩
      rcases List.mem_cons.mp member with rfl | member
      · exact newer
      · exact lt_trans (below other member) newer
    case isFalse older =>
      refine List.pairwise_cons.mpr ⟨fun other member => ?_, ih sorted apart⟩
      rcases (List.mem_orderedInsert _).mp member with rfl | member
      · exact lt_of_le_of_ne (not_lt.mp older) headApart
      · exact below other member

theorem newestFirst_sorted (distinct : (runs.map AgentRun.startedAt).Nodup) :
    (newestFirst runs).Pairwise fun first second => second.startedAt < first.startedAt := by
  induction runs with
  | nil => exact List.Pairwise.nil
  | cons run rest ih =>
    obtain ⟨apart, distinct⟩ := List.nodup_cons.mp distinct
    refine orderedInsert_sorted (ih distinct) fun other member same => apart ?_
    rw [same]
    exact List.mem_map_of_mem (mem_newestFirst.mp member)

theorem mem_runsInTake_iff {run : AgentRun} :
    run ∈ runsInTake runs take ↔ run ∈ runs ∧ take.within run.startedAt = true := by
  rw [runsInTake, mem_newestFirst, List.mem_filter]

theorem newestRun_head (distinct : (runs.map AgentRun.startedAt).Nodup) :
    NewestRun runs take (runsInTake runs take).head? := by
  have sorted : (runsInTake runs take).Pairwise fun first second => second.startedAt < first.startedAt :=
    newestFirst_sorted (distinct.sublist (List.filter_sublist.map _))
  constructor
  · intro newest found
    exact mem_runsInTake_iff.mp (List.mem_of_head? found)
  · intro run present within
    have member := mem_runsInTake_iff.mpr ⟨present, within⟩
    cases listed : runsInTake runs take with
    | nil => simp [listed] at member
    | cons newest rest =>
      rw [listed] at sorted member
      refine ⟨newest, rfl, ?_⟩
      rcases List.mem_cons.mp member with rfl | member
      · exact le_refl _
      · exact le_of_lt (List.rel_of_pairwise_cons sorted member)

theorem newestTake_run : (newestTake runs audit).run = (runsInTake runs (newestTake runs audit).take).head? := by
  unfold newestTake
  split
  · rfl
  · dsimp only
    split <;> rfl

theorem newestTake_take (stamps : ∀ row ∈ audit, ApiStamp row.createdAt) {held : Take}
    (found : (takeSpans audit).reverse.find? (fun span => takeHasWork span audit runs) = some held) :
    (newestTake runs audit).take = held := by
  have member : held ∈ takeSpans audit := List.mem_reverse.mp (List.mem_of_find?_eq_some found)
  unfold newestTake
  rw [found]
  dsimp only
  split
  · rfl
  · rename_i same
    exact (eq_currentTake_of_key stamps member (not_not.mp same)).symm

theorem hasWork_newestFirst : HasWork audit (newestFirst runs) take ↔ HasWork audit runs take := by
  simp only [HasWork, mem_newestFirst]

theorem NewestRun.of_newestFirst {selected : Option AgentRun} (newest : NewestRun (newestFirst runs) take selected) :
    NewestRun runs take selected where
  present := fun run found => (newest.present run found).imp mem_newestFirst.mp id
  newest := fun run present within => newest.newest run (mem_newestFirst.mpr present) within

theorem selectTake_cases (runs : List AgentRun) (wanted : Option String) :
    (¬ Unpinned runs wanted ∧ ∃ found ∈ runs, ∀ audit,
      (selectTake runs audit wanted).take = takeOfRun audit (some found) ∧
        (selectTake runs audit wanted).run = some found) ∨
    ∀ audit, selectTake runs audit wanted = newestTake (newestFirst runs) audit := by
  unfold selectTake
  dsimp only
  split
  case h_1 found pinned =>
    have named : wanted.getD "" ≠ "" := by
      intro empty
      simp [empty] at pinned
    rw [if_pos named] at pinned
    have present : found ∈ runs := mem_newestFirst.mp (List.mem_of_find?_eq_some pinned)
    have same : found.id = wanted.getD "" := by
      have holds := List.find?_some pinned
      exact of_decide_eq_true holds
    refine Or.inl ⟨?_, found, present, fun _ => ⟨rfl, rfl⟩⟩
    rintro (empty | absent)
    · exact named empty
    · exact absent found present same
  case h_2 => exact Or.inr fun _ => rfl

theorem selectTake_of_unpinned {wanted : Option String} (unpinned : Unpinned runs wanted) :
    selectTake runs audit wanted = newestTake (newestFirst runs) audit := by
  rcases selectTake_cases runs wanted with ⟨pinned, -⟩ | fallback
  · exact absurd unpinned pinned
  · exact fallback audit

theorem takeOfRun_within (run : AgentRun) : (takeOfRun audit (some run)).within run.startedAt = true := by
  have only := filter_takeSpans audit run.startedAt
  have member : takeAt audit (some run.startedAt) ∈
      (takeSpans audit).filter fun take => take.within run.startedAt := by
    rw [only]
    exact List.mem_singleton_self _
  exact (List.mem_filter.mp member).2

theorem exists_newestWork (work : ∃ take ∈ takeSpans audit, HasWork audit runs take) :
    ∃ held, (takeSpans audit).reverse.find? (fun span => takeHasWork span audit (newestFirst runs)) = some held := by
  obtain ⟨take, member, works⟩ := work
  rw [← Option.isSome_iff_exists, List.find?_isSome]
  exact ⟨take, List.mem_reverse.mpr member, takeHasWork_iff.mpr (hasWork_newestFirst.mpr works)⟩

theorem selectsNewest_of_unpinned {wanted : Option String} (distinct : (runs.map AgentRun.startedAt).Nodup)
    (stamps : ∀ row ∈ audit, ApiStamp row.createdAt) (unpinned : Unpinned runs wanted)
    (work : ∃ take ∈ takeSpans audit, HasWork audit runs take) :
    SelectsNewest audit runs (selectTake runs audit wanted) := by
  rw [selectTake_of_unpinned unpinned]
  have distinctSorted : ((newestFirst runs).map AgentRun.startedAt).Nodup :=
    ((List.perm_insertionSort _ runs).map AgentRun.startedAt).nodup_iff.mpr distinct
  constructor
  · obtain ⟨held, found⟩ := exists_newestWork work
    rw [newestTake_take stamps found]
    obtain ⟨works, newer, older, split, idle⟩ := List.find?_eq_some_iff_append.mp found
    refine ⟨older.reverse, newer.reverse, ?_, hasWork_newestFirst.mp (takeHasWork_iff.mp works), ?_⟩
    · rw [← List.reverse_reverse (takeSpans audit), split]
      simp
    · intro other member works
      have idle := idle other (List.mem_reverse.mp member)
      rw [takeHasWork_iff.mpr (hasWork_newestFirst.mpr works)] at idle
      cases idle
  · rw [newestTake_run]
    exact (newestRun_head distinctSorted).of_newestFirst

theorem selectTake_run_within {wanted : Option String} {run : AgentRun}
    (selected : (selectTake runs audit wanted).run = some run) :
    run ∈ runs ∧ (selectTake runs audit wanted).take.within run.startedAt = true := by
  rcases selectTake_cases runs wanted with ⟨-, found, present, pinned⟩ | fallback
  · rw [(pinned audit).2] at selected
    cases selected
    rw [(pinned audit).1]
    exact ⟨present, takeOfRun_within run⟩
  · rw [fallback audit] at selected ⊢
    rw [newestTake_run] at selected
    exact (mem_runsInTake_iff.mp (List.mem_of_head? selected)).imp mem_newestFirst.mp id

end Selection

section Reset

variable {before after : List AuditLog} {reset : AuditLog} {runs : List AgentRun}

def Take.closedBy (stamp : JsString) (take : Take) : Take where
  startAt := take.startAt
  endAt := some (take.endAt.getD stamp)

theorem within_closedBy {cut stamp : JsString} (within : stamp ≤ cut) (take : Take) :
    (Take.closedBy cut take).within stamp = take.within stamp := by
  have spans := Span.holds_closedBy within { lower := take.startAt, upper := take.endAt }
  have closed := congrFun (within_takeOf (Span.closedBy cut { lower := take.startAt, upper := take.endAt })) stamp
  have opened := congrFun (within_takeOf { lower := take.startAt, upper := take.endAt }) stamp
  exact closed.trans (spans.trans opened.symm)

/-- `reset` is newer than every other row and every run. -/
structure NewestReset (audit : List AuditLog) (runs : List AgentRun) (reset : AuditLog) : Prop where
  boundary : isResetRow reset = true
  rows : ∀ row ∈ audit, row.createdAt < reset.createdAt
  runs : ∀ run ∈ runs, run.startedAt < reset.createdAt

theorem takeBoundaries_insert (newer : NewestReset (before ++ after) runs reset) :
    takeBoundaries (before ++ reset :: after) = takeBoundaries (before ++ after) ++ [reset.createdAt] := by
  refine Search.eq_of_sorted (takeBoundaries_sorted _) ?_ fun stamp => ?_
  · refine List.pairwise_append.mpr ⟨takeBoundaries_sorted _, List.pairwise_singleton _ _, ?_⟩
    intro bound member other last
    obtain ⟨row, present, -, rfl⟩ := mem_takeBoundaries.mp member
    rw [List.mem_singleton.mp last]
    exact newer.rows row present
  · rw [List.mem_append, List.mem_singleton, mem_takeBoundaries, mem_takeBoundaries]
    simp only [List.mem_append, List.mem_cons]
    constructor
    · rintro ⟨row, present | rfl | present, isReset, rfl⟩
      · exact Or.inl ⟨row, Or.inl present, isReset, rfl⟩
      · exact Or.inr rfl
      · exact Or.inl ⟨row, Or.inr present, isReset, rfl⟩
    · rintro (⟨row, present | present, isReset, rfl⟩ | rfl)
      · exact ⟨row, Or.inl present, isReset, rfl⟩
      · exact ⟨row, Or.inr (Or.inr present), isReset, rfl⟩
      · exact ⟨reset, Or.inr (Or.inl rfl), newer.boundary, rfl⟩

theorem takeSpans_insert (newer : NewestReset (before ++ after) runs reset) :
    takeSpans (before ++ reset :: after) = (takeSpans (before ++ after)).map (Take.closedBy reset.createdAt) ++
      [{ startAt := some reset.createdAt, endAt := none }] := by
  rw [takeSpans_eq, takeSpans_eq, takeBoundaries_insert newer, spansFrom_concat, List.map_append, List.map_map,
    List.map_map]
  rfl

theorem takeOfRun_insert (newer : NewestReset (before ++ after) runs reset) {run : AgentRun} (present : run ∈ runs) :
    takeOfRun (before ++ reset :: after) (some run) =
      Take.closedBy reset.createdAt (takeOfRun (before ++ after) (some run)) := by
  have older : run.startedAt ≤ reset.createdAt := le_of_lt (newer.runs run present)
  have spans := @spanAt_concat _ _ (takeBoundaries (before ++ after)) _ _ older
  rw [takeOfRun, takeOfRun, Option.map_some, takeAt_eq, takeAt_eq, takeBoundaries_insert newer, spans]
  rfl

theorem not_isFaultRow_of_reset (isReset : isResetRow reset = true) : isFaultRow reset = false := by
  have action : reset.action = worldResetAction := of_decide_eq_true isReset
  unfold isFaultRow
  rw [if_pos (by rw [action]; decide)]

theorem mem_insert_iff {row : AuditLog} : row ∈ before ++ reset :: after ↔ row = reset ∨ row ∈ before ++ after := by
  simp only [List.mem_append, List.mem_cons]
  tauto

theorem hasWork_insert (newer : NewestReset (before ++ after) runs reset) (take : Take) :
    HasWork (before ++ reset :: after) runs (Take.closedBy reset.createdAt take) ↔ HasWork (before ++ after) runs take := by
  refine or_congr ?_ ?_
  · constructor
    · rintro ⟨row, member, fault, within⟩
      rcases mem_insert_iff.mp member with rfl | present
      · rw [not_isFaultRow_of_reset newer.boundary] at fault
        cases fault
      · rw [within_closedBy (le_of_lt (newer.rows row present))] at within
        exact ⟨row, present, fault, within⟩
    · rintro ⟨row, present, fault, within⟩
      rw [← within_closedBy (le_of_lt (newer.rows row present))] at within
      exact ⟨row, mem_insert_iff.mpr (Or.inr present), fault, within⟩
  · refine exists_congr fun run => and_congr_right fun present => ?_
    rw [within_closedBy (le_of_lt (newer.runs run present))]

theorem not_hasWork_opened (newer : NewestReset (before ++ after) runs reset) :
    ¬ HasWork (before ++ reset :: after) runs { startAt := some reset.createdAt, endAt := none } := by
  have beyond {stamp : JsString} (within : ({ startAt := some reset.createdAt, endAt := none } : Take).within stamp = true) :
      reset.createdAt < stamp := by
    simpa [Take.within] using within
  rintro (⟨row, member, -, within⟩ | ⟨run, present, within⟩)
  · rcases mem_insert_iff.mp member with rfl | present
    · exact lt_irrefl _ (beyond within)
    · exact lt_asymm (beyond within) (newer.rows row present)
  · exact lt_asymm (beyond within) (newer.runs run present)

theorem find?_insert (newer : NewestReset (before ++ after) runs reset) :
    (takeSpans (before ++ reset :: after)).reverse.find?
        (fun span => takeHasWork span (before ++ reset :: after) runs) =
      ((takeSpans (before ++ after)).reverse.find? fun span => takeHasWork span (before ++ after) runs).map
        (Take.closedBy reset.createdAt) := by
  have opened : takeHasWork { startAt := some reset.createdAt, endAt := none } (before ++ reset :: after) runs = false := by
    rw [← Bool.not_eq_true, takeHasWork_iff]
    exact not_hasWork_opened newer
  have closed : (fun span => takeHasWork span (before ++ reset :: after) runs) ∘ Take.closedBy reset.createdAt =
      fun span => takeHasWork span (before ++ after) runs := by
    funext span
    rw [Function.comp_apply, Bool.eq_iff_iff, takeHasWork_iff, takeHasWork_iff]
    exact hasWork_insert newer span
  rw [takeSpans_insert newer, List.reverse_append, List.reverse_singleton, List.singleton_append, List.find?_cons, opened]
  dsimp only
  rw [← List.map_reverse, List.find?_map, closed]

theorem runsInTake_closedBy (newer : NewestReset (before ++ after) runs reset) (take : Take) :
    runsInTake (newestFirst runs) (Take.closedBy reset.createdAt take) = runsInTake (newestFirst runs) take := by
  refine congrArg newestFirst (List.filter_congr fun run present => ?_)
  exact within_closedBy (le_of_lt (newer.runs run (mem_newestFirst.mp present))) take

theorem rowsInTake_insert (newer : NewestReset (before ++ after) runs reset) (take : Take) :
    (rowsInTake (before ++ reset :: after) (Take.closedBy reset.createdAt take)).filter
        (fun row => row.createdAt ≠ reset.createdAt) = rowsInTake (before ++ after) take := by
  have rest {rows : List AuditLog} (older : ∀ row ∈ rows, row.createdAt < reset.createdAt) :
      (rowsInTake rows (Take.closedBy reset.createdAt take)).filter (fun row => row.createdAt ≠ reset.createdAt) =
        rowsInTake rows take := by
    rw [rowsInTake, List.filter_filter]
    refine List.filter_congr fun row present => ?_
    rw [within_closedBy (le_of_lt (older row present))]
    simp [ne_of_lt (older row present)]
  have front := rest fun row present => newer.rows row (List.mem_append_left after present)
  have back := rest fun row present => newer.rows row (List.mem_append_right before present)
  have dropped : ([reset].filter fun row => (Take.closedBy reset.createdAt take).within row.createdAt).filter
      (fun row => row.createdAt ≠ reset.createdAt) = [] := by
    rw [List.filter_filter]
    simp
  unfold rowsInTake at front back ⊢
  rw [show before ++ reset :: after = before ++ ([reset] ++ after) by rfl]
  simp only [List.filter_append, front, back, dropped, List.nil_append]

theorem selectTake_insert {wanted : Option String} (newer : NewestReset (before ++ after) runs reset)
    (stamps : ∀ row ∈ before ++ reset :: after, ApiStamp row.createdAt)
    (work : ∃ take ∈ takeSpans (before ++ after), HasWork (before ++ after) runs take) :
    (selectTake runs (before ++ reset :: after) wanted).take =
        Take.closedBy reset.createdAt (selectTake runs (before ++ after) wanted).take ∧
      (selectTake runs (before ++ reset :: after) wanted).run = (selectTake runs (before ++ after) wanted).run := by
  rcases selectTake_cases runs wanted with ⟨-, found, present, pinned⟩ | fallback
  · rw [(pinned _).1, (pinned _).1, (pinned _).2, (pinned _).2, takeOfRun_insert newer present]
    exact ⟨rfl, rfl⟩
  · rw [fallback, fallback]
    have newerSorted : NewestReset (before ++ after) (newestFirst runs) reset :=
      ⟨newer.boundary, newer.rows, fun run present => newer.runs run (mem_newestFirst.mp present)⟩
    obtain ⟨held, found⟩ := exists_newestWork work
    have again := find?_insert newerSorted
    rw [found, Option.map_some] at again
    have old := newestTake_take (fun row present => stamps row (mem_insert_iff.mpr (Or.inr present))) found
    have new := newestTake_take stamps again
    rw [newestTake_run, newestTake_run, new, old, runsInTake_closedBy newer]
    exact ⟨rfl, rfl⟩

/-- A finished run stays on screen.  The page shows the newest take with work and
its newest run, and a reset appended after that changes neither the run nor where
its take starts nor the rows of the take. -/
theorem finished_run_stays (audit : List AuditLog) (runs : List AgentRun) (wanted : Option String)
    (distinct : (runs.map AgentRun.startedAt).Nodup) (stamps : ∀ row ∈ audit, ApiStamp row.createdAt) :
    (∀ run, (selectTake runs audit wanted).run = some run →
      run ∈ runs ∧ (selectTake runs audit wanted).take.within run.startedAt = true) ∧
    ((∃ take ∈ takeSpans audit, HasWork audit runs take) →
      (Unpinned runs wanted → SelectsNewest audit runs (selectTake runs audit wanted)) ∧
      ∀ before after reset, audit = before ++ after → NewestReset audit runs reset → ApiStamp reset.createdAt →
        (selectTake runs (before ++ reset :: after) wanted).run = (selectTake runs audit wanted).run ∧
        (selectTake runs (before ++ reset :: after) wanted).take.startAt = (selectTake runs audit wanted).take.startAt ∧
        (rowsInTake (before ++ reset :: after) (selectTake runs (before ++ reset :: after) wanted).take).filter
            (fun row => row.createdAt ≠ reset.createdAt) =
          rowsInTake audit (selectTake runs audit wanted).take) := by
  refine ⟨fun run selected => selectTake_run_within selected, fun work =>
    ⟨fun unpinned => selectsNewest_of_unpinned distinct stamps unpinned work, ?_⟩⟩
  rintro before after reset rfl newer api
  have inserted : ∀ row ∈ before ++ reset :: after, ApiStamp row.createdAt := by
    intro row member
    rcases mem_insert_iff.mp member with rfl | present
    · exact api
    · exact stamps row present
  obtain ⟨take, run⟩ := selectTake_insert newer inserted work
  rw [take]
  exact ⟨run, rfl, rowsInTake_insert newer _⟩

def labRow (action stamp : String) : AuditLog where
  id := stamp
  principalId := none
  action
  extraData := none
  createdAt := jsString stamp

def resolvedRun : AgentRun where
  id := "run"
  state := .resolved
  phaseHistory := []
  startedAt := jsString "2026-09-20T03:18:09.1Z"
  finishedAt := none

theorem finished_run_stays_of_wind_down :
    (selectTake [resolvedRun] [labRow worldResetAction "2026-09-20T03:20:09Z",
        labRow chaosInvokeAction "2026-09-20T03:18:05.952Z"] none).run =
      (selectTake [resolvedRun] [labRow chaosInvokeAction "2026-09-20T03:18:05.952Z"] none).run := by
  have stays := finished_run_stays [labRow chaosInvokeAction "2026-09-20T03:18:05.952Z"] [resolvedRun] none
    (List.nodup_singleton _) (by decide)
  have work : HasWork [labRow chaosInvokeAction "2026-09-20T03:18:05.952Z"] [resolvedRun]
      { startAt := none, endAt := none } := Or.inr ⟨_, List.mem_cons_self, rfl⟩
  have newer : NewestReset [labRow chaosInvokeAction "2026-09-20T03:18:05.952Z"] [resolvedRun]
      (labRow worldResetAction "2026-09-20T03:20:09Z") := ⟨by decide, by decide, by decide⟩
  exact ((stays.2 ⟨_, List.mem_cons_self, work⟩).2 [] _ _ rfl newer (by decide)).1

end Reset

end IncidentPlatform.Properties
