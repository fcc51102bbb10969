import IncidentPlatform.Frontend.DemoPhase
import IncidentPlatform.Order.Cuts

namespace IncidentPlatform.Properties

open Frontend IncidentPlatform.Order

/-! # Takes partition the history

The boundaries are sorted and distinct, so the takes are the spans they cut the
timestamps into.
-/

def takeOf (span : Span JsString) : Take := { startAt := span.lower, endAt := span.upper }

theorem within_takeOf (span : Span JsString) : (takeOf span).within = span.holds := by
  funext stamp
  unfold Take.within Span.holds takeOf
  congr!

theorem takeBoundaries_sorted (audit : List AuditLog) :
    (takeBoundaries audit).Pairwise (· < ·) := by
  have ordered : (takeBoundaries audit).Pairwise (· ≤ ·) := List.pairwise_insertionSort ..
  have distinct : (takeBoundaries audit).Nodup :=
    (List.perm_insertionSort ..).nodup_iff.mpr (List.nodup_dedup _)
  exact ordered.imp₂ (fun _ _ atMost different => lt_of_le_of_ne atMost different) distinct

theorem spansFrom_cons (cut : JsString) (rest : List JsString) :
    (spansFrom (some cut) rest).map takeOf =
      ((cut :: rest).zip rest).map (fun pair => { startAt := some pair.1, endAt := some pair.2 }) ++
        [{ startAt := (cut :: rest).getLast?, endAt := none }] := by
  induction rest generalizing cut with
  | nil => rfl
  | cons next rest ih => simp [spansFrom, takeOf, ih next]

theorem takeSpans_eq (audit : List AuditLog) :
    takeSpans audit = (spansFrom none (takeBoundaries audit)).map takeOf := by
  unfold takeSpans
  split
  · rename_i empty
    rw [empty]
    rfl
  · rename_i first rest found
    rw [found, spansFrom, List.map_cons, spansFrom_cons]
    rfl

theorem takeAt_eq (audit : List AuditLog) (stamp : JsString) :
    takeAt audit (some stamp) = takeOf (spanAt (takeBoundaries audit) stamp) := by
  unfold takeAt takeOf spanAt
  congr!

theorem filter_takeSpans (audit : List AuditLog) (stamp : JsString) :
    ((takeSpans audit).filter fun take => take.within stamp) = [takeAt audit (some stamp)] := by
  have only := @filter_spansFrom _ _ none _ (takeBoundaries_sorted audit) stamp rfl
  have same : ((fun take : Take => take.within stamp) ∘ takeOf) = fun span => span.holds stamp := by
    funext span
    exact congrFun (within_takeOf span) stamp
  rw [takeSpans_eq, List.filter_map, same, only, takeAt_eq]
  simp [takeOf]

/-- `found` is the one place in `takes` that holds something. -/
def OnlyIn (takes : List Take) (found : Take) (holds : Take → Prop) : Prop :=
  ∃ earlier later, takes = earlier ++ found :: later ∧ holds found ∧
    ∀ other ∈ earlier ++ later, ¬ holds other

theorem onlyIn_takeSpans (audit : List AuditLog) (stamp : JsString) {holds : Take → Prop}
    (tested : ∀ take, holds take ↔ take.within stamp = true) :
    OnlyIn (takeSpans audit) (takeAt audit (some stamp)) holds := by
  obtain ⟨earlier, later, split, held, others⟩ := only_of_filter (filter_takeSpans audit stamp)
  refine ⟨earlier, later, split, (tested _).mpr held, ?_⟩
  intro other member
  rw [tested, others other member]
  exact Bool.false_ne_true

theorem mem_rowsInTake {audit : List AuditLog} {row : AuditLog} (present : row ∈ audit) (take : Take) :
    row ∈ rowsInTake audit take ↔ take.within row.createdAt = true := by
  simp [rowsInTake, present]

theorem mem_runsInTake {runs : List AgentRun} {run : AgentRun} (present : run ∈ runs) (take : Take) :
    run ∈ runsInTake runs take ↔ take.within run.startedAt = true := by
  simp [runsInTake, newestFirst, present]

/-- What the page relies on when it reads the history take by take. -/
structure Partitioned (audit : List AuditLog) (runs : List AgentRun) : Prop where
  rows : ∀ row ∈ audit, OnlyIn (takeSpans audit) (takeAt audit (some row.createdAt))
    fun take => row ∈ rowsInTake audit take
  runs : ∀ run ∈ runs, OnlyIn (takeSpans audit) (takeOfRun audit (some run))
    fun take => run ∈ runsInTake runs take
  current : (takeSpans audit).getLast? = some (currentTake audit)
  whole : ((takeSpans audit).flatMap (rowsInTake audit)).Perm audit

theorem getLast_takeSpans (audit : List AuditLog) :
    (takeSpans audit).getLast? = some (currentTake audit) := by
  unfold takeSpans currentTake
  split
  · rename_i empty
    rw [empty]
    rfl
  · rename_i first rest found
    rw [found, List.getLast?_concat]

theorem takes_partition (audit : List AuditLog) (runs : List AgentRun) : Partitioned audit runs where
  rows := by
    intro row present
    exact onlyIn_takeSpans audit row.createdAt (mem_rowsInTake present)
  runs := by
    intro run present
    exact onlyIn_takeSpans audit run.startedAt (mem_runsInTake present)
  current := getLast_takeSpans audit
  whole := flatMap_filter_perm fun row _ => ⟨_, filter_takeSpans audit row.createdAt⟩

end IncidentPlatform.Properties
