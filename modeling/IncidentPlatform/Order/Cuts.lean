import Mathlib.Data.List.Perm.Basic
import Mathlib.Order.Lattice

namespace IncidentPlatform.Order

/-! # Cutting a linear order into spans

Finitely many cuts divide a linear order into spans, each open below and closed
above, the first without a lower end and the last without an upper one.
-/

structure Span (α : Type) where
  lower : Option α
  upper : Option α
deriving DecidableEq

section Spans

variable {α : Type} [LinearOrder α]

/-- The span lies above its lower cut and goes up to its upper cut. -/
def Span.holds (span : Span α) (point : α) : Bool :=
  (span.lower.all fun cut => cut < point) && span.upper.all fun cut => point ≤ cut

/-- The spans above `lower` that the cuts leave, in order. -/
def spansFrom (lower : Option α) : List α → List (Span α)
  | [] => [{ lower, upper := none }]
  | cut :: rest => { lower, upper := some cut } :: spansFrom (some cut) rest

/-- The last cut below the point and the first one that is not. -/
def spanAt (cuts : List α) (point : α) : Span α where
  lower := cuts.reverse.find? fun cut => cut < point
  upper := cuts.find? fun cut => point ≤ cut

theorem le_lower_of_mem {cut : α} {cuts : List α} (sorted : (cut :: cuts).Pairwise (· < ·))
    {span : Span α} (member : span ∈ spansFrom (some cut) cuts) :
    ∃ bound, span.lower = some bound ∧ cut ≤ bound := by
  induction cuts generalizing cut with
  | nil =>
      simp only [spansFrom, List.mem_singleton] at member
      exact ⟨cut, by rw [member], le_refl cut⟩
  | cons next rest ih =>
      obtain ⟨below, tail⟩ := List.pairwise_cons.mp sorted
      cases member with
      | head => exact ⟨cut, rfl, le_refl cut⟩
      | tail _ later =>
          obtain ⟨bound, equal, least⟩ := ih tail later
          exact ⟨bound, equal, le_trans (le_of_lt (below next List.mem_cons_self)) least⟩

/-- Exactly one of the spans holds a point above their lower end, the one
between the cuts next to it. -/
theorem filter_spansFrom {lower : Option α} {cuts : List α} (sorted : cuts.Pairwise (· < ·))
    {point : α} (above : (lower.all fun cut => cut < point) = true) :
    ((spansFrom lower cuts).filter fun span => span.holds point) =
      [{ lower := (spanAt cuts point).lower.or lower, upper := (spanAt cuts point).upper }] := by
  induction cuts generalizing lower with
  | nil => simp [spansFrom, spanAt, Span.holds, above]
  | cons cut rest ih =>
      obtain ⟨below, tail⟩ := List.pairwise_cons.mp sorted
      by_cases within : point ≤ cut
      · have beyond : ((spansFrom (some cut) rest).filter fun span => span.holds point) = [] := by
          rw [List.filter_eq_nil_iff]
          intro span member held
          obtain ⟨bound, equal, least⟩ := le_lower_of_mem sorted member
          simp only [Span.holds, equal, Option.all_some, Bool.and_eq_true, decide_eq_true_eq] at held
          exact absurd held.1 (not_lt.mpr (le_trans within least))
        have none_below : rest.reverse.find? (fun other => decide (other < point)) = none := by
          rw [List.find?_eq_none]
          intro other member
          rw [List.mem_reverse] at member
          simpa using le_trans within (le_of_lt (below other member))
        have holds : ({ lower, upper := some cut } : Span α).holds point = true := by
          simp [Span.holds, above, within]
        rw [spansFrom, List.filter_cons, if_pos holds, beyond]
        simp [spanAt, within, List.find?_append, none_below]
      · have passed : cut < point := not_le.mp within
        have later := @ih (some cut) tail (by simpa using passed)
        simp only [spansFrom, List.filter_cons]
        rw [later]
        simp [spanAt, Span.holds, within, passed, List.find?_append]

/-- The span as it is once a cut beyond its lower end has been made. -/
def Span.closedBy (cut : α) (span : Span α) : Span α where
  lower := span.lower
  upper := some (span.upper.getD cut)

omit [LinearOrder α] in
/-- A cut beyond all others closes the last span and opens one. -/
theorem spansFrom_concat (lower : Option α) (cuts : List α) (cut : α) :
    spansFrom lower (cuts ++ [cut]) =
      (spansFrom lower cuts).map (Span.closedBy cut) ++ [{ lower := some cut, upper := none }] := by
  induction cuts generalizing lower with
  | nil => rfl
  | cons first rest ih => simp [spansFrom, Span.closedBy, ih]

theorem spanAt_concat {cuts : List α} {cut point : α} (within : point ≤ cut) :
    spanAt (cuts ++ [cut]) point = (spanAt cuts point).closedBy cut := by
  have not_below : ¬ cut < point := not_lt.mpr within
  simp only [spanAt, Span.closedBy, List.reverse_append, List.reverse_singleton, List.singleton_append,
    List.find?_cons, not_below, decide_false, List.find?_append, within, decide_true]
  cases cuts.find? fun other => decide (point ≤ other) <;> rfl

theorem Span.holds_closedBy {cut point : α} (within : point ≤ cut) (span : Span α) :
    (span.closedBy cut).holds point = span.holds point := by
  cases upper : span.upper <;> simp [Span.holds, Span.closedBy, upper, within]

end Spans

/-- Of the places in `items`, one holds the item, and no other passes the test. -/
theorem only_of_filter {α : Type} {passes : α → Bool} {items : List α} {found : α}
    (only : items.filter passes = [found]) : ∃ earlier later, items = earlier ++ found :: later ∧
      passes found = true ∧ ∀ other ∈ earlier ++ later, passes other = false := by
  obtain ⟨earlier, later, split, before, held, after⟩ := List.filter_eq_cons_iff.mp only
  refine ⟨earlier, later, split, held, ?_⟩
  intro other member
  rcases List.mem_append.mp member with older | newer
  · simpa using before other older
  · simpa using List.filter_eq_nil_iff.mp after other newer

/-- Where each item belongs to exactly one class, the classes together hold the
items once each. -/
theorem flatMap_filter_perm {α β : Type} {classes : List β} {belongs : β → α → Bool} {items : List α}
    (unique : ∀ item ∈ items, ∃ found, (classes.filter fun each => belongs each item) = [found]) :
    (classes.flatMap fun each => items.filter (belongs each)).Perm items := by
  induction items with
  | nil => simp
  | cons item rest ih =>
      obtain ⟨found, only⟩ := unique item List.mem_cons_self
      have placed : (classes.flatMap fun each => if belongs each item then [item] else []) = [item] := by
        have count : (classes.flatMap fun each => if belongs each item then [item] else []) =
            (classes.filter fun each => belongs each item).map fun _ => item := by
          clear only unique ih
          induction classes with
          | nil => rfl
          | cons first others ih =>
              by_cases holds : belongs first item = true
              · simp [holds, ih]
              · simp [holds, ih]
        rw [count, only]
        rfl
      have split : ∀ each, (item :: rest).filter (belongs each) =
          (if belongs each item then [item] else []) ++ rest.filter (belongs each) := by
        intro each
        by_cases holds : belongs each item = true <;> simp [holds]
      simp only [split]
      refine (List.flatMap_append_perm classes _ _).symm.trans ?_
      rw [placed]
      exact (ih fun other member => unique other (List.mem_cons_of_mem _ member)).cons item

end IncidentPlatform.Order
