import Mathlib.Data.List.Sort

namespace IncidentPlatform.Storage

/-! # Listings

A page of the rows that a filter admits, and how many it admits.  The order ends
with the key of a row, so that no two rows of a table are level.
-/

variable {Row Moment Key : Type} [LinearOrder Moment] [LinearOrder Key]

def newestFirst (moment : Row → Moment) (key : Row → Key) (row other : Row) : Prop :=
  moment other < moment row ∨ moment other = moment row ∧ key other ≤ key row

variable {moment : Row → Moment} {key : Row → Key}

instance : DecidableRel (newestFirst moment key) := fun _ _ => inferInstanceAs (Decidable (_ ∨ _))

instance : Std.Total (newestFirst moment key) where
  total row other := by
    unfold newestFirst
    rcases lt_trichotomy (moment row) (moment other) with earlier | same | later
    · exact .inr (.inl earlier)
    · cases le_total (key row) (key other) with
      | inl before => exact .inr (.inr ⟨same, before⟩)
      | inr after => exact .inl (.inr ⟨same.symm, after⟩)
    · exact .inl (.inl later)

instance : IsTrans Row (newestFirst moment key) where
  trans row other third := by
    intro first second
    cases first with
    | inl later =>
        cases second with
        | inl stillLater => exact .inl (stillLater.trans later)
        | inr same => exact .inl (same.1 ▸ later)
    | inr same =>
        cases second with
        | inl later => exact .inl (same.1 ▸ later)
        | inr sameAgain => exact .inr ⟨sameAgain.1.trans same.1, sameAgain.2.trans same.2⟩

theorem key_eq_of_level {row other : Row} (first : newestFirst moment key row other)
    (second : newestFirst moment key other row) : key row = key other := by
  cases first with
  | inl later =>
      cases second with
      | inl earlier => exact absurd earlier later.not_gt
      | inr same => exact absurd same.1 later.ne'
  | inr same =>
      cases second with
      | inl later => exact absurd same.1 later.ne'
      | inr sameAgain => exact sameAgain.2.antisymm same.2

def listing (moment : Row → Moment) (key : Row → Key) (admits : Row → Bool) (offset limit : Nat)
    (rows : List Row) : List Row × Nat :=
  let admitted := rows.filter admits
  (((admitted.insertionSort (newestFirst moment key)).drop offset).take limit, admitted.length)

variable {admits : Row → Bool} {offset limit : Nat} {rows others : List Row}

/-- Two tables that hold the same admitted rows list them alike, however a scan
meets them. -/
theorem listing_congr (keyed : (rows.map key).Nodup) (otherKeyed : (others.map key).Nodup)
    (agree : ∀ row, admits row = true → (row ∈ rows ↔ row ∈ others)) :
    listing moment key admits offset limit rows = listing moment key admits offset limit others := by
  have same : (rows.filter admits).Perm (others.filter admits) := by
    refine (List.perm_ext_iff_of_nodup (keyed.of_map.filter _) (otherKeyed.of_map.filter _)).mpr fun row => ?_
    rw [List.mem_filter, List.mem_filter]
    exact and_congr_left fun admitted => agree row admitted
  have sorted : (rows.filter admits).insertionSort (newestFirst moment key) =
      (others.filter admits).insertionSort (newestFirst moment key) := by
    have perm := (List.perm_insertionSort (newestFirst moment key) (rows.filter admits)).trans
      (same.trans (List.perm_insertionSort (newestFirst moment key) (others.filter admits)).symm)
    refine perm.eq_of_pairwise ?_ (List.pairwise_insertionSort ..) (List.pairwise_insertionSort ..)
    intro row other held otherHeld first second
    rw [List.mem_insertionSort] at held
    have among := perm.symm.subset otherHeld
    rw [List.mem_insertionSort] at among
    exact List.inj_on_of_nodup_map keyed (List.mem_of_mem_filter held) (List.mem_of_mem_filter among)
      (key_eq_of_level first second)
  simp only [listing, sorted, same.length_eq]

end IncidentPlatform.Storage
