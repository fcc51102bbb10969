import Mathlib.Data.List.Forall2
import Mathlib.Data.List.Infix

namespace IncidentPlatform.Text

/-! # Wildcard patterns

A pattern of symbols, each of which stands for itself, for any one symbol or for
any text.  The syntaxes that write such patterns down differ, what they match
does not.
-/

variable {α : Type} [DecidableEq α]

inductive Wildcard (α : Type) where
  | itself (symbol : α)
  | anyOne
  | anyText

/-- Whether the pattern matches the whole text. -/
def matchesAll : List (Wildcard α) → List α → Bool
  | [], text => text.isEmpty
  | .anyText :: rest, text => text.tails.any (matchesAll rest)
  | .anyOne :: rest, text =>
      match text with
      | [] => false
      | _ :: later => matchesAll rest later
  | .itself symbol :: rest, text =>
      match text with
      | [] => false
      | first :: later => first = symbol && matchesAll rest later

/-- A wildcard that matches exactly one symbol, and may match this one. -/
def Wildcard.fits (wildcard : Wildcard α) (symbol : α) : Prop :=
  wildcard = .itself symbol ∨ wildcard = .anyOne

variable {pattern : List (Wildcard α)} {text stem : List α}

theorem matchesAll_anyText : matchesAll [.anyText] text = true := by
  rw [matchesAll, List.any_eq_true]
  exact ⟨[], (List.mem_tails ..).mpr (List.nil_suffix ..), rfl⟩

/-- A text that starts with what the front of a pattern fits is matched once any
text may follow. -/
theorem matchesAll_of_fits (fits : List.Forall₂ Wildcard.fits pattern stem) (starts : stem <+: text) :
    matchesAll (pattern ++ [.anyText]) text = true := by
  induction fits generalizing text with
  | nil => exact matchesAll_anyText
  | @cons wildcard symbol _ _ fit _ ih =>
      obtain ⟨rest, rfl⟩ := starts
      have later := ih (List.prefix_append _ rest)
      cases fit with
      | inl same =>
          rw [same]
          simpa [matchesAll] using later
      | inr one =>
          rw [one]
          simpa [matchesAll] using later

/-- A stem and any text match what starts with the stem. -/
theorem matchesAll_stem_iff :
    matchesAll (stem.map Wildcard.itself ++ [.anyText]) text = true ↔ stem <+: text := by
  constructor
  · intro matched
    induction stem generalizing text with
    | nil => exact List.nil_prefix
    | cons symbol rest ih =>
        cases text with
        | nil => simp [matchesAll] at matched
        | cons first later =>
            simp only [List.map_cons, List.cons_append, matchesAll, Bool.and_eq_true,
              decide_eq_true_eq] at matched
            obtain ⟨rfl, matched⟩ := matched
            exact List.cons_prefix_cons.mpr ⟨rfl, ih matched⟩
  · refine matchesAll_of_fits ?_
    exact List.forall₂_map_left_iff.mpr (List.forall₂_same.mpr fun _ _ => .inl rfl)

end IncidentPlatform.Text
