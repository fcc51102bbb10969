import Mathlib.Algebra.Group.Nat.Defs
import Mathlib.Data.List.Lex
import Mathlib.Order.Lattice

namespace IncidentPlatform.Text

/-! # Digits in a fixed width

Texts of one width compare as the numbers they write, and texts with such fields
at the same places compare field by field.
-/

section Digits

variable {α : Type}

/-- `value` in `width` digits, the last ones where it has more. -/
def fixedWidth (digit : Nat → α) : Nat → Nat → List α
  | 0, _ => []
  | width + 1, value => fixedWidth digit width (value / 10) ++ [digit (value % 10)]

@[simp] theorem length_fixedWidth (digit : Nat → α) (width value : Nat) : (fixedWidth digit width value).length = width := by
  induction width generalizing value with
  | zero => rfl
  | succ width ih => simp [fixedWidth, ih]

theorem mem_fixedWidth {digit : Nat → α} {width value : Nat} {char : α} (member : char ∈ fixedWidth digit width value) :
    ∃ number < 10, char = digit number := by
  induction width generalizing value with
  | zero => cases member
  | succ width ih =>
    rcases List.mem_append.mp member with front | last
    · exact ih front
    · exact ⟨value % 10, Nat.mod_lt _ (by decide), List.mem_singleton.mp last⟩

end Digits

section Order

variable {α : Type} [LinearOrder α]

/-- Of two texts with fields of one length, the first field decides. -/
theorem append_lt_append_iff {first second front back : List α} (same : first.length = second.length) :
    first ++ front < second ++ back ↔ first < second ∨ first = second ∧ front < back := by
  induction first generalizing second with
  | nil =>
    obtain rfl : second = [] := List.length_eq_zero_iff.mp same.symm
    simp
  | cons head rest ih =>
    match second with
    | next :: others =>
      have shorter : rest.length = others.length := Nat.succ.inj same
      simp only [List.cons_append, List.cons_lt_cons_iff, ih shorter, List.cons.injEq]
      tauto

theorem fixedWidth_injective {digit : Nat → α} (increasing : ∀ first second, first < second → second < 10 → digit first < digit second)
    {width first second : Nat} (small : first < 10 ^ width) (bounded : second < 10 ^ width)
    (same : fixedWidth digit width first = fixedWidth digit width second) : first = second := by
  induction width generalizing first second with
  | zero => omega
  | succ width ih =>
    rw [fixedWidth, fixedWidth, ← List.concat_eq_append, ← List.concat_eq_append, List.concat_inj] at same
    have front : first / 10 = second / 10 := ih (by omega) (by omega) same.1
    have last : first % 10 = second % 10 := by
      rcases Nat.lt_trichotomy (first % 10) (second % 10) with below | equal | above
      · exact absurd same.2 (ne_of_lt (increasing _ _ below (Nat.mod_lt _ (by decide))))
      · exact equal
      · exact absurd same.2.symm (ne_of_lt (increasing _ _ above (Nat.mod_lt _ (by decide))))
    omega

theorem fixedWidth_lt_iff {digit : Nat → α} (increasing : ∀ first second, first < second → second < 10 → digit first < digit second)
    {width first second : Nat} (small : first < 10 ^ width) (bounded : second < 10 ^ width) :
    fixedWidth digit width first < fixedWidth digit width second ↔ first < second := by
  have forward {width first second : Nat} (small : first < 10 ^ width) (bounded : second < 10 ^ width) (below : first < second) :
      fixedWidth digit width first < fixedWidth digit width second := by
    induction width generalizing first second with
    | zero => omega
    | succ width ih =>
      rw [fixedWidth, fixedWidth, append_lt_append_iff (by simp)]
      by_cases front : first / 10 < second / 10
      · exact Or.inl (ih (by omega) (by omega) front)
      · have equal : first / 10 = second / 10 := by omega
        refine Or.inr ⟨congrArg _ equal, ?_⟩
        rw [List.cons_lt_cons_iff]
        exact Or.inl (increasing _ _ (by omega) (Nat.mod_lt _ (by decide)))
  refine ⟨fun below => ?_, forward small bounded⟩
  by_contra above
  rcases Nat.lt_or_eq_of_le (Nat.not_lt.mp above) with greater | rfl
  · exact lt_asymm below (forward bounded small greater)
  · exact lt_irrefl _ below

end Order

end IncidentPlatform.Text
