import Mathlib.Data.Nat.Digits.Defs

namespace IncidentPlatform.Text

/-! # Decimal texts -/

theorem toString_injective {first second : Nat} (same : toString first = toString second) : first = second := by
  have lists := congrArg String.toList same
  have digits : Nat.toDigits 10 first = Nat.toDigits 10 second := by
    simpa [toString, Nat.repr_eq_ofList_toDigits] using lists
  calc
    first = Nat.ofDigitChars 10 (Nat.toDigits 10 first) 0 := Nat.ofDigitChars_ten_toDigits.symm
    _ = Nat.ofDigitChars 10 (Nat.toDigits 10 second) 0 := by rw [digits]
    _ = second := Nat.ofDigitChars_ten_toDigits

end IncidentPlatform.Text
