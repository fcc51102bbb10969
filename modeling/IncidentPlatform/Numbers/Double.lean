import Mathlib.Algebra.Order.Field.Rat
import Mathlib.Data.Rat.Floor
import Mathlib.Tactic.FieldSimp
import Mathlib.Tactic.NormNum.Pow
import Mathlib.Tactic.Positivity

namespace IncidentPlatform.Numbers

/-! # Double precision

The values of a 64-bit float and the rounding into them.  The two zeros are one.
-/

inductive Double where
  | finite (value : ℚ)
  | infinite (negative : Bool)
  | nan
deriving DecidableEq

/-- The nearest integer, and of two the even one. -/
def roundHalfEven (value : ℚ) : ℤ :=
  let below := ⌊value⌋
  if value - below < 1 / 2 then below
  else if 1 / 2 < value - below then below + 1
  else if below % 2 = 0 then below
  else below + 1

/-- The exponent of the largest power of two that is not above a value. -/
def binaryExponent (value : ℚ) : ℤ :=
  let guess : ℤ := value.num.natAbs.log2 - value.den.log2
  if (2 : ℚ) ^ guess ≤ |value| then guess else guess - 1

/-- The double nearest to a value: 53 bits, of which the last is worth 2 ^ -1074 at
least. -/
def toDouble (value : ℚ) : Double :=
  if value = 0 then .finite 0
  else
    let unit := max (binaryExponent value - 52) (-1074)
    let rounded := roundHalfEven (value / 2 ^ unit) * (2 : ℚ) ^ unit
    if |rounded| < 2 ^ 1024 then .finite rounded else .infinite (value < 0)

/-- A whole number as a double; nothing where it is too large. -/
def doubleOfInt (value : ℤ) : Option ℚ :=
  match toDouble value with
  | .finite rounded => some rounded
  | .infinite _ | .nan => none

@[simp] theorem roundHalfEven_intCast (value : ℤ) : roundHalfEven value = value := by
  simp [roundHalfEven]

theorem binaryExponent_two_pow (power : Nat) : binaryExponent ((2 ^ power : ℤ) : ℚ) = power := by
  have magnitude : ((2 ^ power : ℤ) : ℚ).num.natAbs = 2 ^ power := by
    rw [Rat.num_intCast, Int.natAbs_pow]
    rfl
  have whole : ((2 ^ power : ℤ) : ℚ).den = 1 := Rat.den_intCast _
  unfold binaryExponent
  rw [magnitude, whole, Nat.log2_two_pow]
  have exact_ : (2 : ℚ) ^ ((power : ℤ) - ((Nat.log2 1 : Nat) : ℤ)) ≤ |((2 ^ power : ℤ) : ℚ)| := by
    simp [show Nat.log2 1 = 0 from by decide]
  dsimp only
  rw [if_pos exact_]
  simp [show Nat.log2 1 = 0 from by decide]

/-- Powers of two are doubles up to the largest exponent. -/
theorem doubleOfInt_two_pow (power : Nat) :
    doubleOfInt (2 ^ power) = if power < 1024 then some (2 ^ power) else none := by
  have scaled : ((2 ^ power : ℤ) : ℚ) / 2 ^ ((power : ℤ) - 52) = ((2 ^ 52 : ℤ) : ℚ) := by
    push_cast
    rw [zpow_sub₀ (by norm_num), zpow_natCast]
    field_simp
    norm_num
  have unit : max (binaryExponent ((2 ^ power : ℤ) : ℚ) - 52) (-1074) = (power : ℤ) - 52 := by
    rw [binaryExponent_two_pow]
    omega
  have rounded : (roundHalfEven (((2 ^ power : ℤ) : ℚ) / 2 ^ ((power : ℤ) - 52)) : ℚ) * 2 ^ ((power : ℤ) - 52) =
      2 ^ power := by
    rw [scaled, roundHalfEven_intCast, zpow_sub₀ (by norm_num), zpow_natCast]
    field_simp
    norm_num
  have positive : (0 : ℚ) < 2 ^ power := by positivity
  have nonzero : ((2 ^ power : ℤ) : ℚ) ≠ 0 := by
    push_cast
    exact positive.ne'
  unfold doubleOfInt toDouble
  rw [if_neg nonzero, unit]
  dsimp only
  rw [rounded, abs_of_pos positive]
  by_cases small : power < 1024
  · rw [if_pos small, if_pos (pow_lt_pow_right₀ (by norm_num) small)]
  · rw [if_neg small, if_neg (not_lt.mpr (pow_le_pow_right₀ (by norm_num) (not_lt.mp small)))]

end IncidentPlatform.Numbers
