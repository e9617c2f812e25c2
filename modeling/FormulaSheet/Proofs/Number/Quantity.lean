/-
Quantities, and the exponent that rounding aims at.

Floats and decimals are both compared as rational numbers: the number that a
mantissa and an exponent make, and the number that a decimal is. Between which two
powers of two such a number lies does not depend on the way it is written
(`totalExponent_eq`), and nor does the exponent that rounding aims at; for the
parts of a float it is their own (`IsParts.targetExponent`).
-/
import FormulaSheet.Proofs.Number.Parts
import Mathlib.Algebra.Order.Field.Power
import Mathlib.Tactic.FieldSimp
import Mathlib.Tactic.Linarith
import Mathlib.Tactic.NormNum

set_option autoImplicit false

namespace FormulaSheet

open Float.Model (Format totalExponent)

/-- The number that a mantissa and an exponent make. -/
def Number.dyadic (m : Nat) (q : Int) : ℚ := m * 2 ^ q

/-- The number that a decimal is. -/
def Decimal.quantity (d : Decimal) : ℚ := d.digits * 10 ^ d.exponent

namespace Number

variable {m n : Nat} {q e : Int}

/-! ## Quantities and exponents -/

theorem dyadic_pos (hm : 0 < m) : 0 < dyadic m q := by
  unfold dyadic
  positivity

theorem dyadic_mul (m n : Nat) (q e : Int) :
    dyadic (m * n) (q + e) = dyadic m q * dyadic n e := by
  rw [dyadic, dyadic, dyadic, zpow_add₀ two_ne_zero]
  push_cast
  ring

/-- A longer mantissa with a smaller exponent. -/
theorem dyadic_shift (m k : Nat) (q : Int) : dyadic (m * 2 ^ k) q = dyadic m (q + k) := by
  rw [dyadic, dyadic, zpow_add₀ two_ne_zero, zpow_natCast]
  push_cast
  ring

theorem dyadic_natCast (n : Nat) : dyadic n 0 = n := by
  rw [dyadic, zpow_zero, mul_one]

/-- The total exponent is the power of two that the quantity has not reached. -/
theorem le_dyadic_lt (hm : 0 < m) :
    (2 : ℚ) ^ (totalExponent m q - 1) ≤ dyadic m q ∧ dyadic m q < (2 : ℚ) ^ totalExponent m q := by
  have hlow : (2 : ℚ) ^ m.log2 ≤ m := by exact_mod_cast Nat.log2_self_le hm.ne'
  have hhigh : (m : ℚ) < 2 ^ (m.log2 + 1) := by exact_mod_cast Nat.lt_log2_self
  have hscale : (0 : ℚ) < 2 ^ q := by positivity
  have hbelow : totalExponent m q - 1 = (m.log2 : Int) + q := by
    unfold totalExponent
    omega
  have habove : totalExponent m q = ((m.log2 + 1 : Nat) : Int) + q := by
    unfold totalExponent
    omega
  rw [hbelow, habove, zpow_add₀ two_ne_zero, zpow_add₀ two_ne_zero, zpow_natCast, zpow_natCast]
  exact ⟨mul_le_mul_of_nonneg_right hlow hscale.le, mul_lt_mul_of_pos_right hhigh hscale⟩

theorem lt_of_zpow_lt {i j : Int} (h : (2 : ℚ) ^ i < 2 ^ j) : i < j :=
  (zpow_lt_zpow_iff_right₀ one_lt_two).mp h

/-- The total exponent belongs to the quantity and not to the way it is written. -/
theorem totalExponent_eq (hm : 0 < m) (hn : 0 < n) (h : dyadic m q = dyadic n e) :
    totalExponent m q = totalExponent n e := by
  obtain ⟨hm₁, hm₂⟩ := le_dyadic_lt (q := q) hm
  obtain ⟨hn₁, hn₂⟩ := le_dyadic_lt (q := e) hn
  rw [h] at hm₁ hm₂
  have := lt_of_zpow_lt (lt_of_le_of_lt hm₁ hn₂)
  have := lt_of_zpow_lt (lt_of_le_of_lt hn₁ hm₂)
  omega

theorem targetExponent_eq (t : Int) : Format.binary64.targetExponent t = max (t - 53) (-1074) :=
  rfl

/-- Rounding aims at the exponent of a mantissa that is full, or at the smallest one. -/
theorem targetExponent_of_normal (hpos : 0 < m) (hlt : m < 2 ^ 53) (hlow : -1074 ≤ q)
    (hnormal : 2 ^ 52 ≤ m ∨ q = -1074) :
    Format.binary64.targetExponent (totalExponent m q) = q := by
  rw [targetExponent_eq, totalExponent]
  by_cases hm : 2 ^ 52 ≤ m
  · rw [log2_eq_of_normal hm hlt]
    omega
  · have := log2_lt_of_subnormal hpos (by omega)
    have := hnormal.resolve_left hm
    omega

/-- Rounding aims at the exponent that legal parts have. -/
theorem IsParts.targetExponent (h : IsParts m q) :
    Format.binary64.targetExponent (totalExponent m q) = q :=
  targetExponent_of_normal h.pos h.mantissa_lt h.le_exponent h.normal

end Number

end FormulaSheet
