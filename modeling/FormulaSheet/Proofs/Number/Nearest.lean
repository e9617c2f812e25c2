/-
The nearest float, said of quantities.

Floats lie on grids. Between two powers of two they are the multiples of one
power of two, the last place there, and below the smallest normal float the last
place is the smallest there is. To round a quantity is to take the multiple of its
last place that is nearest, and of two equally near ones the even multiple.

So said, rounding keeps the order of quantities (`rounded_mono`), although two
quantities may be rounded on different grids: the power of two between them lies
on both. And it is never farther off than half of the last place
(`abs_rounded_sub_le`). How large a float may be does not matter here.
-/
import FormulaSheet.Proofs.Number.Quantity
import Mathlib.Data.Int.Log
import Mathlib.Data.Rat.Floor

set_option autoImplicit false

namespace FormulaSheet.Number

open Float.Model (totalExponent)

/-! ## The nearest whole number -/

/-- The whole number nearest to a number that is not negative; of two equally near ones the even. -/
def nearestWhole (r : ℚ) : Nat :=
  let n := ⌊r⌋₊
  if r < n + 1 / 2 then n else if n + 1 / 2 < r then n + 1 else n + n % 2

section Whole

variable {r t : ℚ} {n : Nat}

theorem floor_le_nearestWhole (r : ℚ) : ⌊r⌋₊ ≤ nearestWhole r := by
  unfold nearestWhole
  dsimp only
  split
  · exact le_rfl
  · split
    · exact Nat.le_succ _
    · exact Nat.le_add_right _ _

theorem nearestWhole_le_floor_succ (r : ℚ) : nearestWhole r ≤ ⌊r⌋₊ + 1 := by
  unfold nearestWhole
  dsimp only
  split
  · exact Nat.le_succ _
  · split
    · exact le_rfl
    · omega

theorem nearestWhole_natCast (n : Nat) : nearestWhole n = n := by
  have hfloor : ⌊(n : ℚ)⌋₊ = n := Nat.floor_natCast n
  unfold nearestWhole
  rw [hfloor]
  exact if_pos (by linarith)

/-- Rounding to a whole number keeps the order. -/
theorem nearestWhole_mono (h : r ≤ t) : nearestWhole r ≤ nearestWhole t := by
  have hfloor : ⌊r⌋₊ ≤ ⌊t⌋₊ := Nat.floor_mono h
  rcases hfloor.lt_or_eq with hlt | heq
  · exact (nearestWhole_le_floor_succ r).trans (hlt.trans_le (floor_le_nearestWhole t))
  · -- on the same side of the middle, or with the middle between them
    unfold nearestWhole
    rw [heq]
    dsimp only
    split_ifs <;> first | omega | (exfalso; linarith)

theorem le_nearestWhole (h : (n : ℚ) ≤ r) : n ≤ nearestWhole r :=
  (nearestWhole_natCast n).symm.le.trans (nearestWhole_mono h)

theorem nearestWhole_le (h : r ≤ n) : nearestWhole r ≤ n :=
  (nearestWhole_mono h).trans (nearestWhole_natCast n).le

/-- No whole number is farther off than one half. -/
theorem abs_nearestWhole_sub_le (hr : 0 ≤ r) : |(nearestWhole r : ℚ) - r| ≤ 1 / 2 := by
  have hlow : (⌊r⌋₊ : ℚ) ≤ r := Nat.floor_le hr
  have hhigh : r < ⌊r⌋₊ + 1 := Nat.lt_floor_add_one r
  unfold nearestWhole
  dsimp only
  split_ifs with hbelow habove
  · rw [abs_le]
    constructor <;> linarith
  · push_cast
    rw [abs_le]
    constructor <;> linarith
  · -- exactly in the middle both are one half away
    have hmiddle : r = ⌊r⌋₊ + 1 / 2 := le_antisymm (not_lt.mp habove) (not_lt.mp hbelow)
    have hparity : ((⌊r⌋₊ % 2 : Nat) : ℚ) = 0 ∨ ((⌊r⌋₊ % 2 : Nat) : ℚ) = 1 := by
      rcases Nat.mod_two_eq_zero_or_one ⌊r⌋₊ with h | h <;> simp [h]
    push_cast
    rw [abs_le]
    rcases hparity with h | h <;> constructor <;> linarith

end Whole

/-! ## The last place -/

/-- The exponent of the last place that floats have at a quantity. -/
def lastPlace (v : ℚ) : Int :=
  max (Int.log 2 v - 52) (-1074)

/-- The float, as a quantity, to which a quantity is rounded. -/
def rounded (v : ℚ) : ℚ :=
  dyadic (nearestWhole (v / 2 ^ lastPlace v)) (lastPlace v)

section Place

variable {v w : ℚ} {m : Nat} {q : Int}

theorem two_zpow_pos (e : Int) : (0 : ℚ) < 2 ^ e := by positivity

theorem two_zpow_le {a b : Int} (h : a ≤ b) : (2 : ℚ) ^ a ≤ 2 ^ b :=
  zpow_le_zpow_right₀ one_le_two h

theorem dyadic_two_pow (k : Nat) (q : Int) : dyadic (2 ^ k) q = 2 ^ (q + k) := by
  rw [dyadic, zpow_add₀ two_ne_zero, zpow_natCast, mul_comm]
  push_cast
  rfl

theorem le_lastPlace (v : ℚ) : -1074 ≤ lastPlace v :=
  le_max_right _ _

theorem lt_zpow_log_succ (v : ℚ) : v < 2 ^ (Int.log 2 v + 1) := by
  exact_mod_cast Int.lt_zpow_succ_log_self (b := 2) one_lt_two v

theorem zpow_log_le (hv : 0 < v) : (2 : ℚ) ^ Int.log 2 v ≤ v := by
  exact_mod_cast Int.zpow_log_le_self (b := 2) one_lt_two hv

/-- At most 53 places are before the end of the last one. -/
theorem lt_zpow_lastPlace (v : ℚ) : v < 2 ^ (lastPlace v + 53) := by
  refine (lt_zpow_log_succ v).trans_le (two_zpow_le ?_)
  have : Int.log 2 v - 52 ≤ lastPlace v := le_max_left _ _
  omega

/-- The last place is the smallest one, or there are 53 places. -/
theorem zpow_lastPlace_le (hv : 0 < v) (h : -1074 < lastPlace v) :
    (2 : ℚ) ^ (lastPlace v + 52) ≤ v := by
  have hlog : lastPlace v + 52 = Int.log 2 v := by
    unfold lastPlace at h ⊢
    omega
  rw [hlog]
  exact zpow_log_le hv

theorem lastPlace_mono (hv : 0 < v) (h : v ≤ w) : lastPlace v ≤ lastPlace w :=
  max_le_max_right _ (sub_le_sub_right (Int.log_mono_right hv h) _)

/-- The logarithm of a quantity written in binary. -/
theorem log_dyadic (hm : 0 < m) : Int.log 2 (dyadic m q) = totalExponent m q - 1 := by
  obtain ⟨hlow, hhigh⟩ := le_dyadic_lt (q := q) hm
  have hpos := dyadic_pos (q := q) hm
  have hbelow := lt_of_zpow_lt ((zpow_log_le hpos).trans_lt hhigh)
  have habove := lt_of_zpow_lt (hlow.trans_lt (lt_zpow_log_succ (dyadic m q)))
  omega

/-- Rounding aims at the last place. -/
theorem lastPlace_dyadic (hm : 0 < m) : lastPlace (dyadic m q)
    = Float.Model.Format.binary64.targetExponent (totalExponent m q) := by
  rw [lastPlace, log_dyadic hm, targetExponent_eq]
  omega

/-- The last place of a float is its exponent. -/
theorem IsParts.lastPlace_eq (h : IsParts m q) : lastPlace (dyadic m q) = q := by
  rw [lastPlace_dyadic h.pos, h.targetExponent]

/-! ## Rounding -/

theorem dyadic_div (m : Nat) (q : Int) : dyadic m q / 2 ^ q = m :=
  mul_div_cancel_right₀ _ (two_zpow_pos q).ne'

theorem dyadic_mono {n : Nat} (h : m ≤ n) (q : Int) : dyadic m q ≤ dyadic n q :=
  mul_le_mul_of_nonneg_right (by exact_mod_cast h) (two_zpow_pos q).le

/-- The units in the last place fill at most 53 bits, or are the next power of two. -/
theorem nearestWhole_lastPlace_le (v : ℚ) : nearestWhole (v / 2 ^ lastPlace v) ≤ 2 ^ 53 := by
  apply nearestWhole_le
  rw [div_le_iff₀ (two_zpow_pos _)]
  have hlt := lt_zpow_lastPlace v
  rw [← dyadic, dyadic_two_pow]
  exact hlt.le

/-- They fill 53 bits unless the last place is the smallest one. -/
theorem le_nearestWhole_lastPlace (hv : 0 < v) (h : -1074 < lastPlace v) :
    2 ^ 52 ≤ nearestWhole (v / 2 ^ lastPlace v) := by
  apply le_nearestWhole
  rw [le_div_iff₀ (two_zpow_pos _)]
  rw [← dyadic, dyadic_two_pow]
  exact zpow_lastPlace_le hv h

/-- **Rounding keeps the order.** -/
theorem rounded_mono (hv : 0 < v) (h : v ≤ w) : rounded v ≤ rounded w := by
  rcases (lastPlace_mono hv h).lt_or_eq with hlt | heq
  · -- a power of two lies between the two quantities and on both grids
    have hfull : -1074 < lastPlace w := (le_lastPlace v).trans_lt hlt
    calc rounded v ≤ dyadic (2 ^ 53) (lastPlace v) := dyadic_mono (nearestWhole_lastPlace_le v) _
      _ = 2 ^ (lastPlace v + 53) := dyadic_two_pow _ _
      _ ≤ 2 ^ (lastPlace w + 52) := two_zpow_le (by omega)
      _ = dyadic (2 ^ 52) (lastPlace w) := (dyadic_two_pow _ _).symm
      _ ≤ rounded w := dyadic_mono (le_nearestWhole_lastPlace (hv.trans_le h) hfull) _
  · unfold rounded
    rw [heq]
    exact dyadic_mono (nearestWhole_mono (div_le_div_of_nonneg_right h (two_zpow_pos _).le)) _

/-- What a float has is not changed. -/
theorem IsParts.rounded_eq (h : IsParts m q) : rounded (dyadic m q) = dyadic m q := by
  rw [rounded, h.lastPlace_eq, dyadic_div, nearestWhole_natCast]

/-- What lies between two quantities that are rounded alike is rounded like them. -/
theorem rounded_eq_of_between {u : ℚ} (hv : 0 < v) (hvu : v ≤ u) (huw : u ≤ w)
    (h : rounded v = rounded w) : rounded u = rounded v :=
  le_antisymm ((rounded_mono (hv.trans_le hvu) huw).trans h.ge) (rounded_mono hv hvu)

/-- **Rounding is near.** -/
theorem abs_rounded_sub_le (hv : 0 ≤ v) : |rounded v - v| ≤ 2 ^ lastPlace v / 2 := by
  have hscale := two_zpow_pos (lastPlace v)
  have hsplit : rounded v - v
      = ((nearestWhole (v / 2 ^ lastPlace v) : ℚ) - v / 2 ^ lastPlace v) * 2 ^ lastPlace v := by
    rw [rounded, dyadic, sub_mul, div_mul_cancel₀ _ hscale.ne']
  rw [hsplit, abs_mul, abs_of_pos hscale]
  calc |(nearestWhole (v / 2 ^ lastPlace v) : ℚ) - v / 2 ^ lastPlace v| * 2 ^ lastPlace v
      ≤ 1 / 2 * 2 ^ lastPlace v := mul_le_mul_of_nonneg_right
        (abs_nearestWhole_sub_le (div_nonneg hv hscale.le)) hscale.le
    _ = 2 ^ lastPlace v / 2 := by ring

end Place

end FormulaSheet.Number
