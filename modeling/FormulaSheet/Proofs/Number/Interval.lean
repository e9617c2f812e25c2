/-
The quantities that are rounded to a float.

They lie around the float, not farther off than half of its last place. Whatever
is nearer than this is rounded to it, with one exception: below a power of two the
last place is only half as large, and so is the distance that is allowed.
-/
import FormulaSheet.Proofs.Number.Nearest

set_option autoImplicit false

namespace FormulaSheet.Number

variable {v r : ℚ} {m n : Nat} {q : Int}

/-- A number less than one half away from a whole number is rounded to it. -/
theorem nearestWhole_of_near (h : |r - n| < 1 / 2) : nearestWhole r = n := by
  obtain ⟨hlow, hhigh⟩ := abs_lt.mp h
  rcases le_or_gt (n : ℚ) r with hle | hlt
  · have hfloor : ⌊r⌋₊ = n :=
      (Nat.floor_eq_iff ((Nat.cast_nonneg n).trans hle)).mpr ⟨hle, by linarith⟩
    unfold nearestWhole
    rw [hfloor]
    exact if_pos (by linarith)
  · rcases Nat.eq_zero_or_pos n with rfl | hpos
    · have hfloor : ⌊r⌋₊ = 0 := Nat.floor_of_nonpos (by simpa using hlt.le)
      unfold nearestWhole
      rw [hfloor]
      exact if_pos (by push_cast at hlt ⊢; linarith)
    · -- from below the whole number before it is farther off
      obtain ⟨k, rfl⟩ : ∃ k, n = k + 1 := ⟨n - 1, by omega⟩
      push_cast at hlow hhigh hlt
      have hfloor : ⌊r⌋₊ = k :=
        (Nat.floor_eq_iff (by linarith [(Nat.cast_nonneg k : (0 : ℚ) ≤ k)])).mpr
          ⟨by linarith, by linarith⟩
      unfold nearestWhole
      rw [hfloor]
      dsimp only
      rw [if_neg (by linarith), if_pos (by linarith)]

/-- The quantity of a float is less than the next power of two by a last place. -/
theorem IsParts.dyadic_le (h : IsParts m q) : dyadic m q ≤ 2 ^ (q + 53) - 2 ^ q := by
  have hm : (m : ℚ) + 1 ≤ 2 ^ 53 := by exact_mod_cast h.mantissa_lt
  have hsplit : (2 : ℚ) ^ (q + 53) = 2 ^ 53 * 2 ^ q := by
    rw [zpow_add₀ two_ne_zero, mul_comm]
    rfl
  have := mul_le_mul_of_nonneg_right hm (two_zpow_pos q).le
  rw [hsplit, dyadic]
  linarith

theorem lastPlace_le_of_lt (hv : 0 < v) (hq : -1074 ≤ q) (h : v < 2 ^ (q + 53)) :
    lastPlace v ≤ q := by
  have hlog := lt_of_zpow_lt ((zpow_log_le hv).trans_lt h)
  unfold lastPlace
  omega

/-- What is rounded to a float is not farther off than half of its last place. -/
theorem abs_sub_le_of_rounded_eq (hparts : IsParts m q) (hv : 0 < v)
    (h : rounded v = dyadic m q) : |v - dyadic m q| ≤ 2 ^ q / 2 := by
  have hplace : lastPlace v ≤ q := by
    -- beyond the next power of two it would have been rounded to no less than that
    by_contra hlt
    rw [not_le] at hlt
    have hfull := le_nearestWhole_lastPlace hv (hparts.le_exponent.trans_lt hlt)
    have hlarge : (2 : ℚ) ^ (q + 53) ≤ rounded v :=
      calc (2 : ℚ) ^ (q + 53) ≤ 2 ^ (lastPlace v + (52 : Nat)) := two_zpow_le (by omega)
        _ = dyadic (2 ^ 52) (lastPlace v) := (dyadic_two_pow 52 _).symm
        _ ≤ rounded v := dyadic_mono hfull _
    have := hparts.dyadic_le
    have := two_zpow_pos q
    linarith
  rw [← h, abs_sub_comm]
  exact (abs_rounded_sub_le hv.le).trans (div_le_div_of_nonneg_right (two_zpow_le hplace) two_pos.le)

/-- **What is near enough is rounded to the float.** -/
theorem rounded_eq_of_near (hparts : IsParts m q) (hv : 0 < v)
    (h : |v - dyadic m q| < 2 ^ q / 2)
    (hedge : m = 2 ^ 52 → |v - dyadic m q| < 2 ^ q / 4) : rounded v = dyadic m q := by
  have hscale := two_zpow_pos q
  obtain ⟨hlow, hhigh⟩ := abs_lt.mp h
  have hplace : lastPlace v ≤ q :=
    lastPlace_le_of_lt hv hparts.le_exponent (by linarith [hparts.dyadic_le])
  rcases hplace.lt_or_eq with hlt | heq
  · -- the quantity is below the power of two at which the float begins a new grid
    have hm : 2 ^ 52 ≤ m := hparts.normal.resolve_right (by have := le_lastPlace v; omega)
    have hstart : dyadic (2 ^ 52) q = 2 ^ (q + 52) := dyadic_two_pow 52 q
    have hbelow : v < dyadic (2 ^ 52) q := by
      rw [hstart]
      exact (lt_zpow_lastPlace v).trans_le (two_zpow_le (by omega))
    obtain rfl : m = 2 ^ 52 := by
      by_contra hne
      have hnext : dyadic (2 ^ 52 + 1) q ≤ dyadic m q := dyadic_mono (by omega) q
      have hsucc : dyadic (2 ^ 52 + 1) q = dyadic (2 ^ 52) q + 2 ^ q := by
        rw [dyadic, dyadic]
        push_cast
        ring
      linarith
    have hquarter := (abs_lt.mp (hedge rfl)).1
    have hhalf : (2 : ℚ) ^ (q - 1) = 2 ^ q / 2 := by rw [zpow_sub_one₀ two_ne_zero]; rfl
    have hsame : dyadic (2 ^ 52) q = dyadic (2 ^ 53) (q - 1) := by
      rw [dyadic_two_pow, dyadic_two_pow]
      congr 1
      push_cast
      ring
    have hprevious : lastPlace v = q - 1 := by
      have hlog : q + 51 ≤ Int.log 2 v := by
        have hge : (2 : ℚ) ^ (q + 51) ≤ v := by
          have hbinade : (2 : ℚ) ^ (q + 52) = 2 * 2 ^ (q + 51) := by
            have hsum : q + 52 = q + 51 + 1 := by ring
            rw [hsum, zpow_add_one₀ two_ne_zero, mul_comm]
          have hlarge : (2 : ℚ) ^ q ≤ 2 ^ (q + 51) := two_zpow_le (by omega)
          rw [hstart, hbinade] at hquarter
          linarith
        have := lt_of_zpow_lt (hge.trans_lt (lt_zpow_log_succ v))
        omega
      unfold lastPlace at hlt ⊢
      omega
    have hunits : nearestWhole (v / 2 ^ (q - 1)) = 2 ^ 53 := by
      apply nearestWhole_of_near
      have hcast : v / 2 ^ (q - 1) - ((2 ^ 53 : Nat) : ℚ)
          = (v - dyadic (2 ^ 53) (q - 1)) / 2 ^ (q - 1) := by
        rw [sub_div, dyadic_div]
      rw [hcast, abs_div, abs_of_pos (two_zpow_pos (q - 1)), div_lt_iff₀ (two_zpow_pos _),
        ← hsame, hhalf, abs_of_neg (sub_neg.mpr hbelow)]
      linarith
    rw [rounded, hprevious, hunits, hsame]
  · have hunits : nearestWhole (v / 2 ^ q) = m := by
      apply nearestWhole_of_near
      have hcast : v / 2 ^ q - (m : ℚ) = (v - dyadic m q) / 2 ^ q := by rw [sub_div, dyadic_div]
      rw [hcast, abs_div, abs_of_pos hscale, div_lt_iff₀ hscale]
      linarith
    rw [rounded, heq, hunits]

end FormulaSheet.Number
