/-
Float arithmetic rounds to the nearest float.

The operations work on mantissas that are longer than a float has room for, and
keep of the places that are cut off only whether they make nothing, less than one
half, one half or more. That is enough to find the nearest whole number of last
places, and it stays so when one more place is cut off (`Stands.shiftRightOne`).
So whatever mantissa comes with an accuracy that is true is rounded to the
nearest float of the quantity that the two stand for (`roundWithAccuracy_eq`).

What the nearest float holds is told by the rounded quantity alone: a zero, the
parts of that quantity, or an infinity where it is too large
(`unpack_toNearest_cases`).
-/
import FormulaSheet.Proofs.Number.Nearest

set_option autoImplicit false

namespace FormulaSheet.Number

open Float.Model (UnpackedFloat Format totalExponent)
open Float.Model.UnpackedFloat

/-! ## Mantissas with an accuracy -/

/-- The numbers that a mantissa with an accuracy stands for. -/
def Stands (r : ℚ) (m : Nat) : Accuracy → Prop
  | .exact => r = m
  | .inexact .lt => m < r ∧ r < m + 1 / 2
  | .inexact .eq => r = m + 1 / 2
  | .inexact .gt => m + 1 / 2 < r ∧ r < m + 1

namespace Stands

variable {r : ℚ} {m : Nat} {a : Accuracy} {em : ExtendedMantissa}

theorem bounds (h : Stands r m a) : (m : ℚ) ≤ r ∧ r < m + 1 := by
  match a, h with
  | .exact, h => exact ⟨h.ge, h.trans_lt (by linarith)⟩
  | .inexact .lt, h => exact ⟨h.1.le, by linarith [h.2]⟩
  | .inexact .eq, h => exact ⟨by linarith [h.ge], by linarith [h.le]⟩
  | .inexact .gt, h => exact ⟨by linarith [h.1], h.2⟩

theorem floor_eq (h : Stands r m a) : ⌊r⌋₊ = m := by
  obtain ⟨hlow, hhigh⟩ := h.bounds
  exact (Nat.floor_eq_iff ((Nat.cast_nonneg m).trans hlow)).mpr ⟨hlow, hhigh⟩

/-- To round a mantissa by its accuracy is to round what it stands for. -/
theorem roundToNearestEven_eq (h : Stands r m a) : a.roundToNearestEven m = nearestWhole r := by
  have hfloor := h.floor_eq
  unfold nearestWhole
  rw [hfloor]
  dsimp only
  match a, h with
  | .exact, h => rw [if_pos (by linarith [h.le])]; rfl
  | .inexact .lt, h => rw [if_pos h.2]; rfl
  | .inexact .eq, h => rw [if_neg h.ge.not_gt, if_neg h.le.not_gt]; rfl
  | .inexact .gt, h => rw [if_neg h.1.le.not_gt, if_pos h.1]; rfl

/-- When one more place is cut off the accuracy stays true. -/
theorem shiftRightOne (h : Stands r em.mantissa em.accuracy) :
    Stands (r / 2) em.shiftRightOne.mantissa em.shiftRightOne.accuracy := by
  obtain ⟨m, half, rest⟩ := em
  -- the place that is cut off is the last bit of the mantissa
  obtain ⟨k, hk⟩ : ∃ k, m = 2 * k ∨ m = 2 * k + 1 := ⟨m / 2, by omega⟩
  have hdiv : m / 2 = k := by omega
  rcases hk with rfl | rfl
  · cases half <;> cases rest <;>
      simp only [ExtendedMantissa.accuracy, ExtendedMantissa.shiftRightOne, hdiv, Stands] at h ⊢ <;>
      push_cast at h <;> grind
  · have hodd : ((2 * k + 1) % 2 != 0) = true := by
      have : (2 * k + 1) % 2 = 1 := by omega
      rw [this]
      rfl
    cases half <;> cases rest <;>
      simp only [ExtendedMantissa.accuracy, ExtendedMantissa.shiftRightOne, hdiv, hodd, Stands]
        at h ⊢ <;>
      push_cast at h <;> grind

theorem shiftRight (h : Stands r em.mantissa em.accuracy) (k : Nat) :
    Stands (r / 2 ^ k) (em >>> k).mantissa (em >>> k).accuracy := by
  have hrepeat : em >>> k = Nat.repeat ExtendedMantissa.shiftRightOne k em := rfl
  rw [hrepeat]
  clear hrepeat
  induction k with
  | zero => rwa [pow_zero, div_one]
  | succ k ih =>
    rw [Nat.repeat, pow_succ, ← div_div]
    exact ih.shiftRightOne

end Stands

/-! ## The nearest float -/

variable {v : ℚ} {m n : Nat} {q e : Int} {a : Accuracy}

/-- The float that is nearest to a positive quantity, but for a limit to its exponent. -/
def nearest (s : Sign) (v : ℚ) : UnpackedFloat :=
  let n := nearestWhole (v / 2 ^ lastPlace v)
  if h : n = 0 then .zero s
  else if n < 2 ^ 53 then .finite s n (lastPlace v) (Nat.pos_of_ne_zero h)
  else .finite s (2 ^ 52) (lastPlace v + 1) (Nat.two_pow_pos 52)

theorem accuracy_ofMantissaAndAccuracy (m : Nat) (a : Accuracy) :
    (ExtendedMantissa.ofMantissaAndAccuracy m a).accuracy = a := by
  match a with
  | .exact | .inexact .lt | .inexact .eq | .inexact .gt => rfl

theorem mantissa_ofMantissaAndAccuracy (m : Nat) (a : Accuracy) :
    (ExtendedMantissa.ofMantissaAndAccuracy m a).mantissa = m := by
  match a with
  | .exact | .inexact .lt | .inexact .eq | .inexact .gt => rfl

/-- The exponent that rounding aims at is the last place, however long the mantissa is. -/
theorem Stands.targetExponent (h : Stands (v / 2 ^ e) n a) (hv : 0 < v) (he : e ≤ lastPlace v) :
    Format.binary64.targetExponent (totalExponent n e) = lastPlace v := by
  obtain ⟨hlow, hhigh⟩ := h.bounds
  have hscale := two_zpow_pos e
  rw [le_div_iff₀ hscale, ← dyadic] at hlow
  rw [div_lt_iff₀ hscale] at hhigh
  rw [targetExponent_eq, totalExponent]
  rcases Nat.eq_zero_or_pos n with rfl | hn
  · -- nothing is left of the quantity, so the last place is the smallest
    have hlog : Int.log 2 v < e := by
      refine lt_of_zpow_lt ((zpow_log_le hv).trans_lt ?_)
      simpa using hhigh
    have hzero : Nat.log2 0 = 0 := by decide
    unfold lastPlace at he ⊢
    omega
  · -- the mantissa and its successor are in one power of two
    have habove : v < 2 ^ totalExponent n e := by
      refine hhigh.trans_le ?_
      have hsucc : ((n : ℚ) + 1) ≤ 2 ^ (n.log2 + 1) := by exact_mod_cast Nat.lt_log2_self
      have htotal : totalExponent n e = ((n.log2 + 1 : Nat) : Int) + e := by
        unfold totalExponent
        omega
      rw [htotal, zpow_add₀ two_ne_zero, zpow_natCast]
      exact mul_le_mul_of_nonneg_right hsucc hscale.le
    have hbelow := (le_dyadic_lt (q := e) hn).1.trans hlow
    have hlog : Int.log 2 v = totalExponent n e - 1 := by
      have hle := lt_of_zpow_lt ((zpow_log_le hv).trans_lt habove)
      have hge := lt_of_zpow_lt (hbelow.trans_lt (lt_zpow_log_succ v))
      omega
    unfold lastPlace
    rw [hlog, totalExponent]
    omega

/-- Cutting off places up to the last one keeps what the mantissa stands for. -/
theorem Stands.shiftToTargetExponent (h : Stands (v / 2 ^ e) n a) (hv : 0 < v)
    (he : e ≤ lastPlace v) :
    ∃ em, shiftToTargetExponent Format.binary64 n e a = (em, lastPlace v) ∧
      Stands (v / 2 ^ lastPlace v) em.mantissa em.accuracy := by
  have hsum : e + ((lastPlace v - e).toNat : Int) = lastPlace v := by omega
  refine ⟨ExtendedMantissa.ofMantissaAndAccuracy n a >>> (lastPlace v - e).toNat, ?_, ?_⟩
  · unfold UnpackedFloat.shiftToTargetExponent shiftToExponent
    simp only [h.targetExponent hv he, hsum]
  · have hstands : Stands (v / 2 ^ e) (ExtendedMantissa.ofMantissaAndAccuracy n a).mantissa
        (ExtendedMantissa.ofMantissaAndAccuracy n a).accuracy := by
      rwa [mantissa_ofMantissaAndAccuracy, accuracy_ofMantissaAndAccuracy]
    have hshift := hstands.shiftRight (lastPlace v - e).toNat
    rwa [div_div, ← zpow_natCast, ← zpow_add₀ two_ne_zero, hsum] at hshift

/-- A mantissa that has room is not shifted again. -/
theorem shiftToTargetExponent_of_lt (hn : n < 2 ^ 53) (he : -1074 ≤ e) :
    shiftToTargetExponent Format.binary64 n e .exact = (⟨n, false, false⟩, e) := by
  have hlog : n.log2 ≤ 52 := by
    rcases Nat.eq_zero_or_pos n with rfl | hpos
    · decide
    · have := (Nat.log2_lt hpos.ne').mpr hn
      omega
  have hshift : (Format.binary64.targetExponent (totalExponent n e) - e).toNat = 0 := by
    rw [targetExponent_eq, totalExponent]
    omega
  unfold shiftToTargetExponent shiftToExponent
  simp only [hshift]
  simp [ExtendedMantissa.ofMantissaAndAccuracy, HShiftRight.hShiftRight, Nat.repeat]

/-- A carry into the 54th place is shifted once. -/
theorem shiftToTargetExponent_of_carry (he : -1074 ≤ e) :
    shiftToTargetExponent Format.binary64 (2 ^ 53) e .exact = (⟨2 ^ 52, false, false⟩, e + 1) := by
  have hshift : (Format.binary64.targetExponent (totalExponent (2 ^ 53) e) - e).toNat = 1 := by
    rw [targetExponent_eq, totalExponent, Nat.log2_two_pow]
    omega
  unfold shiftToTargetExponent shiftToExponent
  simp only [hshift]
  simp [ExtendedMantissa.ofMantissaAndAccuracy, HShiftRight.hShiftRight, Nat.repeat,
    ExtendedMantissa.shiftRightOne]

/-- **Rounding gives the nearest float**, if the accuracy is true and no place is missing. -/
theorem roundWithAccuracy_eq (s : Sign) (h : Stands (v / 2 ^ e) n a) (hv : 0 < v)
    (he : e ≤ lastPlace v) : roundWithAccuracy Format.binary64 s n e a = nearest s v := by
  obtain ⟨em, hshift, hstands⟩ := h.shiftToTargetExponent hv he
  have hrounded : em.roundedMantissa = nearestWhole (v / 2 ^ lastPlace v) :=
    hstands.roundToNearestEven_eq
  have hroom := nearestWhole_lastPlace_le v
  unfold roundWithAccuracy nearest
  rw [hshift]
  dsimp only
  rw [hrounded]
  generalize nearestWhole (v / 2 ^ lastPlace v) = units at hroom ⊢
  rcases hroom.lt_or_eq with hlt | rfl
  · rw [shiftToTargetExponent_of_lt hlt (le_lastPlace v)]
    by_cases hzero : units = 0
    · rw [dif_pos hzero, dif_pos hzero]
    · rw [dif_neg hzero, dif_neg hzero, if_pos hlt]
  · rw [shiftToTargetExponent_of_carry (le_lastPlace v)]
    rfl

/-- Rounding a whole number of units gives the nearest float, whatever the unit is. -/
theorem round_eq_nearest (s : Sign) (hm : 0 < m) (q : Int) :
    UnpackedFloat.round Format.binary64 s m q = nearest s (dyadic m q) := by
  have hplace := lastPlace_dyadic (q := q) hm
  unfold UnpackedFloat.round decreaseExponent
  dsimp only
  rw [Nat.shiftLeft_eq, ← hplace]
  obtain ⟨k, hk⟩ : ∃ k, k = (q - lastPlace (dyadic m q)).toNat := ⟨_, rfl⟩
  have hshift : dyadic (m * 2 ^ k) (q - k) = dyadic m q := by
    rw [dyadic_shift, sub_add_cancel]
  have hstands : Stands (dyadic m q / 2 ^ (q - (k : Int))) (m * 2 ^ k) .exact := by
    rw [← hshift]
    exact dyadic_div _ _
  rw [← hk]
  exact roundWithAccuracy_eq s hstands (dyadic_pos hm) (by omega)

/-- The nearest float is a zero, or a mantissa and an exponent that make the rounded quantity. -/
theorem nearest_cases (s : Sign) (hv : 0 < v) :
    (rounded v = 0 ∧ nearest s v = .zero s) ∨
      ∃ m q, ∃ h : 0 < m, nearest s v = .finite s m q h ∧ dyadic m q = rounded v ∧
        m < 2 ^ 53 ∧ -1074 ≤ q ∧ (2 ^ 52 ≤ m ∨ q = -1074) := by
  have hroom := nearestWhole_lastPlace_le v
  have hlow := le_lastPlace v
  have hfull := le_nearestWhole_lastPlace hv
  unfold nearest rounded
  dsimp only
  generalize nearestWhole (v / 2 ^ lastPlace v) = units at hroom hfull ⊢
  by_cases hzero : units = 0
  · left
    rw [dif_pos hzero, hzero, dyadic, Nat.cast_zero, zero_mul]
    exact ⟨rfl, rfl⟩
  · right
    rw [dif_neg hzero]
    rcases hroom.lt_or_eq with hlt | rfl
    · rw [if_pos hlt]
      refine ⟨units, _, Nat.pos_of_ne_zero hzero, rfl, rfl, hlt, hlow, ?_⟩
      exact hlow.lt_or_eq.imp hfull Eq.symm
    · rw [if_neg (lt_irrefl _)]
      refine ⟨2 ^ 52, _, Nat.two_pow_pos 52, rfl, ?_, by decide, by omega, .inl le_rfl⟩
      rw [dyadic_two_pow, dyadic_two_pow]
      congr 1
      push_cast
      ring

/-- The parts of the rounded quantity are those of the nearest float. -/
theorem nearest_of_parts (s : Sign) (hv : 0 < v) (hparts : IsParts m q)
    (h : rounded v = dyadic m q) : nearest s v = .finite s m q hparts.pos := by
  rcases nearest_cases s hv with ⟨hzero, -⟩ | ⟨m', q', hm', hnearest, hvalue, hlt, hlow, hnormal⟩
  · exact absurd (h.symm.trans hzero) (dyadic_pos hparts.pos).ne'
  · have hsame : dyadic m' q' = dyadic m q := hvalue.trans h
    have hexponent : q' = q := by
      rw [← targetExponent_of_normal hm' hlt hlow hnormal,
        totalExponent_eq hm' hparts.pos hsame, hparts.targetExponent]
    subst hexponent
    have hmantissa : m' = m := by
      have := mul_right_cancel₀ (two_zpow_pos q').ne' hsame
      exact_mod_cast this
    rw [hnearest]
    exact finite_congr rfl hmantissa rfl

/-! ### As a float -/

/-- The float that is nearest to a positive quantity, and infinite for one that is too large. -/
def toNearest (s : Sign) (v : ℚ) : Float :=
  .ofModel (.pack (nearest s v))

/-- A float is made by the word that packs it. -/
theorem eq_ofModel_pack {x : Float} {u : UnpackedFloat}
    (h : UnpackedFloat.pack Format.binary64 u = x.toModel.toBits.toBitVec) :
    x = .ofModel (.pack u) := by
  obtain ⟨⟨⟨b⟩, hvalid⟩⟩ := x
  obtain rfl : UnpackedFloat.pack Format.binary64 u = b := h
  rfl

theorem unpack_ofModel_pack (u : UnpackedFloat) : (Float.ofModel (.pack u)).toModel.unpack
    = UnpackedFloat.unpack Format.binary64 (UnpackedFloat.pack Format.binary64 u) := rfl

theorem unpack_pack_zero (s : Sign) :
    (Float.ofModel (.pack (.zero s))).toModel.unpack = .zero s := by
  cases s <;> rfl

theorem unpack_pack_infinity (s : Sign) :
    (Float.ofModel (.pack (.infinity s))).toModel.unpack = .infinity s := by
  cases s <;> rfl

/-- An exponent that is too large makes an infinity. -/
theorem pack_of_large {s : Sign} {h : 0 < m} (hq : 971 < q) :
    UnpackedFloat.pack Format.binary64 (.finite s m q h)
      = UnpackedFloat.pack Format.binary64 (.infinity s) := by
  have hbias : (Format.binary64.exponentBias : Int) = 1023 := rfl
  have hbits : (Format.binary64.mantissaBitsWithoutImplicit : Int) = 52 := rfl
  have hlimit : 2 ^ Format.binary64.exponentBits = 2048 := rfl
  unfold UnpackedFloat.pack
  dsimp only
  rw [if_pos (by omega)]

/-- **What the nearest float holds**: a zero or the rounded quantity, or an infinity where that is
too large. -/
theorem unpack_toNearest_cases (s : Sign) (hv : 0 < v) :
    (rounded v = 0 ∧ (toNearest s v).toModel.unpack = .zero s) ∨
    (∃ m q, ∃ h : IsParts m q, rounded v = dyadic m q ∧
      (toNearest s v).toModel.unpack = .finite s m q h.pos) ∨
    (2 ^ (1024 : Int) ≤ rounded v ∧ (toNearest s v).toModel.unpack = .infinity s) := by
  rcases nearest_cases s hv with ⟨hzero, hnearest⟩ | ⟨m, q, hm, hnearest, hvalue, hlt, hlow, hfull⟩
  · exact .inl ⟨hzero, by rw [toNearest, hnearest, unpack_pack_zero]⟩
  · right
    rcases le_or_gt q 971 with hq | hq
    · have hparts : IsParts m q := ⟨hm, hlt, hlow, hq, hfull⟩
      refine .inl ⟨m, q, hparts, hvalue.symm, ?_⟩
      rw [toNearest, hnearest]
      exact unpack_ofParts hparts
    · right
      constructor
      · have hm' : 2 ^ 52 ≤ m := hfull.resolve_right (by omega)
        rw [← hvalue]
        calc (2 : ℚ) ^ (1024 : Int) ≤ 2 ^ (q + (52 : Nat)) := two_zpow_le (by omega)
          _ = dyadic (2 ^ 52) q := (dyadic_two_pow 52 q).symm
          _ ≤ dyadic m q := dyadic_mono hm' q
      · rw [toNearest, hnearest, unpack_ofModel_pack, pack_of_large hq, ← unpack_ofModel_pack,
          unpack_pack_infinity]

/-- The nearest float is the one that has the rounded quantity. -/
theorem toNearest_of_parts (s : Sign) (hv : 0 < v) (hparts : IsParts m q)
    (h : rounded v = dyadic m q) : toNearest s v = ofParts s m q hparts.pos := by
  rw [toNearest, nearest_of_parts s hv hparts h]
  rfl

theorem unpack_toNearest_iff {s : Sign} {h : 0 < m} (hv : 0 < v) :
    (toNearest s v).toModel.unpack = .finite s m q h ↔ IsParts m q ∧ rounded v = dyadic m q := by
  constructor
  · intro hunpack
    rcases unpack_toNearest_cases s hv with ⟨-, hcase⟩ | ⟨m', q', hparts, hvalue, hcase⟩ | ⟨-, hcase⟩
    · rw [hunpack] at hcase
      cases hcase
    · rw [hunpack] at hcase
      cases hcase
      exact ⟨hparts, hvalue⟩
    · rw [hunpack] at hcase
      cases hcase
  · rintro ⟨hparts, hvalue⟩
    rw [toNearest_of_parts s hv hparts hvalue, unpack_ofParts hparts]

/-- What is too large makes an infinity. -/
theorem toNearest_of_large (s : Sign) (h : (2 : ℚ) ^ (1024 : Int) ≤ v) :
    toNearest s v = .ofModel (.pack (.infinity s)) := by
  have hv : 0 < v := (two_zpow_pos 1024).trans_le h
  have hplace : 972 ≤ lastPlace v := by
    have hlog : (1024 : Int) ≤ Int.log 2 v := by
      have := lt_of_zpow_lt (h.trans_lt (lt_zpow_log_succ v))
      omega
    unfold lastPlace
    omega
  have hunits := le_nearestWhole_lastPlace hv (by omega)
  have hpos : nearestWhole (v / 2 ^ lastPlace v) ≠ 0 := by omega
  have hpack : UnpackedFloat.pack Format.binary64 (nearest s v)
      = UnpackedFloat.pack Format.binary64 (.infinity s) := by
    unfold nearest
    dsimp only
    rw [dif_neg hpos]
    by_cases hlt : nearestWhole (v / 2 ^ lastPlace v) < 2 ^ 53
    · rw [if_pos hlt]
      exact pack_of_large (by omega)
    · rw [if_neg hlt]
      exact pack_of_large (by omega)
  exact eq_ofModel_pack hpack.symm

/-- What is less than half of the smallest float makes a zero. -/
theorem nearest_of_small (s : Sign) (hv : 0 < v) (h : v < 2 ^ (-1075 : Int)) :
    nearest s v = .zero s := by
  have hplace : lastPlace v = -1074 := by
    have hlog : Int.log 2 v < -1075 := lt_of_zpow_lt ((zpow_log_le hv).trans_lt h)
    unfold lastPlace
    omega
  have hhalf : v / 2 ^ (-1074 : Int) < 1 / 2 := by
    rw [div_lt_iff₀ (two_zpow_pos _)]
    refine h.trans_eq ?_
    have hsplit : (-1074 : Int) = -1075 + 1 := by norm_num
    rw [hsplit, zpow_add₀ two_ne_zero, zpow_one]
    ring
  have hunits : nearestWhole (v / 2 ^ lastPlace v) = 0 := by
    have hfloor : ⌊v / 2 ^ (-1074 : Int)⌋₊ = 0 := Nat.floor_eq_zero.mpr (by linarith)
    unfold nearestWhole
    rw [hplace, hfloor]
    exact if_pos (by simpa using hhalf)
  unfold nearest
  exact dif_pos hunits

end FormulaSheet.Number
