/-
Decimals are read as the nearest float.

A product of floats is rounded once, and so is a quotient, which is worked out
for as many places as that takes. A decimal is read by one product or quotient in
float arithmetic where digits and power of ten are floats, and over a long
mantissa elsewhere; a power of ten that is far too large or too small is not even
worked out. In each of these ways the result is the float that is nearest to the
quantity of the decimal (`toFloat_eq_toNearest`).

So a decimal reads as a given float exactly if its quantity is rounded to the one
that the float has (`toFloat_eq_iff`), and in particular if it is that quantity
(`toFloat_of_quantity`).
-/
import FormulaSheet.Proofs.Number.Rounded

set_option autoImplicit false

namespace FormulaSheet.Number

open Float.Model (UnpackedFloat Format totalExponent)
open Float.Model.UnpackedFloat

variable {m n : Nat} {q e : Int}

/-! ## Products and quotients -/

section Products

variable {m₁ m₂ : Nat} {q₁ q₂ : Int} {h₁ : 0 < m₁} {h₂ : 0 < m₂}

theorem stands_exact (m : Nat) (q : Int) : Stands (dyadic m q / 2 ^ q) m .exact :=
  dyadic_div m q

/-- A full mantissa has the last place at hand. -/
theorem exponent_le_lastPlace (hn : 2 ^ 52 ≤ n) (e : Int) : e ≤ lastPlace (dyadic n e) := by
  have hlog : 52 ≤ n.log2 := (Nat.le_log2 (by omega)).mpr hn
  rw [lastPlace_dyadic (by omega), targetExponent_eq, totalExponent]
  omega

/-- A product that fills a mantissa is rounded to the nearest float. -/
theorem mul_eq_nearest (s₁ s₂ : Sign) (hfull : 2 ^ 52 ≤ m₁ * m₂) :
    mul Format.binary64 (.finite s₁ m₁ q₁ h₁) (.finite s₂ m₂ q₂ h₂)
      = nearest (s₁ * s₂) (dyadic m₁ q₁ * dyadic m₂ q₂) := by
  rw [← dyadic_mul]
  exact roundWithAccuracy_eq _ (stands_exact _ _) (dyadic_pos (by omega))
    (exponent_le_lastPlace hfull _)

/-- A whole quotient stands for the exact one, with the accuracy that its remainder tells. -/
theorem stands_div (n : Nat) {d : Nat} (hd : 0 < d) :
    Stands ((n : ℚ) / d) (n / d) (accuracyOfFraction (n % d) d) := by
  have hd' : (0 : ℚ) < d := by exact_mod_cast hd
  have hlt : ((n % d : Nat) : ℚ) < d := by exact_mod_cast Nat.mod_lt n hd
  have hsplit : (n : ℚ) / d = (n / d : Nat) + ((n % d : Nat) : ℚ) / d := by
    have hdivide : (n : ℚ) = d * (n / d : Nat) + (n % d : Nat) := by
      exact_mod_cast (Nat.div_add_mod n d).symm
    rw [div_eq_iff hd'.ne', add_mul, div_mul_cancel₀ _ hd'.ne']
    linarith
  rw [hsplit]
  generalize n / d = k, n % d = r at hlt
  unfold accuracyOfFraction
  by_cases hr : r = 0
  · rw [if_pos hr, hr, Nat.cast_zero, zero_div, add_zero]
    rfl
  · have hpos : (0 : ℚ) < r := by exact_mod_cast Nat.pos_of_ne_zero hr
    rw [if_neg hr]
    -- the remainder is less than half of the divisor, half of it, or more
    cases hcompare : compare (2 * r) d with
    | lt =>
      have hhalf : (2 * r : ℚ) < d := by exact_mod_cast compare_lt_iff_lt.mp hcompare
      refine ⟨by linarith [div_pos hpos hd'], ?_⟩
      have : (r : ℚ) / d < 1 / 2 := by rw [div_lt_iff₀ hd']; linarith
      linarith
    | eq =>
      have hhalf : (2 * r : ℚ) = d := by exact_mod_cast compare_eq_iff_eq.mp hcompare
      have : (r : ℚ) / d = 1 / 2 := by rw [div_eq_iff hd'.ne']; linarith
      exact congrArg ((k : ℚ) + ·) this
    | gt =>
      have hhalf : (d : ℚ) < 2 * r := by exact_mod_cast compare_gt_iff_gt.mp hcompare
      have hlow : 1 / 2 < (r : ℚ) / d := by rw [lt_div_iff₀ hd']; linarith
      have hhigh : (r : ℚ) / d < 1 := by rw [div_lt_one hd']; exact hlt
      exact ⟨by linarith, by linarith⟩

/-- The quotient is worked out down to the last place. -/
theorem divCore_stands (q₁ q₂ : Int) (hm₁ : 0 < m₁) (hm₂ : 0 < m₂) :
    ∃ n e a, divCore Format.binary64 m₁ q₁ m₂ q₂ = (n, e, a) ∧
      Stands (dyadic m₁ q₁ / dyadic m₂ q₂ / 2 ^ e) n a ∧
      e ≤ lastPlace (dyadic m₁ q₁ / dyadic m₂ q₂) := by
  obtain ⟨e, he⟩ : ∃ e, e = min (q₁ - q₂)
    (Format.binary64.targetExponent (totalExponent m₁ q₁ - totalExponent m₂ q₂)) := ⟨_, rfl⟩
  have hpos₁ := dyadic_pos (q := q₁) hm₁
  have hpos₂ := dyadic_pos (q := q₂) hm₂
  refine ⟨_, e, _, by unfold divCore; simp only [← he]; rfl, ?_, ?_⟩
  · -- with the zeros that it gets the dividend is a whole number of last places of the divisor
    have hquotient : dyadic m₁ q₁ / dyadic m₂ q₂ / 2 ^ e
        = ((m₁ <<< (q₁ - q₂ - e).toNat : Nat) : ℚ) / m₂ := by
      have hm₂' : (m₂ : ℚ) ≠ 0 := by exact_mod_cast hm₂.ne'
      have hshift : dyadic (m₁ * 2 ^ (q₁ - q₂ - e).toNat) (e + q₂) = dyadic m₁ q₁ := by
        rw [dyadic_shift]
        congr 1
        omega
      rw [Nat.shiftLeft_eq, div_div, div_eq_div_iff (by positivity) hm₂', ← hshift, dyadic,
        dyadic, zpow_add₀ two_ne_zero]
      ring
    rw [hquotient]
    exact stands_div _ hm₂
  · -- the quotient is larger than the power of two between those of the two quantities
    have hlow : (2 : ℚ) ^ (totalExponent m₁ q₁ - 1 - totalExponent m₂ q₂)
        < dyadic m₁ q₁ / dyadic m₂ q₂ := by
      rw [lt_div_iff₀ hpos₂]
      calc (2 : ℚ) ^ (totalExponent m₁ q₁ - 1 - totalExponent m₂ q₂) * dyadic m₂ q₂
          < 2 ^ (totalExponent m₁ q₁ - 1 - totalExponent m₂ q₂) * 2 ^ totalExponent m₂ q₂ :=
            mul_lt_mul_of_pos_left (le_dyadic_lt hm₂).2 (two_zpow_pos _)
        _ = 2 ^ (totalExponent m₁ q₁ - 1) := by
            rw [← zpow_add₀ two_ne_zero]
            congr 1
            omega
        _ ≤ dyadic m₁ q₁ := (le_dyadic_lt hm₁).1
    have hlog := lt_of_zpow_lt (hlow.trans (lt_zpow_log_succ _))
    rw [targetExponent_eq] at he
    unfold lastPlace
    omega

/-- A quotient is rounded to the nearest float. -/
theorem div_eq_nearest (s₁ s₂ : Sign) :
    div Format.binary64 (.finite s₁ m₁ q₁ h₁) (.finite s₂ m₂ q₂ h₂)
      = nearest (s₁ / s₂) (dyadic m₁ q₁ / dyadic m₂ q₂) := by
  obtain ⟨n, e, a, hcore, hstands, hplace⟩ := divCore_stands q₁ q₂ h₁ h₂
  unfold div
  dsimp only
  rw [hcore]
  exact roundWithAccuracy_eq _ hstands (div_pos (dyadic_pos h₁) (dyadic_pos h₂)) hplace

end Products

/-! ## Decimals over a long mantissa -/

/-- No power of ten is smaller than that of two, unless it is below one. -/
theorem two_zpow_le_ten_zpow (he : 0 ≤ e) : (2 : ℚ) ^ e ≤ 10 ^ e :=
  zpow_le_zpow_left₀ he (by norm_num) (by norm_num)

theorem ten_zpow_le_two_zpow (he : e ≤ 0) : (10 : ℚ) ^ e ≤ 2 ^ e := by
  have hle := two_zpow_le_ten_zpow (e := -e) (by omega)
  rw [zpow_neg, zpow_neg] at hle
  exact (inv_le_inv₀ (two_zpow_pos e) (by positivity)).mp hle

/-- Digits and a power of ten are rounded to the nearest float. -/
theorem ofScientific_eq_nearest (hn : 0 < n) (e : Int) :
    Float.ofModel (.pack (UnpackedFloat.ofScientific Format.binary64 n e))
      = toNearest .positive (n * 10 ^ e) := by
  have hn' : (1 : ℚ) ≤ n := by exact_mod_cast hn
  have hten : (0 : ℚ) < 10 ^ e := by positivity
  have hv : (0 : ℚ) < n * 10 ^ e := by positivity
  have hlimit : (2 : Int) ^ Format.binary64.exponentBits = 2048 := rfl
  unfold UnpackedFloat.ofScientific
  rw [dif_neg hn.ne', hlimit]
  by_cases hlarge : e > 2048
  · rw [if_pos hlarge, toNearest_of_large]
    calc (2 : ℚ) ^ (1024 : Int) ≤ 2 ^ e := two_zpow_le (by omega)
      _ ≤ 10 ^ e := two_zpow_le_ten_zpow (by omega)
      _ ≤ n * 10 ^ e := le_mul_of_one_le_left hten.le hn'
  rw [if_neg hlarge]
  by_cases hsmall : e < -(2048 + (n.log2 : Int))
  · have htiny : (n : ℚ) * 10 ^ e < 2 ^ (-1075 : Int) := by
      have hdigits : (n : ℚ) < 2 ^ ((n.log2 : Int) + 1) := by exact_mod_cast Nat.lt_log2_self
      calc (n : ℚ) * 10 ^ e ≤ n * 2 ^ e :=
            mul_le_mul_of_nonneg_left (ten_zpow_le_two_zpow (by omega)) (by positivity)
        _ < 2 ^ ((n.log2 : Int) + 1) * 2 ^ e := mul_lt_mul_of_pos_right hdigits (two_zpow_pos e)
        _ = 2 ^ ((n.log2 : Int) + 1 + e) := (zpow_add₀ two_ne_zero _ _).symm
        _ ≤ 2 ^ (-1075 : Int) := two_zpow_le (by omega)
    rw [if_pos hsmall, toNearest, nearest_of_small _ hv htiny]
  rw [if_neg hsmall]
  by_cases hnonneg : 0 ≤ e
  · -- the digits get enough zeros for the product to fill a mantissa
    have hlong : dyadic (n <<< Format.binary64.mantissaBits) (-(Format.binary64.mantissaBits : Int))
        = n := by
      rw [Nat.shiftLeft_eq, dyadic_shift, neg_add_cancel, dyadic_natCast]
    have hpower : dyadic (10 ^ e.toNat) 0 = 10 ^ e := by
      rw [dyadic_natCast, Nat.cast_pow, ← zpow_natCast, Int.toNat_of_nonneg hnonneg]
      rfl
    have hfull : 2 ^ 52 ≤ n <<< Format.binary64.mantissaBits := by
      have hbits : Format.binary64.mantissaBits = 53 := rfl
      rw [hbits, Nat.shiftLeft_eq]
      omega
    have hfactor : 0 < 10 ^ e.toNat := Nat.pow_pos (by decide)
    rw [if_pos hnonneg, mul_eq_nearest _ _ (hfull.trans (Nat.le_mul_of_pos_right _ hfactor)), hlong,
      hpower]
    rfl
  · have hpower : dyadic (10 ^ (-e).toNat) 0 = (10 ^ e)⁻¹ := by
      rw [dyadic_natCast, Nat.cast_pow, ← zpow_natCast, Int.toNat_of_nonneg (by omega), zpow_neg]
      rfl
    rw [if_neg hnonneg, div_eq_nearest, dyadic_natCast, hpower, div_inv_eq_mul]
    rfl

/-! ## Decimals in one step of float arithmetic -/

/-- The parts of a whole number that fits into a mantissa: it is shifted until it fills one. -/
theorem isParts_of_lt (hn : 0 < n) (hlt : n < 2 ^ 53) :
    IsParts (n * 2 ^ (52 - n.log2)) (-((52 - n.log2 : Nat) : Int)) ∧
      2 ^ 52 ≤ n * 2 ^ (52 - n.log2) := by
  have hlog : n.log2 ≤ 52 := by
    have := (Nat.log2_lt hn.ne').mpr hlt
    omega
  have hsum : 2 ^ n.log2 * 2 ^ (52 - n.log2) = 2 ^ 52 := by
    rw [← pow_add]
    congr 1
    omega
  have hlow : 2 ^ 52 ≤ n * 2 ^ (52 - n.log2) := by
    rw [← hsum]
    exact Nat.mul_le_mul_right _ (Nat.log2_self_le hn.ne')
  have hhigh : n * 2 ^ (52 - n.log2) < 2 ^ 53 := by
    have hdouble : 2 ^ 53 = 2 ^ (n.log2 + 1) * 2 ^ (52 - n.log2) := by
      rw [pow_succ 2 n.log2, mul_right_comm, hsum, ← pow_succ]
    rw [hdouble]
    exact Nat.mul_lt_mul_of_pos_right Nat.lt_log2_self (Nat.two_pow_pos _)
  exact ⟨⟨by omega, hhigh, by omega, by omega, .inl hlow⟩, hlow⟩

/-- The number that the shifted parts of a whole number make. -/
theorem dyadic_isParts_of_lt (n : Nat) :
    dyadic (n * 2 ^ (52 - n.log2)) (-((52 - n.log2 : Nat) : Int)) = n := by
  rw [dyadic_shift, neg_add_cancel, dyadic_natCast]

/-- A whole number of 64 bits is rounded to the nearest float. -/
theorem toFloat_toUInt64_eq (hn : 0 < n) (hlt : n < 2 ^ 64) :
    n.toUInt64.toFloat = toNearest .positive n := by
  have hword : n.toUInt64.toNat = n := by
    rw [Nat.toUInt64_eq, UInt64.toNat_ofNat_of_lt' hlt]
  have hnormal : UnpackedFloat.normalize Format.binary64 (n : Int) 0 .positive
      = UnpackedFloat.round Format.binary64 .positive n 0 := by
    have hcompare : compare (n : Int) 0 = .gt := by
      rw [compare_gt_iff_gt]
      omega
    unfold UnpackedFloat.normalize
    rw [hcompare]
    rfl
  have hfloat : n.toUInt64.toFloat = .ofModel (.pack
      (UnpackedFloat.normalize Format.binary64 (n.toUInt64.toNat : Int) 0 .positive)) := rfl
  rw [hfloat, hword, hnormal, round_eq_nearest _ hn, dyadic_natCast]
  rfl

/-- A whole number that fits into a mantissa is a float. -/
theorem unpack_toFloat_toUInt64 (hn : 0 < n) (hlt : n < 2 ^ 53) :
    n.toUInt64.toFloat.toModel.unpack
      = .finite .positive (n * 2 ^ (52 - n.log2)) (-((52 - n.log2 : Nat) : Int))
        (isParts_of_lt hn hlt).1.pos := by
  have hn' : (0 : ℚ) < n := by exact_mod_cast hn
  have hparts := (isParts_of_lt hn hlt).1
  rw [toFloat_toUInt64_eq hn (hlt.trans (by decide)), unpack_toNearest_iff hn']
  refine ⟨hparts, ?_⟩
  rw [← hparts.rounded_eq, dyadic_isParts_of_lt]

/-- Whether a float is a power of ten, exactly. -/
def isPowerOfTen (x : Float) (k : Nat) : Bool :=
  match x.toModel.unpack with
  | .finite .positive m q _ => m * 2 ^ q.toNat == 10 ^ k * 2 ^ (-q).toNat
  | _ => false

theorem isPowerOfTen_exactly : ∀ i : Fin Float.exactlyRepresentablePowersOfTen.size,
    isPowerOfTen Float.exactlyRepresentablePowersOfTen[i] i = true := by
  decide +kernel

/-- The powers of ten that are floats. -/
theorem unpack_powerOfTen {k : Nat} (hk : k < Float.exactlyRepresentablePowersOfTen.size) :
    ∃ (m : Nat) (q : Int) (h : 0 < m), dyadic m q = 10 ^ k ∧
      Float.exactlyRepresentablePowersOfTen[k].toModel.unpack = .finite .positive m q h := by
  have hpower : isPowerOfTen Float.exactlyRepresentablePowersOfTen[k] k = true :=
    isPowerOfTen_exactly ⟨k, hk⟩
  unfold isPowerOfTen at hpower
  obtain ⟨u, hunpack⟩ : ∃ u, Float.exactlyRepresentablePowersOfTen[k].toModel.unpack = u :=
    ⟨_, rfl⟩
  rw [hunpack] at hpower
  cases u with
  | notANumber => cases hpower
  | infinity => cases hpower
  | zero => cases hpower
  | finite s m q h =>
    cases s with
    | negative => cases hpower
    | positive =>
      refine ⟨m, q, h, ?_, hunpack⟩
      have hcast : (m : ℚ) * 2 ^ q.toNat = 10 ^ k * 2 ^ (-q).toNat := by
        exact_mod_cast eq_of_beq hpower
      have hsplit : (2 : ℚ) ^ q = 2 ^ q.toNat / 2 ^ (-q).toNat := by
        rw [← zpow_natCast, ← zpow_natCast, ← zpow_sub₀ two_ne_zero]
        congr 1
        omega
      rw [dyadic, hsplit, mul_div_assoc', hcast]
      field_simp

theorem mul_eq_pack (x y : Float) :
    x * y = .ofModel (.pack (mul Format.binary64 x.toModel.unpack y.toModel.unpack)) := rfl

theorem div_eq_pack (x y : Float) :
    x / y = .ofModel (.pack (div Format.binary64 x.toModel.unpack y.toModel.unpack)) := rfl

variable {k : Nat}

/-- The digits and the power of ten are floats, so there is one rounding. -/
theorem toFloat_mul_powerOfTen_eq (hn : 0 < n) (hlt : n < 2 ^ 53)
    (hk : k < Float.exactlyRepresentablePowersOfTen.size) :
    n.toUInt64.toFloat * Float.exactlyRepresentablePowersOfTen[k]
      = toNearest .positive (n * 10 ^ (k : Int)) := by
  obtain ⟨m₂, q₂, h₂, hvalue₂, hunpack₂⟩ := unpack_powerOfTen hk
  have hfull := (isParts_of_lt hn hlt).2.trans (Nat.le_mul_of_pos_right _ h₂)
  rw [mul_eq_pack, unpack_toFloat_toUInt64 hn hlt, hunpack₂, mul_eq_nearest _ _ hfull,
    dyadic_isParts_of_lt, hvalue₂, zpow_natCast]
  rfl

theorem toFloat_div_powerOfTen_eq (hn : 0 < n) (hlt : n < 2 ^ 53)
    (hk : k < Float.exactlyRepresentablePowersOfTen.size) :
    n.toUInt64.toFloat / Float.exactlyRepresentablePowersOfTen[k]
      = toNearest .positive (n * 10 ^ (-(k : Int))) := by
  obtain ⟨m₂, q₂, h₂, hvalue₂, hunpack₂⟩ := unpack_powerOfTen hk
  rw [div_eq_pack, unpack_toFloat_toUInt64 hn hlt, hunpack₂, div_eq_nearest, dyadic_isParts_of_lt,
    hvalue₂, zpow_neg, zpow_natCast, div_eq_mul_inv]
  rfl

/-- Digits over or under a power of ten are rounded to the nearest float. -/
theorem float_ofScientific_eq (hn : 0 < n) (below : Bool) (k : Nat) :
    Float.ofScientific n below k
      = toNearest .positive (n * 10 ^ (if below then -(k : Int) else k)) := by
  unfold Float.ofScientific
  split
  · next hfast =>
    have hk : k < Float.exactlyRepresentablePowersOfTen.size := by
      have hsize : Float.exactlyRepresentablePowersOfTen.size = 23 := rfl
      omega
    cases below with
    | true => exact toFloat_div_powerOfTen_eq hn hfast.1 hk
    | false => exact toFloat_mul_powerOfTen_eq hn hfast.1 hk
  · have hexponent : (if below then -(k : Int) else k)
        = if below then Int.negOfNat k else Int.ofNat k := by
      rw [Int.negOfNat_eq]
      rfl
    rw [hexponent, ← ofScientific_eq_nearest hn]
    rfl

/-- **A decimal is read as the float nearest to it.** -/
theorem toFloat_eq_toNearest {d : Decimal} (hd : 0 < d.digits) :
    d.toFloat = toNearest .positive d.quantity := by
  unfold Decimal.toFloat Decimal.quantity
  split
  · next k hk => rw [hk, float_ofScientific_eq hd]; rfl
  · next k hk => rw [hk, float_ofScientific_eq hd]; rfl

theorem quantity_pos {d : Decimal} (hd : 0 < d.digits) : 0 < d.quantity := by
  unfold Decimal.quantity
  positivity

theorem digits_pos_of_quantity_pos {d : Decimal} (hd : 0 < d.quantity) : 0 < d.digits := by
  refine Nat.pos_of_ne_zero fun hzero => ?_
  rw [Decimal.quantity, hzero, Nat.cast_zero, zero_mul] at hd
  exact lt_irrefl _ hd

/-- **Exact decimals.** A decimal whose quantity a float has is read as this float. -/
theorem toFloat_of_quantity {d : Decimal} (hparts : IsParts m q) (h : d.quantity = dyadic m q) :
    d.toFloat = ofParts .positive m q hparts.pos := by
  have hquantity : 0 < d.quantity := h ▸ dyadic_pos hparts.pos
  rw [toFloat_eq_toNearest (digits_pos_of_quantity_pos hquantity)]
  exact toNearest_of_parts _ hquantity hparts (by rw [h, hparts.rounded_eq])

/-- Without digits there is nothing to be rounded. -/
theorem unpack_ofScientific_zero (below : Bool) (k : Nat) :
    (Float.ofScientific 0 below k).toModel.unpack = .zero .positive := by
  have hzero : (0 : Nat).toUInt64.toFloat.toModel.unpack = .zero .positive := rfl
  unfold Float.ofScientific
  split
  · next hfast =>
    have hk : k < Float.exactlyRepresentablePowersOfTen.size := by
      have hsize : Float.exactlyRepresentablePowersOfTen.size = 23 := rfl
      omega
    obtain ⟨m, q, h, -, hunpack⟩ := unpack_powerOfTen hk
    cases below with
    | true =>
      have hquotient : (0 : Nat).toUInt64.toFloat / Float.exactlyRepresentablePowersOfTen[k]
          = .ofModel (.pack (.zero .positive)) := by
        rw [div_eq_pack, hzero, hunpack]
        rfl
      exact (congrArg (fun x : Float => x.toModel.unpack) hquotient).trans (unpack_pack_zero _)
    | false =>
      have hproduct : (0 : Nat).toUInt64.toFloat * Float.exactlyRepresentablePowersOfTen[k]
          = .ofModel (.pack (.zero .positive)) := by
        rw [mul_eq_pack, hzero, hunpack]
        rfl
      exact (congrArg (fun x : Float => x.toModel.unpack) hproduct).trans (unpack_pack_zero _)
  · exact unpack_pack_zero _

/-- A decimal without a quantity is read as zero. -/
theorem toFloat_of_digits_eq_zero {d : Decimal} (hd : d.digits = 0) :
    d.toFloat.toModel.unpack = .zero .positive := by
  unfold Decimal.toFloat
  rw [hd]
  split
  · exact unpack_ofScientific_zero _ _
  · exact unpack_ofScientific_zero _ _

/-- **What is read as a given float**: the decimals with a quantity that is rounded to the one that
the float has. -/
theorem toFloat_eq_iff {x : Float} {h : 0 < m} (hx : x.toModel.unpack = .finite .positive m q h)
    (d : Decimal) : d.toFloat = x ↔ 0 < d.digits ∧ rounded d.quantity = dyadic m q := by
  obtain ⟨hparts, hfloat⟩ := isParts_and_ofParts hx
  constructor
  · intro hd
    rcases Nat.eq_zero_or_pos d.digits with hzero | hpos
    · rw [← hd, toFloat_of_digits_eq_zero hzero] at hx
      cases hx
    · rw [← hd, toFloat_eq_toNearest hpos, unpack_toNearest_iff (quantity_pos hpos)] at hx
      exact ⟨hpos, hx.2⟩
  · rintro ⟨hpos, hrounded⟩
    rw [toFloat_eq_toNearest hpos, toNearest_of_parts _ (quantity_pos hpos) hparts hrounded, hfloat]

end FormulaSheet.Number
