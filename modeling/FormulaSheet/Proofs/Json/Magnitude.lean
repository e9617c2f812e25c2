/-
The float of a number of JSON.

Of the digits as many are taken as fit into 64 bits (`takeFitting_eq`). What they
make is rounded to a float, and that is multiplied or divided by a power of ten
that is rounded, too; for the smallest numbers more than once. However often that
happens, what comes out is a zero without a sign or a positive finite float
(`isMagnitude_of_magnitude?`). Up to 15 digits and 22 places nothing is rounded but
the result, and so the float is the nearest (`magnitude?_eq_toFloat`).
-/
import FormulaSheet.Json.Number
import FormulaSheet.Proofs.Number.Interval
import FormulaSheet.Proofs.Number.Reading
import FormulaSheet.Proofs.Number.Zeros

set_option autoImplicit false

namespace FormulaSheet

open Float.Model (UnpackedFloat Format)
open Float.Model.UnpackedFloat
open Number

namespace Number

variable {x y : Float} {v : ℚ} {m n k : Nat} {q : Int} {h : 0 < m} {s : Sign}

/-! ## Floats that are magnitudes -/

/-- A float that is a zero without a sign or positive and finite. -/
def IsMagnitude (x : Float) : Prop :=
  x.toModel.unpack = .zero .positive ∨ ∃ m q h, x.toModel.unpack = .finite .positive m q h

/-- A rounded quantity is a magnitude unless it is too large. -/
theorem isMagnitude_toNearest (hv : 0 < v) (hfinite : (toNearest .positive v).isInf = false) :
    IsMagnitude (toNearest .positive v) := by
  rcases unpack_toNearest_cases .positive hv with ⟨-, hzero⟩ | ⟨m, q, hparts, -, hunpack⟩ |
    ⟨-, hinfinite⟩
  · exact .inl hzero
  · exact .inr ⟨m, q, _, hunpack⟩
  · have hinf : (toNearest .positive v).isInf = (toNearest .positive v).toModel.unpack.isInf := rfl
    rw [hinf, hinfinite] at hfinite
    cases hfinite

/-- A quantity that is not larger than one that a float has is not too large. -/
theorem isInf_toNearest_of_le (hparts : IsParts m q) (hv : 0 < v) (hle : v ≤ dyadic m q) :
    (toNearest s v).isInf = false := by
  have hinf : (toNearest s v).isInf = (toNearest s v).toModel.unpack.isInf := rfl
  rw [hinf]
  rcases unpack_toNearest_cases s hv with ⟨-, hzero⟩ | ⟨m, q, hparts, -, hunpack⟩ | ⟨hlarge, -⟩
  · rw [hzero]
    rfl
  · rw [hunpack]
    rfl
  · -- the float is less than any power of two that is too large
    have hrounded := rounded_mono hv hle
    rw [hparts.rounded_eq] at hrounded
    have hbound : (2 : ℚ) ^ (q + 53) ≤ 2 ^ (1024 : Int) :=
      two_zpow_le (by have := hparts.exponent_le; omega)
    have := hparts.dyadic_le
    have := two_zpow_pos q
    linarith

/-- What is not below the smallest normal float is rounded to one. -/
theorem full_of_le (hlow : (2 : ℚ) ^ (-1022 : Int) ≤ v)
    (hunpack : (toNearest s v).toModel.unpack = .finite s m q h) : 2 ^ 52 ≤ m := by
  obtain ⟨hparts, hrounded⟩ := (unpack_toNearest_iff ((two_zpow_pos _).trans_le hlow)).mp hunpack
  refine hparts.normal.elim id fun hq => ?_
  have hsmallest : IsParts (2 ^ 52) (-1074) :=
    ⟨by decide, by decide, le_rfl, by decide, .inl le_rfl⟩
  have hvalue : dyadic (2 ^ 52) (-1074) = 2 ^ (-1022 : Int) := dyadic_two_pow 52 (-1074)
  have hmono := rounded_mono (two_zpow_pos _) hlow
  rw [← hvalue, hsmallest.rounded_eq, hrounded, hq, dyadic, dyadic] at hmono
  exact_mod_cast le_of_mul_le_mul_right hmono (two_zpow_pos _)

/-- A magnitude that is not below the smallest normal float fills its mantissa. -/
theorem exists_parts_of_le (hlow : (2 : ℚ) ^ (-1022 : Int) ≤ v)
    (hmagnitude : IsMagnitude (toNearest .positive v)) :
    ∃ m q h, (toNearest .positive v).toModel.unpack = .finite .positive m q h ∧ 2 ^ 52 ≤ m := by
  rcases hmagnitude with hzero | ⟨m, q, h, hunpack⟩
  · exfalso
    rcases unpack_toNearest_cases .positive ((two_zpow_pos _).trans_le hlow) with
      ⟨hnone, -⟩ | ⟨m, q, hparts, -, hunpack⟩ | ⟨-, hunpack⟩
    · exact (rounded_pos ((two_zpow_le (by decide)).trans hlow)).ne' hnone
    · rw [hzero] at hunpack
      cases hunpack
    · rw [hzero] at hunpack
      cases hunpack
  · exact ⟨m, q, h, hunpack, full_of_le hlow hunpack⟩

/-! ## Steps of float arithmetic -/

/-- A whole number of 64 bits is far from being too large. -/
theorem isMagnitude_toUInt64 (hlt : n < Json.Literal.wordLimit) :
    IsMagnitude n.toUInt64.toFloat := by
  rcases Nat.eq_zero_or_pos n with rfl | hn
  · exact .inl rfl
  · have hn' : (0 : ℚ) < n := by exact_mod_cast hn
    have hparts : IsParts (2 ^ 52) 12 := ⟨by decide, by decide, by decide, by decide, .inl le_rfl⟩
    have hle : (n : ℚ) ≤ dyadic (2 ^ 52) 12 := by
      have hvalue : dyadic (2 ^ 52) 12 = (Json.Literal.wordLimit : Nat) := by
        norm_num [dyadic, Json.Literal.wordLimit]
      rw [hvalue]
      exact_mod_cast hlt.le
    rw [toFloat_toUInt64_eq hn hlt]
    exact isMagnitude_toNearest hn' (isInf_toNearest_of_le hparts hn' hle)

/-- A power of ten up to the largest that is a float. -/
theorem exists_unit (hk : k ≤ 308) : ∃ m q h, 2 ^ 52 ≤ m ∧ 1 ≤ dyadic m q ∧
    (Decimal.toFloat ⟨1, k⟩).toModel.unpack = .finite .positive m q h := by
  have hone : (1 : ℚ) ≤ 10 ^ (k : Int) := one_le_zpow₀ (by norm_num) (by omega)
  have hquantity : (Decimal.quantity ⟨1, k⟩) = 10 ^ (k : Int) := by
    rw [Decimal.quantity, Nat.cast_one, one_mul]
  have hlow : (2 : ℚ) ^ (-1022 : Int) ≤ 10 ^ (k : Int) :=
    (two_zpow_le (b := 0) (by decide)).trans hone
  have hpos : (0 : ℚ) < 10 ^ (k : Int) := by linarith
  have hlargest : IsParts (2 ^ 53 - 1) (971 : Nat) :=
    ⟨by decide, by decide, by decide, by decide, .inl (by decide)⟩
  have hhigh : (10 : ℚ) ^ (k : Int) ≤ dyadic (2 ^ 53 - 1) (971 : Nat) := by
    have hlimit : 10 ^ 308 ≤ (2 ^ 53 - 1) * 2 ^ 971 := by decide +kernel
    have hcast : ∀ a b c : Nat, 10 ^ a ≤ c * 2 ^ b → (10 : ℚ) ^ a ≤ dyadic c b := by
      intro a b c hle
      rw [dyadic, zpow_natCast]
      exact_mod_cast hle
    rw [zpow_natCast]
    exact (pow_le_pow_right₀ (by norm_num) hk).trans (hcast _ _ _ hlimit)
  have hfloat : Decimal.toFloat ⟨1, k⟩ = toNearest .positive (10 ^ (k : Int)) := by
    rw [toFloat_eq_toNearest Nat.one_pos, hquantity]
  rw [hfloat]
  obtain ⟨m, q, h, hunpack, hfull⟩ := exists_parts_of_le hlow
    (isMagnitude_toNearest hpos (isInf_toNearest_of_le hlargest hpos hhigh))
  refine ⟨m, q, h, hfull, ?_, hunpack⟩
  -- one is a float, so no more than one is rounded to less
  have hparts : IsParts (2 ^ 52) (-52) := ⟨by decide, by decide, by decide, by decide, .inl le_rfl⟩
  have hvalue : dyadic (2 ^ 52) (-52) = 1 := dyadic_two_pow 52 (-52)
  have hmono := rounded_mono one_pos hone
  rwa [← hvalue, hparts.rounded_eq, hvalue, ((unpack_toNearest_iff hpos).mp hunpack).2] at hmono

/-- A product of magnitudes is one unless it is too large. -/
theorem IsMagnitude.mul_unit (hx : IsMagnitude x) (hk : k ≤ 308)
    (hfinite : (x * Decimal.toFloat ⟨1, k⟩).isInf = false) :
    IsMagnitude (x * Decimal.toFloat ⟨1, k⟩) := by
  obtain ⟨m', q', h', hfull, -, hunit⟩ := exists_unit hk
  rcases hx with hx | ⟨m, q, h, hx⟩
  · left
    rw [mul_eq_pack, hx, hunit]
    exact unpack_pack_zero .positive
  · have hproduct : x * Decimal.toFloat ⟨1, k⟩
        = toNearest .positive (dyadic m q * dyadic m' q') := by
      rw [mul_eq_pack, hx, hunit, mul_eq_nearest _ _ (hfull.trans (Nat.le_mul_of_pos_left _ h))]
      rfl
    rw [hproduct] at hfinite ⊢
    exact isMagnitude_toNearest (mul_pos (dyadic_pos h) (dyadic_pos h')) hfinite

/-- A quotient of a magnitude is one, because it is not larger. -/
theorem IsMagnitude.div_unit (hx : IsMagnitude x) (hk : k ≤ 308) :
    IsMagnitude (x / Decimal.toFloat ⟨1, k⟩) := by
  obtain ⟨m', q', h', -, hone, hunit⟩ := exists_unit hk
  rcases hx with hx | ⟨m, q, h, hx⟩
  · left
    rw [div_eq_pack, hx, hunit]
    exact unpack_pack_zero .positive
  · have hquotient : x / Decimal.toFloat ⟨1, k⟩
        = toNearest .positive (dyadic m q / dyadic m' q') := by
      rw [div_eq_pack, hx, hunit, div_eq_nearest]
      rfl
    have hpos := div_pos (dyadic_pos (q := q) h) (dyadic_pos (q := q') h')
    rw [hquotient]
    exact isMagnitude_toNearest hpos (isInf_toNearest_of_le (isParts_and_ofParts hx).1 hpos
      (div_le_self (dyadic_pos h).le hone))

end Number

namespace Json.Literal

variable {x y : Float} {l : Literal} {cs rest : List Char} {n m : Nat} {power : Int}

/-! ## Digits that fit -/

theorem takeFitting_lt (hn : n < wordLimit) (cs : List Char) :
    (takeFitting n cs).1 < wordLimit := by
  induction cs generalizing n with
  | nil => exact hn
  | cons c cs ih =>
    rw [takeFitting]
    split
    · next hlt => exact ih hlt
    · exact hn

/-- If all digits are taken, they make the number they denote. -/
theorem eq_of_takeFitting (h : takeFitting n cs = (m, [])) : m = Nat.ofDigitChars 10 cs n := by
  induction cs generalizing n with
  | nil => exact (Prod.mk.inj h).1.symm
  | cons c cs ih =>
    rw [takeFitting] at h
    split at h
    · rw [Nat.ofDigitChars_cons]
      exact ih h
    · cases (Prod.mk.inj h).2

/-- Digits of a number that fits are all taken. -/
theorem takeFitting_eq (h : Nat.ofDigitChars 10 cs n < wordLimit) :
    takeFitting n cs = (Nat.ofDigitChars 10 cs n, []) := by
  induction cs generalizing n with
  | nil => rfl
  | cons c cs ih =>
    rw [Nat.ofDigitChars_cons] at h ⊢
    -- more digits make the number no smaller
    have hle : 10 * n + (c.toNat - '0'.toNat) < wordLimit := by
      refine lt_of_le_of_lt ?_ h
      rw [Nat.ofDigitChars_eq_ofDigitChars_zero]
      have hpos : 0 < 10 ^ cs.length := Nat.pow_pos (by decide)
      exact (Nat.le_mul_of_pos_left _ hpos).trans (Nat.le_add_right _ _)
    rw [takeFitting]
    exact (if_pos hle).trans (ih h)

/-! ## Places -/

/-- However often it is scaled, a magnitude is a magnitude. -/
theorem isMagnitude_of_scale? (hx : IsMagnitude x) (h : scale? x power = some y) :
    IsMagnitude y := by
  fun_induction scale? x power with
  | case1 | case5 => cases h
  | case2 x power hpower unit _ product hfinite =>
    rw [← Option.some.inj h]
    exact hx.mul_unit hpower (Bool.eq_false_iff.mpr hfinite)
  | case3 x power hpower =>
    cases h
    exact hx.div_unit hpower
  | case4 =>
    cases h
    exact hx
  | case6 x power _ _ _ ih => exact ih (hx.div_unit le_rfl) h

/-- **The float of a number of JSON** is a magnitude. -/
theorem isMagnitude_of_magnitude? (h : l.magnitude? = some x) : IsMagnitude x := by
  have hlimit : (takeFitting (takeFitting 0 l.whole).1 l.fraction).1 < wordLimit :=
    takeFitting_lt (takeFitting_lt (by decide) _) _
  exact isMagnitude_of_scale? (isMagnitude_toUInt64 hlimit) h

/-! ## Few digits and places -/

/-- The powers of ten that are floats are read as themselves. -/
theorem unit_eq : ∀ k : Fin 23,
    Decimal.toFloat ⟨1, (k : Nat)⟩ = Float.exactlyRepresentablePowersOfTen[(k : Nat)]! := by
  decide +kernel

/-- A few digits are scaled by a few places as a decimal is read. -/
theorem scale?_eq_toFloat (hn : n < 2 ^ 53) (hpower : power.natAbs ≤ 22)
    (h : scale? n.toUInt64.toFloat power = some y) : y = Decimal.toFloat ⟨n, power⟩ := by
  have hbound : power.natAbs < Float.exactlyRepresentablePowersOfTen.size := Nat.lt_succ_of_le hpower
  have hunit : Decimal.toFloat ⟨1, power.natAbs⟩
      = Float.exactlyRepresentablePowersOfTen[power.natAbs] := by
    rw [← getElem!_pos Float.exactlyRepresentablePowersOfTen power.natAbs hbound]
    exact unit_eq ⟨power.natAbs, hbound⟩
  rw [scale?, if_pos (hpower.trans (by decide))] at h
  dsimp only at h
  rw [hunit] at h
  unfold Decimal.toFloat
  cases power with
  | ofNat k =>
    have hnonneg : 0 ≤ Int.ofNat k := Int.natCast_nonneg k
    rw [if_pos hnonneg] at h
    dsimp only
    unfold Float.ofScientific
    rw [dif_pos ⟨hn, hpower⟩]
    split at h
    · cases h
    · exact (Option.some.inj h).symm
  | negSucc k =>
    rw [if_neg (by omega)] at h
    dsimp only
    unfold Float.ofScientific
    rw [dif_pos ⟨hn, hpower⟩]
    exact (Option.some.inj h).symm

/-- **Few digits and places** make the float that is nearest to the number. -/
theorem magnitude?_eq_toFloat (hdigits : Numeral.natural (l.whole ++ l.fraction) < 2 ^ 53)
    (hplaces : (l.power - l.fraction.length).natAbs ≤ 22) (h : l.magnitude? = some x) :
    x = Decimal.toFloat ⟨Numeral.natural (l.whole ++ l.fraction), l.power - l.fraction.length⟩ := by
  have hall : Nat.ofDigitChars 10 l.fraction (Numeral.natural l.whole)
      = Numeral.natural (l.whole ++ l.fraction) := (Nat.ofDigitChars_append 0).symm
  have hlimit : Numeral.natural (l.whole ++ l.fraction) < wordLimit := hdigits.trans (by decide)
  have hwhole : takeFitting 0 l.whole = (Numeral.natural l.whole, []) := by
    apply takeFitting_eq
    refine lt_of_le_of_lt ?_ hlimit
    rw [Numeral.natural_append]
    have hpos : 0 < 10 ^ l.fraction.length := Nat.pow_pos (by decide)
    exact (Nat.le_mul_of_pos_right _ hpos).trans (Nat.le_add_right _ _)
  have hfraction : takeFitting (Numeral.natural l.whole) l.fraction
      = (Numeral.natural (l.whole ++ l.fraction), []) := by
    rw [← hall]
    exact takeFitting_eq (hall ▸ hlimit)
  simp only [magnitude?, hwhole, hfraction, List.length_nil] at h
  have hpower : ((0 : Nat) : Int) - ((l.fraction.length : Int) - (0 : Nat)) + l.power
      = l.power - l.fraction.length := by omega
  rw [hpower] at h
  exact scale?_eq_toFloat hdigits hplaces h

end Json.Literal

end FormulaSheet
