/-
The positional layout read again.

A layout keeps the significant digits and moves the point, with zeros where
there are no digits. Read as a magnitude it is another decimal, with the zeros
that stood at the end gone or with more of them, but of the same quantity. The
three ways a layout can look, all digits behind the point, none, and some on
either side, come from where the point stands among the digits.
-/
import FormulaSheet.Decimal.Layout
import FormulaSheet.Proofs.Number.Grammar
import FormulaSheet.Proofs.Number.Quantity

set_option autoImplicit false

namespace FormulaSheet

/-! ## Digits -/

namespace Numeral

theorem natural_append (a b : List Char) :
    natural (a ++ b) = natural a * 10 ^ b.length + natural b := by
  rw [natural, Nat.ofDigitChars_append, Nat.ofDigitChars_eq_ofDigitChars_zero, Nat.mul_comm]
  rfl

theorem natural_replicate_zero (n : Nat) : natural (List.replicate n '0') = 0 := by
  rw [natural, Nat.ofDigitChars_replicate_zero, Nat.mul_zero]

theorem natural_append_zeros (a : List Char) (n : Nat) :
    natural (a ++ List.replicate n '0') = natural a * 10 ^ n := by
  rw [natural_append, natural_replicate_zero, List.length_replicate, Nat.add_zero]

theorem natural_zeros_append (n : Nat) (a : List Char) :
    natural (List.replicate n '0' ++ a) = natural a := by
  rw [natural_append, natural_replicate_zero, Nat.zero_mul, Nat.zero_add]

end Numeral

namespace Decimal

open Numeral (natural magnitude?)

variable {d : Decimal}

/-- The digits of a decimal are the significant ones and zeros. -/
theorem exists_toDigits_eq (d : Decimal) :
    ∃ n, Nat.toDigits 10 d.digits = d.significant ++ List.replicate n '0' := by
  obtain ⟨l, hl⟩ : ∃ l, l = (Nat.toDigits 10 d.digits).reverse := ⟨_, rfl⟩
  have hzeros : l.takeWhile (· == '0') = List.replicate (l.takeWhile (· == '0')).length '0' := by
    refine List.eq_replicate_of_mem fun c hc => ?_
    simpa using List.mem_takeWhile_imp hc
  refine ⟨(l.takeWhile (· == '0')).length, ?_⟩
  have hsplit := congrArg List.reverse (List.takeWhile_append_dropWhile (p := (· == '0')) (l := l))
  rw [List.reverse_append, hzeros, List.reverse_replicate, hl, List.reverse_reverse] at hsplit
  exact hl ▸ hsplit.symm

theorem all_isDigit_significant (d : Decimal) : d.significant.all Char.isDigit = true := by
  rw [List.all_eq_true]
  intro c hc
  obtain ⟨n, hn⟩ := exists_toDigits_eq d
  have hmem : c ∈ Nat.toDigits 10 d.digits := by
    rw [hn]
    exact List.mem_append_left _ hc
  exact Nat.isDigit_of_mem_toDigits (by decide) (by decide) hmem

/-- The quantity of a decimal from its significant digits and the place of its point. -/
theorem quantity_eq (d : Decimal) :
    d.quantity = natural d.significant * 10 ^ (d.point - d.significant.length) := by
  obtain ⟨n, hn⟩ := exists_toDigits_eq d
  have hdigits : d.digits = natural d.significant * 10 ^ n := by
    rw [← Numeral.natural_append_zeros, ← hn, natural, Nat.ofDigitChars_ten_toDigits]
  -- the zeros that the significant digits lack are made up for by the exponent
  have hpoint : d.point - d.significant.length = n + d.exponent := by
    rw [point, hn, List.length_append, List.length_replicate]
    push_cast
    ring
  rw [quantity, hpoint, hdigits, zpow_add₀ (by norm_num), zpow_natCast]
  push_cast
  ring

theorem significant_ne_nil (h : 0 < d.digits) : d.significant ≠ [] := by
  intro hnil
  obtain ⟨n, hn⟩ := exists_toDigits_eq d
  have hzero := Nat.ofDigitChars_ten_toDigits (n := d.digits)
  rw [hn, hnil, List.nil_append, Nat.ofDigitChars_replicate_zero] at hzero
  omega

theorem positional_of_fraction (h : d.fractionPart ≠ []) :
    d.positional = d.wholePart ++ '.' :: d.fractionPart := by
  unfold positional
  split
  · next hnil => exact absurd hnil h
  · rfl

theorem positional_of_whole (h : d.fractionPart = []) : d.positional = d.wholePart := by
  rw [positional, h]

theorem all_isDigit_zeros (n : Nat) : (List.replicate n '0').all Char.isDigit = true := by
  simp [List.all_replicate]

/-- With no digit before the point a zero stands there, and zeros fill the places behind it. -/
theorem magnitude?_positional_below (hd : 0 < d.digits) (hpoint : d.point ≤ 0) :
    magnitude? d.positional
      = some (⟨natural d.significant, d.point - d.significant.length⟩, []) := by
  have hne := significant_ne_nil hd
  have hall : (['0'] ++ (List.replicate (-d.point).toNat '0' ++ d.significant)).all
      Char.isDigit = true := by
    rw [List.all_append, List.all_append, all_isDigit_zeros, all_isDigit_significant]
    rfl
  have hlayout : d.positional
      = ['0'] ++ '.' :: (List.replicate (-d.point).toNat '0' ++ d.significant) := by
    have hpart : d.fractionPart = List.replicate (-d.point).toNat '0' ++ d.significant :=
      if_pos hpoint
    rw [positional_of_fraction (by simp [hpart, hne]), hpart, wholePart, if_pos hpoint]
  have hvalue : natural (['0'] ++ (List.replicate (-d.point).toNat '0' ++ d.significant))
      = natural d.significant :=
    (Numeral.natural_zeros_append 1 _).trans (Numeral.natural_zeros_append _ _)
  rw [hlayout, Numeral.magnitude?_form (.pointed (by simp) (List.all_eq_true.mp hall)), hvalue,
    List.length_append, List.length_replicate]
  have hplaces : -(((-d.point).toNat + d.significant.length : Nat) : Int)
      = d.point - d.significant.length := by omega
  rw [hplaces]

/-- With all digits before the point zeros fill the places up to it. -/
theorem magnitude?_positional_whole (hd : 0 < d.digits)
    (hpoint : (d.significant.length : Int) ≤ d.point) :
    magnitude? d.positional = some
      (⟨natural d.significant * 10 ^ (d.point - d.significant.length).toNat, 0⟩, []) := by
  have hne := significant_ne_nil hd
  have hlength : 0 < d.significant.length := List.length_pos_iff.mpr hne
  have hpositive : ¬ d.point ≤ 0 := by omega
  have hcount : d.point.toNat - d.significant.length
      = (d.point - d.significant.length).toNat := by omega
  have hlayout : d.positional
      = d.significant ++ List.replicate (d.point - d.significant.length).toNat '0' := by
    have hpart : d.fractionPart = [] := by
      rw [fractionPart, if_neg hpositive, List.drop_eq_nil_of_le (by omega)]
    rw [positional_of_whole hpart, wholePart, if_neg hpositive]
    simp only [hcount, List.take_of_length_le (show d.significant.length ≤ d.point.toNat by omega)]
  have hall : (d.significant
      ++ List.replicate (d.point - d.significant.length).toNat '0').all Char.isDigit = true := by
    rw [List.all_append, all_isDigit_zeros, all_isDigit_significant]
    rfl
  rw [hlayout, Numeral.magnitude?_form (.whole (by simp [hne]) (List.all_eq_true.mp hall)),
    Numeral.natural_append_zeros]

/-- With digits on either side the point stands between them. -/
theorem magnitude?_positional_between (hpoint : 0 < d.point)
    (hlength : d.point < d.significant.length) :
    magnitude? d.positional
      = some (⟨natural d.significant, d.point - d.significant.length⟩, []) := by
  have hpositive : ¬ d.point ≤ 0 := by omega
  have hnone : d.point.toNat - d.significant.length = 0 := by omega
  have hlayout : d.positional
      = d.significant.take d.point.toNat ++ '.' :: d.significant.drop d.point.toNat := by
    have hpart : d.fractionPart = d.significant.drop d.point.toNat := if_neg hpositive
    have hsome : d.significant.drop d.point.toNat ≠ [] := by
      rw [Ne, List.drop_eq_nil_iff]
      omega
    rw [positional_of_fraction (hpart ▸ hsome), hpart, wholePart, if_neg hpositive]
    simp only [hnone, List.replicate_zero, List.append_nil]
  have hne : d.significant ≠ [] := by
    intro hnil
    rw [hnil, List.length_nil] at hlength
    omega
  have hparts := List.take_append_drop d.point.toNat d.significant
  have hform : Numeral.MagnitudeForm
      (d.significant.take d.point.toNat ++ '.' :: d.significant.drop d.point.toNat) _ :=
    .pointed (by rwa [hparts])
      (by rw [hparts]; exact List.all_eq_true.mp (all_isDigit_significant d))
  rw [hlayout, Numeral.magnitude?_form hform, hparts, List.length_drop]
  have hplaces : -((d.significant.length - d.point.toNat : Nat) : Int)
      = d.point - d.significant.length := by omega
  rw [hplaces]

/-- **A layout keeps the quantity.** The positional layout of a decimal, read as a magnitude, is
read to its end and is of the same quantity. -/
theorem exists_magnitude?_positional (hd : 0 < d.digits) :
    ∃ r, magnitude? d.positional = some (r, []) ∧ r.quantity = d.quantity := by
  rw [quantity_eq]
  by_cases hbelow : d.point ≤ 0
  · exact ⟨_, magnitude?_positional_below hd hbelow, rfl⟩
  · by_cases hwhole : (d.significant.length : Int) ≤ d.point
    · refine ⟨_, magnitude?_positional_whole hd hwhole, ?_⟩
      rw [quantity, zpow_zero, mul_one, Nat.cast_mul, Nat.cast_pow, ← zpow_natCast,
        Int.toNat_of_nonneg (by omega)]
      rfl
    · exact ⟨_, magnitude?_positional_between (by omega) (by omega), rfl⟩

end Decimal

end FormulaSheet
