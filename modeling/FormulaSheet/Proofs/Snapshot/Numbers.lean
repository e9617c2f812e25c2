/-
Numbers in a file and the texts that they leave behind.

A number in a file becomes the raw text of a cell. A whole number of 64 bits leaves
its digits behind. Any other number becomes a float first, and what it leaves
behind is the shortest decimal of that float; so reading the text gives the float
again (`toFloat_shown`), but not always the number. It does if the number has at
most 15 digits and its last place is at most 22 places from the point
(`number_left_behind`). It never does if the number has more than 17 significant
digits, because no text that is left behind by a float has.
-/
import FormulaSheet.Proofs.Json.Magnitude
import FormulaSheet.Proofs.Json.Numerals
import FormulaSheet.Proofs.Number.Shortest
import FormulaSheet.Proofs.Number.Shown
import FormulaSheet.Snapshot

set_option autoImplicit false

namespace FormulaSheet

open Number
open Numeral (natural scan? signed denoted?)

namespace Number

variable {x : Float} {m : Nat} {q : Int} {h : 0 < m} {c d : Decimal}

/-- Decimals of the same quantity are read as the same float. -/
theorem toFloat_congr (heq : c.quantity = d.quantity) : c.toFloat = d.toFloat := by
  rcases Nat.eq_zero_or_pos c.digits with hc | hc
  · have hd : d.digits = 0 := by
      by_contra hne
      have hpos := quantity_pos (Nat.pos_of_ne_zero hne)
      rw [← heq, Decimal.quantity, hc, Nat.cast_zero, zero_mul] at hpos
      exact lt_irrefl _ hpos
    rw [eq_of_unpack_zero (toFloat_of_digits_eq_zero hc),
      eq_of_unpack_zero (toFloat_of_digits_eq_zero hd)]
  · have hd := digits_pos_of_quantity_pos (heq ▸ quantity_pos hc)
    rw [toFloat_eq_toNearest hc, toFloat_eq_toNearest hd, heq]

/-! ## The decimal that a float shows -/

/-- The decimal that is written for a float. -/
def shown (x : Float) : Decimal :=
  match x.toModel.unpack with
  | .finite _ m q _ => Decimal.shortest .toEven (fun d => d.toFloat = x) (Decimal.ofBinary m q)
  | _ => ⟨0, -1⟩

theorem shown_of_finite (hx : x.toModel.unpack = .finite .positive m q h) :
    shown x = Decimal.shortest .toEven (fun d => d.toFloat = x) (Decimal.ofBinary m q) := by
  unfold shown
  rw [hx]

theorem shown_of_zero (hx : x.toModel.unpack = .zero .positive) : shown x = ⟨0, -1⟩ := by
  unfold shown
  rw [hx]

/-- **A float is read from what it shows.** -/
theorem toFloat_shown (hx : IsMagnitude x) : (shown x).toFloat = x := by
  rcases hx with hx | ⟨m, q, h, hx⟩
  · rw [shown_of_zero hx, eq_of_unpack_zero hx]
    exact eq_of_unpack_zero (toFloat_of_digits_eq_zero rfl)
  · obtain ⟨hparts, hfloat⟩ := isParts_and_ofParts hx
    have hexact : (Decimal.ofBinary m q).toFloat = x := by
      rw [toFloat_of_quantity hparts (quantity_ofBinary m q), hfloat]
    rw [shown_of_finite hx]
    exact toFloat_shortest hexact

/-- A number of at most `n` significant digits. -/
def HasDigits (n : Nat) (v : ℚ) : Prop :=
  ∃ (k : Nat) (e : Int), k < 10 ^ n ∧ |v| = k * 10 ^ e

theorem hasDigits_signed {n : Nat} {v : ℚ} (negative : Bool) (hv : HasDigits n v) :
    HasDigits n (signed negative v) := by
  obtain ⟨k, e, hk, habs⟩ := hv
  refine ⟨k, e, hk, ?_⟩
  cases negative with
  | true => exact (abs_neg v).trans habs
  | false => exact habs

/-- **A float shows at most 17 significant digits.** -/
theorem hasDigits_shown (hx : IsMagnitude x) : HasDigits 17 (shown x).quantity := by
  have hquantity : ∀ d : Decimal, |d.quantity| = d.digits * 10 ^ d.exponent := fun d =>
    abs_of_nonneg (by unfold Decimal.quantity; positivity)
  rcases hx with hx | ⟨m, q, h, hx⟩
  · rw [shown_of_zero hx]
    exact ⟨0, -1, by decide, hquantity _⟩
  · have hle : (shown x).digits ≤ 10 ^ 17 := shown_of_finite hx ▸ digits_shortest_le hx
    rcases hle.lt_or_eq with hlt | heq
    · exact ⟨_, _, hlt, hquantity _⟩
    · -- the next power of ten has one significant digit
      refine ⟨1, (shown x).exponent + 17, by decide, ?_⟩
      rw [hquantity, heq, zpow_add₀ (by norm_num)]
      push_cast
      ring

/-- **Few digits are shown again**, unless they are too small for a full mantissa. -/
theorem quantity_shown_of_few_digits (hd : d.digits < 10 ^ 15)
    (hlow : 0 < d.digits → (2 : ℚ) ^ (-1022 : Int) ≤ d.quantity) (hx : IsMagnitude d.toFloat) :
    (shown d.toFloat).quantity = d.quantity := by
  rcases Nat.eq_zero_or_pos d.digits with hzero | hpos
  · rw [shown_of_zero (toFloat_of_digits_eq_zero hzero), Decimal.quantity, Decimal.quantity, hzero]
    simp
  · rw [toFloat_eq_toNearest hpos] at hx
    obtain ⟨m, q, h, hunpack, hfull⟩ := exists_parts_of_le (hlow hpos) hx
    rw [← toFloat_eq_toNearest hpos] at hunpack
    rw [shown_of_finite hunpack]
    exact quantity_shortest_of_few_digits hunpack hfull hd rfl

end Number

namespace Json.Literal

variable {l : Literal} {x : Float} {n : Nat}

/-! ## Texts -/

/-- The text of a float is a numeral for the decimal that it shows. -/
theorem scan?_magnitudeText (negative : Bool) (hx : IsMagnitude x) :
    ∃ r, Numeral.scan? ((if negative then ['-'] else []) ++ magnitudeText x)
      = some ((negative, r), []) ∧ r.quantity = (shown x).quantity := by
  unfold magnitudeText
  rcases hx with hx | ⟨m, q, h, hx⟩
  · rw [shown_of_zero hx, hx]
    refine ⟨⟨0, -1⟩, ?_, rfl⟩
    cases negative <;> rfl
  · have hread := toFloat_shown (.inr ⟨m, q, h, hx⟩)
    rw [shown_of_finite hx] at hread ⊢
    rw [hx]
    exact Numeral.scan?_floatText ((toFloat_eq_iff hx _).mp hread).1

/-- A whole number that is kept has no fraction and no exponent. -/
theorem quantity_of_whole64? (h : l.whole64? = some n) : l.quantity = signed l.negative n := by
  unfold whole64? at h
  split at h
  · next n' hwhole hfraction hexponent =>
    have hn : n' = n := by
      split at h
      · cases h
      · exact Option.some.inj h
    have hnatural : natural l.whole = n := by rw [← hn, eq_of_takeFitting hwhole, natural]
    have hpower : l.power = 0 := by rw [power, hexponent]
    rw [quantity, hfraction, List.append_nil, hnatural, hpower, List.length_nil]
    norm_num
  · cases h

/-- **What a number leaves behind**: a numeral for the number itself if it is a whole number of 64
bits, and otherwise one for what its float shows. -/
theorem scan?_text? {text : List Char} (htext : l.text? = some text) :
    ∃ r, Numeral.scan? text = some ((l.negative, r), []) ∧
      (l.whole64? ≠ none → signed l.negative r.quantity = l.quantity) ∧
      (l.whole64? = none → ∃ x, l.magnitude? = some x ∧ r.quantity = (shown x).quantity) := by
  have hsign : ∀ body : List Char, (if l.negative then '-' :: body else body)
      = (if l.negative then ['-'] else []) ++ body := fun body => by
    cases l.negative <;> rfl
  unfold text? at htext
  cases hwhole : l.whole64? with
  | some n =>
    rw [hwhole] at htext
    refine ⟨⟨n, 0⟩, ?_, fun _ => ?_, nofun⟩
    · have hbody := Option.some.inj htext
      dsimp only at hbody
      rw [← hbody, hsign]
      exact Numeral.scan?_toDigits
    · rw [quantity_of_whole64? hwhole, Decimal.quantity, zpow_zero, mul_one]
  | none =>
    rw [hwhole] at htext
    simp only [Option.map_map, Option.map_eq_some_iff, Function.comp_apply] at htext
    obtain ⟨x, hx, rfl⟩ := htext
    obtain ⟨r, hscan, hquantity⟩ := scan?_magnitudeText l.negative (isMagnitude_of_magnitude? hx)
    rw [hsign]
    exact ⟨r, hscan, fun hsome => absurd rfl hsome, fun _ => ⟨x, hx, hquantity⟩⟩

/-- Numbers that leave themselves behind: whole numbers of 64 bits, and numbers of at most 15
digits that end at most 22 places from the point. -/
def IsKept (l : Literal) : Prop :=
  l.whole64? ≠ none ∨
    natural (l.whole ++ l.fraction) < 10 ^ 15 ∧ (l.power - l.fraction.length).natAbs ≤ 22

/-- The float of a number of few digits and places shows the number. -/
theorem signed_quantity_shown (hdigits : natural (l.whole ++ l.fraction) < 10 ^ 15)
    (hplaces : (l.power - l.fraction.length).natAbs ≤ 22) (hx : l.magnitude? = some x) :
    signed l.negative (shown x).quantity = l.quantity := by
  have hmagnitude := isMagnitude_of_magnitude? hx
  have hfloat := magnitude?_eq_toFloat (hdigits.trans (by decide)) hplaces hx
  rw [hfloat] at hmagnitude
  rw [hfloat, quantity_shown_of_few_digits hdigits ?_ hmagnitude]
  · rfl
  · intro hpos
    have hone : (1 : ℚ) ≤ natural (l.whole ++ l.fraction) := by exact_mod_cast hpos
    have hsmall : (2 : ℚ) ^ (-1022 : Int) ≤ 10 ^ (-22 : Int) :=
      (two_zpow_le (b := -74) (by decide)).trans (by norm_num)
    calc (2 : ℚ) ^ (-1022 : Int) ≤ 10 ^ (-22 : Int) := hsmall
      _ ≤ 10 ^ (l.power - l.fraction.length) := zpow_le_zpow_right₀ (by norm_num) (by omega)
      _ ≤ natural (l.whole ++ l.fraction) * 10 ^ (l.power - l.fraction.length) :=
          le_mul_of_one_le_left (by positivity) hone

end Json.Literal

namespace Snapshot

variable {cs rest : List Char} {l : Json.Literal} {raw : String}

/-! ## Numbers in a file -/

/-- **What a number in a file leaves behind.** Wherever a number stands in a file, the raw text of
its cell denotes a number, too. It is the number in the file if that is a whole one of 64 bits or has
at most 15 digits and ends at most 22 places from the point. If it is not a whole one of 64 bits, the
text has at most 17 significant digits, and the cell reads the float that the number in the file has
become. -/
theorem number_left_behind (hscan : Json.Literal.scan? (cs ++ rest) = some (l, rest))
    (hraw : rawOfJson? (.number l) = some raw) :
    ∃ v w : ℚ, denoted? cs = some v ∧ denoted? raw.toList = some w ∧ (l.IsKept → w = v) ∧
      (l.whole64? = none → HasDigits 17 w ∧ ∃ x, l.magnitude? = some x ∧
        leading? raw.toList = some (if l.negative then -x else x)) := by
  simp only [rawOfJson?, Option.map_eq_some_iff] at hraw
  obtain ⟨text, htext, rfl⟩ := hraw
  obtain ⟨r, hread, hwhole, hfloat⟩ := Json.Literal.scan?_text? htext
  rw [String.toList_ofList]
  refine ⟨l.quantity, signed l.negative r.quantity, Json.Literal.denoted?_of_scan? hscan,
    Numeral.denoted?_eq hread, ?_, fun hnone => ?_⟩
  · rintro (hkept | ⟨hdigits, hplaces⟩)
    · exact hwhole hkept
    · by_cases hnone : l.whole64? = none
      · obtain ⟨x, hx, hquantity⟩ := hfloat hnone
        rw [hquantity]
        exact Json.Literal.signed_quantity_shown hdigits hplaces hx
      · exact hwhole hnone
  · obtain ⟨x, hx, hquantity⟩ := hfloat hnone
    have hmagnitude := Json.Literal.isMagnitude_of_magnitude? hx
    refine ⟨?_, x, hx, ?_⟩
    · rw [hquantity]
      exact hasDigits_signed _ (hasDigits_shown hmagnitude)
    · rw [leading?_of_scan? hread, Decimal.toSigned, toFloat_congr hquantity,
        toFloat_shown hmagnitude]

/-- A number with an exponent leaves another text behind, but of the same number. -/
theorem number_left_behind_of_exponent :
    Json.Literal.scan? ("1.5e3".toList ++ "\x7d".toList)
        = some (⟨false, ['1'], ['5'], some (false, ['3'])⟩, "\x7d".toList) ∧
      rawOfJson? (.number ⟨false, ['1'], ['5'], some (false, ['3'])⟩) = some "1500.0" ∧
      denoted? "1500.0".toList = denoted? "1.5e3".toList := by
  have hscan : Json.Literal.scan? ("1.5e3".toList ++ "\x7d".toList)
      = some (⟨false, ['1'], ['5'], some (false, ['3'])⟩, "\x7d".toList) := by decide
  have hraw : rawOfJson? (.number ⟨false, ['1'], ['5'], some (false, ['3'])⟩)
      = some "1500.0" := by decide +kernel
  obtain ⟨v, w, hv, hw, hkept, -⟩ := number_left_behind hscan hraw
  have hsame : w = v := hkept (.inr ⟨by decide, by decide⟩)
  exact ⟨hscan, hraw, hw.trans (hsame ▸ hv.symm)⟩

/-- The first whole number beyond 64 bits is rounded. -/
theorem long_number_is_rounded :
    (ofText? "\x7b\"cells\":\x7b\"A1\":\x7b\"value\":18446744073709551616\x7d\x7d\x7d").map
        (·.toList) = some [("A1", "1.8446744073709552e+19")] ∧
      denoted? "1.8446744073709552e+19".toList ≠ denoted? "18446744073709551616".toList := by
  have hraw : denoted? "1.8446744073709552e+19".toList
      = some (signed false (Decimal.quantity ⟨18446744073709552, 3⟩)) :=
    Numeral.denoted?_eq (by decide)
  have hfile : denoted? "18446744073709551616".toList
      = some (signed false (Decimal.quantity ⟨18446744073709551616, 0⟩)) :=
    Numeral.denoted?_eq (by decide)
  refine ⟨by decide +kernel, fun hsame => ?_⟩
  rw [hraw, hfile] at hsame
  have hquantity := Option.some.inj hsame
  norm_num [signed, Decimal.quantity] at hquantity

end Snapshot

end FormulaSheet
