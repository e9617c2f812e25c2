/-
The sign of a zero does not show in a sum.

There are two floats for zero, and a text tells them no more apart than the sheet
does. But arithmetic tells them apart, and so could a sum: the negative zero added
to the negative zero is the negative zero, and the positive zero added to it is
not. A sum begins with the positive zero, though, and never comes to the negative
one from there. What is rounded is never too small to be a float, since both sides
are multiples of the smallest one, so a sum of two numbers is a zero only if they
cancel, and then it is the positive zero (`unpack_add_ne`).
-/
import FormulaSheet.Proofs.Number.ReadBack
import FormulaSheet.Proofs.Number.Rounded
import FormulaSheet.Formula.Value

set_option autoImplicit false

namespace FormulaSheet.Number

open Float.Model (UnpackedFloat Format totalExponent)
open Float.Model.UnpackedFloat

variable {x y : Float} {s : Sign} {m : Nat} {q e : Int}

/-! ## Floats without parts -/

/-- What a word can denote, by its fields. -/
theorem unpack_word_cases (s : Sign) (e : BitVec 11) (v : BitVec 52) :
    UnpackedFloat.unpack Format.binary64 (word s e v) = .notANumber ∨
    (e = -1#11 ∧ v = 0#52 ∧ UnpackedFloat.unpack Format.binary64 (word s e v) = .infinity s) ∨
    (e = 0#11 ∧ v = 0#52 ∧ UnpackedFloat.unpack Format.binary64 (word s e v) = .zero s) ∨
    ∃ m q h, UnpackedFloat.unpack Format.binary64 (word s e v) = .finite s m q h := by
  rw [unpack_word]
  by_cases hones : e = -1#11
  · rw [if_pos hones]
    by_cases hnone : v = 0#52
    · exact .inr (.inl ⟨hones, hnone, if_pos hnone⟩)
    · exact .inl (if_neg hnone)
  rw [if_neg hones]
  by_cases hzero : e = 0#11
  · rw [if_pos hzero]
    by_cases hnone : v = 0#52
    · exact .inr (.inr (.inl ⟨hzero, hnone, dif_pos hnone⟩))
    · exact .inr (.inr (.inr ⟨_, _, _, dif_neg hnone⟩))
  · exact .inr (.inr (.inr ⟨_, _, _, if_neg hzero⟩))

/-- There is one float for each zero. -/
theorem eq_of_unpack_zero (hx : x.toModel.unpack = .zero s) : x = .ofModel (.pack (.zero s)) := by
  apply eq_ofModel_pack
  have hword : UnpackedFloat.unpack Format.binary64 x.toModel.toBits.toBitVec = .zero s := hx
  obtain ⟨s', e, v, hb⟩ := exists_eq_word x.toModel.toBits.toBitVec
  rw [hb] at hword ⊢
  rcases unpack_word_cases s' e v with h | ⟨-, -, h⟩ | ⟨rfl, rfl, h⟩ | ⟨_, _, _, h⟩
  · rw [h] at hword
    cases hword
  · rw [h] at hword
    cases hword
  · rw [h] at hword
    cases hword
    rfl
  · rw [h] at hword
    cases hword

/-- There is one float for each infinity. -/
theorem eq_of_unpack_infinity (hx : x.toModel.unpack = .infinity s) :
    x = .ofModel (.pack (.infinity s)) := by
  apply eq_ofModel_pack
  have hword : UnpackedFloat.unpack Format.binary64 x.toModel.toBits.toBitVec = .infinity s := hx
  obtain ⟨s', e, v, hb⟩ := exists_eq_word x.toModel.toBits.toBitVec
  rw [hb] at hword ⊢
  rcases unpack_word_cases s' e v with h | ⟨rfl, rfl, h⟩ | ⟨-, -, h⟩ | ⟨_, _, _, h⟩
  · rw [h] at hword
    cases hword
  · rw [h] at hword
    cases hword
    rfl
  · rw [h] at hword
    cases hword
  · rw [h] at hword
    cases hword

theorem beq_zero_iff : (x == 0) = true ↔ ∃ s, x.toModel.unpack = .zero s := by
  have hbeq : (x == 0) = x.toModel.unpack.beq (0 : Float).toModel.unpack := rfl
  rw [hbeq, unpack_zero]
  cases x.toModel.unpack with
  | zero s => exact iff_of_true rfl ⟨s, rfl⟩
  | notANumber => exact iff_of_false Bool.false_ne_true (by rintro ⟨s, h⟩; cases h)
  | infinity s => cases s <;> exact iff_of_false Bool.false_ne_true (by rintro ⟨s, h⟩; cases h)
  | finite s m q h => cases s <;> exact iff_of_false Bool.false_ne_true (by rintro ⟨s, h⟩; cases h)

/-- What is shown is shown as it is. -/
theorem asShown_asShown (x : Float) : asShown (asShown x) = asShown x := by
  by_cases h : (x == 0) = true
  · simp only [asShown, if_pos h, ite_self]
  · simp only [asShown, if_neg h]

/-! ## Sums -/

theorem unpack_add (x y : Float) : (x + y).toModel.unpack = (Float.ofModel (.pack
    (add Format.binary64 x.toModel.unpack y.toModel.unpack))).toModel.unpack := rfl

theorem two_zpow_le_dyadic (hm : 0 < m) (q : Int) : (2 : ℚ) ^ q ≤ dyadic m q :=
  le_mul_of_one_le_left (two_zpow_pos q).le (by exact_mod_cast hm)

/-- What is not less than the smallest float is not rounded to zero. -/
theorem rounded_pos {v : ℚ} (h : (2 : ℚ) ^ (-1074 : Int) ≤ v) : 0 < rounded v := by
  have hsmallest : IsParts 1 (-1074) := ⟨by decide, by decide, le_rfl, by decide, .inr rfl⟩
  have hone : dyadic 1 (-1074) = 2 ^ (-1074 : Int) := by rw [dyadic, Nat.cast_one, one_mul]
  have hmono := rounded_mono (two_zpow_pos _) h
  rw [← hone, hsmallest.rounded_eq, hone] at hmono
  exact (two_zpow_pos _).trans_le hmono

/-- What is rounded from multiples of the smallest float is no zero. -/
theorem unpack_round_ne (s s' : Sign) (hm : 0 < m) (hq : -1074 ≤ q) :
    (Float.ofModel (.pack (UnpackedFloat.round Format.binary64 s m q))).toModel.unpack
      ≠ .zero s' := by
  rw [round_eq_nearest s hm, ← toNearest]
  intro hzero
  rcases unpack_toNearest_cases s (dyadic_pos (q := q) hm) with
    ⟨hnone, -⟩ | ⟨m', q', hparts, -, hunpack⟩ | ⟨-, hunpack⟩
  · exact (rounded_pos ((two_zpow_le hq).trans (two_zpow_le_dyadic hm q))).ne' hnone
  · rw [hzero] at hunpack
    cases hunpack
  · rw [hzero] at hunpack
    cases hunpack

/-- The sum of two whole numbers of units is a zero only if they cancel. -/
theorem unpack_normalize_ne (n : Int) (hq : -1074 ≤ q) :
    (Float.ofModel (.pack (normalize Format.binary64 n q .positive))).toModel.unpack
      ≠ .zero .negative := by
  unfold UnpackedFloat.normalize
  cases hcompare : compare n 0 with
  | lt =>
    have hn : n < 0 := compare_lt_iff_lt.mp hcompare
    exact unpack_round_ne _ _ (by omega) hq
  | eq =>
    dsimp only
    rw [unpack_pack_zero]
    nofun
  | gt =>
    have hn : 0 < n := compare_gt_iff_gt.mp hcompare
    exact unpack_round_ne _ _ (by omega) hq

/-- A sum is not the negative zero unless it begins with it. -/
theorem unpack_add_ne (hx : x.toModel.unpack ≠ .zero .negative) (y : Float) :
    (x + y).toModel.unpack ≠ .zero .negative := by
  have hnone : (Float.ofModel (.pack .notANumber)).toModel.unpack ≠ .zero .negative := by
    intro h
    have hunpack : (Float.ofModel (.pack .notANumber)).toModel.unpack = .notANumber := rfl
    rw [hunpack] at h
    cases h
  have hinfinite : ∀ s, (Float.ofModel (.pack (.infinity s))).toModel.unpack ≠ .zero .negative := by
    intro s
    rw [unpack_pack_infinity]
    nofun
  have hparts : ∀ {s m q} {h : 0 < m}, IsParts m q →
      (Float.ofModel (.pack (.finite s m q h))).toModel.unpack ≠ .zero .negative := by
    intro s m q h hparts hzero
    have hunpack : (ofParts s m q h).toModel.unpack = .finite s m q h := unpack_ofParts hparts
    rw [ofParts, hzero] at hunpack
    cases hunpack
  rw [unpack_add]
  cases hxu : x.toModel.unpack with
  | notANumber => exact hnone
  | infinity s₁ =>
    cases hyu : y.toModel.unpack with
    | notANumber => exact hnone
    | infinity s₂ =>
      cases s₁ with
      | negative =>
        cases s₂ with
        | negative => exact hinfinite .negative
        | positive => exact hnone
      | positive =>
        cases s₂ with
        | negative => exact hnone
        | positive => exact hinfinite .positive
    | zero | finite => exact hinfinite s₁
  | zero s₁ =>
    cases s₁ with
    | negative => exact absurd hxu hx
    | positive =>
      cases hyu : y.toModel.unpack with
      | notANumber => exact hnone
      | infinity s₂ => exact hinfinite s₂
      | zero s₂ => cases s₂ <;> (intro h; cases h)
      | finite s₂ m₂ q₂ h₂ => exact hparts (isParts_and_ofParts hyu).1
  | finite s₁ m₁ q₁ h₁ =>
    have hxparts := (isParts_and_ofParts hxu).1
    cases hyu : y.toModel.unpack with
    | notANumber => exact hnone
    | infinity s₂ => exact hinfinite s₂
    | zero s₂ => exact hparts hxparts
    | finite s₂ m₂ q₂ h₂ =>
      have hyparts := (isParts_and_ofParts hyu).1
      exact unpack_normalize_ne _ (le_min hxparts.le_exponent hyparts.le_exponent)

/-- What is not the negative zero does not tell the zeros apart when they are added to it. -/
theorem add_zero_eq (hx : x.toModel.unpack ≠ .zero .negative) (hy : y.toModel.unpack = .zero s) :
    x + y = x + 0 := by
  have hadd : ∀ x y : Float, x + y
      = .ofModel (.pack (add Format.binary64 x.toModel.unpack y.toModel.unpack)) := fun _ _ => rfl
  rw [hadd, hadd x 0, hy, unpack_zero]
  cases hxu : x.toModel.unpack with
  | notANumber | infinity s₁ | finite s₁ m₁ q₁ h₁ => rfl
  | zero s₁ =>
    cases s₁ with
    | negative => exact absurd hxu hx
    | positive => cases s <;> rfl

theorem add_asShown (hx : x.toModel.unpack ≠ .zero .negative) (y : Float) :
    x + asShown y = x + y := by
  unfold asShown
  split
  · next hzero =>
    obtain ⟨s, hs⟩ := beq_zero_iff.mp hzero
    exact (add_zero_eq hx hs).symm
  · rfl

/-- **A sum does not show the sign of a zero.** -/
theorem total_map_asShown (xs : List Float) :
    Formula.total (xs.map asShown) = Formula.total xs := by
  have hfold : ∀ (xs : List Float) (sum : Float), sum.toModel.unpack ≠ .zero .negative →
      (xs.map asShown).foldl (· + ·) sum = xs.foldl (· + ·) sum := by
    intro xs
    induction xs with
    | nil => exact fun _ _ => rfl
    | cons y rest ih =>
      intro sum hsum
      rw [List.map_cons, List.foldl_cons, List.foldl_cons, add_asShown hsum,
        ih _ (unpack_add_ne hsum y)]
  refine hfold xs 0 ?_
  rw [unpack_zero]
  nofun

end FormulaSheet.Number
