/-
A finite number reads back from the text it is shown by.

The search for the shortest decimal ends with one that reads back if only the
exact decimal does, and that one does: it has the quantity of the float, its
layout keeps the quantity, and a decimal of this quantity is rounded to the float
(`readsBack_ofBinary`). So the text of a finite number is a run of digits and
points with at most a minus before it, and this run is one magnitude whose float,
under the sign, is the number (`exists_text_eq`). Only a zero loses its sign.
-/
import FormulaSheet.Proofs.Expression.Splitting
import FormulaSheet.Proofs.Number.Layout
import FormulaSheet.Proofs.Number.Reading

set_option autoImplicit false

namespace FormulaSheet

open Float.Model.UnpackedFloat (Sign)
open Numeral (magnitude?)

/-! ## Runs of digits and points -/

/-- Whatever is a magnitude to its end consists of digits and points. -/
theorem Numeral.all_isNumeric_of_magnitude? {run : List Char} {d : Decimal}
    (h : magnitude? run = some (d, [])) : run.all Expression.isNumeric = true := by
  have hdigits : ∀ cs : List Char, (cs.takeWhile Char.isDigit).all Expression.isNumeric = true := by
    intro cs
    rw [List.all_eq_true]
    exact fun c hc => Expression.isNumeric_of_isDigit (List.mem_takeWhile_imp hc)
  -- digits, and behind them nothing or a point and digits to the end
  rw [← List.takeWhile_append_dropWhile (p := Char.isDigit) (l := run), List.all_append, hdigits,
    Bool.true_and]
  simp only [magnitude?] at h
  split at h
  · next tail hrest =>
    split at h
    · cases h
    · simp only [Option.some.injEq, Prod.mk.injEq] at h
      rw [hrest, ← List.takeWhile_append_dropWhile (p := Char.isDigit) (l := tail), h.2,
        List.append_nil, List.all_cons, hdigits]
      rfl
  · split at h
    · cases h
    · simp only [Option.some.injEq, Prod.mk.injEq] at h
      rw [h.2]
      rfl

namespace Number

variable {x : Float} {s : Sign} {m : Nat} {q : Int} {h : 0 < m}

/-! ## The exact decimal -/

theorem quantity_ofBinary (m : Nat) (q : Int) : (Decimal.ofBinary m q).quantity = dyadic m q := by
  cases q with
  | ofNat k =>
    have hpow : Nat.pow 2 k = 2 ^ k := rfl
    rw [Decimal.ofBinary, Decimal.quantity, dyadic, zpow_zero, mul_one, Int.ofNat_eq_natCast,
      zpow_natCast, hpow]
    push_cast
    rfl
  | negSucc k =>
    have hpow : Nat.pow 5 (k + 1) = 5 ^ (k + 1) := rfl
    have hten : (10 : ℚ) ^ (k + 1) = 5 ^ (k + 1) * 2 ^ (k + 1) := by
      rw [← mul_pow]
      norm_num
    rw [Decimal.ofBinary, Decimal.quantity, dyadic, zpow_negSucc, zpow_negSucc, hpow, hten]
    push_cast
    field_simp

theorem digits_ofBinary_pos (hm : 0 < m) (q : Int) : 0 < (Decimal.ofBinary m q).digits := by
  cases q with
  | ofNat k => exact Nat.mul_pos hm (Nat.pow_pos (by decide))
  | negSucc k => exact Nat.mul_pos hm (Nat.pow_pos (by decide))

/-- A magnitude of the right quantity, under the sign of the float, is the float. -/
theorem toSigned_of_quantity {d : Decimal} (hx : x.toModel.unpack = .finite s m q h)
    (hd : d.quantity = dyadic m q) : d.toSigned (isMinus s) = x := by
  obtain ⟨hparts, hfloat⟩ := isParts_and_ofParts hx
  rw [Decimal.toSigned, toFloat_of_quantity hparts hd, ← hfloat]
  cases s with
  | negative => exact neg_ofParts hparts
  | positive => rfl

/-- **The exact decimal reads back.** -/
theorem readsBack_ofBinary (hx : x.toModel.unpack = .finite s m q h) :
    readsBack x (isMinus s) (Decimal.ofBinary m q) = true := by
  obtain ⟨r, hread, hquantity⟩ :=
    Decimal.exists_magnitude?_positional (digits_ofBinary_pos h q)
  rw [quantity_ofBinary] at hquantity
  simp only [readsBack, hread, toSigned_of_quantity hx hquantity, decide_true]

theorem exists_magnitude?_of_readsBack {negative : Bool} {d : Decimal}
    (hd : readsBack x negative d = true) :
    ∃ r, magnitude? d.positional = some (r, []) ∧ r.toSigned negative = x := by
  unfold readsBack at hd
  split at hd
  · next r hread => exact ⟨r, hread, of_decide_eq_true hd⟩
  · cases hd

/-! ## Texts of finite numbers -/

/-- A number as its text tells it: a zero has no sign there. -/
def asShown (x : Float) : Float :=
  if x == 0 then 0 else x

theorem unpack_zero : (0 : Float).toModel.unpack = .zero .positive := rfl

theorem beq_zero_of_zero (hx : x.toModel.unpack = .zero s) : (x == 0) = true := by
  have hbeq : (x == 0) = x.toModel.unpack.beq (0 : Float).toModel.unpack := rfl
  rw [hbeq, hx, unpack_zero]
  rfl

theorem beq_zero_of_finite (hx : x.toModel.unpack = .finite s m q h) : (x == 0) = false := by
  have hbeq : (x == 0) = x.toModel.unpack.beq (0 : Float).toModel.unpack := rfl
  rw [hbeq, hx, unpack_zero]
  cases s <;> rfl

/-- **The text of a finite number.** It is one magnitude, with a minus before it or none, and reads
back as the number. -/
theorem exists_text_eq (hx : x.isFinite = true) :
    ∃ (negative : Bool) (run : List Char) (d : Decimal),
      text x = (if negative then ['-'] else []) ++ run ∧ magnitude? run = some (d, []) ∧
        d.toSigned negative = asShown x := by
  have hfinite : x.isFinite = x.toModel.unpack.isFinite := rfl
  rw [hfinite] at hx
  cases hunpack : x.toModel.unpack with
  | notANumber | infinity s =>
    rw [hunpack] at hx
    cases hx
  | zero s =>
    refine ⟨false, ['0'], ⟨0, 0⟩, ?_, rfl, ?_⟩
    · unfold text
      rw [hunpack]
      rfl
    · rw [asShown, if_pos (beq_zero_of_zero hunpack)]
      decide +kernel
  | finite s m q h =>
    have hshown : readsBack x (isMinus s) (Decimal.shortest .up (readsBack x (isMinus s))
        (Decimal.ofBinary m q)) = true :=
      Decimal.readsBack_shortest (readsBack_ofBinary hunpack)
    obtain ⟨d, hread, hd⟩ := exists_magnitude?_of_readsBack hshown
    refine ⟨isMinus s, _, d, ?_, hread, ?_⟩
    · unfold text
      rw [hunpack]
    · rw [hd, asShown, beq_zero_of_finite hunpack, if_neg Bool.false_ne_true]

end Number

end FormulaSheet
