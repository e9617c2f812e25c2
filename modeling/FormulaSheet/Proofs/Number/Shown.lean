/-
A shown number reads back wherever it is read.

Three readers may meet the text of a number. A cell that is read for a sum or a
reference is read by the numeral it begins with, or by the word for an infinity;
arithmetic first asks whether a text has characters of its own only; and then the
text is split into tokens. All three go by the same shape: the text of a finite
number is a magnitude with at most a minus before it. So what the first reader
finds ends with the text, and what the second finds is one operand, under a sign
or not. An infinity is shown by a word, and only the first reader knows it.

What comes back is the number, but for a zero, which has lost its sign.
-/
import FormulaSheet.Proofs.Formula.Alphabet
import FormulaSheet.Proofs.Number.Zeros

set_option autoImplicit false

namespace FormulaSheet

open Float.Model.UnpackedFloat (Sign)
open Numeral (magnitude?)

/-! ## Magnitudes -/

/-- A magnitude to its end is digits, or digits with one point among them. -/
theorem Numeral.exists_digits_of_magnitude? {run : List Char} {d : Decimal}
    (h : magnitude? run = some (d, [])) : ∃ whole fraction : List Char,
      (∀ c ∈ whole ++ fraction, c.isDigit = true) ∧
        (run = whole ∨ run = whole ++ '.' :: fraction) := by
  obtain ⟨m, hrun, hform⟩ := exists_form_of_magnitude? h
  rw [List.append_nil] at hrun
  rw [hrun]
  cases hform with
  | whole _ hdigits => exact ⟨m, [], by rwa [List.append_nil], .inl rfl⟩
  | pointed _ hdigits => exact ⟨_, _, hdigits, .inr rfl⟩

/-- A magnitude under a sign is a numeral to its end. -/
theorem Numeral.scan?_of_magnitude? {negative : Bool} {run : List Char} {d : Decimal}
    (h : magnitude? run = some (d, [])) :
    scan? ((if negative then ['-'] else []) ++ run) = some ((negative, d), []) := by
  have hsign : sign ((if negative then ['-'] else []) ++ run) = (negative, run) :=
    Formula.sign_append (all_isNumeric_of_magnitude? h)
  simp only [scan?, hsign, h, exponent, add_zero]

/-- No blank stands before a numeral. -/
theorem Numeral.dropBlanks_of_scan? {cs : List Char} {found : (Bool × Decimal) × List Char}
    (h : scan? cs = some found) : Text.dropBlanks cs = cs := by
  cases cs with
  | nil => rfl
  | cons c cs =>
    apply Text.dropBlanks_cons_of_not
    by_cases hminus : c = '-'
    · rw [hminus]
      decide
    by_cases hplus : c = '+'
    · rw [hplus]
      decide
    -- without a sign a numeral begins with a digit or a point
    apply Expression.not_isBlank_of_isNumeric
    have hsign : sign (c :: cs) = (false, c :: cs) := by
      unfold sign
      split <;> simp_all
    by_contra hnumeric
    simp only [Expression.isNumeric, Bool.or_eq_true, beq_iff_eq, not_or, Bool.not_eq_true]
      at hnumeric
    simp [scan?, hsign, magnitude?, hnumeric.1, hnumeric.2] at h

/-- A numeral to its end is what a cell reads. -/
theorem Number.leading?_of_scan? {cs : List Char} {negative : Bool} {d : Decimal}
    (h : Numeral.scan? cs = some ((negative, d), [])) :
    leading? cs = some (d.toSigned negative) := by
  unfold leading?
  rw [Numeral.dropBlanks_of_scan? h]
  simp only [h]

/-- A magnitude under a sign is an expression, and worth what it denotes. -/
theorem Expression.value_of_magnitude? {negative : Bool} {run : List Char} {d : Decimal}
    (h : magnitude? run = some (d, [])) :
    value ((if negative then ['-'] else []) ++ run) = .ok (d.toSigned negative) := by
  have hrun := Numeral.all_isNumeric_of_magnitude? h
  have hnumber : number? run = some d.toFloat := by simp only [number?, h]
  have htokens : ∀ done offset,
      tokensOnto done offset run = .ok (done.reverse ++ [.number d.toFloat]) := by
    intro done offset
    have htoken : tokensOnto done offset (run ++ [])
        = tokensOnto (.number d.toFloat :: done) (offset + run.length) [] :=
      tokensOnto_run hrun hnumber fun c hc => by cases hc
    rw [List.append_nil, tokensOnto_nil, List.reverse_cons] at htoken
    exact htoken
  cases negative with
  | true =>
    have hsplit : tokens (['-'] ++ run) = .ok [.minus, .number d.toFloat] := by
      rw [tokens, List.singleton_append, tokensOnto_mark (s := .sumOp .sub) rfl, htokens]
      rfl
    simp only [if_pos, value, hsplit]
    rfl
  | false =>
    have hsplit : tokens ([] ++ run) = .ok [.number d.toFloat] := htokens [] 0
    simp only [if_neg Bool.false_ne_true, value, hsplit]
    rfl

namespace Number

variable {x : Float} {s : Sign}

/-! ## Finite numbers -/

/-- A text without an exponent: digits with at most one point among them and at most a minus before
them. -/
def IsPlain (cs : List Char) : Prop :=
  ∃ (negative : Bool) (whole fraction : List Char), (∀ c ∈ whole ++ fraction, c.isDigit = true) ∧
    (cs = (if negative then ['-'] else []) ++ whole ∨
      cs = (if negative then ['-'] else []) ++ whole ++ '.' :: fraction)

theorem isPlain_text (hx : x.isFinite = true) : IsPlain (text x) := by
  obtain ⟨negative, run, d, htext, hread, -⟩ := exists_text_eq hx
  obtain ⟨whole, fraction, hdigits, hrun⟩ := Numeral.exists_digits_of_magnitude? hread
  refine ⟨negative, whole, fraction, hdigits, ?_⟩
  rw [htext]
  exact hrun.imp (fun h => by rw [h]) (fun h => by rw [h, List.append_assoc])

/-- The text of a finite number passes the test for arithmetic. -/
theorem isArithmetic_text (hx : x.isFinite = true) :
    text x ≠ [] ∧ (text x).all Formula.isArithmetic = true := by
  refine ⟨text_ne_nil x, List.all_eq_true.mpr fun c hc => ?_⟩
  exact Formula.isArithmetic_iff.mpr (inAlphabet_text_iff.mpr hx c hc)

/-- The text of a finite number is an expression with the number for its value. -/
theorem value_text (hx : x.isFinite = true) : Expression.value (text x) = .ok (asShown x) := by
  obtain ⟨negative, run, d, htext, hread, hvalue⟩ := exists_text_eq hx
  rw [htext, Expression.value_of_magnitude? hread, hvalue]

/-! ## Infinities -/

theorem infinite_eq (s : Sign) : infinite (isMinus s) = .ofModel (.pack (.infinity s)) := by
  cases s <;> rfl

theorem text_of_infinite (hx : x.toModel.unpack = .infinity s) :
    text x = (if isMinus s then ['-'] else []) ++ infinityWord := by
  unfold text
  rw [hx]

theorem leading?_infinityWord (negative : Bool) :
    leading? ((if negative then ['-'] else []) ++ infinityWord) = some (infinite negative) := by
  cases negative <;> rfl

/-! ## All numbers -/

/-- **A shown number is read back.** -/
theorem leading?_text (hx : x.isNaN = false) : leading? (text x) = some (asShown x) := by
  have hnan : x.isNaN = x.toModel.unpack.isNaN := rfl
  have hfinite : x.isFinite = x.toModel.unpack.isFinite := rfl
  cases hunpack : x.toModel.unpack with
  | notANumber =>
    rw [hnan, hunpack] at hx
    cases hx
  | infinity s =>
    have hnotzero : ¬ (x == 0) = true := by
      rw [beq_zero_iff, hunpack]
      rintro ⟨_, h⟩
      cases h
    rw [text_of_infinite hunpack, leading?_infinityWord, infinite_eq,
      ← eq_of_unpack_infinity hunpack, asShown, if_neg hnotzero]
  | zero | finite =>
    have hx' : x.isFinite = true := by
      rw [hfinite, hunpack]
      rfl
    obtain ⟨negative, run, d, htext, hread, hvalue⟩ := exists_text_eq hx'
    rw [htext, leading?_of_scan? (Numeral.scan?_of_magnitude? hread), hvalue]

/-- A text does not tell the zeros apart, so it is the text of what it tells. -/
theorem text_asShown (x : Float) : text (asShown x) = text x := by
  unfold asShown
  split
  · next hzero =>
    obtain ⟨s, hs⟩ := beq_zero_iff.mp hzero
    unfold text
    rw [hs, unpack_zero]
  · rfl

/-- The text of a number does not begin with the sign of equality. -/
theorem head_text_ne (x : Float) (body : List Char) : text x ≠ '=' :: body := by
  intro hhead
  have hfinite : x.isFinite = x.toModel.unpack.isFinite := rfl
  cases hunpack : x.toModel.unpack with
  | notANumber =>
    unfold text at hhead
    rw [hunpack] at hhead
    cases hhead
  | infinity s =>
    rw [text_of_infinite hunpack] at hhead
    cases s <;> cases hhead
  | zero | finite =>
    have hx : x.isFinite = true := by
      rw [hfinite, hunpack]
      rfl
    have hknown := List.all_eq_true.mp (isArithmetic_text hx).2 '=' (by rw [hhead]; simp)
    revert hknown
    decide

end Number

end FormulaSheet
