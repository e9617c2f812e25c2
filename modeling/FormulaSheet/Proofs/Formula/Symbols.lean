/-
Bodies as expressions over references.

What a body means is plain: it is an expression whose operands are numbers and
references. So it is split here into the symbols of such an expression, in which
a letter and the digits after it are one reference and everything else is as in
an expression.

A body that can be split so is no sum, for the keyword of a sum is no symbol; and
its references are those that the evaluator cuts out of it.
-/
import FormulaSheet.Proofs.Expression.Splitting
import FormulaSheet.Proofs.Formula.Lexeme
import Mathlib.Data.List.TakeWhile

set_option autoImplicit false

namespace FormulaSheet.Formula

open Expression (isNumeric number?)

/-- An operand of a body. -/
inductive Operand where
  | number (x : Float)
  | reference (letter : Char) (digits : List Char)
deriving DecidableEq

/-- Splits a body into symbols: numbers, operators and parentheses as in an expression, and a letter
with digits after it as one reference. -/
def symbols? : List Char → Option (List (Expression.Symbol Operand))
  | [] => some []
  | c :: cs =>
    if Text.isBlank c then symbols? cs
    else if isNumeric c then
      match number? (c :: cs.takeWhile isNumeric) with
      | none => none
      | some x => (symbols? (cs.dropWhile isNumeric)).map (.operand (.number x) :: ·)
    else if c.isAlpha && !(cs.takeWhile Char.isDigit).isEmpty then
      (symbols? (cs.dropWhile Char.isDigit)).map
        (.operand (.reference c (cs.takeWhile Char.isDigit)) :: ·)
    else
      match Expression.Symbol.ofChar? c with
      | none => none
      | some s => (symbols? cs).map (s :: ·)
termination_by cs => cs.length
decreasing_by
  · simp
  · have := Expression.length_dropWhile_le isNumeric cs
    simp only [List.length_cons]
    omega
  · have := Expression.length_dropWhile_le Char.isDigit cs
    simp only [List.length_cons]
    omega
  · simp

/-! ## The lexemes of a body with symbols -/

section Lexemes

variable {c : Char} {cs run : List Char}

theorem lexemes_of_not_reference (h : ¬ (c.isAlpha && !(cs.takeWhile Char.isDigit).isEmpty) = true) :
    lexemes (c :: cs) = .char c :: lexemes cs := by
  rw [lexemes, if_neg h]

theorem lexemes_cons (h : c.isAlpha = false) : lexemes (c :: cs) = .char c :: lexemes cs :=
  lexemes_of_not_reference (by simp [h])

theorem lexemes_append (h : ∀ c ∈ run, c.isAlpha = false) :
    lexemes (run ++ cs) = run.map .char ++ lexemes cs := by
  induction run with
  | nil => rfl
  | cons c run ih =>
    rw [List.cons_append, lexemes_cons (h c (List.mem_cons_self ..)),
      ih fun d hd => h d (List.mem_cons_of_mem _ hd), List.map_cons, List.cons_append]

theorem lexemes_reference (h : (c.isAlpha && !(cs.takeWhile Char.isDigit).isEmpty) = true) :
    lexemes (c :: cs)
      = .reference c (cs.takeWhile Char.isDigit) :: lexemes (cs.dropWhile Char.isDigit) := by
  rw [lexemes, if_pos h]

end Lexemes

/-- A run of digits and points, as the reader of numbers takes it. -/
theorem isNumeric_of_mem_run {c d : Char} {cs : List Char} (hc : isNumeric c = true)
    (hd : d ∈ c :: cs.takeWhile isNumeric) : isNumeric d = true := by
  obtain rfl | hd := List.mem_cons.mp hd
  · exact hc
  · exact List.mem_takeWhile_imp hd

theorem cons_eq_run_append (c : Char) (cs : List Char) :
    c :: cs = c :: cs.takeWhile isNumeric ++ cs.dropWhile isNumeric := by
  rw [List.cons_append, List.takeWhile_append_dropWhile]

/-- No reference begins within a run of digits and points. -/
theorem lexemes_run {c : Char} {cs : List Char} (hc : isNumeric c = true) :
    lexemes (c :: cs) = (c :: cs.takeWhile isNumeric).map .char
      ++ lexemes (cs.dropWhile isNumeric) := by
  conv_lhs => rw [cons_eq_run_append]
  exact lexemes_append fun d hd =>
    Expression.not_isAlpha_of_isNumeric (isNumeric_of_mem_run hc hd)

/-- The references that are replaced are among the operands. -/
theorem mem_of_mem_lexemes {cs : List Char} {ss : List (Expression.Symbol Operand)}
    {letter : Char} {digits : List Char} (h : symbols? cs = some ss)
    (hmem : Lexeme.reference letter digits ∈ lexemes cs) :
    .operand (.reference letter digits) ∈ ss := by
  fun_induction symbols? cs generalizing ss with
  | case1 => simp [lexemes] at hmem
  | case2 c cs hblank ih =>
    rw [lexemes_cons (Expression.not_isAlpha_of_isBlank hblank)] at hmem
    exact ih h (by simpa using hmem)
  | case3 | case6 => cases h
  | case4 c cs hblank hnumeric x hx ih =>
    obtain ⟨ss, hss, rfl⟩ := Option.map_eq_some_iff.mp h
    rw [lexemes_run hnumeric] at hmem
    refine List.mem_cons_of_mem _ (ih hss ?_)
    simpa using hmem
  | case5 c cs hblank hnumeric hreference ih =>
    obtain ⟨ss, hss, rfl⟩ := Option.map_eq_some_iff.mp h
    rw [lexemes_reference hreference] at hmem
    obtain heq | hmem := List.mem_cons.mp hmem
    · cases heq
      exact List.mem_cons_self ..
    · exact List.mem_cons_of_mem _ (ih hss hmem)
  | case7 c cs hblank hnumeric hreference s hmark ih =>
    obtain ⟨ss, hss, rfl⟩ := Option.map_eq_some_iff.mp h
    rw [lexemes_cons (Expression.not_isAlpha_of_ofChar? hmark)] at hmem
    exact List.mem_cons_of_mem _ (ih hss (by simpa using hmem))

/-! ## A body with symbols is no sum -/

theorem toLower_of_not_isAlpha {c : Char} (h : c.isAlpha = false) : c.toLower = c := by
  have hupper : ¬ (c.val ≥ 'A'.val ∧ c.val ≤ 'Z'.val) := fun hrange => by
    have hletter : (decide (65 ≤ c.val ∧ c.val ≤ 90)
      || (decide (97 ≤ c.val) && decide (c.val ≤ 122))) = false := h
    simp only [Bool.or_eq_false_iff, decide_eq_false_iff_not] at hletter
    exact hletter.1 hrange
  exact dif_neg hupper

/-- What folds to a letter is a letter, or one of the two beyond ASCII. -/
theorem foldsToLetter_of_foldsTo {small c : Char} (hsmall : small.isAlpha = true)
    (h : foldsTo small c = true) : foldsToLetter c = true := by
  cases halpha : c.isAlpha with
  | true => simp [foldsToLetter, halpha]
  | false =>
    simp only [foldsTo, toLower_of_not_isAlpha halpha, Bool.or_eq_true, Bool.and_eq_true,
      beq_iff_eq] at h
    -- beyond ASCII only the long s and the sign of the kelvin fold to a letter
    obtain (rfl | ⟨-, rfl⟩) | ⟨-, rfl⟩ := h
    · rw [hsmall] at halpha
      cases halpha
    · decide
    · decide

/-- Such a character is neither blank nor a digit, a point or a symbol. -/
theorem class_of_foldsToLetter {c : Char} (h : foldsToLetter c = true) :
    Text.isBlank c = false ∧ isNumeric c = false ∧ ∀ {α : Type},
      (Expression.Symbol.ofChar? c : Option (Expression.Symbol α)) = none := by
  simp only [foldsToLetter, Bool.or_eq_true, beq_iff_eq] at h
  obtain (halpha | rfl) | rfl := h
  · refine ⟨Bool.eq_false_iff.mpr fun hblank => ?_, Bool.eq_false_iff.mpr fun hnumeric => ?_, ?_⟩
    · simp [Expression.not_isAlpha_of_isBlank hblank] at halpha
    · simp [Expression.not_isAlpha_of_isNumeric hnumeric] at halpha
    · intro α
      cases hmark : (Expression.Symbol.ofChar? c : Option (Expression.Symbol α)) with
      | none => rfl
      | some s => simp [Expression.not_isAlpha_of_ofChar? hmark] at halpha
  · exact ⟨by decide, by decide, rfl⟩
  · exact ⟨by decide, by decide, rfl⟩

/-- The keyword of a sum is no symbol, so a body with symbols is arithmetic. -/
theorem sumCorners?_eq_none {cs : List Char} {ss : List (Expression.Symbol Operand)}
    (h : symbols? cs = some ss) : sumCorners? cs = none := by
  unfold sumCorners?
  split
  · next s u m rest =>
    rw [if_neg]
    intro hkeyword
    simp only [Bool.and_eq_true] at hkeyword
    -- the first letter could only begin a reference, and the second one is no digit
    obtain ⟨hblank, hnumeric, hmark⟩ :=
      class_of_foldsToLetter (foldsToLetter_of_foldsTo (by decide) hkeyword.1.1)
    obtain ⟨-, hu, -⟩ := class_of_foldsToLetter (foldsToLetter_of_foldsTo (by decide) hkeyword.1.2)
    have hdigit : ¬ u.isDigit = true := fun hdigit => by
      rw [Expression.isNumeric_of_isDigit hdigit] at hu
      cases hu
    unfold symbols? at h
    rw [if_neg (by simp [hblank]), if_neg (by simp [hnumeric]),
      List.takeWhile_cons_of_neg hdigit, if_neg (by simp)] at h
    simp only [hmark] at h
    cases h
  · rfl

end FormulaSheet.Formula
