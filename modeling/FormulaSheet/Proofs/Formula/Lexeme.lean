/-
Bodies cut from the left.

A formula is read by a fold from the end of its text, which lets digits wait for
the letter before them. What is meant is simpler to say from the beginning on: at
a letter with a digit after it the letter and all the digits are one reference,
and anywhere else one character stands for itself. This is how the text is cut
here, with the spelling of the references kept, and the two ways agree
(`pieces_eq_map_lexemes`).
-/
import FormulaSheet.Formula.Basic

set_option autoImplicit false

namespace FormulaSheet.Formula

/-- A part of a body, as it is written. -/
inductive Lexeme where
  /-- A letter and the digits after it. -/
  | reference (letter : Char) (digits : List Char)
  /-- A character outside the references. -/
  | char (c : Char)
deriving DecidableEq

namespace Lexeme

def target? : Lexeme → Option Address
  | reference letter digits => Address.ofChars? (letter :: digits)
  | char _ => none

/-- What a formula keeps of a part of its body. -/
def piece : Lexeme → Piece
  | reference letter digits => .reference (Address.ofChars? (letter :: digits))
  | char c => .char c

end Lexeme

/-- Cuts a body from the left. -/
def lexemes : List Char → List Lexeme
  | [] => []
  | c :: cs =>
    if c.isAlpha && !(cs.takeWhile Char.isDigit).isEmpty then
      .reference c (cs.takeWhile Char.isDigit) :: lexemes (cs.dropWhile Char.isDigit)
    else .char c :: lexemes cs
termination_by cs => cs.length
decreasing_by
  · have := (List.dropWhile_sublist Char.isDigit (l := cs)).length_le
    simp only [List.length_cons]
    omega
  · simp only [List.length_cons]
    omega

/-! ## Runs -/

/-- A run is as long as it can be if the rest does not continue it. -/
theorem takeWhile_run_append {p : Char → Bool} {run rest : List Char}
    (hall : ∀ c ∈ run, p c = true) (hrest : ∀ c ∈ rest.head?, p c = false) :
    (run ++ rest).takeWhile p = run ∧ (run ++ rest).dropWhile p = rest := by
  rw [List.takeWhile_append_of_pos hall, List.dropWhile_append_of_pos hall]
  cases rest with
  | nil => simp
  | cons d rest =>
    have hd : ¬ p d = true := by simp [hrest d rfl]
    rw [List.takeWhile_cons_of_neg hd, List.dropWhile_cons_of_neg hd, List.append_nil]
    exact ⟨rfl, rfl⟩

/-- What is left behind a run does not go on with it. -/
theorem not_of_head?_dropWhile {p : Char → Bool} {cs : List Char} :
    ∀ c ∈ (cs.dropWhile p).head?, p c = false := by
  intro c hc
  have hnot := List.head?_dropWhile_not p cs
  rw [Option.mem_def.mp hc] at hnot
  exact Bool.eq_false_iff.mpr (by simpa using hnot)

/-! ## The fold from the right -/

/-- The digits that wait are those the text begins with. -/
theorem digits_foldr_cons (cs : List Char) :
    (cs.foldr Cut.cons ⟨[], []⟩).digits = cs.takeWhile Char.isDigit := by
  induction cs with
  | nil => rfl
  | cons c cs ih =>
    rw [List.foldr_cons, Cut.cons]
    by_cases hc : c.isDigit = true
    · rw [if_pos hc, List.takeWhile_cons_of_pos hc, ih]
    · rw [if_neg hc, List.takeWhile_cons_of_neg hc]
      split <;> rfl

/-- The pieces behind them are those of the text without its first digits. -/
theorem pieces_foldr_cons (cs : List Char) :
    (cs.foldr Cut.cons ⟨[], []⟩).pieces = pieces (cs.dropWhile Char.isDigit) := by
  induction cs with
  | nil => rfl
  | cons c cs ih =>
    by_cases hc : c.isDigit = true
    · rw [List.foldr_cons, Cut.cons, if_pos hc, List.dropWhile_cons_of_pos hc, ← ih]
    · -- nothing waits after a character that is no digit, so the pieces are all there is
      rw [List.dropWhile_cons_of_neg hc, pieces, List.foldr_cons, Cut.cons, if_neg hc, Cut.all]
      split <;> rfl

/-- A text has its first digits as pieces, and then the pieces of the rest. -/
theorem pieces_eq_append (cs : List Char) :
    pieces cs = (cs.takeWhile Char.isDigit).map .char ++ pieces (cs.dropWhile Char.isDigit) := by
  rw [← digits_foldr_cons, ← pieces_foldr_cons]
  rfl

/-- The letters by their codes. -/
theorem isAlpha_iff {c : Char} :
    c.isAlpha = true ↔ 65 ≤ c.toNat ∧ c.toNat < 91 ∨ 97 ≤ c.toNat ∧ c.toNat < 123 := by
  have hletter : c.isAlpha = (decide (65 ≤ c.val ∧ c.val ≤ 90)
      || (decide (97 ≤ c.val) && decide (c.val ≤ 122))) := rfl
  have hval : c.val.toNat = c.toNat := rfl
  rw [hletter, Bool.or_eq_true, Bool.and_eq_true, decide_eq_true_eq, decide_eq_true_eq,
    decide_eq_true_eq]
  simp only [UInt32.le_iff_toNat_le, UInt32.toNat_ofNat, hval]
  omega

theorem not_isDigit_of_isAlpha {c : Char} (h : c.isAlpha = true) : ¬ c.isDigit = true := by
  intro hdigit
  have hletter := isAlpha_iff.mp h
  have hdigit : (decide (48 ≤ c.val) && decide (c.val ≤ 57)) = true := hdigit
  have hval : c.val.toNat = c.toNat := rfl
  simp only [Bool.and_eq_true, decide_eq_true_eq, UInt32.le_iff_toNat_le, UInt32.toNat_ofNat,
    hval] at hdigit
  omega

/-- A letter with digits after it is a reference, and the pieces go on behind the digits. -/
theorem pieces_cons_reference {c : Char} {cs : List Char}
    (h : (c.isAlpha && !(cs.takeWhile Char.isDigit).isEmpty) = true) :
    pieces (c :: cs) = .reference (Address.ofChars? (c :: cs.takeWhile Char.isDigit))
      :: pieces (cs.dropWhile Char.isDigit) := by
  have hc : ¬ c.isDigit = true := not_isDigit_of_isAlpha (Bool.and_eq_true_iff.mp h).1
  rw [pieces, List.foldr_cons, Cut.cons, if_neg hc, digits_foldr_cons, if_pos h,
    pieces_foldr_cons]
  rfl

theorem pieces_cons_char {c : Char} {cs : List Char}
    (h : ¬ (c.isAlpha && !(cs.takeWhile Char.isDigit).isEmpty) = true) :
    pieces (c :: cs) = .char c :: pieces cs := by
  by_cases hc : c.isDigit = true
  · -- a digit waits for a letter, but none stands before it
    rw [pieces_eq_append, List.takeWhile_cons_of_pos hc, List.dropWhile_cons_of_pos hc,
      List.map_cons, List.cons_append, ← pieces_eq_append]
  · rw [pieces, List.foldr_cons, Cut.cons, if_neg hc, digits_foldr_cons, if_neg h]
    rfl

/-! ## Both ways agree -/

/-- **Cutting from the right and from the left.** The pieces of a formula are the lexemes of its
body with the spelling forgotten. -/
theorem pieces_eq_map_lexemes (cs : List Char) : pieces cs = (lexemes cs).map Lexeme.piece := by
  fun_induction lexemes cs with
  | case1 => rfl
  | case2 c cs h ih => rw [pieces_cons_reference h, ih, List.map_cons, Lexeme.piece]
  | case3 c cs h ih => rw [pieces_cons_char h, ih, List.map_cons, Lexeme.piece]

example : pieces "b02(7".toList = [.reference (some ⟨1, 1⟩), .char '(', .char '7'] := by decide

end FormulaSheet.Formula
