/-
Splitting an expression, step by step.

The splitter of expressions looks at one character and then knows what it has
before it: a blank, a run of digits and points, or a character that is a symbol.
The three kinds exclude one another and hold no letters, so each step of the
splitter is one equation.
-/
import FormulaSheet.Proofs.Expression.Acceptance
import FormulaSheet.Proofs.Expression.Replacement
import FormulaSheet.Proofs.Formula.Lexeme

set_option autoImplicit false

namespace FormulaSheet.Expression

/-- The operator or parenthesis that a character is. -/
def Symbol.ofChar? {α : Type} : Char → Option (Symbol α)
  | '+' => some (.sumOp .add)
  | '-' => some (.sumOp .sub)
  | '*' => some (.productOp .mul)
  | '/' => some (.productOp .div)
  | '(' => some .opening
  | ')' => some .closing
  | _ => none

variable {c : Char} {cs run rest : List Char} {done : List Token} {offset : Nat}

theorem tokensOnto_nil : tokensOnto done offset [] = .ok done.reverse := by
  unfold tokensOnto
  rfl

theorem tokensOnto_blank (h : Text.isBlank c = true) :
    tokensOnto done offset (c :: cs) = tokensOnto done (offset + c.utf8Size) cs := by
  conv_lhs => unfold tokensOnto
  rw [if_pos h]

/-- The characters that are symbols begin no number, are not blank and are no letters. -/
theorem Symbol.mem_of_ofChar? {α : Type} {s : Symbol α} (h : Symbol.ofChar? c = some s) :
    c ∈ ['+', '-', '*', '/', '(', ')'] := by
  unfold Symbol.ofChar? at h
  split at h
  all_goals first | decide | cases h

/-- A symbol that is a character is not replaced. -/
theorem Symbol.exists_expand_of_ofChar? {α β : Type} {s : Symbol α} (g : α → List (Symbol β))
    (h : Symbol.ofChar? c = some s) : ∃ s', Symbol.ofChar? c = some s' ∧ s.expand g = [s'] := by
  have hmem := Symbol.mem_of_ofChar? h
  simp only [List.mem_cons, List.not_mem_nil, or_false] at hmem
  rcases hmem with rfl | rfl | rfl | rfl | rfl | rfl <;> cases h <;> exact ⟨_, rfl, rfl⟩

theorem Token.mem_of_ofChar? {t : Token} (h : Token.ofChar? c = some t) :
    c ∈ ['+', '-', '*', '/', '(', ')'] := by
  unfold Token.ofChar? at h
  split at h
  all_goals first | decide | cases h

/-- A character is the token of the symbol that it is. -/
theorem Token.ofChar?_eq (c : Char) : Token.ofChar? c = (Symbol.ofChar? c).map Symbol.token := by
  by_cases hmem : c ∈ ['+', '-', '*', '/', '(', ')']
  · simp only [List.mem_cons, List.not_mem_nil, or_false] at hmem
    rcases hmem with rfl | rfl | rfl | rfl | rfl | rfl <;> rfl
  · have htoken : Token.ofChar? c = none :=
      Option.eq_none_iff_forall_ne_some.mpr fun t ht => hmem (Token.mem_of_ofChar? ht)
    have hsymbol : (Symbol.ofChar? c : Option (Symbol Float)) = none :=
      Option.eq_none_iff_forall_ne_some.mpr fun s hs => hmem (Symbol.mem_of_ofChar? hs)
    rw [htoken, hsymbol, Option.map_none]

theorem tokensOnto_mark {s : Symbol Float} (h : Symbol.ofChar? c = some s) :
    tokensOnto done offset (c :: cs) = tokensOnto (s.token :: done) (offset + c.utf8Size) cs := by
  have hmem := Symbol.mem_of_ofChar? h
  have hclass : Text.isBlank c = false ∧ isNumeric c = false := by
    simp only [List.mem_cons, List.not_mem_nil, or_false] at hmem
    rcases hmem with rfl | rfl | rfl | rfl | rfl | rfl <;> decide
  obtain ⟨hblank, hnumeric⟩ := hclass
  have htoken : Token.ofChar? c = some s.token := by
    rw [Token.ofChar?_eq, h, Option.map_some]
  conv_lhs => unfold tokensOnto
  rw [if_neg (by simp [hblank]), if_neg (by simp [hnumeric])]
  simp only [htoken]

/-- A character of no kind cannot be taken. -/
theorem tokensOnto_unknown (hblank : ¬ Text.isBlank c = true) (hnumeric : ¬ isNumeric c = true)
    (h : (Symbol.ofChar? c : Option (Symbol Float)) = none) :
    tokensOnto done offset (c :: cs) = .error (.character c offset) := by
  have htoken : Token.ofChar? c = none := by
    rw [Token.ofChar?_eq, h, Option.map_none]
  unfold tokensOnto
  rw [if_neg hblank, if_neg hnumeric]
  simp only [htoken]

theorem toNat_of_isDigit (h : c.isDigit = true) : 48 ≤ c.toNat ∧ c.toNat ≤ 57 := by
  have hdigit : (decide (48 ≤ c.val) && decide (c.val ≤ 57)) = true := h
  simp only [Bool.and_eq_true, decide_eq_true_eq, UInt32.le_iff_toNat_le,
    UInt32.toNat_ofNat] at hdigit
  exact hdigit

theorem toNat_of_isAlpha (h : c.isAlpha = true) : 65 ≤ c.toNat ∧ c.toNat ≤ 122 := by
  have hcode := Formula.isAlpha_iff.mp h
  omega

theorem isNumeric_of_isDigit (h : c.isDigit = true) : isNumeric c = true := by
  simp [isNumeric, h]

theorem toNat_of_isNumeric (h : isNumeric c = true) : 46 ≤ c.toNat ∧ c.toNat ≤ 57 := by
  obtain hdigit | hpoint := Bool.or_eq_true_iff.mp h
  · have := toNat_of_isDigit hdigit
    omega
  · rw [eq_of_beq hpoint]
    decide

theorem not_isBlank_of_isNumeric (h : isNumeric c = true) : Text.isBlank c = false := by
  have := toNat_of_isNumeric h
  simp only [Text.isBlank, Bool.or_eq_false_iff, Bool.and_eq_false_iff, decide_eq_false_iff_not,
    beq_eq_false_iff_ne]
  omega

theorem not_isNumeric_of_isBlank (h : Text.isBlank c = true) : isNumeric c = false :=
  Bool.eq_false_iff.mpr fun hnumeric => by
    cases h.symm.trans (not_isBlank_of_isNumeric hnumeric)

theorem not_isAlpha_of_isBlank (h : Text.isBlank c = true) : c.isAlpha = false := by
  refine Bool.eq_false_iff.mpr fun halpha => ?_
  have := toNat_of_isAlpha halpha
  simp only [Text.isBlank, Bool.or_eq_true, Bool.and_eq_true, decide_eq_true_eq, beq_iff_eq] at h
  omega

theorem not_isAlpha_of_isNumeric (h : isNumeric c = true) : c.isAlpha = false := by
  refine Bool.eq_false_iff.mpr fun halpha => ?_
  have := toNat_of_isAlpha halpha
  have := toNat_of_isNumeric h
  omega

theorem not_isAlpha_of_ofChar? {α : Type} {s : Symbol α} (h : Symbol.ofChar? c = some s) :
    c.isAlpha = false := by
  have hmem := Symbol.mem_of_ofChar? h
  simp only [List.mem_cons, List.not_mem_nil, or_false] at hmem
  rcases hmem with rfl | rfl | rfl | rfl | rfl | rfl <;> decide

/-- A run that is a number is one token where it ends. -/
theorem tokensOnto_run {x : Float} (hall : run.all isNumeric = true) (hx : number? run = some x)
    (hrest : ∀ c ∈ rest.head?, isNumeric c = false) :
    tokensOnto done offset (run ++ rest)
      = tokensOnto (.number x :: done) (offset + run.length) rest := by
  cases run with
  | nil => cases hx
  | cons c run =>
    simp only [List.all_cons, Bool.and_eq_true, List.all_eq_true] at hall
    obtain ⟨htake, hdrop⟩ := Formula.takeWhile_run_append hall.2 hrest
    rw [List.cons_append]
    conv_lhs => unfold tokensOnto
    rw [if_neg (by simp [not_isBlank_of_isNumeric hall.1]), if_pos hall.1]
    simp only [htake, hdrop, hx]

/-- A run that is no number cannot be taken. -/
theorem tokensOnto_run_of_none (hall : run.all isNumeric = true) (hne : run ≠ [])
    (hx : number? run = none) (hrest : ∀ c ∈ rest.head?, isNumeric c = false) :
    tokensOnto done offset (run ++ rest) = .error (.numeral run) := by
  cases run with
  | nil => exact absurd rfl hne
  | cons c run =>
    simp only [List.all_cons, Bool.and_eq_true, List.all_eq_true] at hall
    obtain ⟨htake, hdrop⟩ := Formula.takeWhile_run_append hall.2 hrest
    rw [List.cons_append]
    conv_lhs => unfold tokensOnto
    rw [if_neg (by simp [not_isBlank_of_isNumeric hall.1]), if_pos hall.1]
    simp only [htake, hx]

end FormulaSheet.Expression
