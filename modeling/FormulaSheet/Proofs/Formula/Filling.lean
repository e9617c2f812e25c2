/-
Bodies with texts in the place of their references.

The evaluator puts texts in the place of the references of a body and splits the
result, and by then nothing tells where a reference stood. All the same the result
has the symbols of the body, provided that no two operands stand side by side in
it, as in an expression they never do: behind a text that has been put in stands
no digit and no point, and so it ends where the reference ended
(`tokensOnto_filledText`). The text of a finite number is itself one magnitude
with at most a minus before it, so each reference becomes one operand or one
operand under one sign.
-/
import FormulaSheet.Proofs.Expression.Replacement
import FormulaSheet.Proofs.Formula.Body
import FormulaSheet.Proofs.Formula.Symbols
import FormulaSheet.Proofs.Number.ReadBack

set_option autoImplicit false

namespace FormulaSheet.Formula

open Expression (isNumeric number? tokensOnto)

/-- Digits and points are in the alphabet of expressions. -/
theorem inAlphabet_of_isNumeric {c : Char} (h : isNumeric c = true) : InAlphabet c := by
  obtain hdigit | hpoint := Bool.or_eq_true_iff.mp h
  · exact .inl hdigit
  · rw [eq_of_beq hpoint]
    decide

/-! ## The text that is split -/

/-- A body with its references replaced. -/
def filledText (values : Address → Value) (body : List Char) : List Char :=
  (lexemes body).flatMap (Lexeme.filled values)

section FilledText

variable {values : Address → Value} {c : Char} {cs run : List Char}

theorem filledText_cons (h : c.isAlpha = false) :
    filledText values (c :: cs) = c :: filledText values cs := by
  rw [filledText, lexemes_cons h]
  rfl

theorem filledText_append (h : ∀ c ∈ run, c.isAlpha = false) :
    filledText values (run ++ cs) = run ++ filledText values cs := by
  have hchars : ∀ run : List Char, (run.map Lexeme.char).flatMap (Lexeme.filled values) = run := by
    intro run
    induction run with
    | nil => rfl
    | cons c run ih => exact congrArg (c :: ·) ih
  rw [filledText, lexemes_append h, List.flatMap_append, hchars]
  rfl

theorem filledText_reference (h : (c.isAlpha && !(cs.takeWhile Char.isDigit).isEmpty) = true) :
    filledText values (c :: cs)
      = Lexeme.filled values (.reference c (cs.takeWhile Char.isDigit))
        ++ filledText values (cs.dropWhile Char.isDigit) := by
  rw [filledText, lexemes_reference h, List.flatMap_cons]
  rfl

/-- A run of digits and points stays as it is. -/
theorem filledText_run (hc : isNumeric c = true) :
    filledText values (c :: cs) = c :: cs.takeWhile isNumeric
      ++ filledText values (cs.dropWhile isNumeric) := by
  conv_lhs => rw [cons_eq_run_append]
  exact filledText_append fun d hd =>
    Expression.not_isAlpha_of_isNumeric (isNumeric_of_mem_run hc hd)

end FilledText

/-! ## What stands for an operand -/

namespace Operand

variable (values : Address → Value)

/-- The number that an operand is worth: a reference is worth the number of its cell as it is shown,
and zero where it denotes no cell or the cell has no number. -/
def reading : Operand → Float
  | number x => x
  | reference letter digits =>
    match (Address.ofChars? (letter :: digits)).bind fun a => (values a).number? with
    | some x => Number.asShown x
    | none => 0

/-- Whether the text that stands for an operand begins with a minus, and the number behind it. -/
def part : Operand → Bool × Float
  | number x => (false, x)
  | reference letter digits =>
    let (negative, run) := Numeral.sign (Lexeme.filled values (.reference letter digits))
    (negative, (number? run).getD 0)

/-- The symbols of the text that stands for an operand. -/
def symbols (x : Operand) : List (Expression.Symbol Float) :=
  match x.part values with
  | (true, y) => [.sumOp .sub, .operand y]
  | (false, y) => [.operand y]

/-- The tree of the text that stands for an operand. -/
def tree (x : Operand) : Expression.Tree Float :=
  match x.part values with
  | (true, y) => .signed .sub (.operand y)
  | (false, y) => .operand y

variable {values}

theorem derives_symbols (x : Operand) :
    Expression.Derives .unary (x.tree values) (x.symbols values) := by
  unfold tree symbols
  split
  · exact .sign (.plain .operand)
  · exact .plain .operand

theorem nesting_tree_le (x : Operand) : (x.tree values).nesting ≤ 1 := by
  unfold tree
  split <;> simp [Expression.Tree.nesting]

/-- The text for a reference is one magnitude, with the minus of its part before it. -/
structure Spelt (values : Address → Value) (letter : Char) (digits : List Char) : Prop where
  exists_run : ∃ (run : List Char) (d : Decimal), Numeral.magnitude? run = some (d, []) ∧
    Lexeme.filled values (.reference letter digits)
      = (if ((reference letter digits).part values).1 then ['-'] else []) ++ run ∧
    number? run = some ((reference letter digits).part values).2
  value_tree : ((reference letter digits).tree values).number
    = (reference letter digits).reading values

end Operand

/-- A sign that may stand before a run of digits and points is cut off. -/
theorem sign_append {negative : Bool} {run : List Char} (h : run.all isNumeric = true) :
    Numeral.sign ((if negative then ['-'] else []) ++ run) = (negative, run) := by
  cases negative with
  | true => rfl
  | false =>
    rw [if_neg Bool.false_ne_true, List.nil_append, Numeral.sign.eq_def]
    split
    · cases h
    · cases h
    · rfl

/-- **What a reference becomes.** The text for a reference whose cell has a finite number, or none,
is one operand with that number, or one under a minus. -/
theorem Operand.spelt_of_finite {values : Address → Value} {letter : Char} {digits : List Char}
    (h : ∀ a, Address.ofChars? (letter :: digits) = some a →
      ∀ x, (values a).number? = some x → x.isFinite = true) :
    Spelt values letter digits := by
  -- in every case the text is a magnitude with a sign, and under it the number that is read
  have htext : ∃ (negative : Bool) (run : List Char) (d : Decimal),
      Lexeme.filled values (.reference letter digits) = (if negative then ['-'] else []) ++ run ∧
        Numeral.magnitude? run = some (d, []) ∧
        d.toSigned negative = (reference letter digits).reading values := by
    simp only [Lexeme.filled, reading]
    cases hread : (Address.ofChars? (letter :: digits)).bind fun a => (values a).number? with
    | none => exact ⟨false, ['0'], ⟨0, 0⟩, rfl, rfl, by decide +kernel⟩
    | some x =>
      obtain ⟨a, ha, hx⟩ := Option.bind_eq_some_iff.mp hread
      exact Number.exists_text_eq (h a ha x hx)
  obtain ⟨negative, run, d, hfilled, hread, hvalue⟩ := htext
  have hnumber : number? run = some d.toFloat := by simp only [number?, hread]
  have hpart : (reference letter digits).part values = (negative, d.toFloat) := by
    simp only [part, hfilled, sign_append (Numeral.all_isNumeric_of_magnitude? hread), hnumber,
      Option.getD_some]
  refine ⟨⟨run, d, hread, by rw [hpart, hfilled], by rw [hpart, hnumber]⟩, ?_⟩
  rw [← hvalue, tree, hpart]
  cases negative <;> rfl

/-! ## The tokens of the text -/

/-- Behind an operand the text goes on with no digit and no point. -/
theorem head_filledText {values : Address → Value} {cs : List Char}
    {ss : List (Expression.Symbol Operand)} {x : Operand} (h : symbols? cs = some ss)
    (hhead : ∀ s ∈ ss.head?, Expression.Symbol.Separate (.operand x) s) :
    ∀ c ∈ (filledText values cs).head?, isNumeric c = false := by
  cases cs with
  | nil => simp [filledText, lexemes]
  | cons c cs =>
    -- an operand would stand beside an operand, so only a blank or a mark can come
    unfold symbols? at h
    split at h
    · next hblank =>
      rw [filledText_cons (Expression.not_isAlpha_of_isBlank hblank)]
      rintro _ ⟨⟩
      refine Bool.eq_false_iff.mpr fun hnumeric => ?_
      rw [Expression.not_isBlank_of_isNumeric hnumeric] at hblank
      cases hblank
    · split at h
      · split at h
        · cases h
        · obtain ⟨_, _, rfl⟩ := Option.map_eq_some_iff.mp h
          exact (hhead _ rfl).elim
      · next hnumeric =>
        split at h
        · obtain ⟨_, _, rfl⟩ := Option.map_eq_some_iff.mp h
          exact (hhead _ rfl).elim
        · split at h
          · cases h
          · next hmark =>
            rw [filledText_cons (Expression.not_isAlpha_of_ofChar? hmark)]
            rintro _ ⟨⟩
            exact Bool.eq_false_iff.mpr hnumeric

/-- The text for a reference is cut off where it ends, and has the symbols of the operand. -/
theorem Operand.Spelt.exists_tokensOnto_eq {values : Address → Value} {letter : Char}
    {digits rest : List Char} (h : Spelt values letter digits)
    (hrest : ∀ c ∈ rest.head?, isNumeric c = false) (done : List Expression.Token)
    (offset : Nat) : ∃ offset',
      tokensOnto done offset (Lexeme.filled values (.reference letter digits) ++ rest)
        = tokensOnto ((((reference letter digits).symbols values).map
            Expression.Symbol.token).reverse ++ done) offset' rest := by
  obtain ⟨run, d, hread, hfilled, hnumber⟩ := h.exists_run
  have hrun := Numeral.all_isNumeric_of_magnitude? hread
  obtain ⟨⟨negative, y⟩, hpart⟩ : ∃ p, p = (reference letter digits).part values := ⟨_, rfl⟩
  rw [hfilled, symbols, ← hpart]
  rw [← hpart] at hnumber
  cases negative with
  | true =>
    refine ⟨offset + '-'.utf8Size + run.length, ?_⟩
    rw [if_pos rfl, List.append_assoc, List.singleton_append,
      Expression.tokensOnto_mark (s := .sumOp .sub) rfl,
      Expression.tokensOnto_run hrun hnumber hrest]
    rfl
  | false =>
    refine ⟨offset + run.length, ?_⟩
    rw [if_neg Bool.false_ne_true, List.nil_append, Expression.tokensOnto_run hrun hnumber hrest]
    rfl

/-- **The tokens of a text with its references replaced.** They are the symbols of the body, each
reference having become what it is spelt by. -/
theorem tokensOnto_filledText {values : Address → Value} {cs : List Char}
    {ss : List (Expression.Symbol Operand)} (h : symbols? cs = some ss)
    (hchain : ss.IsChain Expression.Symbol.Separate)
    (hspelt : ∀ letter digits, .operand (.reference letter digits) ∈ ss →
      Operand.Spelt values letter digits) (done : List Expression.Token) (offset : Nat) :
    tokensOnto done offset (filledText values cs) = .ok (done.reverse
      ++ (ss.flatMap (Expression.Symbol.expand (Operand.symbols values))).map
        Expression.Symbol.token) := by
  fun_induction symbols? cs generalizing ss done offset with
  | case1 =>
    cases h
    simp [filledText, lexemes, Expression.tokensOnto_nil]
  | case2 c cs hblank ih =>
    rw [filledText_cons (Expression.not_isAlpha_of_isBlank hblank),
      Expression.tokensOnto_blank hblank, ih h hchain hspelt]
  | case3 => cases h
  | case4 c cs hblank hnumeric x hx ih =>
    obtain ⟨ss, hss, rfl⟩ := Option.map_eq_some_iff.mp h
    rw [List.isChain_cons] at hchain
    have hrun : (c :: cs.takeWhile isNumeric).all isNumeric = true :=
      List.all_eq_true.mpr fun d hd => isNumeric_of_mem_run hnumeric hd
    -- a number of the body stays as it is, and ends where it ended
    rw [filledText_run hnumeric,
      Expression.tokensOnto_run hrun hx (head_filledText hss hchain.1),
      ih hss hchain.2 fun letter digits hmem => hspelt letter digits (List.mem_cons_of_mem _ hmem)]
    simp [Expression.Symbol.expand, Operand.symbols, Operand.part, Expression.Symbol.token]
  | case5 c cs hblank hnumeric hreference ih =>
    obtain ⟨ss, hss, rfl⟩ := Option.map_eq_some_iff.mp h
    rw [List.isChain_cons] at hchain
    have hrest := ih hss hchain.2 fun letter digits hmem =>
      hspelt letter digits (List.mem_cons_of_mem _ hmem)
    obtain ⟨offset', htokens⟩ := (hspelt _ _ (List.mem_cons_self ..)).exists_tokensOnto_eq
      (head_filledText hss hchain.1) done offset
    rw [filledText_reference hreference, htokens, hrest]
    simp [Expression.Symbol.expand]
  | case6 => cases h
  | case7 c cs hblank hnumeric hreference s hmark ih =>
    obtain ⟨ss, hss, rfl⟩ := Option.map_eq_some_iff.mp h
    rw [List.isChain_cons] at hchain
    obtain ⟨s', hmark', hexpand⟩ :=
      Expression.Symbol.exists_expand_of_ofChar? (Operand.symbols values) hmark
    rw [filledText_cons (Expression.not_isAlpha_of_ofChar? hmark),
      Expression.tokensOnto_mark hmark',
      ih hss hchain.2 fun letter digits hmem => hspelt letter digits (List.mem_cons_of_mem _ hmem),
      List.flatMap_cons, hexpand]
    simp

end FormulaSheet.Formula
