/-
Formulas mean what they say.

A formula is worked out by putting the texts of numbers in the place of its
references and reading what comes out. Said of the formula itself, this is the
value of its tree, with each reference standing for the number of its cell. The
detour over the text goes unnoticed in every place in which a reference may
stand, for numbers of either sign and any size: the symbols of the text that is
read are those of the body with an operand, or an operand under a minus, for each
reference; such a replacement keeps derivations; and the one sign more is why the
body may only go one level less deep.

Nothing is asked of a body but that it is derivable as it stands. It then has no
character that arithmetic does not know and is no sum, so there are just two
outcomes, a finite number and a failure.
-/
import FormulaSheet.Proofs.Evaluation.Solution
import FormulaSheet.Proofs.Formula.Filling

set_option autoImplicit false

namespace FormulaSheet

open Expression (Derives depthLimit)
open Formula (Operand symbols? filledText)

/-! ## What can be split is in the alphabet -/

/-- The splitter takes no character that arithmetic does not know. -/
theorem Formula.inAlphabet_of_tokensOnto {done ts : List Expression.Token} {offset : Nat}
    {cs : List Char} (h : Expression.tokensOnto done offset cs = .ok ts) :
    ∀ c ∈ cs, InAlphabet c := by
  fun_induction Expression.tokensOnto done offset cs with
  | case1 => nofun
  | case2 done offset c cs hblank ih =>
    exact List.forall_mem_cons.mpr ⟨.inr (.inr hblank), ih h⟩
  | case3 | case5 => cases h
  | case4 done offset c cs hblank hnumeric run x hx ih =>
    rw [cons_eq_run_append, List.forall_mem_append]
    exact ⟨fun d hd => inAlphabet_of_isNumeric (isNumeric_of_mem_run hnumeric hd), ih h⟩
  | case6 done offset c cs hblank hnumeric t ht ih =>
    have hmem := List.mem_append_left ['.'] (Expression.Token.mem_of_ofChar? ht)
    exact List.forall_mem_cons.mpr ⟨.inr (.inl hmem), ih h⟩

/-- A text with a value as an expression is worth this value. -/
theorem Formula.worth_of_value {text : List Char} {v : Float}
    (h : Expression.value text = .ok v) :
    worth text = if v.isFinite = true then .number v else .error .failed := by
  -- a text with a value has been split to its end, so nothing in it is out of the alphabet
  have hclear : ¬ (text = [] ∨ text.any (¬ InAlphabet ·) = true) := by
    rintro (rfl | hany)
    · rw [Expression.value, Expression.tokens, Expression.tokensOnto_nil] at h
      cases h
    · cases htokens : Expression.tokens text with
      | error e =>
        simp only [Expression.value, htokens] at h
        cases h
      | ok ts =>
        obtain ⟨c, hc, hnot⟩ := List.any_eq_true.mp hany
        exact of_decide_eq_true hnot (inAlphabet_of_tokensOnto htokens c hc)
  unfold worth
  rw [if_neg hclear]
  simp only [h]

/-! ## Bodies that are derivable -/

variable {values : Address → Value} {body : List Char} {ss : List (Expression.Symbol Operand)}
  {t : Expression.Tree Operand}

/-- The text of a derivable body has the value of the tree. -/
theorem Formula.value_filledText (hbody : symbols? body = some ss)
    (ht : Derives .expression t ss) (hnesting : t.nesting ≤ depthLimit - 1)
    (hspelt : ∀ letter digits, .operand (.reference letter digits) ∈ ss →
      Operand.Spelt values letter digits) :
    Expression.value (filledText values body) = .ok (t.value (Operand.reading values)) := by
  obtain ⟨ts, hts⟩ : ∃ ts, ts = (ss.flatMap (Expression.Symbol.expand (Operand.symbols values))).map
    Expression.Symbol.token := ⟨_, rfl⟩
  have htokens : Expression.tokens (filledText values body) = .ok ts := by
    rw [hts, Expression.tokens, tokensOnto_filledText hbody ht.isChain_separate hspelt]
    rfl
  have hsymbols : ts.map Expression.Token.symbol
      = ss.flatMap (Expression.Symbol.expand (Operand.symbols values)) := by
    simp [hts, Function.comp_def]
  -- the tree with the operands replaced, its depth and its value
  have hderives : Derives .expression (t.bind (Operand.tree values))
      (ts.map Expression.Token.symbol) := by
    rw [hsymbols]
    exact ht.bind Operand.derives_symbols
  have hdepth : (t.bind (Operand.tree values)).nesting ≤ depthLimit := by
    have hone : ∀ x : Operand, (x.tree values).nesting ≤ 1 := Operand.nesting_tree_le
    have hle := Expression.Tree.nesting_bind_le hone t
    have hlimit : depthLimit = 256 := rfl
    omega
  have hnumber : (t.bind (Operand.tree values)).number = t.value (Operand.reading values) := by
    rw [Expression.Tree.number, Expression.Tree.value_bind]
    refine Expression.Tree.value_congr fun x hx => ?_
    have hmem := (ht.mem_of_mem_operands hx).resolve_left List.not_mem_nil
    match x with
    | .number x => rfl
    | .reference letter digits => exact (hspelt letter digits hmem).value_tree
  have hvalue : Expression.valueOfTokens ts = .ok (t.value (Operand.reading values)) :=
    Expression.valueOfTokens_eq_ok_iff.mpr ⟨_, hderives, hdepth, hnumber⟩
  cases ts with
  | nil => cases hvalue
  | cons s ts => simp only [Expression.value, htokens, hvalue]

/-- A derivable body applied to values of which none that it reads is circular or infinite. -/
theorem Store.applied_of_derives (s : Store) (hbody : symbols? body = some ss)
    (ht : Derives .expression t ss) (hnesting : t.nesting ≤ depthLimit - 1)
    (hvalues : ∀ letter digits a, .operand (.reference letter digits) ∈ ss →
      Address.ofChars? (letter :: digits) = some a →
      values a ≠ .error .circular ∧ ∀ x, (values a).number? = some x → x.isFinite = true) :
    s.applied values body
      = if (t.value (Operand.reading values)).isFinite = true
        then .number (t.value (Operand.reading values)) else .error .failed := by
  have hsum := Formula.sumCorners?_eq_none hbody
  have hclear : ¬ ∃ a ∈ s.lookups body, values a = .error .circular := by
    rintro ⟨a, ha, hcircular⟩
    rw [Store.lookups, hsum] at ha
    -- what the body looks up are references among the operands, and they are clear
    obtain ⟨l, hl, htarget⟩ := List.mem_filterMap.mp ha
    match l with
    | .char c => cases htarget
    | .reference letter digits =>
      exact (hvalues letter digits a (Formula.mem_of_mem_lexemes hbody hl) htarget).1 hcircular
  have hvalue := Formula.value_filledText hbody ht hnesting fun letter digits hmem =>
    Operand.spelt_of_finite fun a ha => (hvalues letter digits a hmem ha).2
  rw [Store.applied, if_neg hclear, hsum]
  exact Formula.worth_of_value hvalue

/-- **Substitution keeps the meaning.** A formula whose body is derivable, with one level of depth
to spare, and whose references read neither a circle nor an infinite number is worth the value of
its tree, each reference standing for the number of its cell, if that is finite, and is a failure
otherwise. This holds of formulas in cells and of those that stand in none. -/
theorem Store.evaluate_eq_tree_value (s : Store) {body : List Char}
    {ss : List (Expression.Symbol Operand)} {t : Expression.Tree Operand}
    (hbody : symbols? body = some ss) (ht : Derives .expression t ss)
    (hnesting : t.nesting ≤ depthLimit - 1)
    (hvalues : ∀ letter digits a, .operand (.reference letter digits) ∈ ss →
      Address.ofChars? (letter :: digits) = some a →
      s.evaluate a ≠ .error .circular ∧ ∀ x, (s.evaluate a).number? = some x → x.isFinite = true) :
    let v := t.value (Operand.reading s.evaluate)
    let value := if v.isFinite = true then Value.number v else .error .failed
    (∀ a, s.body? a = some body → s.evaluate a = value) ∧
      ∀ raw : String, raw.toList = '=' :: body → s.evaluateRaw raw = value := by
  intro v value
  have happlied : s.applied s.evaluate body = value :=
    s.applied_of_derives hbody ht hnesting hvalues
  exact ⟨fun a ha => (Store.evaluate_of_body? ha).trans happlied,
    fun raw hraw => (Store.evaluateRaw_of_body hraw).trans happlied⟩

/-- A negative number in two places, a cell without a number, and each of the operators. -/
theorem Store.evaluate_eq_tree_value_negative :
    let s : Store := (Store.empty.set ⟨0, 0⟩ "-2.5").set ⟨1, 1⟩ "=2-A1*a01+C3+9/-4"
    s.evaluate ⟨1, 1⟩ = .number (-6.5) := by
  intro s
  have hbody : symbols? "2-A1*a01+C3+9/-4".toList = some [.operand (.number 2), .sumOp .sub,
      .operand (.reference 'A' ['1']), .productOp .mul, .operand (.reference 'a' ['0', '1']),
      .sumOp .add, .operand (.reference 'C' ['3']), .sumOp .add, .operand (.number 9),
      .productOp .div, .sumOp .sub, .operand (.number 4)] := by decide +kernel
  have hunary : ∀ x : Operand, Derives .unary (.operand x) [.operand x] := fun _ => .plain .operand
  have hproduct : Derives .term (.product .mul _ _) _ :=
    (hunary (.reference 'A' ['1'])).term_of_unary.product (hunary (.reference 'a' ['0', '1']))
  have hquotient : Derives .term (.product .div _ (.signed .sub _)) _ :=
    (hunary (.number 9)).term_of_unary.product (.sign (hunary (.number 4)))
  have htree : Derives .expression (.sum .add (.sum .add (.sum .sub _ _) _) _) _ :=
    (((hunary (.number 2)).term_of_unary.expression_of_term.sum hproduct).sum
      (hunary (.reference 'C' ['3'])).term_of_unary).sum hquotient
  have hnumber : s.evaluate ⟨0, 0⟩ ≠ .error .circular ∧
      ∀ x, (s.evaluate ⟨0, 0⟩).number? = some x → x.isFinite = true := by
    have hread : (s.evaluate ⟨0, 0⟩).number? = some (-2.5) := by decide +kernel
    refine ⟨by decide +kernel, fun x hx => ?_⟩
    obtain rfl := Option.some.inj (hread.symm.trans hx)
    decide +kernel
  have hnone : s.evaluate ⟨2, 2⟩ ≠ .error .circular ∧
      ∀ x, (s.evaluate ⟨2, 2⟩).number? = some x → x.isFinite = true := by
    have hread : (s.evaluate ⟨2, 2⟩).number? = none := by decide +kernel
    exact ⟨by decide +kernel, fun x hx => by simp [hread] at hx⟩
  have hvalue := (s.evaluate_eq_tree_value hbody htree (by decide) ?_).1 ⟨1, 1⟩ (by decide +kernel)
  · rw [hvalue]
    decide +kernel
  · intro letter digits a hmem ha
    simp only [List.mem_cons, List.not_mem_nil, Expression.Symbol.operand.injEq,
      Operand.reference.injEq, reduceCtorEq, or_false, false_or] at hmem
    obtain ⟨rfl, rfl⟩ | ⟨rfl, rfl⟩ | ⟨rfl, rfl⟩ := hmem
    · obtain rfl : ⟨0, 0⟩ = a := Option.some.inj ha
      exact hnumber
    · obtain rfl : ⟨0, 0⟩ = a := Option.some.inj ha
      exact hnumber
    · obtain rfl : ⟨2, 2⟩ = a := Option.some.inj ha
      exact hnone

end FormulaSheet
