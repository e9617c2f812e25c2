/-
References as operands.

A formula is read after its references have been replaced, so it could come to a
number although it is no expression over its references: `A1B1` is two operands
side by side, and a number where the cells hold digits. That happens only where
what is put in merges with what stands beside it, and it can do so in two ways
only. Where the references of a body stand apart, a formula that is no expression
has a mark (`mark_or_merged`).

The way back from a number is the way of `evaluate_eq_tree_value` in the other
direction: the text has a value, so it has been split and its tokens are derivable;
nothing touches a reference, so these are the symbols of the body with operands in
the place of its references; and no minus has become an operator, so the body is
derivable as well.
-/
import FormulaSheet.Proofs.Evaluation.Marks
import FormulaSheet.Proofs.Expression.Viability
import FormulaSheet.Proofs.Formula.Merging

set_option autoImplicit false

namespace FormulaSheet

open Expression (Derives)
open Formula (Operand Lexeme lexemes symbols? sumCorners? filledText worth)

/-- The references of a body stand apart. None touches a digit, a point or another reference; and
none whose number is put in with a minus comes behind an operand or a closing parenthesis. -/
structure Formula.StandApart (values : Address → Value) (body : List Char) : Prop where
  untouched : (lexemes body).IsChain Lexeme.Apart
  unsubtracted : ∀ ss, symbols? body = some ss → ss.IsChain (Operand.Unsubtracted values)

/-- A body whose outline does not come to an end is not derivable. -/
theorem Formula.not_derivable_of_run {body : List Char} {ss : List (Expression.Symbol Operand)}
    (h : symbols? body = some ss) (hrun : Expression.Phase.initial.run ss ≠ some (.operator 0)) :
    ¬ ∃ ss t, symbols? body = some ss ∧ Derives .expression t ss := by
  rintro ⟨us, t, hus, ht⟩
  obtain rfl := Option.some.inj (h.symm.trans hus)
  exact hrun (Expression.exists_derives_iff.mp ⟨t, ht⟩)

/-- A text with a value has been split into tokens that are derivable, by a tree of this value. -/
theorem Expression.exists_derives_of_value {cs : List Char} {x : Float} (h : value cs = .ok x) :
    ∃ ts t, tokens cs = .ok ts ∧ Derives .expression t (ts.map Token.symbol) ∧
      t.nesting ≤ depthLimit ∧ t.number = x := by
  cases htokens : tokens cs with
  | error e =>
    simp only [value, htokens] at h
    cases h
  | ok ts =>
    have hne : ts ≠ [] := by
      rintro rfl
      simp only [value, htokens] at h
      cases h
    rw [value_eq_valueOfTokens htokens hne] at h
    obtain ⟨t, ht⟩ := valueOfTokens_eq_ok_iff.mp h
    exact ⟨ts, t, rfl, ht⟩

/-- **Nothing merges where references stand apart.** If the text with the references replaced has a
value, the body is derivable over its references. -/
theorem Formula.exists_derives_of_value {values : Address → Value} {body : List Char} {x : Float}
    (hapart : StandApart values body) (hknown : worth (filledText values body) ≠ .error .name)
    (h : Expression.value (filledText values body) = .ok x) :
    ∃ ss t, symbols? body = some ss ∧ Derives .expression t ss := by
  have hspelt : ∀ letter digits, .reference letter digits ∈ lexemes body →
      Operand.Spelt values letter digits := by
    intro letter digits hmem
    refine Operand.spelt_of_finite fun a ha y hy => ?_
    -- what is not finite would have been put in as a word
    by_contra hinfinite
    exact hknown (worth_filledText_eq_name_iff.mpr (.inr (.inr
      ⟨_, hmem, a, ha, y, hy, Bool.eq_false_iff.mpr hinfinite⟩)))
  obtain ⟨ts, t, htokens, ht, -⟩ := Expression.exists_derives_of_value h
  obtain ⟨ss, hss, rfl⟩ := exists_symbols_of_tokensOnto hapart.untouched hspelt htokens
  have hsymbols : ∃ t, Derives .expression t
      (ss.flatMap (Expression.Symbol.expand (Operand.symbols values))) :=
    ⟨t, by simpa [Function.comp_def] using ht⟩
  obtain ⟨u, hu⟩ := Expression.exists_derives_of_expand (hapart.unsubtracted ss hss) hsymbols
  exact ⟨ss, u, hss, hu⟩

namespace Store

variable {s : Store} {body : List Char} {v : Value}

/-- **A reference that stands apart is an operand of its own.** An arithmetic formula that reads no
circle and is not derivable over its references has a mark. It comes to a number only if its
references do not stand apart, and then to the value of the text in which each of them has been
replaced by its shown number. -/
theorem mark_or_merged (hform : sumCorners? body = none)
    (hclear : ∀ a ∈ s.lookups body, s.evaluate a ≠ .error .circular)
    (hnot : ¬ ∃ ss t, symbols? body = some ss ∧ Derives .expression t ss) (h : s.Yields body v) :
    (∃ m, v = .error m) ∨ ¬ Formula.StandApart s.evaluate body ∧
      ∃ x ts t, v = .number x ∧ Expression.tokens (filledText s.evaluate body) = .ok ts ∧
        Derives .expression t (ts.map Expression.Token.symbol) ∧
        t.nesting ≤ Expression.depthLimit ∧ t.number = x := by
  rw [h.eq_worth hform hclear]
  by_cases hname : worth (filledText s.evaluate body) = .error .name
  · exact .inl ⟨_, hname⟩
  · obtain hfailed | ⟨x, hx, -⟩ := Formula.worth_of_ne_name hname
    · exact .inl ⟨_, hfailed⟩
    · have hvalue := Formula.value_of_worth hx
      obtain ⟨ts, t, htree⟩ := Expression.exists_derives_of_value hvalue
      exact .inr ⟨fun hapart => hnot (Formula.exists_derives_of_value hapart hname hvalue),
        x, ts, t, hx, htree⟩

/-- An operand behind an operand, and a minus put in behind an operator. -/
theorem mark_or_merged_siblings :
    let s : Store := (Store.empty.set ⟨0, 0⟩ "-3").set ⟨0, 1⟩ "2"
    ∃ m, s.evaluateRaw "=4-A1 b1" = .error m := by
  intro s
  have hraw : "=4-A1 b1".toList = '=' :: "4-A1 b1".toList := rfl
  have hlexemes : lexemes "4-A1 b1".toList
      = [.char '4', .char '-', .reference 'A' ['1'], .char ' ', .reference 'b' ['1']] := by
    decide +kernel
  have hsymbols : symbols? "4-A1 b1".toList = some [.operand (.number 4), .sumOp .sub,
      .operand (.reference 'A' ['1']), .operand (.reference 'b' ['1'])] := by decide +kernel
  have hapart : Formula.StandApart s.evaluate "4-A1 b1".toList := by
    constructor
    · have hminus : Expression.isNumeric '-' = false := by decide
      have hspace : Expression.isNumeric ' ' = false := by decide
      rw [hlexemes]
      simp [Lexeme.Apart, hminus, hspace]
    · intro ss hss
      obtain rfl := Option.some.inj (hsymbols.symm.trans hss)
      have hpart : ((Operand.reference 'b' ['1']).part s.evaluate).1 = false := by decide +kernel
      simp [Operand.Unsubtracted, hpart]
  exact (mark_or_merged (by decide) (by decide +kernel)
    (Formula.not_derivable_of_run hsymbols (by decide)) (.inr ⟨_, hraw, rfl⟩)).resolve_right
    fun hmerged => hmerged.1 hapart

/-- Digits of two references that touch, a fraction that touches one, and a minus behind an
operand: formulas that come to a number without being derivable. -/
theorem references_merge :
    let s : Store := ((Store.empty.set ⟨0, 0⟩ "1").set ⟨0, 1⟩ "2").set ⟨0, 2⟩ "-3"
    ∀ p ∈ [("A1B1", (12 : Float)), ("A1.5", 1.5), ("2 C1", -1)],
      sumCorners? p.1.toList = none ∧
      (∀ a ∈ s.lookups p.1.toList, s.evaluate a ≠ .error .circular) ∧
      (¬ ∃ ss t, symbols? p.1.toList = some ss ∧ Derives .expression t ss) ∧
      s.evaluateRaw ("=" ++ p.1) = .number p.2 := by
  intro s p hp
  simp only [List.mem_cons, List.not_mem_nil, or_false] at hp
  obtain rfl | rfl | rfl := hp
  · have hsymbols : symbols? "A1B1".toList = some [.operand (.reference 'A' ['1']),
        .operand (.reference 'B' ['1'])] := by decide +kernel
    exact ⟨by decide, by decide +kernel, Formula.not_derivable_of_run hsymbols (by decide),
      by decide +kernel⟩
  · have hsymbols : symbols? "A1.5".toList = some [.operand (.reference 'A' ['1']),
        .operand (.number 0.5)] := by decide +kernel
    exact ⟨by decide, by decide +kernel, Formula.not_derivable_of_run hsymbols (by decide),
      by decide +kernel⟩
  · have hsymbols : symbols? "2 C1".toList = some [.operand (.number 2),
        .operand (.reference 'C' ['1'])] := by decide +kernel
    exact ⟨by decide, by decide +kernel, Formula.not_derivable_of_run hsymbols (by decide),
      by decide +kernel⟩

end Store

end FormulaSheet
