/-
White space between tokens.

A blank ends a run of digits and points and does nothing else. So blanks may be put
in and taken out wherever no run goes across: the text before such a place and the
text behind it are split each for itself (`tokens_append_eq_ok_iff`), and blanks are
split into nothing. At which byte something stands is another matter: it is the
tokens that stay, and with them the value, and not the place of a problem.

With what the splitter answers (`Scanned.answers`) this is the whole account of how a
text becomes tokens.
-/
import FormulaSheet.Proofs.Expression.Scanning
import FormulaSheet.Proofs.Expression.Viability
import Mathlib.Logic.Relation

set_option autoImplicit false

namespace FormulaSheet.Expression

open Relation (EqvGen)

/-- Blanks are put in where no run goes across. -/
inductive Spaced : List Char → List Char → Prop
  | insert {before blanks after : List Char} (hblanks : ∀ c ∈ blanks, Text.isBlank c = true)
      (hapart : Apart before after) : Spaced (before ++ after) (before ++ (blanks ++ after))

section Parts

variable {before part after blanks cs cs' : List Char} {done ts us : List Token}
  {offset : Nat} {c : Char} {t : Token} {x : Float}

/-! ## Places that no run goes across -/

theorem Apart.of_append (h : Apart (part ++ before) after) : Apart before after := by
  refine h.imp_left fun hlast c hc => hlast c ?_
  rw [List.getLast?_append, Option.mem_def.mp hc]
  rfl

/-- Behind a run that ends before the place, or at it, nothing goes on with it. -/
theorem Apart.head_append (h : Apart (part ++ before) after) (hne : part ≠ [])
    (hall : ∀ c ∈ part, isNumeric c = true) (hbefore : ∀ c ∈ before.head?, isNumeric c = false) :
    ∀ c ∈ (before ++ after).head?, isNumeric c = false := by
  cases before with
  | cons d before => exact hbefore
  | nil =>
    refine h.resolve_left fun hlast => ?_
    rw [List.append_nil] at hlast
    have hnumeric := hlast _ (List.getLast?_eq_some_getLast hne)
    cases (hall _ (List.getLast_mem hne)).symm.trans hnumeric

theorem apart_of_blanks_before (hblanks : ∀ c ∈ blanks, Text.isBlank c = true) :
    Apart blanks after :=
  .inl fun c hc => not_isNumeric_of_isBlank (hblanks c (List.mem_of_getLast? hc))

theorem Apart.blanks_after (h : Apart before after)
    (hblanks : ∀ c ∈ blanks, Text.isBlank c = true) : Apart before (blanks ++ after) := by
  cases blanks with
  | nil => exact h
  | cons d blanks =>
    refine .inr fun c hc => ?_
    obtain rfl := Option.some.inj hc
    exact not_isNumeric_of_isBlank (hblanks d List.mem_cons_self)

/-! ## Texts that are split each for itself -/

theorem tokensOnto_of_ofChar? (h : Token.ofChar? c = some t) :
    tokensOnto done offset (c :: cs) = tokensOnto (t :: done) (offset + c.utf8Size) cs := by
  obtain ⟨hnumeric, hblank, -⟩ := class_of_ofChar? h
  conv_lhs => unfold tokensOnto
  rw [if_neg (by simp [hblank]), if_neg (by simp [hnumeric]), h]

theorem reverse_cons_append (t : Token) (done us : List Token) :
    (t :: done).reverse ++ us = done.reverse ++ t :: us := by
  rw [List.reverse_cons, List.append_assoc, List.singleton_append]

/-- What a text is split into depends neither on what is done before it nor on its place. -/
theorem exists_append_of_tokensOnto (h : tokensOnto done offset cs = .ok ts) :
    ∃ us, ts = done.reverse ++ us ∧
      ∀ done' offset', tokensOnto done' offset' cs = .ok (done'.reverse ++ us) := by
  fun_induction tokensOnto done offset cs with
  | case1 done offset =>
    refine ⟨[], ?_, fun done' offset' => ?_⟩
    · rw [List.append_nil]
      exact (Except.ok.inj h).symm
    · rw [tokensOnto_nil, List.append_nil]
  | case2 done offset c rest hblank ih =>
    obtain ⟨us, hus, hall⟩ := ih h
    refine ⟨us, hus, fun done' offset' => ?_⟩
    rw [tokensOnto_blank hblank, hall]
  | case3 => cases h
  | case4 done offset c rest hblank hnumeric run x =>
    rename_i hx ih
    obtain ⟨us, hus, hall⟩ := ih h
    refine ⟨.number x :: us, by rw [hus, reverse_cons_append], fun done' offset' => ?_⟩
    have hrun : run.all isNumeric = true :=
      List.all_eq_true.mpr fun d => Formula.isNumeric_of_mem_run hnumeric
    rw [Formula.cons_eq_run_append, tokensOnto_run hrun hx
      Formula.not_of_head?_dropWhile, hall, reverse_cons_append]
  | case5 => cases h
  | case6 done offset c rest hblank hnumeric t ht ih =>
    obtain ⟨us, hus, hall⟩ := ih h
    refine ⟨t :: us, by rw [hus, reverse_cons_append], fun done' offset' => ?_⟩
    rw [tokensOnto_of_ofChar? ht, hall, reverse_cons_append]

theorem tokensOnto_eq_ok_iff :
    tokensOnto done offset cs = .ok ts ↔ ∃ us, ts = done.reverse ++ us ∧ tokens cs = .ok us := by
  constructor
  · intro h
    obtain ⟨us, hus, hall⟩ := exists_append_of_tokensOnto h
    exact ⟨us, hus, hall [] 0⟩
  · rintro ⟨us, rfl, hus⟩
    obtain ⟨vs, rfl, hall⟩ := exists_append_of_tokensOnto hus
    exact hall done offset

theorem tokensOnto_append_eq_ok_iff (h : Apart before after) :
    tokensOnto done offset (before ++ after) = .ok ts ↔
      ∃ us vs, ts = us ++ vs ∧ tokensOnto done offset before = .ok us ∧
        tokens after = .ok vs := by
  -- along the first text: each step of the splitter on it is the same step on both together,
  -- for a run of the first text ends in it
  fun_induction tokensOnto done offset before with
  | case1 done offset =>
    rw [List.nil_append, tokensOnto_eq_ok_iff]
    constructor
    · rintro ⟨vs, hts, hvs⟩
      exact ⟨_, vs, hts, rfl, hvs⟩
    · rintro ⟨us, vs, hts, hus, hvs⟩
      obtain rfl := Except.ok.inj hus
      exact ⟨vs, hts, hvs⟩
  | case2 done offset c rest hblank ih =>
    rw [List.cons_append, tokensOnto_blank hblank]
    exact ih (@Apart.of_append rest [c] after h)
  | case3 done offset c rest hblank hnumeric run =>
    rename_i hx
    have hall : ∀ d ∈ run, isNumeric d = true := fun d => Formula.isNumeric_of_mem_run hnumeric
    rw [Formula.cons_eq_run_append] at h ⊢
    rw [List.append_assoc, tokensOnto_run_of_none (List.all_eq_true.mpr hall)
      (List.cons_ne_nil _ _) hx (h.head_append (List.cons_ne_nil _ _) hall
        Formula.not_of_head?_dropWhile)]
    exact iff_of_false (by rintro ⟨⟩) (by rintro ⟨us, vs, -, hus, -⟩; cases hus)
  | case4 done offset c rest hblank hnumeric run x =>
    rename_i hx ih
    have hall : ∀ d ∈ run, isNumeric d = true := fun d => Formula.isNumeric_of_mem_run hnumeric
    rw [Formula.cons_eq_run_append] at h ⊢
    rw [List.append_assoc, tokensOnto_run (List.all_eq_true.mpr hall) hx
      (h.head_append (List.cons_ne_nil _ _) hall Formula.not_of_head?_dropWhile)]
    exact ih h.of_append
  | case5 done offset c rest hblank hnumeric hmark =>
    have hsymbol := Option.map_eq_none_iff.mp ((Token.ofChar?_eq c).symm.trans hmark)
    rw [List.cons_append, tokensOnto_unknown hblank hnumeric hsymbol]
    exact iff_of_false (by rintro ⟨⟩) (by rintro ⟨us, vs, -, hus, -⟩; cases hus)
  | case6 done offset c rest hblank hnumeric t ht ih =>
    rw [List.cons_append, tokensOnto_of_ofChar? ht]
    exact ih (@Apart.of_append rest [c] after h)

/-- **Two texts that no run goes across are split each for itself.** -/
theorem tokens_append_eq_ok_iff (h : Apart before after) :
    tokens (before ++ after) = .ok ts ↔
      ∃ us vs, ts = us ++ vs ∧ tokens before = .ok us ∧ tokens after = .ok vs :=
  tokensOnto_append_eq_ok_iff h

/-! ## Blanks -/

theorem tokens_blanks (h : ∀ c ∈ blanks, Text.isBlank c = true) : tokens blanks = .ok [] := by
  suffices hall : ∀ offset, tokensOnto [] offset blanks = .ok [] from hall 0
  induction blanks with
  | nil => exact fun _ => tokensOnto_nil
  | cons c blanks ih =>
    intro offset
    rw [tokensOnto_blank (h c List.mem_cons_self)]
    exact ih (fun d hd => h d (List.mem_cons_of_mem c hd)) _

theorem tokens_blanks_append_eq_ok_iff (h : ∀ c ∈ blanks, Text.isBlank c = true) :
    tokens (blanks ++ after) = .ok ts ↔ tokens after = .ok ts := by
  rw [tokens_append_eq_ok_iff (apart_of_blanks_before h)]
  constructor
  · rintro ⟨us, vs, rfl, hus, hvs⟩
    obtain rfl := Except.ok.inj ((tokens_blanks h).symm.trans hus)
    exact hvs
  · exact fun hts => ⟨[], ts, rfl, tokens_blanks h, hts⟩

theorem Spaced.tokens_eq_ok_iff (h : Spaced cs cs') : tokens cs = .ok ts ↔ tokens cs' = .ok ts := by
  obtain ⟨hblanks, hapart⟩ := h
  rw [tokens_append_eq_ok_iff hapart, tokens_append_eq_ok_iff (hapart.blanks_after hblanks)]
  simp only [tokens_blanks_append_eq_ok_iff hblanks]

/-- **Blanks between tokens can be put in and taken out**, as often as one likes. -/
theorem tokens_eq_ok_iff_of_spaced (h : EqvGen Spaced cs cs') :
    tokens cs = .ok ts ↔ tokens cs' = .ok ts := by
  induction h with
  | rel _ _ h => exact h.tokens_eq_ok_iff
  | refl => exact Iff.rfl
  | symm _ _ _ ih => exact ih.symm
  | trans _ _ _ _ _ ih₁ ih₂ => exact ih₁.trans ih₂

theorem value_eq_ok_iff_tokens :
    value cs = .ok x ↔ ∃ ts, tokens cs = .ok ts ∧ ts ≠ [] ∧ valueOfTokens ts = .ok x := by
  constructor
  · intro h
    have hvalue := h
    unfold value at hvalue
    split at hvalue
    · cases hvalue
    · cases hvalue
    · next ts hne hts => exact ⟨ts, hts, hne, hvalue⟩
  · rintro ⟨ts, hts, hne, hvalue⟩
    rw [value_eq_valueOfTokens hts hne, hvalue]

end Parts

/-! ## How a text becomes tokens -/

section Answer

variable {cs : List Char} {e : Problem} {ts : List Token}

theorem answers_tokens (cs : List Char) : Answers cs (tokens cs) :=
  (Scanned.start cs).answers

theorem firstProblem_of_error (h : tokens cs = .error e) : FirstProblem cs e := by
  have hanswers := answers_tokens cs
  rwa [h] at hanswers

theorem inOrder_of_ok (h : tokens cs = .ok ts) : InOrder cs ts ∧ ∀ n e, ¬ ProblemAt cs n e := by
  have hanswers := answers_tokens cs
  rwa [h] at hanswers

theorem tokens_eq_error_iff : tokens cs = .error e ↔ FirstProblem cs e := by
  refine ⟨firstProblem_of_error, fun hfirst => ?_⟩
  cases h : tokens cs with
  | error e' => rw [hfirst.unique (firstProblem_of_error h)]
  | ok ts =>
    obtain ⟨n, he, -⟩ := hfirst
    exact absurd he ((inOrder_of_ok h).2 n e)

theorem tokens_eq_ok_iff :
    tokens cs = .ok ts ↔ InOrder cs ts ∧ ∀ n e, ¬ ProblemAt cs n e := by
  refine ⟨inOrder_of_ok, ?_⟩
  rintro ⟨hlisted, hclear⟩
  cases h : tokens cs with
  | error e =>
    obtain ⟨n, he, -⟩ := firstProblem_of_error h
    exact absurd he (hclear n e)
  | ok ts' => rw [hlisted.unique (inOrder_of_ok h).1]

theorem exists_error_iff : (∃ e, tokens cs = .error e) ↔ ∃ n e, ProblemAt cs n e := by
  constructor
  · rintro ⟨e, h⟩
    obtain ⟨n, he, -⟩ := firstProblem_of_error h
    exact ⟨n, e, he⟩
  · rintro ⟨n, e, he⟩
    cases h : tokens cs with
    | error e' => exact ⟨e', rfl⟩
    | ok ts => exact absurd he ((inOrder_of_ok h).2 n e)

end Answer

/-- **A text is split into what stands in it, up to the first problem.** What is answered is the
first thing that offends, a character that is of no kind with the number of bytes before it or a
whole run that is no number, and there is an error exactly when something offends. If nothing does,
the answer is the tokens that stand in the text, in order, and the number of a run is the float
nearest to it. So putting in and taking out blanks where no run goes across changes no value. -/
theorem tokens_in_order (cs : List Char) :
    (∀ e, tokens cs = .error e ↔ FirstProblem cs e) ∧
      ((∃ e, tokens cs = .error e) ↔ ∃ n e, ProblemAt cs n e) ∧
      (∀ ts, tokens cs = .ok ts ↔ InOrder cs ts ∧ ∀ n e, ¬ ProblemAt cs n e) ∧
      ∀ cs', EqvGen Spaced cs cs' → ∀ x, value cs = .ok x ↔ value cs' = .ok x := by
  refine ⟨fun e => tokens_eq_error_iff, exists_error_iff, fun ts => tokens_eq_ok_iff,
    fun cs' hspaced x => ?_⟩
  rw [value_eq_ok_iff_tokens, value_eq_ok_iff_tokens]
  simp only [tokens_eq_ok_iff_of_spaced hspaced]

/-- A no-break space, two bytes long, before the plus and one behind it. -/
theorem tokens_in_order_no_break_space :
    EqvGen Spaced "(1+2)".toList "(1\u00a0+\u00a02)".toList ∧
      (value "(1+2)".toList = .ok 3 ↔ value "(1\u00a0+\u00a02)".toList = .ok 3) ∧
      TokenAt "(1\u00a0+\u00a02)".toList 3 .plus ∧
      InOrder "(1\u00a0+\u00a02)".toList [.opening, .number 1, .plus, .number 2, .closing] ∧
      FirstProblem "(1\u00a0+é)".toList (.character 'é' 5) := by
  have hbefore : Spaced "(1+2)".toList "(1\u00a0+2)".toList :=
    @Spaced.insert "(1".toList ['\u00a0'] "+2)".toList
      (List.forall_mem_singleton.mpr (by decide)) (.inr (by simp; decide))
  have hbehind : Spaced "(1\u00a0+2)".toList "(1\u00a0+\u00a02)".toList :=
    @Spaced.insert "(1\u00a0+".toList ['\u00a0'] "2)".toList
      (List.forall_mem_singleton.mpr (by decide)) (.inl (by simp; decide))
  have hspaced := (EqvGen.rel _ _ hbefore).trans _ _ _ (.rel _ _ hbehind)
  have hplus : ('+', Token.plus) ∈ marks := List.mem_cons_self
  refine ⟨hspaced, (tokens_in_order _).2.2.2 _ hspaced 3, .mark rfl hplus, ?_, ?_⟩
  · exact (((tokens_in_order _).2.2.1 _).mp (by decide +kernel)).1
  · exact ((tokens_in_order _).1 _).mp (by decide +kernel)

end FormulaSheet.Expression
