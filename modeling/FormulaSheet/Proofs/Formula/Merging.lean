/-
References that stand apart.

When a text is put in the place of a reference, nothing keeps it apart from what
stands beside it. There are two ways in which the text of a body can come to have
other symbols than the body. Digits and points that touch the reference become one
number with the digits put in; and a minus that is put in behind an operand is read
as an operator.

These are the only ways. If no reference is touched, the text with the references
replaced has the symbols of the body, and cannot be split if the body cannot
(`exists_symbols_of_tokensOnto`). If besides no minus is put in behind an operand,
the symbols that are put in leave the outline of the body as it is, and so the text
is derivable only if the body is (`exists_derives_of_expand`).
-/
import FormulaSheet.Proofs.Expression.Outline
import FormulaSheet.Proofs.Formula.Alphabet

set_option autoImplicit false

namespace FormulaSheet

/-! ## Nothing touches a reference -/

namespace Formula

open Expression (isNumeric number? tokensOnto)

/-- Two parts of a body that stand side by side, of which one is a reference, are apart if the other
one is neither a reference nor a digit or a point. -/
def Lexeme.Apart : Lexeme → Lexeme → Prop
  | reference _ _, reference _ _ => False
  | reference _ _, char c => isNumeric c = false
  | char c, reference _ _ => isNumeric c = false
  | char _, char _ => True

section Splitting

variable {values : Address → Value} {c : Char} {cs run rest : List Char}
  {done ts : List Expression.Token} {offset : Nat}

theorem head?_eq_of_lexemes {ls : List Lexeme} (h : lexemes cs = .char c :: ls) :
    cs.head? = some c := by
  cases cs with
  | nil => simp [lexemes] at h
  | cons d cs =>
    rw [lexemes] at h
    split at h
    · cases h
    · cases h
      rfl

/-- The text goes on with no digit and no point where the body has another character. -/
theorem head?_filledText (h : ∀ l ∈ (lexemes cs).head?, ∃ d, l = .char d ∧ isNumeric d = false) :
    ∀ d ∈ (filledText values cs).head?, isNumeric d = false := by
  unfold filledText
  cases hlexemes : lexemes cs with
  | nil => nofun
  | cons l ls =>
    obtain ⟨d, rfl, hd⟩ := h l (by rw [hlexemes]; rfl)
    rintro _ ⟨⟩
    exact hd

/-- Behind a run of digits and points that is not followed by a reference. -/
theorem head?_filledText_of_run (hc : isNumeric c = true)
    (hchain : (lexemes (c :: cs)).IsChain Lexeme.Apart) :
    ∀ d ∈ (filledText values (cs.dropWhile isNumeric)).head?, isNumeric d = false := by
  refine head?_filledText fun l hl => ?_
  have hne : c :: cs.takeWhile isNumeric ≠ [] := List.cons_ne_nil _ _
  rw [lexemes_run hc, List.isChain_append] at hchain
  obtain ⟨d, hd, hlast⟩ : ∃ d ∈ c :: cs.takeWhile isNumeric,
      Lexeme.char d ∈ ((c :: cs.takeWhile isNumeric).map Lexeme.char).getLast? := by
    refine ⟨_, List.getLast_mem hne, ?_⟩
    rw [List.getLast?_map, List.getLast?_eq_some_getLast hne]
    rfl
  have hapart := hchain.2.2 _ hlast l hl
  cases l with
  | reference letter digits =>
    have hnumeric : isNumeric d = false := hapart
    rw [isNumeric_of_mem_run hc hd] at hnumeric
    cases hnumeric
  | char e =>
    obtain ⟨ls, hls⟩ := List.head?_eq_some_iff.mp hl
    -- the run ended there in the body
    have hend := List.head?_dropWhile_not isNumeric cs
    rw [head?_eq_of_lexemes hls] at hend
    exact ⟨e, rfl, hend⟩

/-- Behind a reference that nothing touches. -/
theorem head?_filledText_of_reference {letter : Char} {digits : List Char}
    (hchain : (.reference letter digits :: lexemes cs).IsChain Lexeme.Apart) :
    ∀ d ∈ (filledText values cs).head?, isNumeric d = false := by
  refine head?_filledText fun l hl => ?_
  have hapart := (List.isChain_cons.mp hchain).1 l hl
  cases l with
  | reference => exact hapart.elim
  | char d => exact ⟨d, rfl, hapart⟩

/-- **The symbols of the text are those of the body.** If nothing touches a reference and the text
with the references replaced can be split, then the body can be split, and the tokens of the text
are its symbols with each reference having become what it is spelt by. -/
theorem exists_symbols_of_tokensOnto (hchain : (lexemes cs).IsChain Lexeme.Apart)
    (hspelt : ∀ letter digits, .reference letter digits ∈ lexemes cs →
      Operand.Spelt values letter digits)
    (h : tokensOnto done offset (filledText values cs) = .ok ts) :
    ∃ ss, symbols? cs = some ss ∧ ts = done.reverse
      ++ (ss.flatMap (Expression.Symbol.expand (Operand.symbols values))).map
        Expression.Symbol.token := by
  fun_induction symbols? cs generalizing done offset with
  | case1 =>
    rw [filledText, lexemes, List.flatMap_nil, Expression.tokensOnto_nil] at h
    exact ⟨[], rfl, by simpa using (Except.ok.inj h).symm⟩
  | case2 c cs hblank ih =>
    have hplain := Expression.not_isAlpha_of_isBlank hblank
    rw [lexemes_cons hplain] at hchain hspelt
    rw [filledText_cons hplain, Expression.tokensOnto_blank hblank] at h
    exact ih hchain.tail (fun letter digits hmem =>
      hspelt letter digits (List.mem_cons_of_mem _ hmem)) h
  | case3 c cs hblank hnumeric hx =>
    -- a run that is no number is the same run in the text
    have hrun : (c :: cs.takeWhile isNumeric).all isNumeric = true :=
      List.all_eq_true.mpr fun d hd => isNumeric_of_mem_run hnumeric hd
    rw [filledText_run hnumeric, Expression.tokensOnto_run_of_none hrun (List.cons_ne_nil _ _) hx
      (head?_filledText_of_run hnumeric hchain)] at h
    cases h
  | case4 c cs hblank hnumeric x hx ih =>
    have hrun : (c :: cs.takeWhile isNumeric).all isNumeric = true :=
      List.all_eq_true.mpr fun d hd => isNumeric_of_mem_run hnumeric hd
    rw [filledText_run hnumeric, Expression.tokensOnto_run hrun hx
      (head?_filledText_of_run hnumeric hchain)] at h
    rw [lexemes_run hnumeric] at hchain hspelt
    obtain ⟨ss, hss, rfl⟩ := ih (List.isChain_append.mp hchain).2.1 (fun letter digits hmem =>
      hspelt letter digits (List.mem_append_right _ hmem)) h
    refine ⟨_, by rw [hss]; rfl, ?_⟩
    simp [Expression.Symbol.expand, Operand.symbols, Operand.part, Expression.Symbol.token]
  | case5 c cs hblank hnumeric hreference ih =>
    rw [lexemes_reference hreference] at hchain hspelt
    obtain ⟨offset', htokens⟩ := (hspelt _ _ (List.mem_cons_self ..)).exists_tokensOnto_eq
      (head?_filledText_of_reference hchain) done offset
    rw [filledText_reference hreference, htokens] at h
    obtain ⟨ss, hss, rfl⟩ := ih hchain.tail (fun letter digits hmem =>
      hspelt letter digits (List.mem_cons_of_mem _ hmem)) h
    exact ⟨_, by rw [hss]; rfl, by simp [Expression.Symbol.expand]⟩
  | case6 c cs hblank hnumeric hreference hmark =>
    have hunknown : (Expression.Symbol.ofChar? c : Option (Expression.Symbol Float)) = none := by
      cases hsome : (Expression.Symbol.ofChar? c : Option (Expression.Symbol Float)) with
      | none => rfl
      | some s =>
        obtain ⟨s', hs', -⟩ := Expression.Symbol.exists_expand_of_ofChar?
          (fun x => [Expression.Symbol.operand (Operand.number x)]) hsome
        cases hmark.symm.trans hs'
    have htext : filledText values (c :: cs) = c :: filledText values cs := by
      rw [filledText, lexemes_of_not_reference hreference]
      rfl
    rw [htext, Expression.tokensOnto_unknown hblank hnumeric hunknown] at h
    cases h
  | case7 c cs hblank hnumeric hreference s hmark ih =>
    have hplain := Expression.not_isAlpha_of_ofChar? hmark
    obtain ⟨s', hmark', hexpand⟩ :=
      Expression.Symbol.exists_expand_of_ofChar? (Operand.symbols values) hmark
    rw [lexemes_cons hplain] at hchain hspelt
    rw [filledText_cons hplain, Expression.tokensOnto_mark hmark'] at h
    obtain ⟨ss, hss, rfl⟩ := ih hchain.tail (fun letter digits hmem =>
      hspelt letter digits (List.mem_cons_of_mem _ hmem)) h
    exact ⟨_, by rw [hss]; rfl, by simp [hexpand]⟩

end Splitting

/-! ## No minus becomes an operator -/

/-- Of two symbols that stand side by side, the second one is no reference that is put in with a
minus, if the first one ends an operand. -/
def Operand.Unsubtracted (values : Address → Value) :
    Expression.Symbol Operand → Expression.Symbol Operand → Prop
  | .operand _, .operand x | .closing, .operand x => (x.part values).1 = false
  | _, _ => True

end Formula

namespace Expression

open Formula (Operand)

variable {values : Address → Value} {ss : List (Symbol Operand)}

/-- An operator is due only behind an operand or a closing parenthesis. -/
theorem Phase.step_eq_operator {α : Type} {p : Phase} {s : Symbol α} {n : Nat}
    (h : p.step s = some (.operator n)) : s = .closing ∨ ∃ x, s = .operand x := by
  match p, s with
  | _, .closing => exact .inl rfl
  | _, .operand x => exact .inr ⟨x, rfl⟩
  | .operand _, .sumOp _ | .operand _, .opening | .operator _, .sumOp _
  | .operator _, .productOp _ => cases h

/-- What is not an operand is not replaced, and leads to the same phase. -/
theorem Phase.step_expand {α β : Type} (p : Phase) {s : Symbol α} (g : α → List (Symbol β))
    (hs : ∀ x, s ≠ .operand x) : ∃ s', s.expand g = [s'] ∧ p.step s' = p.step s := by
  cases s with
  | operand x => exact absurd rfl (hs x)
  | sumOp op => exact ⟨.sumOp op, rfl, by cases p <;> rfl⟩
  | productOp op => exact ⟨.productOp op, rfl, by cases p <;> rfl⟩
  | opening => exact ⟨.opening, rfl, by cases p <;> rfl⟩
  | closing =>
    refine ⟨.closing, rfl, ?_⟩
    match p with
    | .operand _ | .operator 0 | .operator (_ + 1) => rfl

/-- Where an operand is due, the one that is put in is read and nothing else. Where none is due, it
cannot be read without a minus. -/
theorem Phase.run_of_run_expand {p q : Phase} (hchain : ss.IsChain (Operand.Unsubtracted values))
    (hhead : ∀ n, p = .operator n → ∀ x, ss.head? = some (.operand x) → (x.part values).1 = false)
    (h : p.run (ss.flatMap (Symbol.expand (Operand.symbols values))) = some q) :
    p.run ss = some q := by
  induction ss generalizing p with
  | nil => exact h
  | cons s ss ih =>
    rw [List.isChain_cons] at hchain
    -- behind the first symbol the same can be said again
    have hnext : ∀ {next : Phase}, p.step s = some next →
        next.run (ss.flatMap (Symbol.expand (Operand.symbols values))) = some q →
        p.run (s :: ss) = some q := by
      intro next hstep hrun
      rw [Phase.run_of_step hstep]
      refine ih hchain.2 ?_ hrun
      rintro n rfl y hy
      have hunsubtracted := hchain.1 _ hy
      obtain rfl | ⟨x, rfl⟩ := Phase.step_eq_operator hstep
      · exact hunsubtracted
      · exact hunsubtracted
    rw [List.flatMap_cons] at h
    by_cases hs : ∃ x, s = .operand x
    · obtain ⟨x, rfl⟩ := hs
      cases p with
      | operand n =>
        have hread : (Phase.operand n).run (x.symbols values) = some (.operator n) :=
          Phase.run_of_derives (Operand.derives_symbols x) n
        exact hnext rfl ((Phase.run_append_of_run hread _).symm.trans h)
      | operator n =>
        have hplain : ∃ y, x.symbols values = [.operand y] := by
          obtain ⟨⟨negative, y⟩, hpart⟩ : ∃ part, part = x.part values := ⟨_, rfl⟩
          have hnegative := hhead n rfl x rfl
          rw [← hpart] at hnegative
          obtain rfl : negative = false := hnegative
          exact ⟨y, by rw [Operand.symbols, ← hpart]⟩
        obtain ⟨y, hy⟩ := hplain
        rw [Symbol.expand, hy] at h
        cases h
    · obtain ⟨s', hexpand, hstep⟩ := p.step_expand (Operand.symbols values)
        fun x hx => hs ⟨x, hx⟩
      rw [hexpand, List.singleton_append, Phase.run, hstep] at h
      obtain ⟨next, hnextStep, hrun⟩ := Option.bind_eq_some_iff.mp h
      exact hnext hnextStep hrun

/-- **Replacing operands keeps what is wrong.** If no minus is put in behind an operand, a text that
is derivable with its references replaced is derivable as it stands. -/
theorem exists_derives_of_expand (hchain : ss.IsChain (Operand.Unsubtracted values))
    (h : ∃ t, Derives .expression t (ss.flatMap (Symbol.expand (Operand.symbols values)))) :
    ∃ t, Derives .expression t ss :=
  exists_derives_iff.mpr (Phase.run_of_run_expand hchain nofun (exists_derives_iff.mp h))

end Expression

end FormulaSheet
