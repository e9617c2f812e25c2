/-
The reader of expressions accepts exactly what the grammar derives.

The reader takes one token at a time and remembers, for each parenthesis that
is open, the sum so far, the product so far and the signs in front of the
operand that is due. The two directions look at it from either end.

What is derivable is read. A derivation tells where the reader is after the text
of each category: after a term it waits for an operator with the value of the
term in hand, whatever stood before (`run_of_derives`). Since a derivation goes
down to single operands in the same way as the depth of the reader goes up, the
limit on the one is the limit on the other.

What is read is derivable. Each thing that the reader remembers is the value of
a tree, and the texts of these trees, put one after another, are what has been
read (`State.Holds`). One step keeps that (`Holds.step`), so a whole run does,
and where a run may end there is one tree left.
-/
import FormulaSheet.Proofs.Expression.Grammar
import Mathlib.Data.List.Induction

set_option autoImplicit false

namespace FormulaSheet.Expression

/-! ## Tokens and symbols -/

/-- The symbol of the grammar that a token is. -/
def Token.symbol : Token → Symbol Float
  | number x => .operand x
  | plus => .sumOp .add
  | minus => .sumOp .sub
  | times => .productOp .mul
  | divide => .productOp .div
  | opening => .opening
  | closing => .closing

/-- The token that a symbol of the grammar is. -/
def Symbol.token : Symbol Float → Token
  | operand x => .number x
  | sumOp .add => .plus
  | sumOp .sub => .minus
  | productOp .mul => .times
  | productOp .div => .divide
  | opening => .opening
  | closing => .closing

@[simp] theorem Token.token_symbol (t : Token) : t.symbol.token = t := by
  cases t <;> rfl

@[simp] theorem Symbol.symbol_token (s : Symbol Float) : s.token.symbol = s := by
  match s with
  | operand x => rfl
  | sumOp .add => rfl
  | sumOp .sub => rfl
  | productOp .mul => rfl
  | productOp .div => rfl
  | opening => rfl
  | closing => rfl

theorem Token.map_token_map_symbol (ts : List Token) : (ts.map symbol).map Symbol.token = ts := by
  simp [Function.comp_def]

/-- The value of a tree over numbers. -/
abbrev Tree.number (t : Tree Float) : Float := t.value id

theorem Tree.number_signed (op : SumOp) (t : Tree Float) :
    (signed op t).number = op.sign t.number := value_signed id op t

theorem Tree.number_product (op : ProductOp) (l r : Tree Float) :
    (product op l r).number = op.apply l.number r.number := value_product id op l r

theorem Tree.number_sum (op : SumOp) (l r : Tree Float) :
    (sum op l r).number = op.apply l.number r.number := value_sum id op l r

namespace State

/-! ## Single steps -/

theorem run_cons (s : State) (t : Token) (ts : List Token) :
    s.run (t :: ts) = match s.step t with
      | .error e => .error e
      | .ok s => s.run ts := rfl

theorem run_of_step {s s' : State} {t : Token} (h : s.step t = .ok s') (ts : List Token) :
    s.run (t :: ts) = s'.run ts := by
  rw [run_cons, h]

theorem run_append_of_run {s s' : State} {ts : List Token} (h : s.run ts = .ok s')
    (us : List Token) : s.run (ts ++ us) = s'.run us := by
  rw [run_append, h]

theorem step_sign (level : Level) (outer : List Level) (op : SumOp)
    (h : level.signs.length + depthOf outer < depthLimit) :
    (operand level outer).step (Symbol.sumOp op).token
      = .ok (operand { level with signs := op :: level.signs } outer) := by
  cases op <;> exact if_pos h

theorem step_opening (level : Level) (outer : List Level)
    (h : level.signs.length + depthOf outer < depthLimit) :
    (operand level outer).step .opening = .ok (operand {} (level :: outer)) :=
  if_pos h

theorem step_sumOp (sum : Option (Float × SumOp)) (term : Float) (outer : List Level)
    (op : SumOp) :
    (operator sum term outer).step (Symbol.sumOp op).token
      = .ok (operand { sum := some (total sum term, op) } outer) := by
  cases op <;> rfl

theorem step_productOp (sum : Option (Float × SumOp)) (term : Float) (outer : List Level)
    (op : ProductOp) :
    (operator sum term outer).step (Symbol.productOp op).token
      = .ok (operand { sum, product := some (term, op) } outer) := by
  cases op <;> rfl

/-! ## What is derivable is read -/

/-- What the reader does with the text of a category: it goes on as the value of the tree asks for,
provided that the tree does not go too deep from where it stands. -/
def Takes (ts : List Token) (t : Tree Float) : Category Float → Prop
  | .expression => ∀ outer, t.nesting + depthOf outer ≤ depthLimit →
      ∃ sum term, (operand {} outer).run ts = .ok (operator sum term outer) ∧
        total sum term = t.number
  | .addends l => ∀ outer sum term, t.nesting + depthOf outer ≤ depthLimit →
      total sum term = l.number →
      ∃ sum' term', (operator sum term outer).run ts = .ok (operator sum' term' outer) ∧
        total sum' term' = t.number
  | .term => ∀ outer sum, t.nesting + depthOf outer ≤ depthLimit →
      (operand { sum } outer).run ts = .ok (operator sum t.number outer)
  | .factors l => ∀ outer sum, t.nesting + depthOf outer ≤ depthLimit →
      (operator sum l.number outer).run ts = .ok (operator sum t.number outer)
  | .unary => ∀ outer level, t.nesting + level.signs.length + depthOf outer ≤ depthLimit →
      (operand level outer).run ts = .ok (complete level outer t.number)
  | .primary => ∀ outer level, t.nesting + level.signs.length + depthOf outer ≤ depthLimit →
      (operand level outer).run ts = .ok (complete level outer t.number)

/-- **What is derivable is read**, category by category. -/
theorem takes_of_derives {c : Category Float} {t : Tree Float} {ss : List (Symbol Float)}
    (h : Derives c t ss) : Takes (ss.map Symbol.token) t c := by
  induction h with
  | expression _ hmore ihterm ihmore =>
    intro outer hdepth
    have hnesting := hmore.nesting_le_of_addends
    -- the tree so far is part of the whole one, so the limit leaves room for it as well
    have hterm := ihterm outer none (by omega)
    obtain ⟨sum, term, hrun, hvalue⟩ := ihmore outer none _ hdepth rfl
    refine ⟨sum, term, ?_, hvalue⟩
    rw [List.map_append, run_append_of_run hterm, hrun]
  | noAddend =>
    intro outer sum term _ hvalue
    exact ⟨sum, term, rfl, hvalue⟩
  | @addend op l r t _ _ _ hmore ihterm ihmore =>
    intro outer sum term hdepth hvalue
    have hnesting := hmore.nesting_le_of_addends
    have hright : r.nesting ≤ (Tree.sum op l r).nesting := Nat.le_max_right _ _
    have hterm := ihterm outer (some (total sum term, op)) (by omega)
    obtain ⟨sum', term', hrun, hvalue'⟩ :=
      ihmore outer (some (total sum term, op)) r.number hdepth
        (by rw [Tree.number_sum, ← hvalue]; rfl)
    refine ⟨sum', term', ?_, hvalue'⟩
    rw [List.map_cons, run_of_step (step_sumOp _ _ _ _), List.map_append,
      run_append_of_run hterm, hrun]
  | term _ hmore ihunary ihmore =>
    intro outer sum hdepth
    have hnesting := hmore.nesting_le_of_factors
    have hunary := ihunary outer { sum } (by simp only [List.length_nil]; omega)
    rw [List.map_append, run_append_of_run hunary]
    exact ihmore outer sum hdepth
  | noFactor =>
    intro outer sum _
    rfl
  | @factor op l r t _ _ _ hmore ihunary ihmore =>
    intro outer sum hdepth
    have hnesting := hmore.nesting_le_of_factors
    have hright : r.nesting ≤ (Tree.product op l r).nesting := Nat.le_max_right _ _
    have hunary := ihunary outer { sum, product := some (l.number, op) }
      (by simp only [List.length_nil]; omega)
    rw [List.map_cons, run_of_step (step_productOp _ _ _ _), List.map_append,
      run_append_of_run hunary]
    have hmore' := ihmore outer sum hdepth
    rwa [Tree.number_product] at hmore'
  | @sign op t _ _ ih =>
    intro outer level hdepth
    simp only [Tree.nesting] at hdepth
    rw [List.map_cons, run_of_step (step_sign level outer op (by omega)),
      ih outer _ (by simp only [List.length_cons]; omega), Tree.number_signed]
    rfl
  | plain _ ih => exact ih
  | operand =>
    intro outer level _
    rfl
  | @group t _ _ ih =>
    intro outer level hdepth
    -- the level that waits outside counts with its signs, and the parenthesis counts one more
    simp only [Tree.nesting] at hdepth
    obtain ⟨sum, term, hrun, hvalue⟩ := ih (level :: outer) (by simp only [depthOf]; omega)
    have hopening : (Symbol.opening : Symbol Float).token = .opening := rfl
    rw [List.map_cons, hopening, run_of_step (step_opening level outer (by omega)),
      List.map_append, run_append_of_run hrun]
    exact congrArg (fun x => Except.ok (complete level outer x)) hvalue

/-! ## What is read is derivable -/

/-- The text of a sum so far and of the operator after it, at a depth. -/
inductive HoldsSum (depth : Nat) : Option (Float × SumOp) → List (Symbol Float) → Prop
  | first : HoldsSum depth none []
  | after {t : Tree Float} {ts : List (Symbol Float)} {op : SumOp} (h : Derives .expression t ts)
      (hdepth : t.nesting + depth ≤ depthLimit) :
      HoldsSum depth (some (t.number, op)) (ts ++ [.sumOp op])

/-- The text of a product so far and of the operator after it, at a depth. -/
inductive HoldsProduct (depth : Nat) : Option (Float × ProductOp) → List (Symbol Float) → Prop
  | first : HoldsProduct depth none []
  | after {t : Tree Float} {ts : List (Symbol Float)} {op : ProductOp} (h : Derives .term t ts)
      (hdepth : t.nesting + depth ≤ depthLimit) :
      HoldsProduct depth (some (t.number, op)) (ts ++ [.productOp op])

/-- The text inside one pair of parentheses, up to the operand that is due. -/
inductive HoldsLevel (depth : Nat) : Level → List (Symbol Float) → Prop
  | mk {sum : Option (Float × SumOp)} {product : Option (Float × ProductOp)} {signs : List SumOp}
      {ss ps : List (Symbol Float)} (hsum : HoldsSum depth sum ss)
      (hproduct : HoldsProduct depth product ps) :
      HoldsLevel depth ⟨sum, product, signs⟩ (ss ++ (ps ++ signs.reverse.map .sumOp))

/-- The text before the innermost parenthesis that is open, and of this parenthesis. -/
inductive HoldsOuter : List Level → List (Symbol Float) → Prop
  | nil : HoldsOuter [] []
  | cons {level : Level} {outer : List Level} {os ls : List (Symbol Float)}
      (houter : HoldsOuter outer os) (hlevel : HoldsLevel (depthOf outer) level ls) :
      HoldsOuter (level :: outer) (os ++ (ls ++ [.opening]))

/-- What the reader remembers are the values of trees, and these are the trees of the text. -/
inductive Holds : State → List (Symbol Float) → Prop
  | operand {level : Level} {outer : List Level} {os ls : List (Symbol Float)}
      (houter : HoldsOuter outer os) (hlevel : HoldsLevel (depthOf outer) level ls)
      (hdepth : level.signs.length + depthOf outer ≤ depthLimit) :
      Holds (.operand level outer) (os ++ ls)
  | operator {sum : Option (Float × SumOp)} {outer : List Level} {os ss ts : List (Symbol Float)}
      {t : Tree Float} (houter : HoldsOuter outer os) (hsum : HoldsSum (depthOf outer) sum ss)
      (hterm : Derives .term t ts) (hdepth : t.nesting + depthOf outer ≤ depthLimit) :
      Holds (.operator sum t.number outer) (os ++ (ss ++ ts))

variable {depth : Nat} {sum : Option (Float × SumOp)} {product : Option (Float × ProductOp)}
  {level : Level} {outer : List Level} {t : Tree Float} {os ls ss ps ts : List (Symbol Float)}

/-- A term ends the sum before it. -/
theorem HoldsSum.expression (h : HoldsSum depth sum ss) (ht : Derives .term t ts)
    (hdepth : t.nesting + depth ≤ depthLimit) :
    ∃ u, Derives .expression u (ss ++ ts) ∧ u.number = total sum t.number ∧
      u.nesting + depth ≤ depthLimit := by
  cases h with
  | first => exact ⟨t, ht.expression_of_term, rfl, hdepth⟩
  | @after l _ op hl hldepth =>
    refine ⟨.sum op l t, ?_, Tree.number_sum op l t, ?_⟩
    · simpa using hl.sum ht
    · simp only [Tree.nesting]
      omega

/-- An operand under its signs ends the product before it. -/
theorem HoldsProduct.term (h : HoldsProduct depth product ps) (ht : Derives .unary t ts)
    (hdepth : t.nesting + depth ≤ depthLimit) :
    ∃ u, Derives .term u (ps ++ ts) ∧ u.nesting + depth ≤ depthLimit ∧
      u.number = match product with
        | none => t.number
        | some (y, op) => op.apply y t.number := by
  cases h with
  | first => exact ⟨t, ht.term_of_unary, hdepth, rfl⟩
  | @after l _ op hl hldepth =>
    refine ⟨.product op l t, ?_, ?_, Tree.number_product op l t⟩
    · simpa using hl.product ht
    · simp only [Tree.nesting]
      omega

/-- A tree under signs, the last of which comes first. -/
def underSigns (signs : List SumOp) (t : Tree Float) : Tree Float :=
  signs.foldl (fun t op => .signed op t) t

theorem derives_underSigns (signs : List SumOp) (h : Derives .unary t ts) :
    Derives .unary (underSigns signs t) (signs.reverse.map .sumOp ++ ts) := by
  induction signs generalizing t ts with
  | nil => exact h
  | cons op signs ih =>
    have hsign : Derives .unary (.signed op t) (.sumOp op :: ts) := h.sign
    simpa [underSigns] using ih hsign

theorem nesting_underSigns (signs : List SumOp) (t : Tree Float) :
    (underSigns signs t).nesting = t.nesting + signs.length := by
  induction signs generalizing t with
  | nil => rfl
  | cons op signs ih =>
    have hnext := ih (.signed op t)
    simp only [underSigns, List.foldl_cons, List.length_cons, Tree.nesting] at hnext ⊢
    omega

theorem number_underSigns (level : Level) (t : Tree Float) :
    (underSigns level.signs t).number = level.signed t.number := by
  unfold underSigns Level.signed
  induction level.signs generalizing t with
  | nil => rfl
  | cons op signs ih =>
    rw [List.foldl_cons, List.foldl_cons, ← Tree.number_signed]
    exact ih (.signed op t)

/-- An operand ends what its level has been waiting with. -/
theorem holds_complete (houter : HoldsOuter outer os) (hlevel : HoldsLevel (depthOf outer) level ls)
    (ht : Derives .primary t ts)
    (hdepth : t.nesting + level.signs.length + depthOf outer ≤ depthLimit) :
    Holds (complete level outer t.number) (os ++ ls ++ ts) := by
  cases hlevel with
  | @mk sum product signs ss ps hsum hproduct =>
    have hunary := derives_underSigns signs (Derives.plain ht)
    have hnesting := nesting_underSigns signs t
    obtain ⟨u, hterm, hudepth, hvalue⟩ := hproduct.term hunary (by simp only at hdepth; omega)
    have hfactor : Level.factor ⟨sum, product, signs⟩ t.number = u.number := by
      rw [hvalue, number_underSigns ⟨sum, product, signs⟩]
      cases product <;> rfl
    simp only [complete, hfactor]
    simpa using Holds.operator houter hsum hterm hudepth

/-- One more level: a sign or a parenthesis is read only while it may be. -/
theorem deepen_eq_ok {s next s' : State} (h : deepen s next = .ok s') :
    s.depth < depthLimit ∧ s' = next := by
  unfold deepen at h
  split at h
  · next hdepth =>
    rw [Except.ok.injEq] at h
    exact ⟨hdepth, h.symm⟩
  · cases h

/-- A level whose operand has no sign yet. -/
theorem HoldsLevel.unsigned (hsum : HoldsSum depth sum ss)
    (hproduct : HoldsProduct depth product ps) :
    HoldsLevel depth ⟨sum, product, []⟩ (ss ++ ps) := by
  have hlevel : HoldsLevel depth ⟨sum, product, []⟩ _ := .mk hsum hproduct
  simpa using hlevel

/-- A sign goes in front of the operand that is due. -/
theorem HoldsLevel.sign (h : HoldsLevel depth level ls) (op : SumOp) :
    HoldsLevel depth { level with signs := op :: level.signs } (ls ++ [.sumOp op]) := by
  cases h with
  | @mk sum product signs _ _ hsum hproduct =>
    have hlevel : HoldsLevel depth ⟨sum, product, op :: signs⟩ _ := .mk hsum hproduct
    simpa using hlevel

theorem Holds.sign {op : SumOp} (houter : HoldsOuter outer os)
    (hlevel : HoldsLevel (depthOf outer) level ls)
    (hdepth : level.signs.length + depthOf outer < depthLimit) :
    Holds (.operand { level with signs := op :: level.signs } outer)
      (os ++ ls ++ [.sumOp op]) := by
  rw [List.append_assoc]
  exact .operand houter (hlevel.sign op) (by simp only [List.length_cons]; omega)

/-- **One step.** What holds of the text that has been read holds when one more token is read. -/
theorem Holds.step {s s' : State} {t : Token} (h : Holds s ts) (hstep : s.step t = .ok s') :
    Holds s' (ts ++ [t.symbol]) := by
  cases h with
  | @operand level outer os ls houter hlevel hdepth =>
    cases t with
    | number x =>
      obtain rfl : complete level outer x = s' := by simpa [State.step, stepOperand] using hstep
      exact holds_complete houter hlevel .operand (by simpa [Tree.nesting] using hdepth)
    | plus =>
      obtain ⟨hless, rfl⟩ := deepen_eq_ok hstep
      exact .sign houter hlevel hless
    | minus =>
      obtain ⟨hless, rfl⟩ := deepen_eq_ok hstep
      exact .sign houter hlevel hless
    | opening =>
      obtain ⟨hless, rfl⟩ := deepen_eq_ok hstep
      simpa [Token.symbol] using Holds.operand (.cons houter hlevel) (.unsigned .first .first)
        (by simp only [State.depth, depthOf, List.length_nil] at hless ⊢; omega)
    | times | divide | closing => cases hstep
  | @operator sum outer os ss us u houter hsum hterm hdepth =>
    -- what has been read on this level is an expression, whichever token ends the term
    obtain ⟨e, he, hvalue, hedepth⟩ := hsum.expression hterm hdepth
    cases t with
    | plus | minus =>
      obtain rfl := Except.ok.inj hstep
      rw [← hvalue]
      simpa [Token.symbol] using Holds.operand houter
        (.unsigned (.after he hedepth) .first)
        (by simp only [List.length_nil]; omega)
    | times | divide =>
      obtain rfl := Except.ok.inj hstep
      simpa [Token.symbol] using Holds.operand houter
        (.unsigned hsum (.after hterm hdepth))
        (by simp only [List.length_nil]; omega)
    | closing =>
      cases houter with
      | nil => cases hstep
      | @cons level outer os ls houter hlevel =>
        obtain rfl := Except.ok.inj hstep
        -- the group is the operand that the level around it has been waiting for
        rw [← hvalue]
        simp only [depthOf] at hedepth
        have hgroup := holds_complete houter hlevel (Derives.group he)
          (by simp only [Tree.nesting]; omega)
        have hnumber : (Tree.group e).number = e.number := rfl
        simpa [Token.symbol, hnumber] using hgroup
    | number x | opening => cases hstep

/-- **A whole run.** What has been read by a run that succeeds is what its state holds. -/
theorem Holds.run {s s' : State} {read : List (Symbol Float)} {us : List Token} (h : Holds s read)
    (hrun : s.run us = .ok s') : Holds s' (read ++ us.map Token.symbol) := by
  induction us generalizing s read with
  | nil =>
    obtain rfl := Except.ok.inj hrun
    simpa using h
  | cons t us ih =>
    rw [run_cons] at hrun
    cases hstep : s.step t with
    | error e => simp [hstep] at hrun
    | ok next =>
      simp only [hstep] at hrun
      simpa using ih (h.step hstep) hrun

theorem holds_initial : Holds .initial [] :=
  .operand .nil (.unsigned .first .first) (Nat.zero_le _)

end State

/-! ## Both directions -/

/-- The reader accepts the text of a tree that does not go too deep, with the value of the tree,
and no other text. -/
theorem valueOfTokens_eq_ok_iff {ts : List Token} {v : Float} :
    valueOfTokens ts = .ok v ↔ ∃ t, Derives .expression t (ts.map Token.symbol) ∧
      t.nesting ≤ depthLimit ∧ t.number = v := by
  constructor
  · intro h
    unfold valueOfTokens at h
    cases hrun : State.initial.run ts with
    | error e => simp [hrun] at h
    | ok s =>
      simp only [hrun] at h
      have hholds := State.holds_initial.run hrun
      generalize hread : [] ++ ts.map Token.symbol = read at hholds
      cases hholds with
      -- a text may end only behind an operand, and with no parenthesis open
      | operand => cases h
      | operator houter hsum hterm hdepth =>
        cases houter with
        | cons => cases h
        | nil =>
          obtain ⟨e, he, hvalue, hedepth⟩ := hsum.expression hterm hdepth
          refine ⟨e, ?_, hedepth, hvalue.trans (Except.ok.inj h)⟩
          rw [List.nil_append] at hread
          rwa [hread]
  · rintro ⟨t, ht, hnesting, rfl⟩
    obtain ⟨sum, term, hrun, hvalue⟩ := State.takes_of_derives ht [] hnesting
    rw [Token.map_token_map_symbol] at hrun
    have hrun' : State.initial.run ts = .ok (.operator sum term []) := hrun
    rw [valueOfTokens, hrun']
    exact congrArg Except.ok hvalue

/-- A binary operator and an operand under its signs can follow any expression that has been
read. -/
theorem run_initial_append {ts us : List Token} {op : Token} {t : Tree Float}
    (hop : op ∈ [Token.plus, .minus, .times, .divide])
    (ht : Derives .unary t (us.map Token.symbol)) (hnesting : t.nesting ≤ depthLimit)
    (hread : ∃ sum term, State.initial.run ts = .ok (.operator sum term [])) :
    ∃ sum term, State.initial.run (ts ++ op :: us) = .ok (.operator sum term []) := by
  obtain ⟨sum, term, hrun⟩ := hread
  have htakes := State.takes_of_derives ht
  rw [Token.map_token_map_symbol] at htakes
  rw [State.run_append_of_run hrun]
  simp only [List.mem_cons, List.not_mem_nil, or_false] at hop
  obtain rfl | rfl | rfl | rfl := hop
  all_goals exact ⟨_, _, htakes [] _ (by simpa [State.depthOf] using hnesting)⟩

/-- Any number of operands side by side is read. -/
theorem exists_run_initial_siblings {first : List Token} {rest : List (Token × List Token)}
    (hfirst : ∃ t, Derives .unary t (first.map Token.symbol) ∧ t.nesting ≤ depthLimit)
    (hrest : ∀ p ∈ rest, p.1 ∈ [Token.plus, .minus, .times, .divide] ∧
      ∃ t, Derives .unary t (p.2.map Token.symbol) ∧ t.nesting ≤ depthLimit) :
    ∃ sum term, State.initial.run (first ++ rest.flatMap fun p => p.1 :: p.2)
      = .ok (.operator sum term []) := by
  induction rest using List.reverseRecOn with
  | nil =>
    obtain ⟨t, ht, hnesting⟩ := hfirst
    have htakes := State.takes_of_derives ht [] {} (by simpa [State.depthOf] using hnesting)
    rw [Token.map_token_map_symbol] at htakes
    refine ⟨none, t.number, ?_⟩
    rw [List.flatMap_nil, List.append_nil]
    exact htakes
  | append_singleton rest p ih =>
    obtain ⟨hop, t, ht, hnesting⟩ := hrest p (by simp)
    have hread := ih fun q hq => hrest q (by simp [hq])
    simpa using run_initial_append hop ht hnesting hread

/-- **The reader accepts exactly the grammar.** A text of these tokens has a value if and only if
the tokens are derivable by a tree none of whose operands lies under more parentheses and signs than
the limit allows; the value is that of the tree, and there is no other tree. The limit does not
count what stands side by side: operands that each keep to it can be joined in any number. -/
theorem value_eq_ok_iff_derives {cs : List Char} {ts : List Token} (h : tokens cs = .ok ts) :
    (∀ v, value cs = .ok v ↔ ∃ t, Derives .expression t (ts.map Token.symbol) ∧
      t.nesting ≤ depthLimit ∧ t.number = v) ∧
    (∀ t u, Derives .expression t (ts.map Token.symbol) →
      Derives .expression u (ts.map Token.symbol) → t = u) ∧
    ∀ (first : List Token) (rest : List (Token × List Token)),
      ts = first ++ rest.flatMap (fun p => p.1 :: p.2) →
      (∃ t, Derives .unary t (first.map Token.symbol) ∧ t.nesting ≤ depthLimit) →
      (∀ p ∈ rest, p.1 ∈ [Token.plus, .minus, .times, .divide] ∧
        ∃ t, Derives .unary t (p.2.map Token.symbol) ∧ t.nesting ≤ depthLimit) →
      ∃ v, value cs = .ok v := by
  have hvalue : ∀ v, value cs = .ok v ↔ valueOfTokens ts = .ok v := by
    intro v
    cases ts with
    | nil => simp [value, h, valueOfTokens, State.run, State.initial, State.finish]
    | cons t ts => simp only [value, h]
  refine ⟨fun v => (hvalue v).trans valueOfTokens_eq_ok_iff, fun t u ht hu => ht.unique hu, ?_⟩
  rintro first rest rfl hfirst hrest
  obtain ⟨sum, term, hrun⟩ := exists_run_initial_siblings hfirst hrest
  refine ⟨State.total sum term, (hvalue _).mpr ?_⟩
  rw [valueOfTokens, hrun]
  rfl

/-- A text with each of the operators and with a sign, read and derived. -/
theorem value_eq_ok_iff_derives_signed_group :
    let cs := ['2', ' ', '*', '-', '(', '3', '-', '1', ')', ' ', '+', '9', '/', '4']
    let ts := [Token.number 2, .times, .minus, .opening, .number 3, .minus, .number 1, .closing,
      .plus, .number 9, .divide, .number 4]
    tokens cs = .ok ts ∧ value cs = .ok (-1.75) := by
  intro cs ts
  have htokens : tokens cs = .ok ts := by decide +kernel
  have hunary : ∀ x : Float, Derives .unary (.operand x) [.operand x] := fun _ => .plain .operand
  have hgroup : Derives .expression (.sum .sub (.operand 3) (.operand 1))
      [Symbol.operand (3 : Float), .sumOp .sub, .operand 1] :=
    (hunary 3).term_of_unary.expression_of_term.sum (hunary 1).term_of_unary
  have hproduct : Derives .term
      (.product .mul (.operand 2) (.signed .sub (.group (.sum .sub (.operand 3) (.operand 1)))))
      [Symbol.operand (2 : Float), .productOp .mul, .sumOp .sub, .opening, .operand 3, .sumOp .sub,
        .operand 1, .closing] :=
    (hunary 2).term_of_unary.product (.sign (.plain (.group hgroup)))
  have hquotient : Derives .term (.product .div (.operand 9) (.operand 4))
      [Symbol.operand (9 : Float), .productOp .div, .operand 4] :=
    (hunary 9).term_of_unary.product (hunary 4)
  have htree : Derives .expression
      (.sum .add
        (.product .mul (.operand 2) (.signed .sub (.group (.sum .sub (.operand 3) (.operand 1)))))
        (.product .div (.operand 9) (.operand 4)))
      (ts.map Token.symbol) :=
    hproduct.expression_of_term.sum hquotient
  exact ⟨htokens, ((value_eq_ok_iff_derives htokens).1 _).mpr
    ⟨_, htree, by decide, by decide +kernel⟩⟩

end FormulaSheet.Expression
