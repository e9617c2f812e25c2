/-
Where an expression goes wrong.

A list of tokens is viable within a limit if it can be gone on with to a text that
the grammar derives within that limit. The reader goes on exactly as long as what
it has read is viable (`viable_iff_exists_run`). What its state remembers can always
be brought to an end: an operand where one is due, and a closing parenthesis for
each open one, and none of this goes deeper than the reader has been
(`State.Holds.exists_closed`).

So the first token at which it stops is the first one that no continuation could
save. There are two reasons to stop. Either the outline of the text has no place
for the token, and then no text with these tokens is derivable at any depth; or
the token opens one level too many, and then one level more would have been enough.
Which of the two it is decides the error, and what stands behind the token is never
looked at.
-/
import FormulaSheet.Proofs.Expression.Acceptance
import FormulaSheet.Proofs.Expression.Outline

set_option autoImplicit false

namespace FormulaSheet.Expression

/-- A list of tokens that can be gone on with to a text that is derivable within a limit of
depth. -/
def Viable (limit : Nat) (ts : List Token) : Prop :=
  ∃ (us : List Token) (t : Tree Float),
    Derives .expression t ((ts ++ us).map Token.symbol) ∧ t.nesting ≤ limit

/-- A token opens the level above a limit: it is a parenthesis or, where an operand is due, a sign;
without it the limit is kept, and with it one level more is needed and is enough. -/
structure OpensLevelAbove (limit : Nat) (before : List Token) (t : Token) : Prop where
  mem_openers : t ∈ [Token.plus, .minus, .opening]
  operand_due : ∀ x, Viable limit (before ++ [.number x])
  beyond : ¬ Viable limit (before ++ [t])
  within : Viable (limit + 1) (before ++ [t])

theorem viable_of_derives {limit : Nat} {ts : List Token} {us : List (Symbol Float)}
    {t : Tree Float} (h : Derives .expression t (ts.map Token.symbol ++ us))
    (hnesting : t.nesting ≤ limit) : Viable limit ts := by
  refine ⟨us.map Symbol.token, t, ?_, hnesting⟩
  simpa [Function.comp_def] using h

/-! ## What has been read can be brought to an end -/

namespace State

variable {depth : Nat} {sum : Option (Float × SumOp)} {product : Option (Float × ProductOp)}
  {level : Level} {outer : List Level} {t : Tree Float} {os ls ss ps ts : List (Symbol Float)}

theorem HoldsSum.exists_expression (h : HoldsSum depth sum ss) (ht : Derives .term t ts) :
    ∃ u, Derives .expression u (ss ++ ts) ∧
      u.nesting + depth ≤ max depthLimit (t.nesting + depth) := by
  cases h with
  | first => exact ⟨t, ht.expression_of_term, Nat.le_max_right _ _⟩
  | @after l _ op hl hdepth =>
    refine ⟨.sum op l t, by simpa using hl.sum ht, ?_⟩
    simp only [Tree.nesting]
    omega

theorem HoldsProduct.exists_term (h : HoldsProduct depth product ps) (ht : Derives .unary t ts) :
    ∃ u, Derives .term u (ps ++ ts) ∧
      u.nesting + depth ≤ max depthLimit (t.nesting + depth) := by
  cases h with
  | first => exact ⟨t, ht.term_of_unary, Nat.le_max_right _ _⟩
  | @after l _ op hl hdepth =>
    refine ⟨.product op l t, by simpa using hl.product ht, ?_⟩
    simp only [Tree.nesting]
    omega

/-- An operand makes an expression of what has been read inside one pair of parentheses. -/
theorem HoldsLevel.exists_expression (h : HoldsLevel depth level ls) (ht : Derives .primary t ts) :
    ∃ u, Derives .expression u (ls ++ ts) ∧
      u.nesting + depth ≤ max depthLimit (t.nesting + level.signs.length + depth) := by
  cases h with
  | @mk sum product signs _ _ hsum hproduct =>
    have hsigns := nesting_underSigns signs t
    obtain ⟨u, hu, hudepth⟩ := hproduct.exists_term (derives_underSigns signs (.plain ht))
    obtain ⟨v, hv, hvdepth⟩ := hsum.exists_expression hu
    refine ⟨v, by simpa using hv, ?_⟩
    simp only
    omega

/-- Closing parentheses make an expression of one that stands inside all that are open. -/
theorem HoldsOuter.exists_closed (h : HoldsOuter outer os) (ht : Derives .expression t ts) :
    ∃ u, Derives .expression u (os ++ ts ++ List.replicate outer.length .closing) ∧
      u.nesting ≤ max depthLimit (t.nesting + depthOf outer) := by
  induction h generalizing t ts with
  | nil => exact ⟨t, by simpa using ht, Nat.le_max_right _ _⟩
  | @cons level outer os ls houter hlevel ih =>
    -- the expression is a group for the level around it
    obtain ⟨u, hu, hudepth⟩ := hlevel.exists_expression (.group ht)
    obtain ⟨v, hv, hvdepth⟩ := ih hu
    refine ⟨v, by simpa [List.replicate_succ] using hv, ?_⟩
    simp only [Tree.nesting, depthOf] at hudepth ⊢
    omega

/-- Where an operand is due, any one makes it possible to end the text. -/
theorem HoldsOuter.exists_closed_primary (houter : HoldsOuter outer os)
    (hlevel : HoldsLevel (depthOf outer) level ls) (ht : Derives .primary t ts) :
    ∃ us u, Derives .expression u (os ++ ls ++ ts ++ us) ∧
      u.nesting ≤ max depthLimit (t.nesting + level.signs.length + depthOf outer) := by
  obtain ⟨u, hu, hudepth⟩ := hlevel.exists_expression ht
  obtain ⟨v, hv, hvdepth⟩ := houter.exists_closed hu
  refine ⟨_, v, by simpa using hv, ?_⟩
  omega

/-- **What has been read is viable.** -/
theorem Holds.exists_closed {s : State} (h : Holds s ts) :
    ∃ us u, Derives .expression u (ts ++ us) ∧ u.nesting ≤ depthLimit := by
  cases h with
  | operand houter hlevel hdepth =>
    obtain ⟨us, u, hu, hudepth⟩ := houter.exists_closed_primary hlevel (.operand (x := 0))
    refine ⟨_, u, by simpa using hu, ?_⟩
    simp only [Tree.nesting] at hudepth
    omega
  | operator houter hsum hterm hdepth =>
    obtain ⟨u, hu, hudepth⟩ := hsum.exists_expression hterm
    obtain ⟨v, hv, hvdepth⟩ := houter.exists_closed hu
    refine ⟨_, v, hv, ?_⟩
    omega

/-! ## The reader and the outline -/

/-- What is due in a state, and how many parentheses are open. -/
def phase : State → Phase
  | operand _ outer => .operand outer.length
  | operator _ _ outer => .operator outer.length

theorem phase_step {s s' : State} {t : Token} (h : s.step t = .ok s') :
    s.phase.step t.symbol = some s'.phase := by
  match s, t with
  | operand level outer, .number x =>
    obtain rfl := Except.ok.inj h
    rfl
  | operand level outer, .plus | operand level outer, .minus | operand level outer, .opening =>
    obtain ⟨-, rfl⟩ := deepen_eq_ok h
    rfl
  | operator sum term outer, .plus | operator sum term outer, .minus
  | operator sum term outer, .times | operator sum term outer, .divide =>
    obtain rfl := Except.ok.inj h
    rfl
  | operator sum term (level :: outer), .closing =>
    obtain rfl := Except.ok.inj h
    rfl

theorem phase_run {s s' : State} {ts : List Token} (h : s.run ts = .ok s') :
    s.phase.run (ts.map Token.symbol) = some s'.phase := by
  induction ts generalizing s with
  | nil =>
    obtain rfl := Except.ok.inj h
    rfl
  | cons t ts ih =>
    rw [run_cons] at h
    cases hstep : s.step t with
    | error e => simp [hstep] at h
    | ok next =>
      simp only [hstep] at h
      exact (Phase.run_of_step (phase_step hstep) _).trans (ih h)

/-- **Two reasons to stop.** Either the outline has no place for the token, or the token is a sign or
a parenthesis where an operand is due and opens one level more than there may be. -/
theorem step_eq_error {s : State} {t : Token} {e : Problem} (h : s.step t = .error e) :
    e = .token t ∧ s.phase.step t.symbol = none ∨
      e = .depth ∧ t ∈ [Token.plus, .minus, .opening] ∧
        ∃ level outer, s = operand level outer ∧ depthLimit ≤ level.signs.length + depthOf outer := by
  have hdeepen : ∀ {s next : State}, s.deepen next = .error e → e = .depth ∧ depthLimit ≤ s.depth := by
    intro s next hdeepen
    unfold deepen at hdeepen
    split at hdeepen
    · cases hdeepen
    · next hdepth => exact ⟨(Except.error.inj hdeepen).symm, Nat.le_of_not_lt hdepth⟩
  match s, t with
  | operand level outer, .plus | operand level outer, .minus | operand level outer, .opening =>
    obtain ⟨he, hdepth⟩ := hdeepen h
    exact .inr ⟨he, by simp, level, outer, rfl, hdepth⟩
  | operand level outer, .times | operand level outer, .divide | operand level outer, .closing
  | operator sum term [], .closing | operator sum term [], .number x
  | operator sum term [], .opening | operator sum term (level :: outer), .number x
  | operator sum term (level :: outer), .opening =>
    exact .inl ⟨(Except.error.inj h).symm, rfl⟩

/-- A run that fails has stopped at one token. -/
theorem exists_of_run_eq_error {s : State} {ts : List Token} {e : Problem}
    (h : s.run ts = .error e) :
    ∃ before t after s', ts = before ++ t :: after ∧ s.run before = .ok s' ∧
      s'.step t = .error e := by
  induction ts generalizing s with
  | nil => cases h
  | cons t ts ih =>
    rw [run_cons] at h
    cases hstep : s.step t with
    | error e' =>
      simp only [hstep, Except.error.injEq] at h
      exact ⟨[], t, ts, s, rfl, rfl, h ▸ hstep⟩
    | ok next =>
      simp only [hstep] at h
      obtain ⟨before, u, after, s', rfl, hbefore, hu⟩ := ih h
      exact ⟨t :: before, u, after, s', rfl, (run_of_step hstep before).trans hbefore, hu⟩

end State

/-! ## The reader goes on as long as what it has read is viable -/

variable {cs : List Char} {before ts : List Token} {t : Token} {s : State} {e : Problem}

theorem viable_iff_exists_run : Viable depthLimit ts ↔ ∃ s, State.initial.run ts = .ok s := by
  constructor
  · rintro ⟨us, t, ht, hnesting⟩
    -- the whole text is read, and so is what it begins with
    have hvalue := valueOfTokens_eq_ok_iff.mpr ⟨t, ht, hnesting, rfl⟩
    cases hrun : State.initial.run ts with
    | ok s => exact ⟨s, rfl⟩
    | error e =>
      rw [valueOfTokens, State.run_append, hrun] at hvalue
      cases hvalue
  · rintro ⟨s, hrun⟩
    obtain ⟨us, u, hu, hudepth⟩ := (State.holds_initial.run hrun).exists_closed
    exact viable_of_derives hu hudepth

theorem Viable.of_isPrefix {limit : Nat} {p : List Token} (h : Viable limit ts) (hp : p <+: ts) :
    Viable limit p := by
  obtain ⟨rest, rfl⟩ := hp
  obtain ⟨us, u, hu, hnesting⟩ := h
  exact ⟨rest ++ us, u, by simpa using hu, hnesting⟩

/-- What the outline has no place for makes a text that is not viable at any depth. -/
theorem not_viable_of_phase (hrun : State.initial.run before = .ok s)
    (hnone : s.phase.step t.symbol = none) (limit : Nat) : ¬ Viable limit (before ++ [t]) := by
  rintro ⟨us, u, hu, -⟩
  have hwhole : Derives .expression u
      ((before ++ [t]).map Token.symbol ++ us.map Token.symbol) := by simpa using hu
  have hsome := Phase.isSome_run_of_derives_append hwhole
  have hphase : Phase.initial.run (before.map Token.symbol) = some s.phase :=
    State.phase_run hrun
  rw [List.map_append, Phase.run_append_of_run hphase, List.map_singleton, Phase.run, hnone] at hsome
  cases hsome

/-- Where the limit stops the reader, one level more would do. -/
theorem opensLevelAbove_of_stop {level : Level} {outer : List Level}
    (hrun : State.initial.run before = .ok (.operand level outer))
    (hdepth : depthLimit ≤ level.signs.length + State.depthOf outer)
    (ht : t ∈ [Token.plus, .minus, .opening])
    (hbeyond : ¬ Viable depthLimit (before ++ [t])) : OpensLevelAbove depthLimit before t := by
  have hholds := State.holds_initial.run hrun
  rw [List.nil_append] at hholds
  refine ⟨ht, fun x => ?_, hbeyond, ?_⟩
  · refine viable_iff_exists_run.mpr ⟨State.complete level outer x, ?_⟩
    rw [State.run_append_of_run hrun]
    rfl
  · generalize hread : before.map Token.symbol = read at hholds
    cases hholds with
    | @operand _ _ os ls houter hlevel hwithin =>
      -- behind the token an operand is due again, and with it the text can be ended
      have hclosed : ∃ us u, Derives .expression u (os ++ ls ++ (t.symbol :: us)) ∧
          u.nesting ≤ depthLimit + 1 := by
        have hsign : ∀ op, ∃ us u, Derives .expression u (os ++ ls ++ (.sumOp op :: us)) ∧
            u.nesting ≤ depthLimit + 1 := by
          intro op
          obtain ⟨us, u, hu, hudepth⟩ :=
            houter.exists_closed_primary (hlevel.sign op) (.operand (x := 0))
          refine ⟨.operand 0 :: us, u, by simpa using hu, ?_⟩
          simp only [Tree.nesting, List.length_cons] at hudepth
          omega
        simp only [List.mem_cons, List.not_mem_nil, or_false] at ht
        obtain rfl | rfl | rfl := ht
        · exact hsign .add
        · exact hsign .sub
        · obtain ⟨us, u, hu, hudepth⟩ := houter.exists_closed_primary hlevel
            (.group (Derives.plain (.operand (x := 0))).term_of_unary.expression_of_term)
          refine ⟨.operand 0 :: .closing :: us, u, by simpa [Token.symbol] using hu, ?_⟩
          simp only [Tree.nesting] at hudepth
          omega
      obtain ⟨us, u, hu, hudepth⟩ := hclosed
      have hwhole : Derives .expression u ((before ++ [t]).map Token.symbol ++ us) := by
        simpa [hread] using hu
      exact viable_of_derives hwhole hudepth

/-! ## The first token that cannot be saved -/

theorem value_eq_valueOfTokens (h : tokens cs = .ok ts) (hne : ts ≠ []) :
    value cs = valueOfTokens ts := by
  cases ts with
  | nil => exact absurd rfl hne
  | cons t ts => simp only [value, h]

/-- What stands behind the token at which the reader stops is not looked at. -/
theorem value_of_stop (h : tokens cs = .ok ts) (hbegins : before ++ [t] <+: ts)
    (hrun : State.initial.run before = .ok s) (hstep : s.step t = .error e) :
    value cs = .error e := by
  obtain ⟨after, rfl⟩ := hbegins
  rw [value_eq_valueOfTokens h (by simp), valueOfTokens, List.append_assoc,
    State.run_append_of_run hrun, List.singleton_append, State.run_cons, hstep]

/-- A text that is read to its end but has no value ends too early. -/
theorem value_eq_ending (h : tokens cs = .ok ts) (hne : ts ≠ [])
    (hnot : ¬ ∃ t, Derives .expression t (ts.map Token.symbol) ∧ t.nesting ≤ depthLimit)
    (hrun : State.initial.run ts = .ok s) : value cs = .error .ending := by
  have hfinish : valueOfTokens ts = s.finish := by rw [valueOfTokens, hrun]
  cases hvalue : s.finish with
  | ok v =>
    obtain ⟨t, ht, hnesting, -⟩ := valueOfTokens_eq_ok_iff.mp (hfinish.trans hvalue)
    exact absurd ⟨t, ht, hnesting⟩ hnot
  | error e =>
    rw [value_eq_valueOfTokens h hne, hfinish, hvalue]
    unfold State.finish at hvalue
    split at hvalue
    · cases hvalue
    · exact hvalue.symm

/-- **The first token that cannot be saved decides the error.** Take a text with tokens that are not
derivable within the limit of depth. If each list of tokens that it begins with is viable, it ends
too early. Otherwise there is a first token up to which the tokens are not viable. If these would
be viable without a limit, the token opens the level above the limit, and the error is the depth;
if not, the error is the token. Any text whose tokens begin with the same ones has the same
error. -/
theorem first_offender_decides (h : tokens cs = .ok ts) (hne : ts ≠ [])
    (hnot : ¬ ∃ t, Derives .expression t (ts.map Token.symbol) ∧ t.nesting ≤ depthLimit) :
    ((∀ p, p <+: ts → Viable depthLimit p) → value cs = .error .ending) ∧
    ((¬ ∀ p, p <+: ts → Viable depthLimit p) → ∃ before t after, ts = before ++ t :: after ∧
      (∀ p, p <+: before → Viable depthLimit p) ∧ ¬ Viable depthLimit (before ++ [t]) ∧
      ((∃ limit, Viable limit (before ++ [t])) →
        value cs = .error .depth ∧ OpensLevelAbove depthLimit before t) ∧
      ((¬ ∃ limit, Viable limit (before ++ [t])) → value cs = .error (.token t)) ∧
      ∀ cs' ts', tokens cs' = .ok ts' → before ++ [t] <+: ts' → value cs' = value cs) := by
  cases hrun : State.initial.run ts with
  | ok s =>
    have hviable : ∀ p, p <+: ts → Viable depthLimit p := fun p hp =>
      (viable_iff_exists_run.mpr ⟨s, hrun⟩).of_isPrefix hp
    exact ⟨fun _ => value_eq_ending h hne hnot hrun, fun hnone => absurd hviable hnone⟩
  | error e =>
    obtain ⟨before, t, after, s, rfl, hbefore, hstep⟩ := State.exists_of_run_eq_error hrun
    have hbegins : before ++ [t] <+: before ++ t :: after := ⟨after, by simp⟩
    have hviable : ∀ p, p <+: before → Viable depthLimit p := fun p hp =>
      (viable_iff_exists_run.mpr ⟨s, hbefore⟩).of_isPrefix hp
    have hoffends : ¬ Viable depthLimit (before ++ [t]) := by
      rw [viable_iff_exists_run, State.run_append_of_run hbefore, State.run_cons, hstep]
      nofun
    refine ⟨fun hall => absurd (hall _ hbegins) hoffends, fun _ =>
      ⟨before, t, after, rfl, hviable, hoffends, ?_, ?_, ?_⟩⟩
    · rintro ⟨limit, hlimit⟩
      obtain ⟨-, hnone⟩ | ⟨rfl, ht, level, outer, rfl, hdepth⟩ := State.step_eq_error hstep
      · exact absurd hlimit (not_viable_of_phase hbefore hnone limit)
      · exact ⟨value_of_stop h hbegins hbefore hstep,
          opensLevelAbove_of_stop hbefore hdepth ht hoffends⟩
    · intro hnever
      obtain ⟨rfl, -⟩ | ⟨-, ht, level, outer, rfl, hdepth⟩ := State.step_eq_error hstep
      · exact value_of_stop h hbegins hbefore hstep
      · exact absurd ⟨_, (opensLevelAbove_of_stop hbefore hdepth ht hoffends).within⟩ hnever
    · intro cs' ts' h' hbegins'
      rw [value_of_stop h' hbegins' hbefore hstep, value_of_stop h hbegins hbefore hstep]

/-- A parenthesis is closed that was never opened; what is wrong behind it does not show. -/
theorem first_offender_decides_closing :
    let cs := "2*(1+3)) *)(".toList
    let ts := [Token.number 2, .times, .opening, .number 1, .plus, .number 3, .closing, .closing,
      .times, .closing, .opening]
    tokens cs = .ok ts ∧ value cs = .error (.token .closing) ∧
      ∃ before after, ts = before ++ .closing :: after ∧
        (∀ p, p <+: before → Viable depthLimit p) ∧
        ¬ ∃ limit, Viable limit (before ++ [.closing]) := by
  intro cs ts
  have htokens : tokens cs = .ok ts := by decide +kernel
  have hvalue : value cs = .error (.token .closing) := by decide +kernel
  have hnot : ¬ ∃ t, Derives .expression t (ts.map Token.symbol) ∧ t.nesting ≤ depthLimit := by
    rintro ⟨t, ht, hnesting⟩
    have hok := valueOfTokens_eq_ok_iff.mpr ⟨t, ht, hnesting, rfl⟩
    rw [← value_eq_valueOfTokens htokens (by simp [ts]), hvalue] at hok
    cases hok
  obtain ⟨hending, hoffender⟩ := first_offender_decides htokens (by simp [ts]) hnot
  have hsome : ¬ ∀ p, p <+: ts → Viable depthLimit p := fun hall => by
    have hend := hending hall
    rw [hvalue] at hend
    cases hend
  obtain ⟨before, t, after, hts, hviable, -, hdepth, htoken, -⟩ := hoffender hsome
  have hnever : ¬ ∃ limit, Viable limit (before ++ [t]) := fun hlimit => by
    have hdeep := (hdepth hlimit).1
    rw [hvalue] at hdeep
    cases hdeep
  have ht : t = .closing := by
    have heq := hvalue.symm.trans (htoken hnever)
    simpa using heq.symm
  exact ⟨htokens, hvalue, before, after, ht ▸ hts, hviable, ht ▸ hnever⟩

end FormulaSheet.Expression
