/-
The outline of an expression.

Of a text that has been read so far two things decide what can come next: whether
an operand or an operator is due, and how many parentheses are open. So a machine
that remembers nothing else accepts what the grammar derives
(`exists_derives_iff`). It knows no values and no limit of depth, and it does not
ask what an operand is.

One direction follows the derivation: the text of a category leads from what is
due before it to an operator, with as many parentheses open as before. The other
one says what may follow each part of the text. Behind an operator of a sum stands
a term, behind one of a product an operand under its signs, and a part of the text
is kept as what makes an expression of the one and a term of the other
(`Precedes`). So no tree has to be carried along but the one of the last term.
-/
import FormulaSheet.Proofs.Expression.Grammar

set_option autoImplicit false

namespace FormulaSheet.Expression

/-! ## The machine -/

/-- What is due behind a part of a text, and how many parentheses are open there. -/
inductive Phase where
  | operand (opened : Nat)
  | operator (opened : Nat)
deriving DecidableEq

namespace Phase

variable {α : Type}

/-- Nothing has been read. -/
def initial : Phase := operand 0

/-- The phase behind one more symbol, if the symbol can stand there. -/
def step : Phase → Symbol α → Option Phase
  | operand n, .operand _ => some (operator n)
  | operand n, .sumOp _ => some (operand n)
  | operand n, .opening => some (operand (n + 1))
  | operator n, .sumOp _ => some (operand n)
  | operator n, .productOp _ => some (operand n)
  | operator (n + 1), .closing => some (operator n)
  | _, _ => none

/-- The phase behind a text. -/
def run (p : Phase) : List (Symbol α) → Option Phase
  | [] => some p
  | s :: ss => (p.step s).bind fun q => q.run ss

variable {p q : Phase} {s : Symbol α} {ss us : List (Symbol α)}

theorem run_of_step (h : p.step s = some q) (ss : List (Symbol α)) :
    p.run (s :: ss) = q.run ss := by
  rw [run, h, Option.bind_some]

theorem run_append (p : Phase) (ss us : List (Symbol α)) :
    p.run (ss ++ us) = (p.run ss).bind fun q => q.run us := by
  induction ss generalizing p with
  | nil => rfl
  | cons s ss ih =>
    rw [List.cons_append, run, run]
    cases p.step s with
    | none => rfl
    | some q => exact ih q

theorem run_append_of_run (h : p.run ss = some q) (us : List (Symbol α)) :
    p.run (ss ++ us) = q.run us := by
  rw [run_append, h, Option.bind_some]

end Phase

variable {α : Type} {c d : Category α} {t : Tree α} {ts ss ps os : List (Symbol α)} {n : Nat}

/-! ## What is derivable is accepted -/

/-- The phase in which the text of a category begins. -/
def Category.phase : Category α → Nat → Phase
  | expression, n | term, n | unary, n | primary, n => .operand n
  | addends _, n | factors _, n => .operator n

/-- The text of a category leads to an operator. -/
theorem Phase.run_of_derives (h : Derives c t ts) (n : Nat) :
    (c.phase n).run ts = some (.operator n) := by
  induction h generalizing n with
  | expression _ _ ihfirst ihmore | term _ _ ihfirst ihmore =>
    exact (run_append_of_run (ihfirst n) _).trans (ihmore n)
  | noAddend | noFactor | operand => rfl
  | addend _ _ ihround ihmore | factor _ _ ihround ihmore =>
    have hround := (run_append_of_run (ihround n) _).trans (ihmore n)
    exact (run_of_step (q := .operand n) rfl _).trans hround
  | sign _ ih => exact (run_of_step (q := .operand n) rfl _).trans (ih n)
  | plain _ ih => exact ih n
  | group _ ih =>
    -- inside, one more parenthesis is open
    have hclosed := (run_append_of_run (ih (n + 1)) [.closing]).trans (run_of_step rfl _)
    exact (run_of_step (q := .operand (n + 1)) rfl _).trans hclosed

/-! ## What is accepted is derivable -/

/-- Before a text of one category this makes one of another category. -/
def Precedes (c d : Category α) (ps : List (Symbol α)) : Prop :=
  ∀ ⦃t ts⦄, Derives c t ts → ∃ u, Derives d u (ps ++ ts)

theorem precedes_nil_term : Precedes (α := α) .unary .term [] :=
  fun _ _ h => ⟨_, h.term_of_unary⟩

theorem precedes_nil_expression : Precedes (α := α) .term .expression [] :=
  fun _ _ h => ⟨_, h.expression_of_term⟩

/-- An operand may have one more sign before it. -/
theorem Precedes.sign (h : Precedes .unary .term ps) (op : SumOp) :
    Precedes .unary .term (ps ++ [.sumOp op]) := by
  intro t ts ht
  have hsigned : Derives .unary (.signed op t) (.sumOp op :: ts) := .sign ht
  obtain ⟨u, hu⟩ := h hsigned
  exact ⟨u, by simpa using hu⟩

theorem Derives.precedes_of_term (h : Derives .term t ts) (op : ProductOp) :
    Precedes .unary .term (ts ++ [.productOp op]) := by
  intro u us hu
  have hproduct : Derives .term (.product op t u) (ts ++ .productOp op :: us) := h.product hu
  exact ⟨_, by simpa using hproduct⟩

theorem Derives.precedes_of_expression (h : Derives .expression t ts) (op : SumOp) :
    Precedes .term .expression (ts ++ [.sumOp op]) := by
  intro u us hu
  have hsum : Derives .expression (.sum op t u) (ts ++ .sumOp op :: us) := h.sum hu
  exact ⟨_, by simpa using hsum⟩

/-- The text before the innermost parenthesis that is open, and of this parenthesis. -/
inductive Opened : Nat → List (Symbol α) → Prop
  | none : Opened 0 []
  | more {n : Nat} {os ss ps : List (Symbol α)} (houter : Opened n os)
      (hsum : Precedes .term .expression ss) (hproduct : Precedes .unary .term ps) :
      Opened (n + 1) (os ++ (ss ++ (ps ++ [.opening])))

/-- A text can stand before what is due in a phase. Inside the parentheses that are open it is a sum
so far and, behind its last operator, a product so far or a term. -/
inductive Phase.Behind : Phase → List (Symbol α) → Prop
  | operand {n : Nat} {os ss ps : List (Symbol α)} (houter : Opened n os)
      (hsum : Precedes .term .expression ss) (hproduct : Precedes .unary .term ps) :
      Behind (.operand n) (os ++ (ss ++ ps))
  | operator {n : Nat} {os ss ts : List (Symbol α)} {t : Tree α} (houter : Opened n os)
      (hsum : Precedes .term .expression ss) (hterm : Derives .term t ts) :
      Behind (.operator n) (os ++ (ss ++ ts))

namespace Phase

variable {p q : Phase} {s : Symbol α} {read us : List (Symbol α)}

/-- An operand or a group is the last factor of its term. -/
theorem behind_primary (houter : Opened n os) (hsum : Precedes .term .expression ss)
    (hproduct : Precedes .unary .term ps) (ht : Derives .primary t ts) :
    Behind (operator n) (os ++ (ss ++ (ps ++ ts))) := by
  obtain ⟨u, hu⟩ := hproduct (.plain ht)
  exact .operator houter hsum hu

/-- **One step.** A symbol that can stand there leaves a text that can stand before what is due
next. -/
theorem Behind.step (h : Behind p read) (hstep : p.step s = some q) : Behind q (read ++ [s]) := by
  cases h with
  | operand houter hsum hproduct =>
    cases s with
    | operand x =>
      obtain rfl := Option.some.inj hstep
      simpa using behind_primary houter hsum hproduct .operand
    | sumOp op =>
      obtain rfl := Option.some.inj hstep
      simpa using Behind.operand houter hsum (hproduct.sign op)
    | opening =>
      obtain rfl := Option.some.inj hstep
      simpa using Behind.operand (.more houter hsum hproduct) precedes_nil_expression
        precedes_nil_term
    | productOp | closing => cases hstep
  | @operator n _ _ _ _ houter hsum hterm =>
    -- whichever operator follows, what has been read inside the parentheses is an expression
    obtain ⟨e, he⟩ := hsum hterm
    cases s with
    | sumOp op =>
      obtain rfl := Option.some.inj hstep
      simpa using Behind.operand houter (he.precedes_of_expression op) precedes_nil_term
    | productOp op =>
      obtain rfl := Option.some.inj hstep
      simpa using Behind.operand houter hsum (hterm.precedes_of_term op)
    | closing =>
      cases houter with
      | none => cases hstep
      | more houter hsum hproduct =>
        obtain rfl := Option.some.inj hstep
        simpa using behind_primary houter hsum hproduct (.group he)
    | operand | opening => cases n <;> cases hstep

/-- **A whole run.** -/
theorem Behind.run (h : Behind p read) (hrun : p.run us = some q) : Behind q (read ++ us) := by
  induction us generalizing p read with
  | nil =>
    obtain rfl := Option.some.inj hrun
    simpa using h
  | cons s us ih =>
    obtain ⟨next, hstep, hnext⟩ := Option.bind_eq_some_iff.mp hrun
    simpa using ih (h.step hstep) hnext

theorem behind_initial : Behind initial ([] : List (Symbol α)) :=
  .operand .none precedes_nil_expression precedes_nil_term

end Phase

/-! ## Both directions -/

/-- **The outline decides.** A text is derivable exactly when it leads to an operator with no
parenthesis open. -/
theorem exists_derives_iff :
    (∃ t, Derives .expression t ss) ↔ Phase.initial.run ss = some (.operator 0) := by
  constructor
  · rintro ⟨t, ht⟩
    exact Phase.run_of_derives ht 0
  · intro hrun
    have hbehind := Phase.behind_initial.run hrun
    generalize hread : [] ++ ss = read at hbehind
    cases hbehind with
    | operator houter hsum hterm =>
      cases houter with
      | none =>
        rw [List.nil_append] at hread
        rw [hread]
        exact hsum hterm

/-- Whatever can be gone on with to something derivable leads somewhere. -/
theorem Phase.isSome_run_of_derives_append {us : List (Symbol α)}
    (h : Derives .expression t (ss ++ us)) : (initial.run ss).isSome = true := by
  have hrun := exists_derives_iff.mp ⟨t, h⟩
  rw [run_append] at hrun
  obtain ⟨q, hq, -⟩ := Option.bind_eq_some_iff.mp hrun
  exact Option.isSome_of_eq_some hq

end FormulaSheet.Expression
