/-
The grammar of arithmetic, and the trees it derives.

The reader of expressions never builds a tree. Here the grammar is written down
as it is documented, with its two iterations, and each derivation leaves a tree
that tells everything about it:

    expression → term ((+ | -) term)*
    term       → unary ((* | /) unary)*
    unary      → (+ | -) unary | primary
    primary    → OPERAND | ( expression )

An iteration is a category of its own that knows the tree so far. So trees grow
to the left as the text goes on, and that equal precedence groups to the left is
part of the grammar and not of the way a value is computed.

What an operand is stays open: a number, or also a reference. The value of a tree
is given by the four operations on floats and the change of sign, and not by what
the reader does with an operator. A text has one tree at most (`Derives.unique`),
because after an iteration no operator can follow that would have continued it.
-/
import FormulaSheet.Expression.Reader

set_option autoImplicit false

namespace FormulaSheet.Expression

/-! ## Symbols and trees -/

/-- A symbol of an expression. -/
inductive Symbol (α : Type) where
  | operand (x : α)
  | sumOp (op : SumOp)
  | productOp (op : ProductOp)
  | opening
  | closing
deriving DecidableEq

/-- How an expression is put together. -/
inductive Tree (α : Type) where
  | operand (x : α)
  | group (t : Tree α)
  | signed (op : SumOp) (t : Tree α)
  | product (op : ProductOp) (l r : Tree α)
  | sum (op : SumOp) (l r : Tree α)
deriving DecidableEq

namespace Tree

variable {α β : Type}

/-- The largest number of parentheses and signs that an operand lies under. -/
def nesting : Tree α → Nat
  | operand _ => 0
  | group t => t.nesting + 1
  | signed _ t => t.nesting + 1
  | product _ l r => max l.nesting r.nesting
  | sum _ l r => max l.nesting r.nesting

/-- The value of an expression in the arithmetic of floats, given the values of its operands. -/
def value (f : α → Float) : Tree α → Float
  | operand x => f x
  | group t => t.value f
  | signed .add t => t.value f
  | signed .sub t => -t.value f
  | product .mul l r => l.value f * r.value f
  | product .div l r => l.value f / r.value f
  | sum .add l r => l.value f + r.value f
  | sum .sub l r => l.value f - r.value f

/-! The reader works with an operator where a tree has one of two forms. What it works out is what
the tree says. -/

theorem value_signed (f : α → Float) (op : SumOp) (t : Tree α) :
    (signed op t).value f = op.sign (t.value f) := by
  cases op <;> rfl

theorem value_product (f : α → Float) (op : ProductOp) (l r : Tree α) :
    (product op l r).value f = op.apply (l.value f) (r.value f) := by
  cases op <;> rfl

theorem value_sum (f : α → Float) (op : SumOp) (l r : Tree α) :
    (sum op l r).value f = op.apply (l.value f) (r.value f) := by
  cases op <;> rfl

end Tree

/-! ## The grammar -/

/-- The categories of the grammar. The last two are its iterations, with the tree of what stands
before them. -/
inductive Category (α : Type) where
  | expression
  | term
  | unary
  | primary
  | addends (l : Tree α)
  | factors (l : Tree α)

/-- A list of symbols is derivable in a category, and makes a tree. -/
inductive Derives {α : Type} : Category α → Tree α → List (Symbol α) → Prop
  | expression {l t : Tree α} {ts us : List (Symbol α)} (hterm : Derives .term l ts)
      (hrest : Derives (.addends l) t us) : Derives .expression t (ts ++ us)
  | noAddend {t : Tree α} : Derives (.addends t) t []
  | addend {op : SumOp} {l r t : Tree α} {ts us : List (Symbol α)} (hterm : Derives .term r ts)
      (hrest : Derives (.addends (.sum op l r)) t us) :
      Derives (.addends l) t (.sumOp op :: (ts ++ us))
  | term {l t : Tree α} {ts us : List (Symbol α)} (hunary : Derives .unary l ts)
      (hrest : Derives (.factors l) t us) : Derives .term t (ts ++ us)
  | noFactor {t : Tree α} : Derives (.factors t) t []
  | factor {op : ProductOp} {l r t : Tree α} {ts us : List (Symbol α)}
      (hunary : Derives .unary r ts) (hrest : Derives (.factors (.product op l r)) t us) :
      Derives (.factors l) t (.productOp op :: (ts ++ us))
  | sign {op : SumOp} {t : Tree α} {ts : List (Symbol α)} (h : Derives .unary t ts) :
      Derives .unary (.signed op t) (.sumOp op :: ts)
  | plain {t : Tree α} {ts : List (Symbol α)} (h : Derives .primary t ts) : Derives .unary t ts
  | operand {x : α} : Derives .primary (.operand x) [.operand x]
  | group {t : Tree α} {ts : List (Symbol α)} (h : Derives .expression t ts) :
      Derives .primary (.group t) (.opening :: (ts ++ [.closing]))

namespace Derives

variable {α β : Type} {c : Category α} {l r t u : Tree α} {ts us : List (Symbol α)}

/-! ## Iterations go on at their end -/

theorem snoc_factor {op : ProductOp} (h : Derives (.factors l) t ts) (hr : Derives .unary r us) :
    Derives (.factors l) (.product op t r) (ts ++ .productOp op :: us) := by
  generalize hc : Category.factors l = c at h
  induction h generalizing l with
  | noFactor =>
    obtain rfl := Category.factors.inj hc
    simpa using Derives.factor hr .noFactor
  | factor hunary _ _ ih =>
    obtain rfl := Category.factors.inj hc
    simpa using Derives.factor hunary (ih rfl)
  | _ => cases hc

theorem snoc_addend {op : SumOp} (h : Derives (.addends l) t ts) (hr : Derives .term r us) :
    Derives (.addends l) (.sum op t r) (ts ++ .sumOp op :: us) := by
  generalize hc : Category.addends l = c at h
  induction h generalizing l with
  | noAddend =>
    obtain rfl := Category.addends.inj hc
    simpa using Derives.addend hr .noAddend
  | addend hterm _ _ ih =>
    obtain rfl := Category.addends.inj hc
    simpa using Derives.addend hterm (ih rfl)
  | _ => cases hc

/-- A term, an operator and one more operand under its signs make a term. -/
theorem product {op : ProductOp} (h : Derives .term t ts) (hr : Derives .unary r us) :
    Derives .term (.product op t r) (ts ++ .productOp op :: us) := by
  cases h with
  | term hunary hrest =>
    rw [List.append_assoc]
    exact .term hunary (hrest.snoc_factor hr)

/-- An expression, an operator and one more term make an expression. -/
theorem sum {op : SumOp} (h : Derives .expression t ts) (hr : Derives .term r us) :
    Derives .expression (.sum op t r) (ts ++ .sumOp op :: us) := by
  cases h with
  | expression hterm hrest =>
    rw [List.append_assoc]
    exact .expression hterm (hrest.snoc_addend hr)

theorem term_of_unary (h : Derives .unary t ts) : Derives .term t ts := by
  simpa using Derives.term h .noFactor

theorem expression_of_term (h : Derives .term t ts) : Derives .expression t ts := by
  simpa using Derives.expression h .noAddend

/-- An iteration only adds to its tree. -/
theorem nesting_le_of_factors (h : Derives (.factors l) t ts) : l.nesting ≤ t.nesting := by
  generalize hc : Category.factors l = c at h
  induction h generalizing l with
  | noFactor =>
    obtain rfl := Category.factors.inj hc
    exact Nat.le_refl _
  | factor _ _ _ ih =>
    obtain rfl := Category.factors.inj hc
    exact Nat.le_trans (Nat.le_max_left _ _) (ih rfl)
  | _ => cases hc

theorem nesting_le_of_addends (h : Derives (.addends l) t ts) : l.nesting ≤ t.nesting := by
  generalize hc : Category.addends l = c at h
  induction h generalizing l with
  | noAddend =>
    obtain rfl := Category.addends.inj hc
    exact Nat.le_refl _
  | addend _ _ _ ih =>
    obtain rfl := Category.addends.inj hc
    exact Nat.le_trans (Nat.le_max_left _ _) (ih rfl)
  | _ => cases hc

end Derives

/-! ## One tree at most -/

/-- A text does not go on with a factor. -/
def EndsTerm {α : Type} (us : List (Symbol α)) : Prop :=
  ∀ op rest, us ≠ .productOp op :: rest

/-- A text goes on neither with a factor nor with an addend. -/
def EndsExpression {α : Type} (us : List (Symbol α)) : Prop :=
  EndsTerm us ∧ ∀ op rest, us ≠ .sumOp op :: rest

/-- A text does not go on with an iteration of the category. -/
def Category.Ends {α : Type} : Category α → List (Symbol α) → Prop
  | expression, us => EndsExpression us
  | addends _, us => EndsExpression us
  | term, us => EndsTerm us
  | factors _, us => EndsTerm us
  | unary, _ => True
  | primary, _ => True

namespace Derives

variable {α : Type} {c : Category α} {l t u : Tree α} {ts us rest rest' : List (Symbol α)}

/-- Where a sum ends, its last product ends. -/
theorem endsTerm_of_addends (h : Derives (.addends l) t ts) (hrest : EndsExpression rest) :
    EndsTerm (ts ++ rest) := by
  cases h with
  | noAddend => exact hrest.1
  | addend => nofun

/-- A derivation in the category of operands begins with an operand or a parenthesis. -/
theorem head_primary (h : Derives .primary t ts) :
    (∃ x us, ts = .operand x :: us) ∨ ∃ us, ts = .opening :: us := by
  cases h with
  | operand => exact .inl ⟨_, _, rfl⟩
  | group => exact .inr ⟨_, rfl⟩

/-- Derivations in one category that begin at one place are the same, if neither could go on. -/
theorem unique_append (ht : Derives c t ts) (hu : Derives c u us) (heq : ts ++ rest = us ++ rest')
    (hrest : c.Ends rest) (hrest' : c.Ends rest') : t = u ∧ ts = us := by
  -- along the first derivation; where the second one goes on differently, their heads differ
  induction ht generalizing u us rest rest' with
  | expression _ hmore ihterm ihmore =>
    cases hu with
    | expression hterm' hmore' =>
      rw [List.append_assoc, List.append_assoc] at heq
      obtain ⟨rfl, rfl⟩ := ihterm hterm' heq (hmore.endsTerm_of_addends hrest)
        (hmore'.endsTerm_of_addends hrest')
      obtain ⟨rfl, rfl⟩ := ihmore hmore' (List.append_cancel_left heq) hrest hrest'
      exact ⟨rfl, rfl⟩
  | noAddend =>
    cases hu with
    -- where one iteration ends the other cannot go on, for no operator of its kind follows
    | noAddend => exact ⟨rfl, rfl⟩
    | addend => exact absurd heq (hrest.2 _ _)
  | addend _ hmore ihterm ihmore =>
    cases hu with
    | noAddend => exact absurd heq.symm (hrest'.2 _ _)
    | addend hterm' hmore' =>
      simp only [List.cons_append, List.append_assoc, List.cons.injEq, Symbol.sumOp.injEq] at heq
      obtain ⟨rfl, heq⟩ := heq
      obtain ⟨rfl, rfl⟩ := ihterm hterm' heq (hmore.endsTerm_of_addends hrest)
        (hmore'.endsTerm_of_addends hrest')
      obtain ⟨rfl, rfl⟩ := ihmore hmore' (List.append_cancel_left heq) hrest hrest'
      exact ⟨rfl, rfl⟩
  | term _ _ ihunary ihmore =>
    cases hu with
    | term hunary' hmore' =>
      rw [List.append_assoc, List.append_assoc] at heq
      obtain ⟨rfl, rfl⟩ := ihunary hunary' heq trivial trivial
      obtain ⟨rfl, rfl⟩ := ihmore hmore' (List.append_cancel_left heq) hrest hrest'
      exact ⟨rfl, rfl⟩
  | noFactor =>
    cases hu with
    | noFactor => exact ⟨rfl, rfl⟩
    | factor => exact absurd heq (hrest _ _)
  | factor _ _ ihunary ihmore =>
    cases hu with
    | noFactor => exact absurd heq.symm (hrest' _ _)
    | factor hunary' hmore' =>
      simp only [List.cons_append, List.append_assoc, List.cons.injEq,
        Symbol.productOp.injEq] at heq
      obtain ⟨rfl, heq⟩ := heq
      obtain ⟨rfl, rfl⟩ := ihunary hunary' heq trivial trivial
      obtain ⟨rfl, rfl⟩ := ihmore hmore' (List.append_cancel_left heq) hrest hrest'
      exact ⟨rfl, rfl⟩
  | sign _ ih =>
    cases hu with
    | sign h' =>
      simp only [List.cons_append, List.cons.injEq, Symbol.sumOp.injEq] at heq
      obtain ⟨rfl, heq⟩ := heq
      obtain ⟨rfl, rfl⟩ := ih h' heq trivial trivial
      exact ⟨rfl, rfl⟩
    -- what has no sign before it does not begin with one
    | plain h' =>
      obtain ⟨x, us, rfl⟩ | ⟨us, rfl⟩ := h'.head_primary
      · cases heq
      · cases heq
  | plain h ih =>
    cases hu with
    | sign =>
      obtain ⟨x, us, rfl⟩ | ⟨us, rfl⟩ := h.head_primary
      · cases heq
      · cases heq
    | plain h' => exact ih h' heq trivial trivial
  | operand =>
    cases hu with
    | operand =>
      simp only [List.cons_append, List.cons.injEq, Symbol.operand.injEq] at heq
      obtain ⟨rfl, -⟩ := heq
      exact ⟨rfl, rfl⟩
    | group => cases heq
  | group _ ih =>
    cases hu with
    | operand => cases heq
    | group h' =>
      simp only [List.cons_append, List.append_assoc, List.cons.injEq, true_and] at heq
      -- inside, the closing parenthesis ends every iteration
      obtain ⟨rfl, rfl⟩ := ih h' heq ⟨nofun, nofun⟩ ⟨nofun, nofun⟩
      exact ⟨rfl, rfl⟩

/-- **The grammar is unambiguous.** A text is derived as one tree at most. -/
theorem unique (ht : Derives .expression t ts) (hu : Derives .expression u ts) : t = u :=
  (ht.unique_append hu (show ts ++ [] = ts ++ [] from rfl) ⟨nofun, nofun⟩ ⟨nofun, nofun⟩).1

end Derives

end FormulaSheet.Expression
