/-
Operands in the place of operands.

A grammar that says nothing of its operands allows any text for one that is an
operand itself, with signs before it or without. So when each operand of a text
is replaced by such a text, the derivation stays as it is up to the operands, and
goes on from there (`Derives.bind`); the tree gets trees in the place of its
operands, and has a value through theirs.

That a replacement is read as one operand in its place is a matter of tokens and
not of the grammar. What the grammar has to say about it is that no two operands
stand side by side (`Derives.isChain_separate`).
-/
import FormulaSheet.Proofs.Expression.Grammar
import Mathlib.Data.List.Chain

set_option autoImplicit false

namespace FormulaSheet.Expression

/-! ## Trees -/

namespace Tree

variable {α β : Type}

/-- The operands of an expression, from left to right. -/
def operands : Tree α → List α
  | operand x => [x]
  | group t => t.operands
  | signed _ t => t.operands
  | product _ l r => l.operands ++ r.operands
  | sum _ l r => l.operands ++ r.operands

/-- Only the values of the operands that are there matter. -/
theorem value_congr {f g : α → Float} {t : Tree α} (h : ∀ x ∈ t.operands, f x = g x) :
    t.value f = t.value g := by
  induction t with
  | operand x => exact h x (List.mem_singleton_self x)
  | group t ih => exact ih h
  | signed op t ih => rw [value_signed, value_signed, ih h]
  | product op l r ihl ihr =>
    simp only [operands, List.mem_append] at h
    rw [value_product, value_product, ihl fun x hx => h x (.inl hx),
      ihr fun x hx => h x (.inr hx)]
  | sum op l r ihl ihr =>
    simp only [operands, List.mem_append] at h
    rw [value_sum, value_sum, ihl fun x hx => h x (.inl hx), ihr fun x hx => h x (.inr hx)]

/-- Puts a tree in the place of each operand. -/
def bind (f : α → Tree β) : Tree α → Tree β
  | operand x => f x
  | group t => group (t.bind f)
  | signed op t => signed op (t.bind f)
  | product op l r => product op (l.bind f) (r.bind f)
  | sum op l r => sum op (l.bind f) (r.bind f)

theorem value_bind (f : α → Tree β) (g : β → Float) (t : Tree α) :
    (t.bind f).value g = t.value fun x => (f x).value g := by
  induction t with
  | operand x => rfl
  | group t ih => exact ih
  | signed op t ih => rw [bind, value_signed, value_signed, ih]
  | product op l r ihl ihr => rw [bind, value_product, value_product, ihl, ihr]
  | sum op l r ihl ihr => rw [bind, value_sum, value_sum, ihl, ihr]

theorem nesting_bind_le {f : α → Tree β} {n : Nat} (h : ∀ x, (f x).nesting ≤ n) (t : Tree α) :
    (t.bind f).nesting ≤ t.nesting + n := by
  induction t with
  | operand x => simpa only [bind, nesting, Nat.zero_add] using h x
  | group t ih | signed op t ih =>
    simp only [bind, nesting]
    omega
  | product op l r ihl ihr | sum op l r ihl ihr =>
    simp only [bind, nesting]
    omega

end Tree

/-! ## Derivations -/

/-- Puts symbols in the place of an operand. -/
def Symbol.expand {α β : Type} (g : α → List (Symbol β)) : Symbol α → List (Symbol β)
  | operand x => g x
  | sumOp op => [.sumOp op]
  | productOp op => [.productOp op]
  | opening => [.opening]
  | closing => [.closing]

/-- Where the text of a category belongs once its operands have been replaced: what was an operand
alone may have got signs. -/
def Category.bind {α β : Type} (f : α → Tree β) : Category α → Category β
  | expression => .expression
  | term => .term
  | unary => .unary
  | primary => .unary
  | addends l => .addends (l.bind f)
  | factors l => .factors (l.bind f)

/-- The operands that a category brings along. -/
def Category.operands {α : Type} : Category α → List α
  | addends l => l.operands
  | factors l => l.operands
  | _ => []

/-- Not both of two symbols are operands. -/
def Symbol.Separate {α : Type} : Symbol α → Symbol α → Prop
  | operand _, operand _ => False
  | _, _ => True

namespace Derives

variable {α β : Type} {c : Category α} {l t : Tree α} {ts : List (Symbol α)}

/-- **Replacing operands.** When operands under their signs are put in the place of operands, what
was derivable stays derivable, by the tree with their trees in the same places. -/
theorem bind {f : α → Tree β} {g : α → List (Symbol β)} (h : ∀ x, Derives .unary (f x) (g x))
    (ht : Derives c t ts) : Derives (c.bind f) (t.bind f) (ts.flatMap (Symbol.expand g)) := by
  induction ht with
  | expression _ _ ihterm ihmore =>
    rw [List.flatMap_append]
    exact .expression ihterm ihmore
  | noAddend => exact .noAddend
  | @addend op _ _ _ _ _ _ _ ihterm ihmore =>
    have hop : Symbol.expand g (.sumOp op) = [.sumOp op] := rfl
    rw [List.flatMap_cons, List.flatMap_append, hop, List.singleton_append]
    exact .addend ihterm ihmore
  | term _ _ ihunary ihmore =>
    rw [List.flatMap_append]
    exact .term ihunary ihmore
  | noFactor => exact .noFactor
  | @factor op _ _ _ _ _ _ _ ihunary ihmore =>
    have hop : Symbol.expand g (.productOp op) = [.productOp op] := rfl
    rw [List.flatMap_cons, List.flatMap_append, hop, List.singleton_append]
    exact .factor ihunary ihmore
  | sign _ ih => exact .sign ih
  | plain _ ih => exact ih
  -- from here on up, what was a primary is an operand under signs that may have come along
  | @operand x =>
    rw [List.flatMap_singleton]
    exact h x
  | group _ ih =>
    rw [List.flatMap_cons, List.flatMap_append, List.flatMap_singleton]
    exact .plain (.group ih)

/-- The operands of a tree are those of its text and of what stood before it. -/
theorem mem_of_mem_operands {x : α} (h : Derives c t ts) (hx : x ∈ t.operands) :
    x ∈ c.operands ∨ .operand x ∈ ts := by
  induction h with
  | expression _ _ ihfirst ihmore | term _ _ ihfirst ihmore =>
    refine .inr (List.mem_append.mpr ?_)
    obtain hfirst | hmore := ihmore hx
    · exact .inl ((ihfirst hfirst).resolve_left List.not_mem_nil)
    · exact .inr hmore
  | noAddend | noFactor => exact .inl hx
  | addend _ _ ihround ihmore | factor _ _ ihround ihmore =>
    obtain hsofar | hmore := ihmore hx
    · -- the tree so far is the one before it and the operand of this round
      obtain hbefore | hround := List.mem_append.mp hsofar
      · exact .inl hbefore
      · have := (ihround hround).resolve_left List.not_mem_nil
        exact .inr (List.mem_cons_of_mem _ (List.mem_append_left _ this))
    · exact .inr (List.mem_cons_of_mem _ (List.mem_append_right _ hmore))
  | sign _ ih => exact .inr (List.mem_cons_of_mem _ ((ih hx).resolve_left List.not_mem_nil))
  | plain _ ih => exact ih hx
  | operand =>
    obtain rfl := List.mem_singleton.mp hx
    exact .inr (List.mem_singleton_self _)
  | group _ ih =>
    have := (ih hx).resolve_left List.not_mem_nil
    exact .inr (List.mem_cons_of_mem _ (List.mem_append_left _ this))

/-! ## No two operands side by side -/

theorem separate_sumOp (s : Symbol α) (op : SumOp) : s.Separate (.sumOp op) := by
  cases s <;> trivial

theorem separate_productOp (s : Symbol α) (op : ProductOp) : s.Separate (.productOp op) := by
  cases s <;> trivial

theorem separate_closing (s : Symbol α) : s.Separate .closing := by
  cases s <;> trivial

/-- What an iteration begins with is no operand. -/
theorem separate_head_addends (h : Derives (.addends l) t ts) (s : Symbol α) :
    ∀ r ∈ ts.head?, s.Separate r := by
  cases h with
  | noAddend => nofun
  | addend =>
    rintro _ ⟨⟩
    exact separate_sumOp s _

theorem separate_head_factors (h : Derives (.factors l) t ts) (s : Symbol α) :
    ∀ r ∈ ts.head?, s.Separate r := by
  cases h with
  | noFactor => nofun
  | factor =>
    rintro _ ⟨⟩
    exact separate_productOp s _

/-- **Operands stand apart.** No two operands stand side by side in a text that is derivable. -/
theorem isChain_separate (h : Derives c t ts) : ts.IsChain Symbol.Separate := by
  induction h with
  | expression _ hmore ihterm ihmore =>
    exact ihterm.append ihmore fun s _ => hmore.separate_head_addends s
  | term _ hmore ihunary ihmore =>
    exact ihunary.append ihmore fun s _ => hmore.separate_head_factors s
  | noAddend | noFactor => exact .nil
  | addend _ hmore ihterm ihmore =>
    exact (ihterm.append ihmore fun s _ => hmore.separate_head_addends s).cons fun _ _ => trivial
  | factor _ hmore ihunary ihmore =>
    exact (ihunary.append ihmore fun s _ => hmore.separate_head_factors s).cons fun _ _ => trivial
  | sign _ ih => exact ih.cons fun _ _ => trivial
  | plain _ ih => exact ih
  | operand => exact .singleton _
  | group _ ih =>
    refine (ih.append (.singleton _) ?_).cons fun _ _ => trivial
    rintro s _ _ ⟨⟩
    exact separate_closing s

end Derives

end FormulaSheet.Expression
