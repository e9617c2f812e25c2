/-
What one pass over the sheet remembers.

Two things are kept while values are worked out. The memo holds the values that
are known. The path holds the cells whose formulas have been begun and not
finished; to meet one of them again is to have gone round in a circle.

A cell is settled when its value can be told without any more work: it is in the
memo, or on the path, or it holds a literal, or nothing. Only a formula that is
in neither is pending. The operations here are the ones that do not walk: to
look at a settled cell, to note a literal, and to consult the cells a formula
reads, one after another, with a given way to settle each.
-/
import FormulaSheet.Formula.Value
import Std.Data.ExtTreeSet

set_option autoImplicit false

namespace FormulaSheet

/-- The values known so far. -/
abbrev Memo := Std.ExtTreeMap Address Value

/-- The cells that are being worked out. -/
abbrev Path := Std.ExtTreeSet Address

/-- What is remembered in the course of a pass. -/
structure Pass where
  memo : Memo
  path : Path

namespace Pass

/-- The beginning of a pass: nothing is known and nothing is being worked out. -/
def initial : Pass := ⟨∅, ∅⟩

/-- The formula that has to be worked out before the value of a cell is known. -/
def pending? (s : Store) (p : Pass) (a : Address) : Option Formula :=
  if p.memo.contains a || p.path.contains a then none else (s.get? a).bind Formula.ofRaw?

/-- The value of a settled cell: what the memo says, a circle for a cell on the path, and otherwise
the text that the cell holds. -/
def look (s : Store) (p : Pass) (a : Address) : Value :=
  match p.memo[a]? with
  | some v => v
  | none =>
    if p.path.contains a then .error .circular
    else match s.get? a with
      | some raw => .text raw
      | none => .empty

/-- Begins to work out a cell. -/
def enter (p : Pass) (a : Address) : Pass :=
  { p with path := p.path.insert a }

/-- Finishes a cell with its value. -/
def leave (p : Pass) (a : Address) (v : Value) : Pass :=
  { memo := p.memo.insert a v, path := p.path.erase a }

/-- Puts a cell into the memo if it holds a literal and is not known yet. -/
def noteLiteral (s : Store) (p : Pass) (a : Address) : Pass :=
  if p.memo.contains a || p.path.contains a then p
  else match s.get? a with
    | none => p
    | some raw =>
      if (Formula.ofRaw? raw).isSome then p else { p with memo := p.memo.insert a (.text raw) }

/-- Settles cells in order. With `untilCircular` the first circular one is the last. -/
def consult (s : Store) (settle : Pass → Address → Pass) (untilCircular : Bool) :
    List Address → Pass → Pass
  | [], p => p
  | a :: rest, p =>
    let next := settle p a
    -- a sum is circular as soon as one cell is, so it need not settle the others
    if untilCircular && (next.look s a).isCircular then next
    else consult s settle untilCircular rest next

/-! ## What noting and consulting keep -/

/-- To note a literal either changes nothing, or puts it into the memo for a cell that was neither
there nor on the path. -/
theorem noteLiteral_cases (s : Store) (p : Pass) (a : Address) :
    p.noteLiteral s a = p ∨ ∃ raw, s.get? a = some raw ∧ Formula.ofRaw? raw = none ∧
      p.memo[a]? = none ∧ p.path.contains a = false ∧
      p.noteLiteral s a = { p with memo := p.memo.insert a (.text raw) } := by
  unfold noteLiteral
  split
  · exact .inl rfl
  · next hknown =>
    rw [Bool.or_eq_true, not_or, Bool.not_eq_true, Bool.not_eq_true] at hknown
    cases hcell : s.get? a with
    | none => exact .inl rfl
    | some raw =>
      cases hformula : Formula.ofRaw? raw with
      | some f => exact .inl (by simp [hformula])
      | none =>
        have hmemo : p.memo[a]? = none := by
          rw [← Option.not_isSome_iff_eq_none, ← Std.ExtTreeMap.contains_eq_isSome_getElem?,
            hknown.1]
          exact Bool.false_ne_true
        exact .inr ⟨raw, rfl, hformula, hmemo, hknown.2, by simp [hformula]⟩

theorem path_noteLiteral (s : Store) (p : Pass) (a : Address) :
    (p.noteLiteral s a).path = p.path := by
  rcases noteLiteral_cases s p a with hsame | ⟨raw, -, -, -, -, hnoted⟩
  · rw [hsame]
  · rw [hnoted]

theorem memo_noteLiteral (s : Store) (p : Pass) (a : Address) {b : Address}
    (h : p.memo.contains b = true) : (p.noteLiteral s a).memo.contains b = true := by
  rcases noteLiteral_cases s p a with hsame | ⟨raw, -, -, -, -, hnoted⟩
  · rw [hsame]
    exact h
  · rw [hnoted, Std.ExtTreeMap.contains_insert, h, Bool.or_true]

/-- Whatever is kept in settling each of the cells is kept in consulting them. -/
theorem consult_induction_mem {s : Store} {settle : Pass → Address → Pass} {u : Bool}
    {motive : Pass → Prop} {cells : List Address}
    (hstep : ∀ p, ∀ a ∈ cells, motive p → motive (settle p a)) (p : Pass) (h : motive p) :
    motive (p.consult s settle u cells) := by
  induction cells generalizing p with
  | nil => exact h
  | cons a rest ih =>
    have hnext : motive (settle p a) := hstep p a List.mem_cons_self h
    simp only [consult]
    split
    · exact hnext
    · exact ih (fun p b hb => hstep p b (List.mem_cons_of_mem a hb)) _ hnext

/-- Whatever each settling keeps, consulting keeps. -/
theorem consult_induction {s : Store} {settle : Pass → Address → Pass} {u : Bool}
    {motive : Pass → Prop} (hstep : ∀ p a, motive p → motive (settle p a)) (cells : List Address)
    (p : Pass) (h : motive p) : motive (p.consult s settle u cells) :=
  consult_induction_mem (fun p a _ => hstep p a) p h

end Pass

/-- Whether a formula stops reading at the first circular cell. -/
def Formula.stopsAtCircular : Formula → Bool
  | .sum _ => true
  | .arithmetic _ => false

end FormulaSheet
