/-
The value of a formula, given the values of the cells it reads.

A formula reads the cells of its range that hold something, or the cells its
references denote, in the order in which they stand. If one of them is circular,
so is the formula, whatever else is wrong with it. Otherwise a sum adds the
numbers of its cells from zero on, row by row, and skips cells without one; and
arithmetic has every reference replaced by the shown text of its number, or by
zero, and goes to the reader of expressions.

How the values of the read cells come about is not known here: they are given as
a function. That the walk through the store gives each formula the right ones is
a matter of `Evaluation`.
-/
import FormulaSheet.Expression.Reader
import FormulaSheet.Formula.Basic
import FormulaSheet.Store
import FormulaSheet.Value

set_option autoImplicit false

namespace FormulaSheet

/-- The cells of a range that hold something, row by row. Whichever of the range and the store is
smaller gets searched. -/
def Store.members (s : Store) (r : Range) : List Address :=
  if r.size ≤ s.size then r.addresses.filter s.contains else s.addresses.filter r.contains

namespace Formula

/-- The cells that a formula reads, in order. -/
def reads (s : Store) : Formula → List Address
  | sum none => []
  | sum (some r) => s.members r
  | arithmetic pieces => pieces.filterMap fun
    | .reference target => target
    | .char _ => none

/-! ## Sums -/

/-- Adds numbers from left to right, starting from zero. -/
def total (xs : List Float) : Float :=
  xs.foldl (· + ·) 0

/-! ## Arithmetic -/

/-- What stands in the place of a piece when the expression is worked out. -/
def substitute (look : Address → Value) : Piece → List Char
  | .reference (some a) => (look a).operand
  | .reference none => ['0']
  | .char c => [c]

def isArithmetic (c : Char) : Bool :=
  c.isDigit || "+-*/().".toList.contains c || Text.isBlank c

/-- The value of a text that should be an expression. -/
def arithmeticValue (cs : List Char) : Value :=
  if cs.isEmpty || !cs.all isArithmetic then .error .name
  else match Expression.value cs with
    | .ok x => if x.isFinite then .number x else .error .failed
    | .error _ => .error .failed

/-! ## Both forms -/

/-- The value of a formula when the cells it reads have the values that `look` gives. -/
def value (s : Store) (look : Address → Value) (f : Formula) : Value :=
  let values := (f.reads s).map look
  if values.any Value.isCircular then .error .circular
  else match f with
    | sum _ => .number (total (values.filterMap Value.number?))
    | arithmetic pieces => arithmeticValue (pieces.flatMap (substitute look))

/-! ## A formula is circular through its cells alone -/

theorem isCircular_arithmeticValue (cs : List Char) : (arithmeticValue cs).isCircular = false := by
  unfold arithmeticValue
  split
  · rfl
  · split
    · split <;> rfl
    · rfl

/-- Neither a sum nor an expression makes a circle: only a cell that is read brings one in. -/
theorem isCircular_value (s : Store) (look : Address → Value) (f : Formula) :
    (f.value s look).isCircular = (f.reads s).any fun a => (look a).isCircular := by
  simp only [value, List.any_map, Function.comp_def]
  by_cases h : (f.reads s).any (fun a => (look a).isCircular) = true
  · rw [if_pos h, h]
    rfl
  · rw [if_neg h, Bool.eq_false_iff.mpr h]
    cases f with
    | sum r => rfl
    | arithmetic pieces => exact isCircular_arithmeticValue _

/-- A formula that reads a circular cell is circular, wherever it reads it. -/
theorem value_of_circular {s : Store} {look : Address → Value} {f : Formula} {a : Address}
    (ha : a ∈ f.reads s) (h : look a = .error .circular) : f.value s look = .error .circular := by
  rw [← Value.isCircular_iff, isCircular_value, List.any_eq_true]
  exact ⟨a, ha, Value.isCircular_iff.mpr h⟩

/-! ## A formula knows only the cells it reads -/

theorem flatMap_substitute_congr {look look' : Address → Value} {pieces : List Piece}
    (h : ∀ a, Piece.reference (some a) ∈ pieces → look a = look' a) :
    pieces.flatMap (substitute look) = pieces.flatMap (substitute look') := by
  rw [List.flatMap_def, List.flatMap_def]
  congr 1
  apply List.map_congr_left
  intro p hp
  match p with
  | .char c => rfl
  | .reference none => rfl
  | .reference (some a) => simp only [substitute, h a hp]

/-- Two views of the cells give a formula the same value when they agree on what it reads. -/
theorem value_congr {s : Store} {look look' : Address → Value} {f : Formula}
    (h : ∀ a ∈ f.reads s, look a = look' a) : f.value s look = f.value s look' := by
  have hmap : (f.reads s).map look = (f.reads s).map look' := List.map_congr_left h
  unfold value
  rw [hmap]
  match f, h with
  | sum r, _ => rfl
  | arithmetic pieces, h =>
    simp only [flatMap_substitute_congr fun a ha => h a (List.mem_filterMap.2 ⟨_, ha, rfl⟩)]

end Formula

end FormulaSheet
