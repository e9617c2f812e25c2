/-
Values: what a cell is worth once its formula has been worked out.

There are three kinds: a number, a text, and one of three error marks. A formula
never fails in any other way, so everything that can go wrong in one is a mark,
and a mark is shown where the value would have been.
-/
import FormulaSheet.Number

set_option autoImplicit false

namespace FormulaSheet

/-- What can be wrong with a formula. -/
inductive Mark where
  /-- The cell depends on itself, or on a cell that does. -/
  | circular
  /-- The formula holds a character that arithmetic does not know. -/
  | name
  /-- The arithmetic is malformed or its result is not finite. -/
  | failed
deriving DecidableEq

def Mark.token : Mark → String
  | .circular => "#CIRC!"
  | .name => "#NAME?"
  | .failed => "#ERROR!"

/-- The value of a cell or of a formula. -/
inductive Value where
  | number (x : Float)
  | text (s : String)
  | error (m : Mark)
deriving DecidableEq

namespace Value

/-- The value of a cell that holds nothing. -/
def empty : Value := .text ""

def isEmpty : Value → Bool
  | .text s => s.isEmpty
  | _ => false

def isNumber : Value → Bool
  | .number _ => true
  | _ => false

/-- The mark of a value that is one. -/
def mark? : Value → Option Mark
  | .error m => some m
  | _ => none

/-- Whether a value says that its cell depends on itself. -/
def isCircular (v : Value) : Bool :=
  v.mark? == some .circular

/-- The number that a value stands for in a formula: a number itself, a text the number it begins
with, a mark none. -/
def number? : Value → Option Float
  | .number x => some x
  | .text s => Number.leading? s.toList
  | .error _ => none

def display : Value → String
  | .number x => String.ofList (Number.text x)
  | .text s => s
  | .error m => m.token

/-- What a value becomes inside arithmetic: the shown text of its number, and zero where it has
none. -/
def operand (v : Value) : List Char :=
  match v.number? with
  | some x => Number.text x
  | none => ['0']

@[simp] theorem number?_number (x : Float) : (number x).number? = some x := rfl

@[simp] theorem isCircular_number (x : Float) : (number x).isCircular = false := rfl

@[simp] theorem isCircular_text (s : String) : (text s).isCircular = false := rfl

theorem isCircular_iff {v : Value} : v.isCircular = true ↔ v = .error .circular := by
  cases v with
  | error m => cases m <;> simp [isCircular, mark?]
  | _ => simp

end Value

end FormulaSheet
