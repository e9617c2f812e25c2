/-
The display: the values of all cells of a grid, as one pass found them.

A value that is the empty text shows nothing. The other cells are the populated
ones, and the box is the smallest range that holds them all; it is what exports
go by.
-/
import FormulaSheet.Range
import FormulaSheet.Value

set_option autoImplicit false

namespace FormulaSheet

/-- Values of cells. -/
structure Display where
  values : Std.ExtTreeMap Address Value

namespace Display

/-- The display of which nothing is known. -/
def empty : Display := ⟨∅⟩

def get? (d : Display) (a : Address) : Option Value :=
  d.values[a]?

def insert (d : Display) (a : Address) (v : Value) : Display :=
  ⟨d.values.insert a v⟩

/-- The display of a list of values; of two for one cell the later counts. -/
def ofList (values : List (Address × Value)) : Display :=
  values.foldl (fun d (a, v) => d.insert a v) empty

def size (d : Display) : Nat :=
  d.values.size

/-- What is shown for a cell; nothing where it has no value. -/
def text (d : Display) (a : Address) : String :=
  match d.get? a with
  | some v => v.display
  | none => ""

def isNumber (d : Display) (a : Address) : Bool :=
  match d.get? a with
  | some v => v.isNumber
  | none => false

/-- The cells for which something is shown, row by row. -/
def populated (d : Display) : List (Address × Value) :=
  d.values.toList.filter fun (_, v) => !v.isEmpty

/-- The smallest range that holds all populated cells. -/
def box? (d : Display) : Option Range :=
  Range.hull? (d.populated.map fun (a, _) => a)

@[simp] theorem get?_empty (a : Address) : empty.get? a = none := by
  simp [empty, get?]

theorem get?_insert (d : Display) (a b : Address) (v : Value) :
    (d.insert a v).get? b = if a = b then some v else d.get? b := by
  simp [insert, get?, Std.ExtTreeMap.getElem?_insert]

end Display

end FormulaSheet
