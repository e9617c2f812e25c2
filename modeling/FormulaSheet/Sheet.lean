/-
The sheet: a store and the grid in which it is shown.

To recompute is to evaluate every cell of the grid in one pass, so that what one
cell found out is there for the next.
-/
import FormulaSheet.Display
import FormulaSheet.Evaluation.Basic
import FormulaSheet.Grid

set_option autoImplicit false

namespace FormulaSheet

/-- The texts of cells and the grid in which they are shown. -/
structure Sheet where
  store : Store
  grid : Grid

namespace Sheet

def empty (grid : Grid) : Sheet := ⟨Store.empty, grid⟩

/-- Writes a text into a cell; the empty text clears it. -/
def set (s : Sheet) (a : Address) (raw : String) : Sheet :=
  { s with store := s.store.set a raw }

/-- The value of a cell and what else is remembered, put into a display. -/
def showNext (s : Store) (shown : Display × Pass) (a : Address) : Display × Pass :=
  let (v, p) := shown.2.evaluate s a
  (shown.1.insert a v, p)

/-- The values of all cells of the grid, worked out in one pass. -/
def recompute (s : Sheet) : Display :=
  (s.grid.addresses.foldl (showNext s.store) (Display.empty, Pass.initial)).1

end Sheet

end FormulaSheet
