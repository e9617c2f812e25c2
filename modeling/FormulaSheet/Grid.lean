/-
The grid: how far a sheet is shown.

A sheet always has the twenty-six columns; the number of rows is chosen. Cells
further down can hold texts and be read by formulas, they are only not shown.
-/
import FormulaSheet.Address

set_option autoImplicit false

namespace FormulaSheet

/-- The first `rows` rows of all columns. -/
structure Grid where
  rows : Nat
deriving DecidableEq

namespace Grid

/-- The rows of a sheet for which none were chosen. -/
def defaultRows : Nat := 100

instance : Inhabited Grid := ⟨⟨defaultRows⟩⟩

def columns (_ : Grid) : Nat := 26

def contains (g : Grid) (a : Address) : Bool :=
  a.row < g.rows

/-- The addresses of the grid, row by row. -/
def addresses (g : Grid) : List Address :=
  (List.range g.rows).flatMap fun row => (List.finRange 26).map fun col => ⟨row, col⟩

theorem mem_addresses {g : Grid} {a : Address} : a ∈ g.addresses ↔ g.contains a = true := by
  cases a with
  | mk row col =>
    simp only [addresses, List.mem_flatMap, List.mem_range, List.mem_map, List.mem_finRange,
      true_and, Address.mk.injEq, contains, decide_eq_true_eq]
    constructor
    · rintro ⟨row', h, col', rfl, rfl⟩
      exact h
    · exact fun h => ⟨row, h, col, rfl, rfl⟩

end Grid

end FormulaSheet
