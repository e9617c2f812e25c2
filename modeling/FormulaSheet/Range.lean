/-
Ranges: the rectangles that a sum runs over.

A range is spanned by two corners, given in any of the four arrangements, and
holds both of them; it can be widened until it holds another address too. Its
addresses are listed row by row, which is the order a sum adds in, and the order
of addresses.
-/
import FormulaSheet.Address

set_option autoImplicit false

namespace FormulaSheet

/-- A rectangle of addresses, its four sides included. -/
structure Range where
  top : Nat
  bottom : Nat
  left : Column
  right : Column
  top_le_bottom : top ≤ bottom
  left_le_right : left ≤ right
deriving DecidableEq

namespace Range

/-! ## Building ranges -/

/-- The further left of two columns. -/
def leftmost (c d : Column) : Column := if c ≤ d then c else d

/-- The further right of two columns. -/
def rightmost (c d : Column) : Column := if c ≤ d then d else c

theorem leftmost_le (c d : Column) : leftmost c d ≤ c := by
  unfold leftmost
  split <;> simp only [Fin.le_def] at * <;> omega

theorem le_rightmost (c d : Column) : c ≤ rightmost c d := by
  unfold rightmost
  split <;> simp only [Fin.le_def] at * <;> omega

theorem leftmost_comm (c d : Column) : leftmost c d = leftmost d c := by
  unfold leftmost
  apply Fin.ext
  split <;> split <;> simp only [Fin.le_def] at * <;> omega

theorem rightmost_comm (c d : Column) : rightmost c d = rightmost d c := by
  unfold rightmost
  apply Fin.ext
  split <;> split <;> simp only [Fin.le_def] at * <;> omega

/-- The smallest range that holds two addresses. -/
def spanning (a b : Address) : Range where
  top := min a.row b.row
  bottom := max a.row b.row
  left := leftmost a.col b.col
  right := rightmost a.col b.col
  top_le_bottom := Nat.le_trans (Nat.min_le_left _ _) (Nat.le_max_left _ _)
  left_le_right := Nat.le_trans (leftmost_le _ _) (le_rightmost _ _)

/-- The smallest range that holds a range and an address. -/
def widen (r : Range) (a : Address) : Range where
  top := min r.top a.row
  bottom := max r.bottom a.row
  left := leftmost r.left a.col
  right := rightmost r.right a.col
  top_le_bottom :=
    Nat.le_trans (Nat.min_le_left _ _) (Nat.le_trans r.top_le_bottom (Nat.le_max_left _ _))
  left_le_right :=
    Nat.le_trans (leftmost_le _ _) (Nat.le_trans r.left_le_right (le_rightmost _ _))

/-- The smallest range that holds the given addresses; there is none for no addresses. -/
def hull? : List Address → Option Range
  | [] => none
  | a :: rest => some (rest.foldl widen (spanning a a))

/-! ## Size and members -/

def size (r : Range) : Nat :=
  (r.bottom - r.top + 1) * (r.right.val - r.left.val + 1)

def contains (r : Range) (a : Address) : Bool :=
  r.top ≤ a.row && a.row ≤ r.bottom && r.left ≤ a.col && a.col ≤ r.right

def columns (r : Range) : List Column :=
  (List.finRange 26).filter fun c => r.left ≤ c && c ≤ r.right

/-- The addresses of a range, row by row. -/
def addresses (r : Range) : List Address :=
  (List.range' r.top (r.bottom - r.top + 1)).flatMap fun row =>
    r.columns.map fun col => ⟨row, col⟩

/-! ## The list holds what the range holds -/

theorem mem_columns {r : Range} {c : Column} :
    c ∈ r.columns ↔ r.left ≤ c ∧ c ≤ r.right := by
  simp [columns, List.mem_finRange]

theorem mem_addresses {r : Range} {a : Address} : a ∈ r.addresses ↔ r.contains a = true := by
  have := r.top_le_bottom
  cases a with
  | mk row col =>
    simp only [addresses, List.mem_flatMap, List.mem_range'_1, List.mem_map, mem_columns,
      Address.mk.injEq, contains, Bool.and_eq_true, decide_eq_true_eq]
    constructor
    · rintro ⟨row', hrow, col', hcol, rfl, rfl⟩
      exact ⟨⟨⟨hrow.1, by omega⟩, hcol.1⟩, hcol.2⟩
    · rintro ⟨⟨⟨h₁, h₂⟩, h₃⟩, h₄⟩
      exact ⟨row, ⟨h₁, by omega⟩, col, ⟨h₃, h₄⟩, rfl, rfl⟩

end Range

end FormulaSheet
