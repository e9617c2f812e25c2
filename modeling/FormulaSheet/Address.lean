/-
Addresses: a column letter and a row number.

Rows are counted from one in text and from zero in an address; columns run from
`A` to `Z` and are counted from zero. Addresses are ordered by row and then by
column, so a sorted list of them reads the sheet line by line. Reading takes a
letter of either case and any number of zeros before the row; writing gives one
canonical text. A row that does not fit in 64 bits is no row.
-/
import Std.Data.ExtTreeMap

set_option autoImplicit false

namespace FormulaSheet

/-- The columns `A` to `Z`. -/
abbrev Column := Fin 26

namespace Column

def letter (c : Column) : Char :=
  Char.ofNat (c.val + 65)

/-- The column of a letter of ASCII in either case. -/
def ofLetter? (c : Char) : Option Column :=
  let n := c.toNat
  if h : 65 ≤ n ∧ n < 91 then some ⟨n - 65, by omega⟩
  else if h : 97 ≤ n ∧ n < 123 then some ⟨n - 97, by omega⟩
  else none

end Column

/-- A place in the sheet, rows and columns counted from zero. -/
structure Address where
  row : Nat
  col : Column
deriving DecidableEq

namespace Address

/-! ## Order -/

/-- By row, then by column. -/
instance : Ord Address where
  compare := compareLex (compareOn row) (compareOn col)

instance : Std.TransOrd Address :=
  inferInstanceAs (Std.TransCmp (compareLex (compareOn row) (compareOn col)))

instance : Std.LawfulEqOrd Address where
  eq_of_compare {a b} h := by
    have h : compareLex (compareOn row) (compareOn col) a b = .eq := h
    simp only [compareLex, compareOn, Ordering.then_eq_eq, Std.LawfulEqOrd.compare_eq_iff_eq] at h
    cases a
    cases b
    simp_all

/-! ## Indices -/

/-- A column index that names no column. -/
structure WideColumn where
  index : Nat
deriving DecidableEq

def WideColumn.message (e : WideColumn) : String :=
  "column " ++ toString e.index ++ " is outside A..Z"

/-- The address at a column index and a row index. -/
def ofIndices (col row : Nat) : Except WideColumn Address :=
  if h : col < 26 then .ok ⟨row, ⟨col, h⟩⟩ else .error ⟨col⟩

/-! ## Text -/

/-- One more than the largest row number that can be read: two to the power of sixty-four. -/
def rowLimit : Nat := 18446744073709551616

/-- The canonical text: a capital letter and the row number without zeros before it. -/
def chars (a : Address) : List Char :=
  a.col.letter :: Nat.toDigits 10 (a.row + 1)

def text (a : Address) : String :=
  String.ofList a.chars

/-- Reads an address: one letter and one or more digits for a row number that is not zero and fits
in 64 bits. -/
def ofChars? : List Char → Option Address
  | [] => none
  | c :: digits =>
    match Column.ofLetter? c with
    | none => none
    | some col =>
      let row := Nat.ofDigitChars 10 digits 0
      if digits ≠ [] ∧ digits.all Char.isDigit ∧ 0 < row ∧ row < rowLimit then
        some ⟨row - 1, col⟩
      else none

def ofText? (s : String) : Option Address :=
  ofChars? s.toList

end Address

end FormulaSheet
