/-
Tables in Markdown.

The table holds the box of the populated cells, with a line of column letters
above it and a column of row numbers before it. A column that has a number in
the box is aligned to the right. A pipe in a cell is escaped by a backslash, a
line feed becomes a space and a carriage return is left out, so a row of the box
is one line.
-/
import FormulaSheet.Display

set_option autoImplicit false

namespace FormulaSheet.Markdown

/-- A character as it stands in a cell of a table. -/
def escape (c : Char) : List Char :=
  if c = '|' then ['\\', '|'] else if c = '\n' then [' '] else if c = '\r' then [] else [c]

/-- A line of a table: a first cell, then others with a space on either side, each before a
pipe. -/
def line (first : List Char) (cells : List (List Char)) : List Char :=
  '|' :: first ++ '|' :: cells.flatMap (fun cell => ' ' :: cell ++ [' ', '|']) ++ ['\n']

/-- The line of column letters. -/
def header (box : Range) : List Char :=
  line [' ', ' ', ' '] (box.columns.map fun col => [col.letter])

/-- Whether a column of the box has a number in it. -/
def isNumeric (d : Display) (box : Range) (col : Column) : Bool :=
  (List.range' box.top (box.bottom - box.top + 1)).any fun row => d.isNumber ⟨row, col⟩

/-- The line that says how the columns are aligned. -/
def alignment (d : Display) (box : Range) : List Char :=
  "|---|".toList
    ++ box.columns.flatMap (fun col => (if isNumeric d box col then "---:|" else "---|").toList)
    ++ ['\n']

/-- The line of one row of the box. -/
def rowLine (d : Display) (box : Range) (row : Nat) : List Char :=
  line (' ' :: Nat.toDigits 10 (row + 1) ++ [' '])
    (box.columns.map fun col => (d.text ⟨row, col⟩).toList.flatMap escape)

/-- What stands above the table. -/
def heading : List Char := "# Sheet\n\n".toList

def table (d : Display) (box : Range) : List Char :=
  header box ++ alignment d box
    ++ (List.range' box.top (box.bottom - box.top + 1)).flatMap (rowLine d box)

def chars (d : Display) : List Char :=
  heading ++ match d.box? with
    | none => "*Empty spreadsheet*\n".toList
    | some box => table d box

def text (d : Display) : String :=
  String.ofList (chars d)

end FormulaSheet.Markdown
