/-
Comma-separated values.

The records are the rows of the sheet from the first one to the last populated
one, and the fields the columns from `A` to the last populated one, so that a
field stands where its cell does. A field that holds a comma, a quote or an end
of line is put between quotes, with the quotes in it written twice. A record
ends with a line feed.
-/
import FormulaSheet.Display

set_option autoImplicit false

namespace FormulaSheet.Csv

/-- A character between quotes; the quote is written twice. -/
def double (c : Char) : List Char :=
  if c = '"' then ['"', '"'] else [c]

/-- Whether a character forces quotes around its field. -/
def isSpecial (c : Char) : Bool :=
  c == ',' || c == '"' || c == '\n' || c == '\r'

def field (cs : List Char) : List Char :=
  if cs.any isSpecial then '"' :: cs.flatMap double ++ ['"'] else cs

def record (fields : List (List Char)) : List Char :=
  List.intercalate [','] (fields.map field) ++ ['\n']

/-- The texts that a row shows from the first column to the column `last`. -/
def rowTexts (d : Display) (last : Column) (row : Nat) : List (List Char) :=
  ((List.finRange 26).filter (· ≤ last)).map fun col => (d.text ⟨row, col⟩).toList

/-- The file for a display; nothing at all when nothing is populated. -/
def chars (d : Display) : List Char :=
  match d.box? with
  | none => []
  | some box =>
    (List.range (box.bottom + 1)).flatMap fun row => record (rowTexts d box.right row)

def text (d : Display) : String :=
  String.ofList (chars d)

end FormulaSheet.Csv
