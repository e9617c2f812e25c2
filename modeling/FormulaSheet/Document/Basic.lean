/-
The document: a sheet with its file and its display.

The display is always the one of the current texts, because every accepted
change recomputes it. The mark `modified` is set by an edit that changes a text
and reset by loading and saving.

What is done to a document can fail, and its steps are written in the monad
`Editing`, whose state survives a failure. So it is a fact to be proved, and not
a matter of typing, that a failing step leaves the document as it was.
-/
import FormulaSheet.Problem
import FormulaSheet.Sheet

set_option autoImplicit false

namespace FormulaSheet

/-- A sheet, the file it belongs to, whether it differs from that, and its values. -/
structure Document where
  sheet : Sheet
  path : Option String
  modified : Bool
  display : Display

/-- Steps that change a document and may fail. -/
abbrev Editing (m : Type → Type) := ExceptT Problem (StateT Document m)

namespace Document

/-- The document of an empty sheet, without a file. -/
def new (grid : Grid) : Document where
  sheet := Sheet.empty grid
  path := none
  modified := false
  display := (Sheet.empty grid).recompute

def raw? (d : Document) (a : Address) : Option String :=
  d.sheet.store.get? a

/-- The document after a text has been written into a cell. -/
def write (d : Document) (a : Address) (raw : String) : Document :=
  let sheet := d.sheet.set a raw
  { d with
    sheet
    modified := d.modified || (d.raw? a).getD "" ≠ raw
    display := sheet.recompute }

/-- The document after its texts have been replaced by those of a file. -/
def replace (d : Document) (path : String) (store : Store) : Document :=
  let sheet := { d.sheet with store }
  { sheet, path := some path, modified := false, display := sheet.recompute }

/-- The document after it has been saved. -/
def saved (d : Document) (path : String) : Document :=
  { d with path := some path, modified := false }

variable {m : Type → Type} [Monad m]

def recalculate : Editing m Unit :=
  modify fun d => { d with display := d.sheet.recompute }

def setCell (a : Address) (raw : String) : Editing m Unit := do
  let d ← get
  if d.sheet.grid.contains a then set (d.write a raw)
  else throw (.outside a d.sheet.grid.rows)

def clearCell (a : Address) : Editing m Unit :=
  setCell a ""

/-- Writes a text into the cell with a given address, which may have blanks around it. -/
def setCellAt (address : List Char) (raw : String) : Editing m Address := do
  let trimmed := Text.trim address
  match Address.ofChars? trimmed with
  | none => throw (.address (String.ofList trimmed))
  | some a =>
    setCell a raw
    return a

/-- Carries out an edit: an address, the sign of equality, and the text to be written. -/
def applyEdit (edit : String) : Editing m Address :=
  let cs := edit.toList
  let address := cs.takeWhile (· != '=')
  match cs.drop address.length with
  | '=' :: raw =>
    if (Text.trim address).isEmpty then throw (.edit edit)
    else setCellAt address (String.ofList raw)
  | _ => throw (.edit edit)

end Document

end FormulaSheet
