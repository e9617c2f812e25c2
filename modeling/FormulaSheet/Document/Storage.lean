/-
Documents and files.

A file is read and understood as a whole before the document changes. What is
odd about its entries, keys that are no addresses and cells below the last row,
does not keep it from being loaded; it is reported.
-/
import FormulaSheet.Document.Basic
import FormulaSheet.Export.Csv
import FormulaSheet.Export.Markdown
import FormulaSheet.Snapshot

set_option autoImplicit false

namespace FormulaSheet

/-- What is odd about a file that was loaded. -/
inductive Warning where
  /-- A key is no address. -/
  | key (text : String)
  /-- How many keys are no addresses. -/
  | skipped (path : String) (count : Nat)
  /-- How many cells lie below the last row. -/
  | outside (path : String) (count rows : Nat)
deriving DecidableEq

def Warning.line : Warning → String
  | key text =>
    "[WARN cellgrid_engine::engine::cell] skipping snapshot entry with invalid address "
      ++ Text.quoteString text
  | skipped path count =>
    "[WARN cellgrid_core::document::io] " ++ path ++ ": skipped " ++ toString count
      ++ " invalid addresses"
  | outside path count rows =>
    "[WARN cellgrid_core::document::io] " ++ path ++ ": " ++ toString count
      ++ " cells lie outside the " ++ toString rows ++ "-row sheet and are not displayed"

namespace Snapshot

/-- The largest size of a file, in bytes. -/
def sizeLimit : Nat := 67108864

/-- The snapshot in a file. -/
def load {m : Type → Type} [Monad m] [Files m] (path : String) : ExceptT Problem m Snapshot := do
  let size ← (ExceptT.mk (Files.size path)).adapt Problem.file
  if sizeLimit < size then throw (.size path size sizeLimit)
  let text ← (Files.readText path).adapt Problem.file
  match ofText? text with
  | some s => return s
  | none => throw .snapshot

end Snapshot

namespace Document

variable {m : Type → Type} [Monad m] [Files m]

/-- What is odd about a file with given unreadable keys, once its cells are in the store. -/
def warnings (path : String) (skipped : List String) (store : Store) (grid : Grid) :
    List Warning :=
  let below := (store.addresses.filter fun a => !grid.contains a).length
  skipped.map .key ++ (if skipped.isEmpty then [] else [.skipped path skipped.length])
    ++ (if below = 0 then [] else [.outside path below grid.rows])

/-- Carries out what does not touch the document. -/
def beside {α : Type} (action : ExceptT Problem m α) : Editing m α :=
  ExceptT.mk (StateT.lift action.run)

/-- Replaces the texts by those of a file. -/
def load (path : String) : Editing m (List Warning) := do
  -- nothing of the document changes before the file has been understood
  let snapshot ← beside (Snapshot.load path)
  let (store, skipped) := Store.ofEntries snapshot.toList
  let d ← get
  set (d.replace path store)
  return warnings path skipped store d.sheet.grid

/-- Takes a file for the document: loads it if it is there, and otherwise saves to it later. -/
def openFile (path : Option String) : Editing m (List Warning) := do
  match path with
  | none => return []
  | some path =>
    if ← beside (ExceptT.lift (Files.found path)) then load path
    else
      modify fun d => { d with path := some path }
      return []

/-- Saves to a file, which becomes the file of the document. -/
def saveAs (path : String) : Editing m Unit := do
  let d ← get
  beside ((Files.writeText path (Snapshot.text d.sheet.store.snapshot)).adapt Problem.file)
  set (d.saved path)

def save : Editing m String := do
  match (← get).path with
  | none => throw .noFile
  | some path =>
    saveAs path
    return path

def writeCsv (path : String) : Editing m Unit := do
  beside ((Files.writeText path (Csv.text (← get).display)).adapt Problem.file)

def writeMarkdown (path : String) : Editing m Unit := do
  beside ((Files.writeText path (Markdown.text (← get).display)).adapt Problem.file)

end Document

end FormulaSheet
