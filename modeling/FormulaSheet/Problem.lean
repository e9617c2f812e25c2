/-
What can go wrong outside of formulas.

Each cause is a constructor with what is needed to speak of it; the wording is
in the two functions `message` and nowhere else.
-/
import FormulaSheet.Address
import FormulaSheet.Files.Basic
import FormulaSheet.Text.Quoted

set_option autoImplicit false

namespace FormulaSheet

/-- Why a text or a file is no configuration. -/
inductive ConfigProblem where
  /-- It is not written as one. -/
  | malformed
  /-- The number of rows is none or beyond the limit. -/
  | rows (n limit : Nat)
  /-- The file is larger than the limit. -/
  | size (n limit : Nat)
deriving DecidableEq

def ConfigProblem.message : ConfigProblem → String
  | malformed => "malformed document"
  | rows n limit => "rows must be between 1 and " ++ toString limit ++ ", got " ++ toString n
  | size n limit =>
    "file too large (" ++ toString n ++ " bytes, max " ++ toString limit ++ ")"

/-- Why something could not be done with a document. -/
inductive Problem where
  /-- A file could not be used. -/
  | file (e : FileError)
  /-- A snapshot file is larger than the limit. -/
  | size (path : String) (n limit : Nat)
  /-- A file is no snapshot. -/
  | snapshot
  /-- A file is no configuration. -/
  | config (path : String) (e : ConfigProblem)
  /-- A text is no address. -/
  | address (text : String)
  /-- An address lies outside of the grid. -/
  | outside (a : Address) (rows : Nat)
  /-- An edit has no address or no sign of equality. -/
  | edit (text : String)
  /-- There is no file to save to. -/
  | noFile
deriving DecidableEq

namespace Problem

/-- The cause that lies in the system of files, if the problem has one, in words. -/
def fileCause? : Problem → Option String
  | file e => some e.message
  | size path n limit =>
    some ("Refusing to read " ++ path ++ ": snapshot too large (" ++ toString n ++ " bytes, max "
      ++ toString limit ++ ")")
  | _ => none

def message : Problem → String
  | file e => "IO error: " ++ e.message
  | size path n limit => "IO error: " ++ ((size path n limit).fileCause?.getD "")
  | snapshot => "Snapshot error: malformed document"
  | config path e => "Config error in " ++ path ++ ": " ++ e.message
  | address text => "invalid cell address: " ++ Text.quoteString text
  | outside a rows => a.text ++ " is outside the sheet (" ++ toString rows ++ " rows)"
  | edit text => "Invalid edit " ++ Text.quoteString text ++ ": expected ADDR=VALUE"
  | noFile => "No file path set"

/-- What is said of a problem together with its cause. -/
def report (e : Problem) : String :=
  match e.fileCause? with
  | some cause => e.message ++ ": " ++ cause
  | none => e.message

end Problem

end FormulaSheet
