/-
The configuration: how many rows a sheet has.

A configuration comes from a file that was asked for, which must be there, or
from the user's own, which need not be; without either the default counts. The
number of rows has an upper limit, and so has the size of the file.
-/
import FormulaSheet.Config.Format
import FormulaSheet.Grid
import FormulaSheet.Problem

set_option autoImplicit false

namespace FormulaSheet

/-- The number of rows of a sheet. -/
structure Config where
  rows : Nat
deriving DecidableEq

namespace Config

instance : Inhabited Config := ⟨⟨Grid.defaultRows⟩⟩

def grid (c : Config) : Grid := ⟨c.rows⟩

/-- The largest number of rows. -/
def rowLimit : Nat := 1000000

/-- The largest size of a file, in bytes. -/
def sizeLimit : Nat := 1048576

/-- The configuration that a text holds. -/
def ofText (text : String) : Except ConfigProblem Config :=
  match rowsOfChars? text.toList with
  | none => .error .malformed
  | some none => .ok default
  | some (some n) =>
    if n = 0 || rowLimit < n then .error (.rows n rowLimit) else .ok ⟨n⟩

/-- The path of the user's own configuration: in the folder for configurations, if that is named by
a path from the root, and otherwise in the one in the user's home. -/
def userPath? (folder? home? : Option String) : Option String :=
  let folder? := match folder?.filter Files.isAbsolute, home? with
    | some folder, _ => some folder
    | none, some home => if home.isEmpty then none else some (Files.join home ".config")
    | none, none => none
  folder?.map fun folder => Files.join (Files.join folder "cellgrid") "config.toml"

variable {m : Type → Type} [Monad m] [Files m]

/-- The configuration that a file holds. -/
def load (path : String) : ExceptT Problem m Config := do
  let size ← (ExceptT.mk (Files.size path)).adapt Problem.file
  if sizeLimit < size then throw (.config path (.size size sizeLimit))
  let text ← (Files.readText path).adapt Problem.file
  ExceptT.mk (pure ((ofText text).mapError (.config path)))

/-- The configuration from the file that was asked for or else from the user's own, if that is
there. -/
def find (requested user : Option String) : ExceptT Problem m Config := do
  match requested, user with
  | some path, _ => load path
  | none, some path => if ← ExceptT.lift (Files.found path) then load path else return default
  | none, none => return default

end Config

end FormulaSheet
