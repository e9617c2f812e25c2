/-
What the program does.

It loads the configuration, opens the file, makes the edits, and saves them if
that was asked for. A formula that was asked for is worked out and printed, and
that ends the run; otherwise the exports are written, or, if there are none, the
populated cells are listed. The first failure ends the run, and what was printed
before it stays printed.

The exit code is zero, or one after a failure and for a formula whose value is
an error mark.
-/
import FormulaSheet.CommandLine.Options
import FormulaSheet.Config.Basic
import FormulaSheet.Document.Storage

set_option autoImplicit false

namespace FormulaSheet.CommandLine

/-- What a run leaves behind besides files. -/
structure Outcome where
  exit : Nat
  output : String
  errors : String
deriving DecidableEq

def usage : String :=
  "Usage: cellgrid [OPTIONS] [FILE]\n\n"
    ++ "Arguments:\n"
    ++ "  [FILE]                    Sheet snapshot to open (.json)\n\n"
    ++ "Options:\n"
    ++ "  -s, --set <ADDR=VALUE>    Commit an edit before recomputing (can be repeated)\n"
    ++ "  -c, --command <FORMULA>   Evaluate a formula against the sheet and print it\n"
    ++ "  -o, --output <FILE>       Export to markdown file\n"
    ++ "      --csv <FILE>          Export to CSV file\n"
    ++ "  -w, --write               Save edits back to FILE\n"
    ++ "      --config <FILE>       Load configuration from FILE\n"
    ++ "  -v, --verbose             Log to stderr (repeat for more detail)\n"
    ++ "  -h, --help                Print help\n"

/-- What has been printed so far. -/
structure Printed where
  output : String := ""
  errors : String := ""
deriving DecidableEq

/-- Why a run failed, and in the course of what. -/
structure Failure where
  during : Option String
  problem : Problem
deriving DecidableEq

def Failure.report (f : Failure) : String :=
  match f.during with
  | some during => during ++ ": " ++ f.problem.report
  | none => f.problem.report

/-- Steps that print, change the document and may fail. -/
abbrev Session (m : Type → Type) := ExceptT Failure (StateT Printed (StateT Document m))

namespace Session

variable {m : Type → Type} [Monad m]

/-- Carries out a step of editing. -/
def edit {α : Type} (during : Option String) (step : Editing m α) : Session m α :=
  (ExceptT.mk (StateT.lift step.run)).adapt fun problem => ⟨during, problem⟩

def print (line : String) : Session m Unit :=
  modify fun p => { p with output := p.output ++ line ++ "\n" }

def printError (line : String) : Session m Unit :=
  modify fun p => { p with errors := p.errors ++ line ++ "\n" }

end Session

open Session

variable {m : Type → Type} [Monad m] [Files m]

/-- A formula as it would stand in a cell. -/
def formulaText (command : String) : String :=
  if command.toList.head? == some '=' then command else "=" ++ command

/-- Prints the value of a formula. -/
def runCommand (command : String) : Session m Nat := do
  let d : Document ← getThe Document
  let value := d.sheet.store.evaluateRaw (formulaText command)
  print value.display
  return if value.mark?.isSome then 1 else 0

/-- Writes an export and says so. -/
def runExport (path : String) (step : String → Editing m Unit) : Session m Unit := do
  edit (some ("Failed to write " ++ path)) (step path)
  print ("Exported to " ++ path)

def list : Session m Unit := do
  let d : Document ← getThe Document
  for (a, value) in d.display.populated do
    print (a.text ++ "\t" ++ value.display)

/-- Does what the options ask for, in a document without a file. -/
def steps (o : Options) : Session m Nat := do
  let warnings ← edit none (Document.openFile o.file)
  for w in warnings do
    printError w.line
  for e in o.edits do
    discard (edit none (Document.applyEdit e))
  if o.write then
    discard (edit none Document.save)
  -- a formula takes the place of the exports and of the list
  match o.command with
  | some command => runCommand command
  | none =>
    for path in o.output do
      runExport path Document.writeMarkdown
    for path in o.csv do
      runExport path Document.writeCsv
    if o.output.isNone && o.csv.isNone then
      list
    return 0

def outcome (result : Except Failure Nat × Printed) : Outcome :=
  match result with
  | (.ok exit, p) => ⟨exit, p.output, p.errors⟩
  | (.error f, p) => ⟨1, p.output, p.errors ++ "Error: " ++ f.report ++ "\n"⟩

/-- Does what the options ask for; `user` is the place of the user's own configuration. -/
def runOptions (o : Options) (user : Option String) : m Outcome := do
  match ← (Config.find o.config user).run with
  | .error problem =>
    return outcome (.error ⟨some "Failed to load configuration", problem⟩, {})
  | .ok config =>
    let (result, _) ← ((steps o).run.run {}).run (Document.new config.grid)
    return outcome result

def run (arguments : List String) (user : Option String) : m Outcome :=
  match Options.read arguments with
  | .error e => return ⟨1, "", "Error: " ++ e.message ++ "\n" ++ usage⟩
  | .ok none => return ⟨0, "", usage⟩
  | .ok (some o) => runOptions o user

end FormulaSheet.CommandLine
