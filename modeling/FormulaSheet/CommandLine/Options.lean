/-
The options of the command line.

An argument is an option, the value of the option before it, or the name of the
file. A value is taken whatever it looks like. Of an option that is given more
than once the last value counts, except that every edit counts, in order. Help
ends the reading at once.
-/
set_option autoImplicit false

namespace FormulaSheet.CommandLine

/-- The options that take a value. -/
inductive Valued where
  /-- An edit to be made. -/
  | set
  /-- A formula to be worked out and printed. -/
  | command
  /-- The file for a table in Markdown. -/
  | output
  /-- The file for comma-separated values. -/
  | csv
  /-- The file with the configuration. -/
  | config
deriving DecidableEq

inductive Switch where
  | help
  /-- The edited sheet is to be saved. -/
  | write
  /-- More is to be reported. -/
  | verbose
  | valued (v : Valued)
deriving DecidableEq

def Valued.name : Valued → String
  | set => "--set"
  | command => "--command"
  | output => "--output"
  | csv => "--csv"
  | config => "--config"

/-- The option that an argument is. -/
def Switch.ofArgument? : String → Option Switch
  | "-h" => some help
  | "--help" => some help
  | "-s" => some (valued .set)
  | "--set" => some (valued .set)
  | "-c" => some (valued .command)
  | "--command" => some (valued .command)
  | "-o" => some (valued .output)
  | "--output" => some (valued .output)
  | "--csv" => some (valued .csv)
  | "--config" => some (valued .config)
  | "-w" => some write
  | "--write" => some write
  | "-v" => some verbose
  | "--verbose" => some verbose
  | _ => none

/-- What does not begin with a dash is no option. -/
theorem ofArgument?_of_head? {argument : String} (h : argument.toList.head? ≠ some '-') :
    Switch.ofArgument? argument = none := by
  unfold Switch.ofArgument?
  split <;> first | exact absurd rfl h | rfl

/-- What the arguments ask for. -/
structure Options where
  file : Option String := none
  edits : List String := []
  command : Option String := none
  output : Option String := none
  csv : Option String := none
  config : Option String := none
  write : Bool := false
  verbosity : Nat := 0
deriving DecidableEq

/-- Why arguments cannot be understood. -/
inductive UsageError where
  | missingValue (v : Valued)
  | unknown (argument : String)
  | unexpected (argument : String)
  | nothingToWrite
deriving DecidableEq

def UsageError.message : UsageError → String
  | missingValue v => v.name ++ " requires a value"
  | unknown argument => "Unknown option: " ++ argument
  | unexpected argument => "Unexpected argument: " ++ argument
  | nothingToWrite => "--write requires a FILE"

namespace Options

/-- Takes in an option with its value. -/
def withValue (o : Options) (v : Valued) (value : String) : Options :=
  match v with
  | .set => { o with edits := o.edits ++ [value] }
  | .command => { o with command := some value }
  | .output => { o with output := some value }
  | .csv => { o with csv := some value }
  | .config => { o with config := some value }

/-- Reports more than before, up to the level 255. -/
def louder (o : Options) : Options :=
  { o with verbosity := min (o.verbosity + 1) 255 }

/-- Takes in an argument that is neither an option nor a value. -/
def withFile (o : Options) (argument : String) : Except UsageError Options :=
  -- the dash alone is no file either
  if argument.toList.head? == some '-' then .error (.unknown argument)
  else if o.file.isSome then .error (.unexpected argument)
  else .ok { o with file := some argument }

/-- The options at the end of the arguments: only what has a file can be written back. -/
def finish (o : Options) : Except UsageError Options :=
  if o.write && o.file.isNone then .error .nothingToWrite else .ok o

/-- Reads arguments after those that led to `o`. Nothing comes out when help is asked for. -/
def readFrom (o : Options) : List String → Except UsageError (Option Options)
  | [] => o.finish.map some
  | argument :: rest =>
    match Switch.ofArgument? argument with
    | some .help => .ok none
    | some .write => readFrom { o with write := true } rest
    | some .verbose => readFrom o.louder rest
    | some (.valued v) =>
      match rest with
      | [] => .error (.missingValue v)
      | value :: rest => readFrom (o.withValue v value) rest
    | none =>
      match o.withFile argument with
      | .error e => .error e
      | .ok o => readFrom o rest

def read (arguments : List String) : Except UsageError (Option Options) :=
  readFrom {} arguments

end Options

end FormulaSheet.CommandLine
