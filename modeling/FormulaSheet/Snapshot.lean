/-
Snapshot files: a snapshot as JSON.

A file holds one object with the field `cells`, and that is an object whose
names are addresses and whose values are objects with the field `value`. The
writer gives all values as strings, names in order, indented by two spaces, and
leaves out what is empty.

The reader is more lenient. A record, the file itself or a cell, may lack its
field, may have others beside it, which are skipped whatever they hold, and may
be given as an array of its fields instead. A value may be a string, a number, a
truth value or null, and becomes a text. Of two entries with one name the later
counts, but a record that names its field twice is malformed, and so is
everything else.
-/
import FormulaSheet.Json.Reader
import FormulaSheet.Store

set_option autoImplicit false

namespace FormulaSheet.Snapshot

/-! ## Writing -/

def entry (address raw : String) : List Char :=
  "    ".toList ++ Json.quote address.toList ++ ": \x7b\n      \"value\": ".toList
    ++ Json.quote raw.toList ++ "\n    \x7d".toList

/-- The object of the cells as it is written. -/
def cells : List (String × String) → List Char
  | [] => "\x7b\x7d".toList
  | entries =>
    "\x7b\n".toList ++ List.intercalate ",\n".toList (entries.map fun (a, raw) => entry a raw)
      ++ "\n  \x7d".toList

/-- The file for a snapshot. -/
def chars (s : Snapshot) : List Char :=
  "\x7b\n  \"cells\": ".toList ++ cells (s.toList.filter fun (_, raw) => !raw.isEmpty)
    ++ "\n\x7d\n".toList

def text (s : Snapshot) : String :=
  String.ofList (chars s)

/-! ## Reading -/

/-- The text of a value. -/
def rawOfJson? : Json → Option String
  | .null => some ""
  | .bool true => some "true"
  | .bool false => some "false"
  | .number l => l.text?.map String.ofList
  | .string text? => text?.map String.ofList
  | .array _ => none
  | .object _ => none

/-- The only field of a record: none inside when the record lacks it, none at all when the record
is malformed. -/
def soleField? (name : String) : Json → Option (Option Json)
  | .array [] => some none
  | .array [v] => some (some v)
  | .object fields =>
    if fields.any fun (n, _) => n.isNone then none
    else match fields.filter fun (n, _) => n == some name.toList with
      | [] => some none
      | [(_, v)] => some (some v)
      | _ => none
  | _ => none

def rawOfCell? (cell : Json) : Option String :=
  match soleField? "value" cell with
  | none => none
  | some none => some ""
  | some (some v) => rawOfJson? v

/-- An entry of the object of the cells. -/
def entry? : Option (List Char) × Json → Option (String × String)
  | (none, _) => none
  | (some name, cell) => (rawOfCell? cell).map fun raw => (String.ofList name, raw)

/-- The entries of the object of the cells. -/
def ofCells? : Json → Option Snapshot
  | .object fields => (fields.mapM entry?).map fun entries => Std.ExtTreeMap.ofList entries
  | _ => none

/-- The snapshot that a value of JSON is. -/
def ofJson? (file : Json) : Option Snapshot :=
  match soleField? "cells" file with
  | none => none
  | some none => some ∅
  | some (some v) => ofCells? v

/-- The snapshot that a file holds. -/
def ofChars? (cs : List Char) : Option Snapshot :=
  (Json.ofChars? cs).bind ofJson?

def ofText? (s : String) : Option Snapshot :=
  ofChars? s.toList

end FormulaSheet.Snapshot
