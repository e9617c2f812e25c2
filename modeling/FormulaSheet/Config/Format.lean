/-
The text of a configuration.

A configuration is a document in TOML with at most one key, `rows`, and a whole
number for its value. All that such a document can hold is blank lines, comments
and the line that sets the key, so a reader of lines is enough; whatever else a
document might hold, tables, other keys, values of other kinds, the key a second
time, makes it no configuration.

The key may be written bare or between quotes of either kind, and the number in
base ten with a sign, or in base sixteen, eight or two without one. Underscores
may stand between digits. A number must fit into 64 bits with a sign, and the
rows cannot be negative.
-/
import FormulaSheet.Decimal.Numeral
import FormulaSheet.Text.Hexadecimal

set_option autoImplicit false

namespace FormulaSheet.Config

/-! ## Lines -/

/-- Splits a text into lines. What has been read of the first one is `line` and the lines before
it are `done`, both from the end on. A carriage return before a line feed belongs to the end of the
line. -/
def linesOnto (done : List (List Char)) (line : List Char) : List Char → List (List Char)
  | [] => (line.reverse :: done).reverse
  | '\r' :: '\n' :: rest => linesOnto (line.reverse :: done) [] rest
  | '\n' :: rest => linesOnto (line.reverse :: done) [] rest
  | c :: rest => linesOnto done (c :: line) rest

def lines (cs : List Char) : List (List Char) :=
  linesOnto [] [] cs

def dropSpaces (cs : List Char) : List Char :=
  cs.dropWhile fun c => c == ' ' || c == '\t'

/-- Whether a character may stand in a comment: any but the control characters, of which only the
tab may. -/
def isCommentChar (c : Char) : Bool :=
  c == '\t' || (0x20 ≤ c.toNat && c.toNat != 0x7F)

/-- Whether nothing is left of a line but spaces and a comment. -/
def isRemainder (cs : List Char) : Bool :=
  match dropSpaces cs with
  | [] => true
  | '#' :: comment => comment.all isCommentChar
  | _ => false

/-! ## Keys -/

/-- Whether a character may stand in a key without quotes. -/
def isBareChar (c : Char) : Bool :=
  c.isAlphanum || c == '_' || c == '-'

/-- The character with a hexadecimal number, if there is one. -/
def charOfHex? (digits : List Char) : Option Char :=
  match Text.hexNumber? digits with
  | some n => if n.isValidChar then some (Char.ofNat n) else none
  | none => none

/-- The character that a backslash and a letter or mark denote. -/
def letterEscape? : Char → Option Char
  | '"' => some '"'
  | '\\' => some '\\'
  | 'b' => some '\x08'
  | 'f' => some '\x0c'
  | 'n' => some '\n'
  | 'r' => some '\r'
  | 't' => some '\t'
  | _ => none

/-- Reads the rest of a key between double quotes and puts it after `done`, the last character of
which comes first. -/
def quotedKeyOnto? (done : List Char) : List Char → Option (List Char × List Char)
  | [] => none
  | '"' :: rest => some (done.reverse, rest)
  | '\\' :: 'u' :: a :: b :: c :: d :: rest =>
    match charOfHex? [a, b, c, d] with
    | none => none
    | some c => quotedKeyOnto? (c :: done) rest
  | '\\' :: 'U' :: a :: b :: c :: d :: e :: f :: g :: h :: rest =>
    match charOfHex? [a, b, c, d, e, f, g, h] with
    | none => none
    | some c => quotedKeyOnto? (c :: done) rest
  | '\\' :: c :: rest =>
    match letterEscape? c with
    | none => none
    | some c => quotedKeyOnto? (c :: done) rest
  | c :: rest => if isCommentChar c && c != '\\' then quotedKeyOnto? (c :: done) rest else none

/-- Reads the rest of a key between single quotes, where nothing is escaped. -/
def literalKey? (cs : List Char) : Option (List Char × List Char) :=
  let key := cs.takeWhile fun c => isCommentChar c && c != '\''
  match cs.drop key.length with
  | '\'' :: rest => some (key, rest)
  | _ => none

def key? : List Char → Option (List Char × List Char)
  | '"' :: rest => quotedKeyOnto? [] rest
  | '\'' :: rest => literalKey? rest
  | cs =>
    let key := cs.takeWhile isBareChar
    if key.isEmpty then none else some (key, cs.drop key.length)

/-! ## Numbers -/

/-- One more than the largest number of 64 bits with a sign. -/
def wordLimit : Nat := 9223372036854775808

/-- Whether no two underscores stand side by side and none at the end. -/
def isSpaced : List Char → Bool
  | [] => true
  | ['_'] => false
  | '_' :: '_' :: _ => false
  | _ :: rest => isSpaced rest

/-- The number of a digit in a base of at most sixteen. -/
def digit? (base : Nat) (c : Char) : Option Nat :=
  (Text.hexValue? c).filter (· < base)

/-- The number that digits denote when some before them denote `n`; underscores are skipped. It
must stay below the limit. -/
def natural? (base n : Nat) : List Char → Option Nat
  | [] => some n
  | c :: rest =>
    if c = '_' then natural? base n rest
    else match digit? base c with
      | none => none
      | some d => if base * n + d < wordLimit then natural? base (base * n + d) rest else none

/-- Reads a number in a base of at most sixteen. -/
def based? (base : Nat) (cs : List Char) : Option (Nat × List Char) :=
  let run := cs.takeWhile fun c => (digit? base c).isSome || c == '_'
  if run.isEmpty || run.head? == some '_' || !isSpaced run then none
  else (natural? base 0 run).map fun n => (n, cs.drop run.length)

/-- Reads a number in base ten, which does not begin with a zero unless it is one. -/
def decimal? : List Char → Option (Nat × List Char)
  | '0' :: rest => some (0, rest)
  | cs => based? 10 cs

def integer? : List Char → Option (Int × List Char)
  | '0' :: 'x' :: rest => (based? 16 rest).map fun (n, rest) => (n, rest)
  | '0' :: 'o' :: rest => (based? 8 rest).map fun (n, rest) => (n, rest)
  | '0' :: 'b' :: rest => (based? 2 rest).map fun (n, rest) => (n, rest)
  | '-' :: rest => (decimal? rest).map fun (n, rest) => (-n, rest)
  | '+' :: rest => (decimal? rest).map fun (n, rest) => (n, rest)
  | cs => (decimal? cs).map fun (n, rest) => (n, rest)

/-! ## Documents -/

/-- What a line says. -/
inductive Line where
  /-- Nothing. -/
  | blank
  /-- How many rows there are. -/
  | rows (n : Nat)
deriving DecidableEq

def line? (cs : List Char) : Option Line :=
  if isRemainder cs then some .blank
  else match key? (dropSpaces cs) with
    | none => none
    | some (key, rest) =>
      -- no other key is known
      if key ≠ "rows".toList then none
      else match dropSpaces rest with
        | '=' :: rest =>
          match integer? (dropSpaces rest) with
          | none => none
          | some (n, rest) =>
            if isRemainder rest && 0 ≤ n then some (.rows n.toNat)
            else none
        | _ => none

/-- Reads the lines of a document and tells the rows that it sets, none inside if it sets none. -/
def rowsOfLines? (lines : List (List Char)) : Option (Option Nat) :=
  match lines.mapM line? with
  | none => none
  | some said =>
    match said.filter (· ≠ .blank) with
    | [] => some none
    | [.rows n] => some (some n)
    | _ => none

/-- Reads a document, before which a byte order mark may stand. -/
def rowsOfChars? : List Char → Option (Option Nat)
  | '\ufeff' :: cs => rowsOfLines? (lines cs)
  | cs => rowsOfLines? (lines cs)

end FormulaSheet.Config
