/-
Formulas, as they are written in a cell after the sign of equality.

There are two shapes. `SUM(A1:B5)`, from end to end and without blanks, is the
sum over a range. Everything else is arithmetic: the references in it, a letter
and digits each, are cut out first, and what is between them stays text until
the references have been replaced by numbers.

The keyword and the letters of the corners are matched without regard to case,
by simple case folding. That brings in two letters beyond ASCII, the long s and
the sign of the kelvin, which fold to `s` and `k`. A corner that starts with one
of them belongs to the shape but is no address.

A formula forgets how its references were spelt: all it keeps of one is the
address it denotes, if it denotes one.
-/
import FormulaSheet.Range

set_option autoImplicit false

namespace FormulaSheet

/-- A part of an arithmetic formula. -/
inductive Piece where
  /-- A reference and the address it denotes; its row may be out of reach. -/
  | reference (target : Option Address)
  /-- A character outside the references. -/
  | char (c : Char)
deriving DecidableEq

/-- A formula. -/
inductive Formula where
  /-- The sum over a range; there is none when a corner is no address. -/
  | sum (range : Option Range)
  /-- An arithmetic expression with references. -/
  | arithmetic (pieces : List Piece)
deriving DecidableEq

namespace Formula

/-! ## The sum form -/

/-- Whether a character folds to a small letter of ASCII. -/
def foldsTo (small c : Char) : Bool :=
  c.toLower == small || (small == 's' && c == '\u017f') || (small == 'k' && c == '\u212a')

def foldsToLetter (c : Char) : Bool :=
  c.isAlpha || c == '\u017f' || c == '\u212a'

/-- Reads a corner of a range: a letter and one or more digits. -/
def corner? : List Char → Option (List Char × List Char)
  | [] => none
  | c :: cs =>
    let digits := cs.takeWhile Char.isDigit
    if foldsToLetter c && !digits.isEmpty then some (c :: digits, cs.dropWhile Char.isDigit)
    else none

/-- Reads what stands between the parentheses of a sum, and the closing one. -/
def corners? (cs : List Char) : Option (List Char × List Char) :=
  match corner? cs with
  | some (first, ':' :: rest) =>
    match corner? rest with
    | some (last, [')']) => some (first, last)
    | _ => none
  | _ => none

/-- The two corners of a text that is a sum from end to end. -/
def sumCorners? : List Char → Option (List Char × List Char)
  | s :: u :: m :: '(' :: rest =>
    if foldsTo 's' s && foldsTo 'u' u && foldsTo 'm' m then corners? rest else none
  | _ => none

/-- The range between two corners, if both are addresses. -/
def rangeOfCorners (first last : List Char) : Option Range :=
  match Address.ofChars? first, Address.ofChars? last with
  | some a, some b => some (Range.spanning a b)
  | _, _ => none

/-! ## The arithmetic form -/

/-- A text that has been cut from its end on: the digits it begins with, not yet cut, and the
pieces after them. -/
structure Cut where
  digits : List Char
  pieces : List Piece

/-- All pieces of a text, the digits it begins with being no part of a reference. -/
def Cut.all (cut : Cut) : List Piece :=
  cut.digits.map .char ++ cut.pieces

/-- Puts one character before a text that has been cut. A letter before digits makes a reference
with them. -/
def Cut.cons (c : Char) (cut : Cut) : Cut :=
  -- a digit waits for the letter that may stand before it
  if c.isDigit then { cut with digits := c :: cut.digits }
  else if c.isAlpha && !cut.digits.isEmpty then
    ⟨[], .reference (Address.ofChars? (c :: cut.digits)) :: cut.pieces⟩
  else ⟨[], .char c :: cut.all⟩

/-- Cuts a text into references and the characters between them. -/
def pieces (cs : List Char) : List Piece :=
  (cs.foldr Cut.cons ⟨[], []⟩).all

/-- Reads the text of a formula. Every text is one. -/
def ofChars (cs : List Char) : Formula :=
  match sumCorners? cs with
  | some (first, last) => sum (rangeOfCorners first last)
  | none => arithmetic (pieces cs)

/-! ## Cells -/

/-- The formula that a text written into a cell is, if it begins with the sign of equality. -/
def ofRaw? (raw : String) : Option Formula :=
  match raw.toList with
  | '=' :: body => some (ofChars body)
  | _ => none

end Formula

end FormulaSheet
