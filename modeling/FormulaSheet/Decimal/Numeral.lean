/-
Numerals: how a decimal is written in a text.

A magnitude is a run of digits that may hold one point, on either side of which
the digits may be missing but not on both; an exponent is the letter `e` in
either case, a sign if wanted, and at least one digit. Each reader here takes
the longest text of its kind that stands at the beginning and returns what is
left. A half-written exponent is not an exponent, so `12em` is the numeral `12`
followed by `em`.

Only the ten digits of ASCII are digits.
-/
import FormulaSheet.Decimal.Basic

set_option autoImplicit false

namespace FormulaSheet.Numeral

/-- The number that a run of digits denotes. -/
def natural (digits : List Char) : Nat :=
  Nat.ofDigitChars 10 digits 0

/-- Reads a sign that may be missing. The answer is true for a minus. -/
def sign : List Char → Bool × List Char
  | '-' :: cs => (true, cs)
  | '+' :: cs => (false, cs)
  | cs => (false, cs)

/-- Reads digits with at most one point among them. -/
def magnitude? (cs : List Char) : Option (Decimal × List Char) :=
  let whole := cs.takeWhile Char.isDigit
  match cs.dropWhile Char.isDigit with
  | '.' :: tail =>
    let fraction := tail.takeWhile Char.isDigit
    if whole.isEmpty && fraction.isEmpty then none
    else some (⟨natural (whole ++ fraction), -fraction.length⟩, tail.dropWhile Char.isDigit)
  | rest => if whole.isEmpty then none else some (⟨natural whole, 0⟩, rest)

/-- Reads an exponent; where none is written out the answer is zero and nothing is taken. -/
def exponent (cs : List Char) : Int × List Char :=
  match cs with
  | [] => (0, cs)
  | c :: tail =>
    if c = 'e' || c = 'E' then
      let (negative, rest) := sign tail
      let digits := rest.takeWhile Char.isDigit
      -- without a digit the letter is no exponent, and neither is its sign
      if digits.isEmpty then (0, cs)
      else (if negative then -natural digits else natural digits, rest.dropWhile Char.isDigit)
    else (0, cs)

/-- Reads a numeral: a sign, a magnitude and an exponent, of which only the magnitude must be
there. -/
def scan? (cs : List Char) : Option ((Bool × Decimal) × List Char) :=
  let (negative, rest) := sign cs
  match magnitude? rest with
  | none => none
  | some (d, rest) =>
    let (power, rest) := exponent rest
    some ((negative, ⟨d.digits, d.exponent + power⟩), rest)

end FormulaSheet.Numeral
