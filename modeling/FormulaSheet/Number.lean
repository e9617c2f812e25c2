/-
Numbers of the sheet: how a float is shown and how a text is read as one.

A number is shown without an exponent, by the fewest digits that read back, so
that the shown text can be put into a formula and be one operand there. A text
is read by the numeral it begins with: `12kg` is twelve. What no numeral begins
may still name an infinity, because that is how an infinite number is shown.
-/
import FormulaSheet.Decimal.Layout
import FormulaSheet.Decimal.Numeral
import FormulaSheet.Decimal.Shortest
import FormulaSheet.Text.Blank

set_option autoImplicit false

namespace FormulaSheet.Number

open Float.Model (UnpackedFloat)

/-- The infinite float of a sign. -/
def infinite (negative : Bool) : Float :=
  if negative then Float.ofBits 0xFFF0000000000000 else Float.ofBits 0x7FF0000000000000

/-- The word for an infinite number. -/
def infinityWord : List Char := "Infinity".toList

/-! ## Showing -/

/-- Whether a sign is the minus. -/
def isMinus : UnpackedFloat.Sign → Bool
  | .negative => true
  | .positive => false

/-- Whether the positional layout of a decimal, read again under a sign, gives `x`. -/
def readsBack (x : Float) (negative : Bool) (d : Decimal) : Bool :=
  match Numeral.magnitude? d.positional with
  | some (read, []) => read.toSigned negative = x
  | _ => false

/-- The text a number is shown by: no exponent, the fewest digits that read back, of two texts
equally near the larger, and no sign on a zero. -/
def text (x : Float) : List Char :=
  match x.toModel.unpack with
  | .notANumber => "NaN".toList
  | .infinity s => (if isMinus s then ['-'] else []) ++ infinityWord
  | .zero _ => ['0']
  | .finite s mantissa exponent _ =>
    let shortest :=
      Decimal.shortest .up (readsBack x (isMinus s)) (Decimal.ofBinary mantissa exponent)
    (if isMinus s then ['-'] else []) ++ shortest.positional

/-! ## Reading -/

/-- The number a text begins with, blanks before it aside: the longest numeral there or, where no
numeral stands, the word for an infinity after at most one sign. -/
def leading? (cs : List Char) : Option Float :=
  let body := Text.dropBlanks cs
  match Numeral.scan? body with
  | some ((negative, d), _) => some (d.toSigned negative)
  | none =>
    let (negative, rest) := Numeral.sign body
    if infinityWord.isPrefixOf rest then some (infinite negative) else none

end FormulaSheet.Number
