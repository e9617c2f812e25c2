/-
Layouts: where the point goes when a decimal is written out.

A decimal is laid out from two facts: its digits without the zeros they end in,
and the number of them that stand before the point. Both are the same for every
way to write the decimal as units and a power of ten, so a layout depends on the
quantity alone. The positional layout uses no exponent, whatever the quantity:
it puts as many zeros as it needs on either side.
-/
import FormulaSheet.Decimal.Basic

set_option autoImplicit false

namespace FormulaSheet.Decimal

/-- The digits of a decimal without the zeros they end in. -/
def significant (d : Decimal) : List Char :=
  ((Nat.toDigits 10 d.digits).reverse.dropWhile (· == '0')).reverse

/-- How many places before the point the first digit stands; not positive when the decimal is
below one tenth of one. -/
def point (d : Decimal) : Int :=
  (Nat.toDigits 10 d.digits).length + d.exponent

/-- The part before the point in positional layout. -/
def wholePart (d : Decimal) : List Char :=
  if d.point ≤ 0 then ['0']
  else
    let digits := d.significant
    digits.take d.point.toNat ++ List.replicate (d.point.toNat - digits.length) '0'

/-- The part after the point in positional layout, empty for a whole quantity. -/
def fractionPart (d : Decimal) : List Char :=
  if d.point ≤ 0 then List.replicate (-d.point).toNat '0' ++ d.significant
  else d.significant.drop d.point.toNat

/-- The positional layout: a point only where there is a fraction, and never an exponent. -/
def positional (d : Decimal) : List Char :=
  match d.fractionPart with
  | [] => d.wholePart
  | fraction => d.wholePart ++ '.' :: fraction

end FormulaSheet.Decimal
