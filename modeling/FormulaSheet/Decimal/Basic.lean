/-
Decimals: a natural number of units at some power of ten.

A decimal is what stands between a text and a float in both directions. The
reader of numbers makes one from the digits it finds and rounds it once, in
`Decimal.toFloat`; the printer of numbers looks for the shortest one that
`Decimal.toFloat` takes back to the float it has to print. Because both go
through the same function, "the printed number reads back" is a statement about
one rounding and not about two.
-/
set_option autoImplicit false

namespace FormulaSheet

/-- The decimal `digits · 10 ^ exponent`. -/
structure Decimal where
  /-- The units, with any zeros they begin with lost. -/
  digits : Nat
  /-- The power of ten that one unit is worth. -/
  exponent : Int
deriving DecidableEq

namespace Decimal

/-- The float nearest to a decimal, ties to the even one; too large a decimal is infinite. -/
def toFloat (d : Decimal) : Float :=
  match d.exponent with
  | .ofNat e => Float.ofScientific d.digits false e
  | .negSucc e => Float.ofScientific d.digits true (e + 1)

/-- The float nearest to a decimal with a sign. The sign of a zero is kept. -/
def toSigned (negative : Bool) (d : Decimal) : Float :=
  if negative then -d.toFloat else d.toFloat

/-- The decimal that is exactly `mantissa · 2 ^ exponent`: a half is five tenths. -/
def ofBinary (mantissa : Nat) : Int → Decimal
  | .ofNat e => ⟨mantissa * Nat.pow 2 e, 0⟩
  | .negSucc e => ⟨mantissa * Nat.pow 5 (e + 1), .negSucc e⟩

/-- The decimal without its last `places` digits. -/
def dropDigits (d : Decimal) (places : Nat) : Decimal :=
  ⟨d.digits / Nat.pow 10 places, d.exponent + places⟩

/-- The next decimal with the same number of places. -/
def next (d : Decimal) : Decimal :=
  ⟨d.digits + 1, d.exponent⟩

end Decimal

end FormulaSheet
