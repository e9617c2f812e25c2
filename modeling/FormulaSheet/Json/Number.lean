/-
Numbers in JSON, and the text that one leaves behind.

A number is kept as it was written until somebody wants it. What is wanted here
is a text: a whole number in the range of 64 bits, with or without a sign,
stays the number it is, and everything else becomes a float first.

That float is found by a simple rule and not by correct rounding. Of the digits
only as many are taken as fit into 64 bits; they are rounded to a float, and that
is multiplied or divided by the power of ten that the place of the point and the
exponent ask for. So the last place of a long number may be off by one unit. A
number too large for a float is no number.
-/
import FormulaSheet.Number

set_option autoImplicit false

namespace FormulaSheet.Json

/-- A number as it is written: a sign, the digits before the point, those after it if there is
one, and the sign and the digits of the exponent if there is one. -/
structure Literal where
  negative : Bool
  whole : List Char
  fraction : List Char
  exponent : Option (Bool × List Char)
deriving DecidableEq

namespace Literal

/-! ## Reading -/

def digits? (cs : List Char) : Option (List Char × List Char) :=
  let digits := cs.takeWhile Char.isDigit
  if digits.isEmpty then none else some (digits, cs.dropWhile Char.isDigit)

/-- Reads the digits before the point: a zero alone, or digits that begin with another. -/
def whole? : List Char → Option (List Char × List Char)
  | '0' :: rest => some (['0'], rest)
  | cs => digits? cs

/-- Reads the digits after the point; none where no point stands. -/
def fraction? : List Char → Option (List Char × List Char)
  | '.' :: rest => digits? rest
  | cs => some ([], cs)

/-- Reads an exponent after its letter. -/
def power? (cs : List Char) : Option ((Bool × List Char) × List Char) :=
  let (negative, rest) := Numeral.sign cs
  match digits? rest with
  | none => none
  | some (digits, rest) => some ((negative, digits), rest)

/-- Reads an exponent; none where its letter does not stand. -/
def exponent? : List Char → Option (Option (Bool × List Char) × List Char)
  | 'e' :: rest => (power? rest).map fun (power, rest) => (some power, rest)
  | 'E' :: rest => (power? rest).map fun (power, rest) => (some power, rest)
  | cs => some (none, cs)

/-- Reads a minus that may be missing. -/
def minus : List Char → Bool × List Char
  | '-' :: rest => (true, rest)
  | cs => (false, cs)

def scan? (cs : List Char) : Option (Literal × List Char) :=
  let (negative, rest) := minus cs
  match whole? rest with
  | none => none
  | some (whole, rest) =>
    match fraction? rest with
    | none => none
    | some (fraction, rest) =>
      match exponent? rest with
      | none => none
      | some (exponent, rest) => some (⟨negative, whole, fraction, exponent⟩, rest)

/-! ## The float of a number -/

/-- One more than the largest number of 64 bits. -/
def wordLimit : Nat := 18446744073709551616

/-- Takes digits for as long as the number that they make fits into 64 bits. -/
def takeFitting (n : Nat) : List Char → Nat × List Char
  | [] => (n, [])
  | d :: rest =>
    let m := 10 * n + (d.toNat - 48)
    if m < wordLimit then takeFitting m rest else (n, d :: rest)

/-- Multiplies or divides by a power of ten, in one step if it is a float; none where the result
is too large. -/
def scale? (x : Float) (power : Int) : Option Float :=
  -- ten to the power of 308 is the largest that is a float
  if power.natAbs ≤ 308 then
    let unit := Decimal.toFloat ⟨1, power.natAbs⟩
    if 0 ≤ power then
      let y := x * unit
      if y.isInf then none else some y
    else some (x / unit)
  else if x == 0 then some x
  else if 0 ≤ power then none
  else scale? (x / Decimal.toFloat ⟨1, 308⟩) (power + 308)
termination_by power.natAbs
decreasing_by omega

def power (l : Literal) : Int :=
  match l.exponent with
  | none => 0
  | some (true, digits) => -Numeral.natural digits
  | some (false, digits) => Numeral.natural digits

/-- The float of a number without its sign. -/
def magnitude? (l : Literal) : Option Float :=
  let (n, tens) := takeFitting 0 l.whole
  -- digits left over before the point count as places, those after it do not count at all
  let (n, ignored) := takeFitting n l.fraction
  let places : Int := l.fraction.length - ignored.length
  scale? n.toUInt64.toFloat (tens.length - places + l.power)

/-! ## Text -/

/-- The text of a positive float with digits `d`: positional with at least one digit after the
point when the first digit stands between the fifth place after the point and the sixteenth before
it, otherwise one digit before the point and an exponent with its sign. -/
def floatText (d : Decimal) : List Char :=
  let exponent := d.point - 1
  if -5 ≤ exponent ∧ exponent ≤ 15 then
    d.wholePart ++ '.' :: (if d.fractionPart.isEmpty then ['0'] else d.fractionPart)
  else
    let tail := d.significant.drop 1
    d.significant.take 1 ++ (if tail.isEmpty then [] else '.' :: tail)
      ++ 'e' :: (if 0 ≤ exponent then '+' else '-') :: Nat.toDigits 10 exponent.natAbs

/-- The text of a float that is not negative; of two texts equally near the even one. -/
def magnitudeText (x : Float) : List Char :=
  match x.toModel.unpack with
  | .finite _ mantissa exponent _ =>
    floatText
      (Decimal.shortest .toEven (fun d => d.toFloat = x) (Decimal.ofBinary mantissa exponent))
  | _ => "0.0".toList

/-- The whole number that is written, if it is written without point and exponent and fits into 64
bits; the zero with a sign is none. -/
def whole64? (l : Literal) : Option Nat :=
  match takeFitting 0 l.whole, l.fraction, l.exponent with
  | (n, []), [], none =>
    -- with a sign the range is that of 64 bits with a sign
    if l.negative && (n = 0 || 9223372036854775808 < n) then none else some n
  | _, _, _ => none

/-- The text that a number leaves behind; none where it is too large. -/
def text? (l : Literal) : Option (List Char) :=
  let body? := match l.whole64? with
    | some n => some (Nat.toDigits 10 n)
    | none => l.magnitude?.map magnitudeText
  body?.map fun body => if l.negative then '-' :: body else body

/-! ## What is left is shorter -/

theorem length_lt_of_digits? {cs digits rest : List Char} (h : digits? cs = some (digits, rest)) :
    rest.length < cs.length := by
  unfold digits? at h
  simp only at h
  split at h
  · simp at h
  · next hne =>
    simp only [Option.some.injEq, Prod.mk.injEq] at h
    have hsum :=
      congrArg List.length (List.takeWhile_append_dropWhile (p := Char.isDigit) (l := cs))
    rw [List.length_append, h.2] at hsum
    have : 0 < (cs.takeWhile Char.isDigit).length :=
      List.length_pos_iff.2 fun he => hne (by rw [he]; rfl)
    omega

theorem length_lt_of_whole? {cs whole rest : List Char} (h : whole? cs = some (whole, rest)) :
    rest.length < cs.length := by
  unfold whole? at h
  split at h
  · simp_all
  · exact length_lt_of_digits? h

theorem length_le_of_fraction? {cs fraction rest : List Char}
    (h : fraction? cs = some (fraction, rest)) : rest.length ≤ cs.length := by
  unfold fraction? at h
  split at h
  · have := length_lt_of_digits? h
    simp only [List.length_cons]
    omega
  · simp_all

theorem length_sign_le (cs : List Char) : (Numeral.sign cs).2.length ≤ cs.length := by
  unfold Numeral.sign
  split <;> simp

theorem length_lt_of_power? {cs rest : List Char} {power : Bool × List Char}
    (h : power? cs = some (power, rest)) :
    rest.length < cs.length := by
  unfold power? at h
  simp only at h
  split at h
  · simp at h
  · next hd =>
    simp only [Option.some.injEq, Prod.mk.injEq] at h
    have := length_lt_of_digits? hd
    have := length_sign_le cs
    rw [← h.2]
    omega

theorem length_le_of_exponent? {cs rest : List Char} {exponent : Option (Bool × List Char)}
    (h : exponent? cs = some (exponent, rest)) : rest.length ≤ cs.length := by
  unfold exponent? at h
  split at h
  · simp only [Option.map_eq_some_iff, Prod.mk.injEq, Prod.exists] at h
    obtain ⟨_, _, _, hp, _, rfl⟩ := h
    have := length_lt_of_power? hp
    simp only [List.length_cons]
    omega
  · simp only [Option.map_eq_some_iff, Prod.mk.injEq, Prod.exists] at h
    obtain ⟨_, _, _, hp, _, rfl⟩ := h
    have := length_lt_of_power? hp
    simp only [List.length_cons]
    omega
  · simp_all

theorem length_minus_le (cs : List Char) : (minus cs).2.length ≤ cs.length := by
  unfold minus
  split <;> simp

theorem length_lt_of_scan? {cs rest : List Char} {l : Literal} (h : scan? cs = some (l, rest)) :
    rest.length < cs.length := by
  unfold scan? at h
  simp only at h
  split at h
  · simp at h
  · next hw =>
    split at h
    · simp at h
    · next hf =>
      split at h
      · simp at h
      · next he =>
        simp only [Option.some.injEq, Prod.mk.injEq] at h
        have := length_minus_le cs
        have := length_lt_of_whole? hw
        have := length_le_of_fraction? hf
        have := length_le_of_exponent? he
        rw [← h.2]
        omega

end Literal

end FormulaSheet.Json
