/-
Strings in JSON.

A string is written between double quotes. The quote, the backslash and the
control characters below the space are escaped, the usual five by a letter and
the rest by four hexadecimal digits; every other character stands for itself.

The reader takes more than the writer gives: any character may come as an
escape, and one beyond the sixteen-bit range comes as two of them, a pair of
halves. A half that is not part of a pair denotes no character. Such a string is
well formed all the same, so the reader gives back that it has no text rather
than that it is no string.
-/
import FormulaSheet.Text.Hexadecimal

set_option autoImplicit false

namespace FormulaSheet.Json

/-! ## Writing -/

/-- A character as it stands in a string. -/
def escape (c : Char) : List Char :=
  if c = '"' then ['\\', '"']
  else if c = '\\' then ['\\', '\\']
  else if c = '\x08' then ['\\', 'b']
  else if c = '\t' then ['\\', 't']
  else if c = '\n' then ['\\', 'n']
  else if c = '\x0c' then ['\\', 'f']
  else if c = '\r' then ['\\', 'r']
  else if c.toNat < 32 then
    ['\\', 'u', '0', '0', Text.hexDigit (c.toNat / 16), Text.hexDigit (c.toNat % 16)]
  else [c]

def quote (cs : List Char) : List Char :=
  '"' :: cs.flatMap escape ++ ['"']

/-! ## Reading -/

/-- What an escape or a plain character contributes: a character, or half of one. -/
inductive Part where
  | char (c : Char)
  | half (n : Nat)
deriving DecidableEq

/-- Whether a sixteen-bit number is the first half of a pair. -/
def isHighHalf (n : Nat) : Bool := 0xD800 ≤ n && n < 0xDC00

/-- Whether a sixteen-bit number is the second half of a pair. -/
def isLowHalf (n : Nat) : Bool := 0xDC00 ≤ n && n < 0xE000

/-- What a sixteen-bit number contributes. -/
def Part.ofNumber (n : Nat) : Part :=
  if isHighHalf n || isLowHalf n then half n else char (Char.ofNat n)

/-- The character that a backslash and a letter or mark denote. -/
def letterEscape? : Char → Option Char
  | '"' => some '"'
  | '\\' => some '\\'
  | '/' => some '/'
  | 'b' => some '\x08'
  | 'f' => some '\x0c'
  | 'n' => some '\n'
  | 'r' => some '\r'
  | 't' => some '\t'
  | _ => none

/-- Reads the rest of a string after its opening quote, up to the closing one, and puts its parts
after `done`, the last of which comes first. -/
def partsOnto? (done : List Part) : List Char → Option (List Part × List Char)
  | [] => none
  | '"' :: rest => some (done.reverse, rest)
  | '\\' :: 'u' :: a :: b :: c :: d :: rest =>
    match Text.hexNumber? [a, b, c, d] with
    | none => none
    | some n => partsOnto? (.ofNumber n :: done) rest
  | '\\' :: c :: rest =>
    match letterEscape? c with
    | none => none
    | some c => partsOnto? (.char c :: done) rest
  | c :: rest => if c.toNat < 32 || c = '\\' then none else partsOnto? (.char c :: done) rest

def parts? (cs : List Char) : Option (List Part × List Char) :=
  partsOnto? [] cs

/-- The text of the parts of a string, put after `done`, the last character of which comes first;
none when a half has no partner. -/
def textOnto? (done : List Char) : List Part → Option (List Char)
  | [] => some done.reverse
  | .char c :: rest => textOnto? (c :: done) rest
  | .half high :: .half low :: rest =>
    -- ten bits of the character are in either half
    if isHighHalf high && isLowHalf low then
      textOnto? (Char.ofNat (0x10000 + (high - 0xD800) * 0x400 + (low - 0xDC00)) :: done) rest
    else none
  | .half _ :: _ => none

def textOfParts? (parts : List Part) : Option (List Char) :=
  textOnto? [] parts

/-! ## What is left is shorter -/

theorem length_lt_of_partsOnto? {done parts : List Part} {cs rest : List Char}
    (h : partsOnto? done cs = some (parts, rest)) : rest.length < cs.length := by
  fun_induction partsOnto? done cs with
  | case1 => simp at h
  | case2 => simp_all
  | case3 | case5 | case7 => simp at h
  | case4 _ _ _ _ _ _ _ _ ih | case6 _ _ _ _ _ _ ih | case8 _ _ _ _ _ _ _ ih =>
    have := ih h
    simp only [List.length_cons]
    omega

theorem length_lt_of_parts? {cs rest : List Char} {parts : List Part}
    (h : parts? cs = some (parts, rest)) : rest.length < cs.length :=
  length_lt_of_partsOnto? h

end FormulaSheet.Json
