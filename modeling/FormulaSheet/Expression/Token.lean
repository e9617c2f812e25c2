/-
Tokens of arithmetic.

An expression is written with numbers, the four operators, parentheses and
blanks. A number is the longest run of digits and points at its place, and the
run as a whole must be one magnitude: `1.2.3` is not the number `1.2` followed
by another, it is no number. The splitter goes from left to right and stops at
the first run or character it cannot take.

A place in the text is counted in bytes of its UTF-8 form.
-/
import FormulaSheet.Decimal.Numeral
import FormulaSheet.Number
import FormulaSheet.Text.Blank
import FormulaSheet.Text.Quoted

set_option autoImplicit false

namespace FormulaSheet.Expression

/-- A token of arithmetic. -/
inductive Token where
  | number (x : Float)
  | plus
  | minus
  | times
  | divide
  | opening
  | closing
deriving DecidableEq

/-- Why an expression has no value. -/
inductive Problem where
  /-- There is no token in it. -/
  | empty
  /-- A character that no token begins with, and the place where it stands. -/
  | character (c : Char) (offset : Nat)
  /-- A run of digits and points that is no number. -/
  | numeral (run : List Char)
  /-- A token that cannot stand where it does. -/
  | token (t : Token)
  /-- The expression ends too early. -/
  | ending
  /-- Too many parentheses and signs are open at once. -/
  | depth
deriving DecidableEq

/-- How many parentheses and signs may be open at once. -/
def depthLimit : Nat := 256

namespace Token

/-- The operator or parenthesis that a character is. -/
def ofChar? : Char → Option Token
  | '+' => some plus
  | '-' => some minus
  | '*' => some times
  | '/' => some divide
  | '(' => some opening
  | ')' => some closing
  | _ => none

/-- How a message calls a token. -/
def describe : Token → String
  | number x => "number " ++ (if x.isInf then "inf" else String.ofList (Number.text x))
  | plus => "'+'"
  | minus => "'-'"
  | times => "'*'"
  | divide => "'/'"
  | opening => "'('"
  | closing => "')'"

end Token

def Problem.message : Problem → String
  | empty => "empty expression"
  | character c offset =>
    "unexpected character " ++ String.ofList (Text.quoteChar c) ++ " at offset " ++ toString offset
  | numeral run => "malformed number " ++ String.ofList (Text.quote run)
  | token t => "unexpected " ++ t.describe
  | ending => "unexpected end of expression"
  | depth => "expression nested deeper than " ++ toString depthLimit ++ " levels"

/-! ## Splitting -/

/-- Whether a character belongs to a run that is to be a number. -/
def isNumeric (c : Char) : Bool :=
  c.isDigit || c == '.'

/-- The number that a run of digits and points denotes when it is one magnitude from end to
end. -/
def number? (run : List Char) : Option Float :=
  match Numeral.magnitude? run with
  | some (d, []) => some d.toFloat
  | _ => none

theorem length_dropWhile_le (p : Char → Bool) (cs : List Char) :
    (cs.dropWhile p).length ≤ cs.length :=
  (List.dropWhile_suffix p).length_le

/-- Splits a text that begins at `offset` into tokens and puts them after `done`, the last of
which comes first. -/
def tokensOnto (done : List Token) (offset : Nat) : List Char → Except Problem (List Token)
  | [] => .ok done.reverse
  | c :: cs =>
    if Text.isBlank c then tokensOnto done (offset + c.utf8Size) cs
    else if isNumeric c then
      let run := c :: cs.takeWhile isNumeric
      match number? run with
      | none => .error (.numeral run)
      | some x => tokensOnto (.number x :: done) (offset + run.length) (cs.dropWhile isNumeric)
    else
      match Token.ofChar? c with
      | none => .error (.character c offset)
      | some t => tokensOnto (t :: done) (offset + c.utf8Size) cs
termination_by cs => cs.length
decreasing_by
  all_goals
    have := length_dropWhile_le isNumeric cs
    simp only [List.length_cons]
    omega

def tokens (cs : List Char) : Except Problem (List Token) :=
  tokensOnto [] 0 cs

end FormulaSheet.Expression
