/-
Tokens of JSON: six marks, three words, numbers and strings.

Between tokens there may be spaces, tabs, line feeds and carriage returns, and
no other blanks. Two tokens need nothing between them; where that would let a
malformed number or word pass as two tokens, the reader of values objects,
because no two values ever stand side by side.
-/
import FormulaSheet.Json.Number
import FormulaSheet.Json.Quoted

set_option autoImplicit false

namespace FormulaSheet.Json

/-- A token of JSON. -/
inductive Token where
  | openBrace
  | closeBrace
  | openBracket
  | closeBracket
  | colon
  | comma
  | null
  | bool (b : Bool)
  | number (l : Literal)
  /-- A string, with its text if it has one. -/
  | string (text? : Option (List Char))
deriving DecidableEq

/-- The mark that a character is. -/
def mark? : Char → Option Token
  | '\x7b' => some .openBrace
  | '\x7d' => some .closeBrace
  | '[' => some .openBracket
  | ']' => some .closeBracket
  | ':' => some .colon
  | ',' => some .comma
  | _ => none

/-- Whether a character may stand between tokens. -/
def isSpace (c : Char) : Bool :=
  c == ' ' || c == '\t' || c == '\n' || c == '\r'

def word? : List Char → Option (Token × List Char)
  | 'n' :: 'u' :: 'l' :: 'l' :: rest => some (.null, rest)
  | 't' :: 'r' :: 'u' :: 'e' :: rest => some (.bool true, rest)
  | 'f' :: 'a' :: 'l' :: 's' :: 'e' :: rest => some (.bool false, rest)
  | _ => none

def token? : List Char → Option (Token × List Char)
  | [] => none
  | c :: rest =>
    match mark? c with
    | some t => some (t, rest)
    | none =>
      if c = '"' then (parts? rest).map fun (parts, rest) => (.string (textOfParts? parts), rest)
      else if c = '-' || c.isDigit then
        (Literal.scan? (c :: rest)).map fun (l, rest) => (.number l, rest)
      else word? (c :: rest)

theorem length_lt_of_word? {cs rest : List Char} {t : Token} (h : word? cs = some (t, rest)) :
    rest.length < cs.length := by
  unfold word? at h
  split at h
  all_goals
    simp_all
  all_goals
    obtain ⟨_, rfl⟩ := h
    omega

theorem length_lt_of_token? {cs rest : List Char} {t : Token} (h : token? cs = some (t, rest)) :
    rest.length < cs.length := by
  unfold token? at h
  split at h
  · simp at h
  · next c cs =>
    split at h
    · simp_all
    · split at h
      · simp only [Option.map_eq_some_iff, Prod.mk.injEq, Prod.exists] at h
        obtain ⟨_, _, hp, _, rfl⟩ := h
        exact Nat.lt_succ_of_lt (length_lt_of_parts? hp)
      · split at h
        · simp only [Option.map_eq_some_iff, Prod.mk.injEq, Prod.exists] at h
          obtain ⟨_, _, hp, _, rfl⟩ := h
          exact Literal.length_lt_of_scan? hp
        · exact length_lt_of_word? h

/-- Splits a text into tokens and puts them after `done`, the last of which comes first. -/
def tokensOnto? (done : List Token) (cs : List Char) : Option (List Token) :=
  match cs with
  | [] => some done.reverse
  | c :: rest =>
    if isSpace c then tokensOnto? done rest
    else
      match _h : token? (c :: rest) with
      | none => none
      | some (t, rest) => tokensOnto? (t :: done) rest
termination_by cs.length
decreasing_by
  · simp
  · exact length_lt_of_token? _h

def tokens? (cs : List Char) : Option (List Token) :=
  tokensOnto? [] cs

end FormulaSheet.Json
