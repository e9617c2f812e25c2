/-
Values of JSON, read one token at a time.

The reader keeps the arrays and objects that are open, the innermost first, and
with each what it holds so far. A finished value goes into the innermost one. No
nesting is too deep for it, because nothing is nested in the reader itself.

An object keeps all its fields in order, one name twice if it was there twice:
what that means is for those to decide who read the object. A name, like any
string, may lack a text.
-/
import FormulaSheet.Json.Token

set_option autoImplicit false

namespace FormulaSheet

/-- A value of JSON. -/
inductive Json where
  | null
  | bool (b : Bool)
  | number (l : Json.Literal)
  | string (text? : Option (List Char))
  | array (items : List Json)
  | object (fields : List (Option (List Char) × Json))

namespace Json

/-- An array or object that is open, with what it holds so far, the last first. -/
inductive Container where
  | array (items : List Json)
  /-- An object, the name of the field whose value is due, and the fields before it. -/
  | object (fields : List (Option (List Char) × Json)) (name : Option (List Char))

/-- What the reader remembers. -/
inductive State where
  /-- A value is due. -/
  | valueDue (outer : List Container)
  /-- An array has been opened. -/
  | arrayStart (outer : List Container)
  /-- An item of an array has been read. -/
  | arrayNext (items : List Json) (outer : List Container)
  /-- An object has been opened. -/
  | objectStart (outer : List Container)
  /-- The name of a field is due. -/
  | nameDue (fields : List (Option (List Char) × Json)) (outer : List Container)
  /-- The name of a field has been read. -/
  | named (fields : List (Option (List Char) × Json)) (name : Option (List Char))
    (outer : List Container)
  /-- A field of an object has been read. -/
  | objectNext (fields : List (Option (List Char) × Json)) (outer : List Container)
  /-- The value is complete. -/
  | done (v : Json)

namespace State

/-- The state after a value inside the given containers. -/
def complete (v : Json) : List Container → State
  | [] => done v
  | .array items :: outer => arrayNext (v :: items) outer
  | .object fields name :: outer => objectNext ((name, v) :: fields) outer

/-- Reads the first token of a value. -/
def stepValue (outer : List Container) : Token → Option State
  | .null => some (complete .null outer)
  | .bool b => some (complete (.bool b) outer)
  | .number l => some (complete (.number l) outer)
  | .string text? => some (complete (.string text?) outer)
  | .openBracket => some (arrayStart outer)
  | .openBrace => some (objectStart outer)
  -- no value begins with a mark that closes or separates
  | _ => none

def step? : State → Token → Option State
  | valueDue outer, t => stepValue outer t
  | arrayStart outer, .closeBracket => some (complete (.array []) outer)
  | arrayStart outer, t => stepValue (.array [] :: outer) t
  | arrayNext items outer, .comma => some (valueDue (.array items :: outer))
  | arrayNext items outer, .closeBracket => some (complete (.array items.reverse) outer)
  | objectStart outer, .closeBrace => some (complete (.object []) outer)
  | objectStart outer, .string text? => some (named [] text? outer)
  | nameDue fields outer, .string text? => some (named fields text? outer)
  | named fields text? outer, .colon => some (valueDue (.object fields text? :: outer))
  | objectNext fields outer, .comma => some (nameDue fields outer)
  | objectNext fields outer, .closeBrace => some (complete (.object fields.reverse) outer)
  | _, _ => none

def run? (s : State) : List Token → Option State
  | [] => some s
  | t :: ts => match s.step? t with
    | none => none
    | some s => s.run? ts

theorem run?_append (s : State) (ts us : List Token) :
    s.run? (ts ++ us) = (s.run? ts).bind fun s => s.run? us := by
  induction ts generalizing s with
  | nil => rfl
  | cons t ts ih =>
    simp only [List.cons_append, run?]
    cases s.step? t with
    | none => rfl
    | some s => exact ih s

end State

/-- The value that a list of tokens is. -/
def ofTokens? (ts : List Token) : Option Json :=
  match (State.valueDue []).run? ts with
  | some (.done v) => some v
  | _ => none

/-- The value that a text is. -/
def ofChars? (cs : List Char) : Option Json :=
  (tokens? cs).bind ofTokens?

end Json

end FormulaSheet
