/-
Reading arithmetic, one token at a time.

The grammar has sums of products of signed operands, and an operand is a number
or an expression in parentheses:

    expression → term ((+ | -) term)*
    term       → factor ((* | /) factor)*
    factor     → (+ | -) factor | operand
    operand    → number | ( expression )

The reader goes over the tokens once and never looks ahead. What it has to
remember at any moment is small: for each open parenthesis, the outermost text
counted as one, the sum so far with the sign that follows it, the product so far
with the operator that follows it, and the signs in front of the operand that is
due. A finished operand takes its signs, closes its product and waits for an
operator. All arithmetic is done as soon as both sides are there, so equal
precedence groups to the left.

A token that the state cannot take is the first one that no continuation could
save, and the error is decided there; what stands after it does not matter.
-/
import FormulaSheet.Expression.Token

set_option autoImplicit false

namespace FormulaSheet.Expression

/-- The two operators of a sum. -/
inductive SumOp where
  | add
  | sub
deriving DecidableEq

/-- The two operators of a product. -/
inductive ProductOp where
  | mul
  | div
deriving DecidableEq

def SumOp.apply : SumOp → Float → Float → Float
  | add, x, y => x + y
  | sub, x, y => x - y

def ProductOp.apply : ProductOp → Float → Float → Float
  | mul, x, y => x * y
  | div, x, y => x / y

/-- The value of a signed operand; the sum operator stands for the sign. -/
def SumOp.sign : SumOp → Float → Float
  | add, x => x
  | sub, x => -x

/-- What has been read inside one pair of parentheses while an operand is due. -/
structure Level where
  /-- The terms so far and the operator after them. -/
  sum : Option (Float × SumOp) := none
  /-- The factors of the last term so far and the operator after them. -/
  product : Option (Float × ProductOp) := none
  /-- The signs before the operand, the last one first. -/
  signs : List SumOp := []
deriving DecidableEq

namespace Level

/-- An operand under the signs in front of it. -/
def signed (l : Level) (x : Float) : Float :=
  l.signs.foldl (fun y s => s.sign y) x

/-- The value of the term that an operand ends. -/
def factor (l : Level) (x : Float) : Float :=
  match l.product with
  | none => l.signed x
  | some (y, op) => op.apply y (l.signed x)

end Level

/-- What the reader remembers. The levels around the innermost one come from the inside out. -/
inductive State where
  /-- An operand is due. -/
  | operand (level : Level) (outer : List Level)
  /-- An operand has been read: `term` is the last term so far. -/
  | operator (sum : Option (Float × SumOp)) (term : Float) (outer : List Level)
deriving DecidableEq

namespace State

/-- Nothing has been read. -/
def initial : State := .operand {} []

/-- The parentheses and signs around the innermost level. -/
def depthOf : List Level → Nat
  | [] => 0
  | l :: outer => l.signs.length + 1 + depthOf outer

/-- The parentheses and signs that are open. -/
def depth : State → Nat
  | operand level outer => level.signs.length + depthOf outer
  | operator _ _ outer => depthOf outer

/-- The value of a sum that a term ends. -/
def total (sum : Option (Float × SumOp)) (term : Float) : Float :=
  match sum with
  | none => term
  | some (x, op) => op.apply x term

/-- The state after an operand of value `x`. -/
def complete (level : Level) (outer : List Level) (x : Float) : State :=
  .operator level.sum (level.factor x) outer

/-- Opens one more parenthesis or sign, if there may be one more. -/
def deepen (s : State) (next : State) : Except Problem State :=
  if s.depth < depthLimit then .ok next else .error .depth

/-- Reads one token where an operand is due. -/
def stepOperand (level : Level) (outer : List Level) : Token → Except Problem State
  | .number x => .ok (complete level outer x)
  -- a sign and a parenthesis go one level deeper, and only here the limit can be reached
  | .plus =>
    deepen (operand level outer) (operand { level with signs := .add :: level.signs } outer)
  | .minus =>
    deepen (operand level outer) (operand { level with signs := .sub :: level.signs } outer)
  | .opening => deepen (operand level outer) (operand {} (level :: outer))
  | t => .error (.token t)

/-- Reads one token after an operand. -/
def stepOperator (sum : Option (Float × SumOp)) (term : Float) (outer : List Level) :
    Token → Except Problem State
  | .plus => .ok (operand { sum := some (total sum term, .add) } outer)
  | .minus => .ok (operand { sum := some (total sum term, .sub) } outer)
  | .times => .ok (operand { sum, product := some (term, .mul) } outer)
  | .divide => .ok (operand { sum, product := some (term, .div) } outer)
  | .closing => match outer with
    -- nothing is open that could be closed
    | [] => .error (.token .closing)
    | level :: outer => .ok (complete level outer (total sum term))
  | t => .error (.token t)

def step : State → Token → Except Problem State
  | operand level outer, t => stepOperand level outer t
  | operator sum term outer, t => stepOperator sum term outer t

/-- The value that has been read when the text ends here. -/
def finish : State → Except Problem Float
  | operator sum term [] => .ok (total sum term)
  | _ => .error .ending

def run (s : State) : List Token → Except Problem State
  | [] => .ok s
  | t :: ts => match s.step t with
    | .error e => .error e
    | .ok s => s.run ts

/-! ## Runs in two parts -/

theorem run_append (s : State) (ts us : List Token) :
    s.run (ts ++ us) = match s.run ts with
      | .error e => .error e
      | .ok s => s.run us := by
  induction ts generalizing s with
  | nil => rfl
  | cons t ts ih =>
    simp only [List.cons_append, run]
    cases s.step t with
    | error e => rfl
    | ok s => exact ih s

end State

/-- The value of a list of tokens. -/
def valueOfTokens (ts : List Token) : Except Problem Float :=
  match State.initial.run ts with
  | .error e => .error e
  | .ok s => s.finish

def value (cs : List Char) : Except Problem Float :=
  match tokens cs with
  | .error e => .error e
  | .ok [] => .error .empty
  | .ok ts => valueOfTokens ts

end FormulaSheet.Expression
