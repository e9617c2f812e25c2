/-
The value of a cell, and the value of a text as if it stood in one.

To evaluate is to settle and then to look. A cell that is pending is settled by
a walk that begins with it; any other cell is settled already, and a literal is
noted in the memo for the rest of the pass. A text that stands in no cell is
evaluated in the same way, except that it is on no path and in no memo: the
cells that it reads are settled one after another, a sum stopping at the first
circular one, and its value follows from looking at them.
-/
import FormulaSheet.Evaluation.Walk

set_option autoImplicit false

namespace FormulaSheet

namespace Pass

def settle (s : Store) (p : Pass) (a : Address) : Pass :=
  match p.pending? s a with
  | some f => (p.enter a).walk s [Frame.start s a f]
  | none => p.noteLiteral s a

/-- The value of a cell, and what the pass remembers afterwards. -/
def evaluate (s : Store) (p : Pass) (a : Address) : Value × Pass :=
  let p := p.settle s a
  (p.look s a, p)

/-- The value of a formula that stands in no cell. -/
def evaluateFormula (s : Store) (p : Pass) (f : Formula) : Value × Pass :=
  let p := p.consult s (settle s) f.stopsAtCircular (f.reads s)
  (f.value s (p.look s), p)

/-- The value of a text that stands in no cell. -/
def evaluateRaw (s : Store) (p : Pass) (raw : String) : Value × Pass :=
  match Formula.ofRaw? raw with
  | some f => p.evaluateFormula s f
  | none => (.text raw, p)

end Pass

namespace Store

/-- The value of a cell in a pass of its own. -/
def evaluate (s : Store) (a : Address) : Value :=
  (Pass.initial.evaluate s a).1

/-- The value of a text that stands in no cell, in a pass of its own. -/
def evaluateRaw (s : Store) (raw : String) : Value :=
  (Pass.initial.evaluateRaw s raw).1

end Store

end FormulaSheet
