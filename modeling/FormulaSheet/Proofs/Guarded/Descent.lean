/-
Reading arithmetic by functions that call one another.

The reader of expressions goes over the tokens once and keeps what it has to
remember in a state. Here the grammar is read the other way, by one function for
each of its rules. They share a cursor: a place in the list of tokens, and a count
of the signs and parentheses that are open. The place may be moved only over a
token, the count may neither overflow nor fall below zero, and the calls inside
one another are numbered: each operand takes one level from those that are left,
and where none is left there is a fault.

The two ways agree, for each list of tokens (`value_eq`), and this needs one level
more than signs and parentheses may be open at once. What carries the proof is
that a cursor stands where the reader would stand in a certain state (`At`). The
value of the whole list, read on from there, is the same at every call, so it is
the one thing that all rules speak of.
-/
import FormulaSheet.Proofs.Guarded.Operation

set_option autoImplicit false

namespace FormulaSheet.Guarded

open Expression (Token SumOp ProductOp Level depthLimit)

/-! ## The rules -/

/-- A place in a list of tokens, and how many signs and parentheses are open there. -/
structure Cursor where
  position : Nat
  depth : Nat

/-- The value of a list of tokens, or what is wrong with it. -/
abbrev Outcome := Except Expression.Problem Float

/-- Work on tokens. That something is wrong with them is a result, and no fault. -/
abbrev Attempt := ExceptT Expression.Problem (Except Fault)

/-- Reads a part of the tokens from a cursor on. -/
abbrev Reading := Cursor → Attempt (Float × Cursor)

namespace Cursor

/-- The token at the place. -/
def peek (q : Cursor) (ts : List Token) : Option Token :=
  ts[q.position]?

/-- Moves over a token. Behind the last one this is a fault. -/
def advance (q : Cursor) (ts : List Token) : Except Fault Cursor :=
  if q.position < ts.length then .ok { q with position := q.position + 1 } else .error .position

/-- Opens a sign or a parenthesis. -/
def descend (q : Cursor) : Attempt Cursor := do
  let depth ← add wordLimit q.depth 1
  if depthLimit < depth then throw .depth
  return { q with depth }

/-- Closes a sign or a parenthesis. -/
def ascend (q : Cursor) : Except Fault Cursor := do
  let depth ← sub q.depth 1
  return { q with depth }

end Cursor

/-- What a token does to the numbers before and after it in a sum. -/
def sumOp? : Token → Option SumOp
  | .plus => some .add
  | .minus => some .sub
  | _ => none

/-- What a token does to the numbers before and after it in a product. -/
def productOp? : Token → Option ProductOp
  | .times => some .mul
  | .divide => some .div
  | _ => none

/-- More operands after a number, each behind an operator, for so many turns at most. -/
def more (ts : List Token) (operator? : Token → Option (Float → Float → Float))
    (operand : Reading) : Nat → Float → Reading
  | 0, _, _ => liftM (Except.error Fault.endless)
  | turns + 1, x, q =>
    match (q.peek ts).bind operator? with
    | none => return (x, q)
    | some op => do
      let q ← q.advance ts
      let (y, q) ← operand q
      more ts operator? operand turns (op x y) q

/-- Operands with operators between them, grouped to the left. -/
def operands (ts : List Token) (operator? : Token → Option (Float → Float → Float))
    (operand : Reading) : Reading := fun q => do
  let (x, q) ← operand q
  more ts operator? operand (ts.length + 1) x q

def term (ts : List Token) (unary : Reading) : Reading :=
  operands ts (fun t => (productOp? t).map ProductOp.apply) unary

def expr (ts : List Token) (unary : Reading) : Reading :=
  operands ts (fun t => (sumOp? t).map SumOp.apply) (term ts unary)

/-- Reads the parenthesis that closes an expression of value `x`. -/
def close (ts : List Token) (x : Float) : Reading := fun q =>
  match q.peek ts with
  | none => throw .ending
  | some .closing => do
    let q ← q.advance ts
    return (x, ← q.ascend)
  | some t => throw (.token t)

/-- Reads a number or an expression in parentheses. -/
def primary (ts : List Token) (unary : Reading) : Reading := fun q =>
  match q.peek ts with
  | none => throw .ending
  | some t => do
    let q ← q.advance ts
    match t with
    | .number x => return (x, q)
    | .opening =>
      let q ← q.descend
      let (x, q) ← expr ts unary q
      close ts x q
    | t => throw (.token t)

/-- Reads an operand with its signs, by at most so many calls inside one another. -/
def unary (ts : List Token) : Nat → Reading
  | 0, _ => liftM (Except.error Fault.nesting)
  | levels + 1, q =>
    match (q.peek ts).bind sumOp? with
    | some op => do
      let q ← q.advance ts
      let q ← q.descend
      let (x, q) ← unary ts levels q
      return (op.sign x, ← q.ascend)
    | none => primary ts (unary ts levels) q

/-- Reads all of the tokens. -/
def valueOfTokens (levels : Nat) (ts : List Token) : Except Fault Outcome := do
  match ← (expr ts (unary ts levels) ⟨0, 0⟩).run with
  | .error e => return .error e
  | .ok (x, q) => match q.peek ts with
    | none => return .ok x
    | some t => return .error (.token t)

/-- The value of a text, by at most so many calls inside one another. -/
def value (levels : Nat) (cs : List Char) : Except Fault Outcome :=
  match Expression.tokens cs with
  | .error e => return .error e
  | .ok [] => return .error .empty
  | .ok ts => valueOfTokens levels ts

/-! ## The value that is left to read -/

/-- The value that the reader of expressions gives from a state on. -/
def valueFrom (st : Expression.State) (ts : List Token) : Outcome :=
  match st.run ts with
  | .error e => .error e
  | .ok st => st.finish

theorem valueFrom_cons (st : Expression.State) (t : Token) (ts : List Token) :
    valueFrom st (t :: ts) = match st.step t with
      | .error e => .error e
      | .ok st => valueFrom st ts := by
  unfold valueFrom
  rw [Expression.State.run]
  cases st.step t <;> rfl

/-- After an operand that no product goes on from, a term counts as a sum by itself. -/
theorem valueFrom_operator (sum : Option (Float × SumOp)) (x : Float) (outer : List Level)
    {ts : List Token} (h : ∀ t, ts.head? = some t → productOp? t = none) :
    valueFrom (.operator sum x outer) ts
      = valueFrom (.operator none (Expression.State.total sum x) outer) ts := by
  cases ts with
  | nil => cases outer <;> rfl
  | cons t ts =>
    have ht := h t rfl
    rw [valueFrom_cons, valueFrom_cons]
    cases t with
    | times => cases ht
    | divide => cases ht
    | closing => cases outer <;> rfl
    | number x => rfl
    | plus => rfl
    | minus => rfl
    | opening => rfl

/-! ## Where a cursor stands -/

section Cursors

variable {ts : List Token} {v : Outcome} {q r : Cursor} {t : Token}
  {st st' : Expression.State} {after after' : Float → Expression.State} {ends ends' : Token → Prop}

/-- A cursor stands where the reader would be in a state: `v` is the value of all tokens, and that
of those that are left. -/
structure At (ts : List Token) (v : Outcome) (q : Cursor) (st : Expression.State) :
    Prop where
  within : q.position ≤ ts.length
  value : valueFrom st (ts.drop q.position) = v

theorem drop_of_peek (h : q.peek ts = some t) :
    ts.drop q.position = t :: ts.drop (q.position + 1) := by
  obtain ⟨hlt, rfl⟩ := List.getElem?_eq_some_iff.mp h
  exact List.drop_eq_getElem_cons hlt

theorem drop_of_peek_eq_none (h : q.peek ts = none) : ts.drop q.position = [] :=
  List.drop_eq_nil_of_le (List.getElem?_eq_none_iff.mp h)

theorem head?_drop (q : Cursor) (ts : List Token) : (ts.drop q.position).head? = q.peek ts :=
  List.head?_drop

/-- To move over a token is safe. -/
theorem advance_eq (h : q.peek ts = some t) :
    q.advance ts = .ok { q with position := q.position + 1 } :=
  if_pos (List.getElem?_eq_some_iff.mp h).1

/-- A token that the reader takes is moved over. -/
theorem At.advance (h : At ts v q st) (hpeek : q.peek ts = some t) (hstep : st.step t = .ok st') :
    At ts v { q with position := q.position + 1 } st' where
  within := (List.getElem?_eq_some_iff.mp hpeek).1
  value := by
    rw [← h.value, drop_of_peek hpeek, valueFrom_cons, hstep]

/-- A token that the reader cannot take decides the value. -/
theorem At.eq_error (h : At ts v q st) (hpeek : q.peek ts = some t) {e : Expression.Problem}
    (hstep : st.step t = .error e) : v = .error e := by
  rw [← h.value, drop_of_peek hpeek, valueFrom_cons, hstep]

theorem At.eq_finish (h : At ts v q st) (hpeek : q.peek ts = none) : v = st.finish := by
  rw [← h.value, drop_of_peek_eq_none hpeek]
  rfl

/-- What a reading from a cursor on does. It reads a number and gets to where the reader is `after`
it, with as much open as before and at one of the tokens that it ends at; or it finds what is wrong
with all tokens. It has no fault. -/
inductive Agrees (ts : List Token) (v : Outcome) (q : Cursor)
    (after : Float → Expression.State) (ends : Token → Prop) :
    Attempt (Float × Cursor) → Prop
  | number {x : Float} {r : Cursor} (depth : r.depth = q.depth) (le : q.position ≤ r.position)
      (stands : At ts v r (after x)) (next : ∀ t, r.peek ts = some t → ends t) :
      Agrees ts v q after ends (pure (x, r))
  | problem {e : Expression.Problem} (h : v = .error e) : Agrees ts v q after ends (throw e)

/-- What comes after a reading that agrees has to agree from where that got to. -/
theorem Agrees.bind {m : Attempt (Float × Cursor)}
    {f : Float × Cursor → Attempt (Float × Cursor)} {q₀ : Cursor}
    (h : Agrees ts v q after ends m)
    (hf : ∀ x r, r.depth = q.depth → q.position ≤ r.position → At ts v r (after x) →
      (∀ t, r.peek ts = some t → ends t) → Agrees ts v q₀ after' ends' (f (x, r))) :
    Agrees ts v q₀ after' ends' (m >>= f) := by
  cases h with
  | number depth le stands next => exact hf _ _ depth le stands next
  | problem h => exact .problem h

/-- Reading on from further along is reading on from here, and what comes after may be another state
that has the same value before all that can come next. -/
theorem Agrees.congr {m : Attempt (Float × Cursor)}
    (h : Agrees ts v r after ends m) (hdepth : r.depth = q.depth) (hle : q.position ≤ r.position)
    (hafter : ∀ x us, (∀ t, us.head? = some t → ends t) →
      valueFrom (after x) us = valueFrom (after' x) us)
    (hends : ∀ t, ends t → ends' t) : Agrees ts v q after' ends' m := by
  cases h with
  | problem h => exact .problem h
  | @number x r' depth le stands next =>
    refine .number (depth.trans hdepth) (Nat.le_trans hle le) ⟨stands.within, ?_⟩
      fun t ht => hends t (next t ht)
    rw [← stands.value]
    refine (hafter x _ fun t ht => next t ?_).symm
    rwa [head?_drop] at ht

theorem lift_bind {α β : Type} (x : α) (f : α → Attempt β) :
    ((liftM (Except.ok x : Except Fault α) : Attempt α) >>= f) = f x :=
  rfl

/-! ## Sums and products -/

/-- More operands are read safely if each of them is, and if there is a turn for each token that is
left. -/
theorem agrees_more {operator? : Token → Option (Float → Float → Float)} {operand : Reading}
    {during : Float → Expression.State} {depth : Nat}
    (hoperand : ∀ q x t op, At ts v q (during x) → q.depth = depth → q.peek ts = some t →
      operator? t = some op →
      Agrees ts v { q with position := q.position + 1 } (fun y => during (op x y)) ends
        (operand { q with position := q.position + 1 }))
    (hends : ∀ t, ends t → operator? t = none → ends' t) (turns : Nat) {x : Float}
    (hat : At ts v q (during x)) (hdepth : q.depth = depth)
    (hnext : ∀ t, q.peek ts = some t → ends t) (hturns : ts.length < turns + q.position) :
    Agrees ts v q during ends' (more ts operator? operand turns x q) := by
  induction turns generalizing q x with
  | zero =>
    have := hat.within
    omega
  | succ turns ih =>
    cases hoperator : (q.peek ts).bind operator? with
    | none =>
      rw [more, hoperator]
      refine .number rfl (Nat.le_refl _) hat fun t ht => hends t (hnext t ht) ?_
      rwa [ht] at hoperator
    | some op =>
      obtain ⟨t, ht, hop⟩ := Option.bind_eq_some_iff.mp hoperator
      rw [more, hoperator]
      simp only [advance_eq ht, lift_bind]
      refine (hoperand q x t op hat hdepth ht hop).bind fun y r hrdepth hle hr hrnext => ?_
      have hrest := ih hr (hrdepth.trans hdepth) hrnext (by simp only at hle; omega)
      exact hrest.congr hrdepth (Nat.le_of_succ_le hle) (fun _ _ _ => rfl) fun _ ht => ht

/-- Operands are read safely, and operators between them, if each operand is. -/
theorem agrees_operands {operator? : Token → Option (Float → Float → Float)} {operand : Reading}
    {during : Float → Expression.State} {depth : Nat}
    (hoperand : ∀ q x t op, At ts v q (during x) → q.depth = depth → q.peek ts = some t →
      operator? t = some op →
      Agrees ts v { q with position := q.position + 1 } (fun y => during (op x y)) ends
        (operand { q with position := q.position + 1 }))
    (hends : ∀ t, ends t → operator? t = none → ends' t) (hdepth : q.depth = depth)
    (hfirst : Agrees ts v q during ends (operand q)) :
    Agrees ts v q during ends' (operands ts operator? operand q) := by
  refine hfirst.bind fun x r hrdepth hle hr hnext => ?_
  have hmore := agrees_more hoperand hends (ts.length + 1) hr (hrdepth.trans hdepth) hnext (by omega)
  exact hmore.congr hrdepth hle (fun _ _ _ => rfl) fun _ ht => ht

/-- What is known of the reading of an operand at a certain depth. -/
def ReadsOperands (ts : List Token) (v : Outcome) (depth : Nat) (unary : Reading) :
    Prop :=
  ∀ (q : Cursor) (level : Level) (outer : List Level),
    At ts v q (.operand level outer) → q.depth = depth →
      (Expression.State.operand level outer).depth = depth →
      Agrees ts v q (.complete level outer) (fun _ => True) (unary q)

variable {depth : Nat} {unary : Reading} {outer : List Level}

/-- The tokens that a term ends at. -/
def EndsTerm (t : Token) : Prop :=
  productOp? t = none

/-- The tokens that a sum ends at. -/
def EndsSum (t : Token) : Prop :=
  productOp? t = none ∧ sumOp? t = none

/-- A term is read safely. It counts as a sum with what stands before it. -/
theorem agrees_term (h : ReadsOperands ts v depth unary) {sum : Option (Float × SumOp)}
    (hat : At ts v q (.operand { sum } outer)) (hdepth : q.depth = depth)
    (houter : Expression.State.depthOf outer = depth) :
    Agrees ts v q (fun x => .operator none (Expression.State.total sum x) outer) EndsTerm
      (term ts unary q) := by
  have hlevel : ∀ level : Level, level.signs = [] →
      (Expression.State.operand level outer).depth = depth := by
    intro level hsigns
    rw [Expression.State.depth, hsigns, List.length_nil, Nat.zero_add, houter]
  -- after a factor the reader holds the product so far
  have hfactors : Agrees ts v q (fun x => .operator sum x outer) EndsTerm (term ts unary q) := by
    refine agrees_operands ?_ ?_ hdepth (h q _ outer hat hdepth (hlevel _ rfl))
    · intro q x t op hat hdepth ht hop
      obtain ⟨op, hproduct, rfl⟩ := Option.map_eq_some_iff.mp hop
      have hstep : (Expression.State.operator sum x outer).step t
          = .ok (.operand { sum, product := some (x, op) } outer) := by
        cases t <;> cases hproduct <;> rfl
      exact h _ _ outer (hat.advance ht hstep) hdepth (hlevel _ rfl)
    · intro t _ hnone
      exact Option.map_eq_none_iff.mp hnone
  refine hfactors.congr rfl (Nat.le_refl _) ?_ fun _ ht => ht
  exact fun x us hus => valueFrom_operator sum x outer hus

/-- An expression is read safely. -/
theorem agrees_expr (h : ReadsOperands ts v depth unary) (hat : At ts v q (.operand {} outer))
    (hdepth : q.depth = depth) (houter : Expression.State.depthOf outer = depth) :
    Agrees ts v q (fun x => .operator none x outer) EndsSum (expr ts unary q) := by
  refine agrees_operands ?_ ?_ hdepth (agrees_term h hat hdepth houter)
  · intro q x t op hat hdepth ht hop
    obtain ⟨op, hsum, rfl⟩ := Option.map_eq_some_iff.mp hop
    have hstep : (Expression.State.operator none x outer).step t
        = .ok (.operand { sum := some (x, op) } outer) := by
      cases t <;> cases hsum <;> rfl
    exact agrees_term h (hat.advance ht hstep) hdepth houter
  · intro t hterm hnone
    exact ⟨hterm, Option.map_eq_none_iff.mp hnone⟩

/-! ## Operands -/

theorem descend_eq (h : q.depth < depthLimit) :
    q.descend = pure { q with depth := q.depth + 1 } := by
  have hadd : add wordLimit q.depth 1 = .ok (q.depth + 1) := by
    refine add_eq ?_
    simp only [depthLimit] at h
    simp only [wordLimit, Address.rowLimit]
    omega
  simp only [Cursor.descend, hadd, lift_bind]
  exact if_neg (Nat.not_lt.mpr h)

theorem descend_of_limit (h : q.depth = depthLimit) : q.descend = throw .depth := by
  have hadd : add wordLimit q.depth 1 = .ok (q.depth + 1) := by
    rw [h]
    rfl
  simp only [Cursor.descend, hadd, lift_bind]
  exact if_pos (Nat.lt_succ_of_le (Nat.le_of_eq h.symm))

theorem ascend_eq (h : 0 < q.depth) : q.ascend = .ok { q with depth := q.depth - 1 } := by
  rw [Cursor.ascend, sub_eq h]
  rfl

/-- A sign or a parenthesis is opened safely, and where too many are open the text is at fault. -/
theorem agrees_descend {level : Level} {next : Expression.State}
    {f : Cursor → Attempt (Float × Cursor)} (hat : At ts v q (.operand level outer))
    (hdepth : q.depth = (Expression.State.operand level outer).depth)
    (hlimit : q.depth ≤ depthLimit) (hpeek : q.peek ts = some t)
    (hstep : (Expression.State.operand level outer).step t
      = (Expression.State.operand level outer).deepen next)
    (hf : q.depth < depthLimit → At ts v ⟨q.position + 1, q.depth + 1⟩ next →
      Agrees ts v q after ends (f ⟨q.position + 1, q.depth + 1⟩)) :
    Agrees ts v q after ends (Cursor.descend ⟨q.position + 1, q.depth⟩ >>= f) := by
  by_cases hlt : q.depth < depthLimit
  · have hopened := hat.advance hpeek (hstep.trans (if_pos (hdepth ▸ hlt)))
    rw [descend_eq (q := ⟨q.position + 1, q.depth⟩) hlt, pure_bind]
    exact hf hlt ⟨hopened.within, hopened.value⟩
  · have hfull : q.depth = depthLimit := by omega
    rw [descend_of_limit (q := ⟨q.position + 1, q.depth⟩) hfull]
    exact .problem (hat.eq_error hpeek (hstep.trans (if_neg (hdepth ▸ hlt))))

/-- A token that a sum ends at cannot follow it, except for a parenthesis that closes one. -/
theorem step_of_endsSum {sum : Option (Float × SumOp)} {x : Float} (h : EndsSum t)
    (hclosing : t = .closing → outer = []) :
    (Expression.State.operator sum x outer).step t = .error (.token t) := by
  cases t with
  | plus => cases h.2
  | minus => cases h.2
  | times => cases h.1
  | divide => cases h.1
  | number y => rfl
  | opening => rfl
  | closing =>
    rw [hclosing rfl]
    rfl

/-- After an expression in parentheses the parenthesis is closed safely. -/
theorem agrees_close {x : Float} {level : Level}
    (hat : At ts v r (.operator none x (level :: outer))) (hdepth : r.depth = q.depth + 1)
    (hle : q.position ≤ r.position) (hnext : ∀ t, r.peek ts = some t → EndsSum t) :
    Agrees ts v q (.complete level outer) (fun _ => True) (close ts x r) := by
  cases hpeek : r.peek ts with
  | none =>
    simp only [close, hpeek]
    exact .problem (hat.eq_finish hpeek)
  | some t =>
    have hends := hnext t hpeek
    cases t with
    | closing =>
      have hpos : 0 < r.depth := by
        rw [hdepth]
        exact Nat.succ_pos _
      have hclosed := hat.advance hpeek rfl
      simp only [close, hpeek, advance_eq hpeek, lift_bind,
        ascend_eq (q := ⟨r.position + 1, r.depth⟩) hpos]
      refine .number ?_ (Nat.le_succ_of_le hle) ⟨hclosed.within, hclosed.value⟩ fun _ _ => trivial
      rw [hdepth]
      rfl
    | _ =>
      simp only [close, hpeek]
      exact .problem (hat.eq_error hpeek (step_of_endsSum hends nofun))

/-- An operand without signs is read safely. -/
theorem agrees_primary (h : q.depth < depthLimit → ReadsOperands ts v (q.depth + 1) unary)
    {level : Level} (hat : At ts v q (.operand level outer))
    (hdepth : q.depth = (Expression.State.operand level outer).depth)
    (hlimit : q.depth ≤ depthLimit) (hsign : (q.peek ts).bind sumOp? = none) :
    Agrees ts v q (.complete level outer) (fun _ => True) (primary ts unary q) := by
  cases hpeek : q.peek ts with
  | none =>
    simp only [primary, hpeek]
    exact .problem (hat.eq_finish hpeek)
  | some t =>
    simp only [primary, hpeek, advance_eq hpeek, lift_bind]
    rw [hpeek, Option.bind_some] at hsign
    cases t with
    | number x => exact .number rfl (Nat.le_succ _) (hat.advance hpeek rfl) fun _ _ => trivial
    | plus => cases hsign
    | minus => cases hsign
    | times => exact .problem (hat.eq_error hpeek rfl)
    | divide => exact .problem (hat.eq_error hpeek rfl)
    | closing => exact .problem (hat.eq_error hpeek rfl)
    | opening =>
      refine agrees_descend hat hdepth hlimit hpeek rfl fun hlt hopened => ?_
      have houter : Expression.State.depthOf (level :: outer) = q.depth + 1 := by
        rw [hdepth, Expression.State.depthOf, Expression.State.depth]
        omega
      refine (agrees_expr (h hlt) hopened rfl houter).bind fun x r hrdepth hle hr hnext => ?_
      exact agrees_close hr hrdepth (Nat.le_of_succ_le hle) hnext

/-- **An operand is read safely** when there is a level for each sign and each parenthesis that may
still be opened, and one more. -/
theorem agrees_unary (levels : Nat) {level : Level} (hat : At ts v q (.operand level outer))
    (hdepth : q.depth = (Expression.State.operand level outer).depth)
    (hlimit : q.depth ≤ depthLimit) (hlevels : depthLimit < levels + q.depth) :
    Agrees ts v q (.complete level outer) (fun _ => True) (Guarded.unary ts levels q) := by
  induction levels generalizing q level outer with
  | zero => omega
  | succ levels ih =>
    cases hsign : (q.peek ts).bind sumOp? with
    | none =>
      simp only [Guarded.unary, hsign]
      refine agrees_primary ?_ hat hdepth hlimit hsign
      intro hlt r level outer hr hrdepth hlevel
      exact ih hr (hrdepth.trans hlevel.symm) (by omega) (by omega)
    | some op =>
      obtain ⟨t, ht, hop⟩ := Option.bind_eq_some_iff.mp hsign
      have hstep : (Expression.State.operand level outer).step t
          = (Expression.State.operand level outer).deepen
            (.operand { level with signs := op :: level.signs } outer) := by
        cases t <;> cases hop <;> rfl
      simp only [Guarded.unary, hsign, advance_eq ht, lift_bind]
      refine agrees_descend hat hdepth hlimit ht hstep fun hlt hopened => ?_
      have hdeeper : q.depth + 1 = (Expression.State.operand
          { level with signs := op :: level.signs } outer).depth := by
        simp only [Expression.State.depth, List.length_cons] at hdepth ⊢
        omega
      refine (ih hopened hdeeper hlt (by simp only; omega)).bind fun x r hrdepth hle hr _ => ?_
      have hpos : 0 < r.depth := by
        rw [hrdepth]
        exact Nat.succ_pos _
      simp only [ascend_eq hpos, lift_bind]
      refine .number ?_ (Nat.le_of_succ_le hle) ⟨hr.within, hr.value⟩ fun _ _ => trivial
      simp only [hrdepth, Nat.add_sub_cancel]

end Cursors

/-! ## The whole text -/

/-- **The descent gives what the reader gives**, and needs no more calls inside one another than one
above the number of signs and parentheses that may be open. -/
theorem valueOfTokens_eq (ts : List Token) :
    valueOfTokens (depthLimit + 1) ts = .ok (Expression.valueOfTokens ts) := by
  have hunary : ReadsOperands ts (Expression.valueOfTokens ts) 0 (unary ts (depthLimit + 1)) := by
    intro q level outer hat hdepth hlevel
    exact agrees_unary _ hat (hdepth.trans hlevel.symm) (by omega) (by omega)
  have hstart : At ts (Expression.valueOfTokens ts) ⟨0, 0⟩ (.operand {} []) := ⟨Nat.zero_le _, rfl⟩
  have hread := agrees_expr hunary hstart rfl rfl
  generalize hresult : expr ts (unary ts (depthLimit + 1)) ⟨0, 0⟩ = result at hread
  simp only [valueOfTokens, hresult]
  cases hread with
  | problem h => exact congrArg Except.ok h.symm
  | @number x r _ _ stands next =>
    have hrun : (pure (x, r) : Attempt (Float × Cursor)).run
        = .ok (.ok (x, r)) := rfl
    cases hpeek : r.peek ts with
    | none =>
      simp only [stands.eq_finish hpeek, hrun, ok_bind, hpeek]
      rfl
    | some t =>
      have hstep : (Expression.State.operator none x []).step t = .error (.token t) :=
        step_of_endsSum (next t hpeek) fun _ => rfl
      simp only [stands.eq_error hpeek hstep, hrun, ok_bind, hpeek]
      rfl

-- a sign takes one level, and so does a parenthesis
example : valueOfTokens 2 [.minus, .opening, .number 1, .closing] = .error .nesting := rfl

theorem value_eq (cs : List Char) : value (depthLimit + 1) cs = .ok (Expression.value cs) := by
  unfold value Expression.value
  cases Expression.tokens cs with
  | error e => rfl
  | ok ts =>
    cases ts with
    | nil => rfl
    | cons t ts => exact valueOfTokens_eq (t :: ts)

end FormulaSheet.Guarded
