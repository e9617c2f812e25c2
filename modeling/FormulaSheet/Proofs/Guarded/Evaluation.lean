/-
Evaluation with its guards.

This is the evaluator with its calls inside one another (`Nested`), on the texts
of the bodies, and with every operation guarded: a body is searched for what it
looks up before its frame is pushed, and read again when it is worked out; values
are read as numbers and put into its text; what comes out is read by descent. And
where a cell is named for the record, because it has got its value or because it
was met on the path, its row number must fit in a word. A limit that runs out is
a fault here, as all else that must not happen.

The guarded evaluator follows the other one call by call (`Follows`). Where that
one has an outcome, this one has the same and no fault. It has an outcome when the
limits are large enough, and then it is the one of the walk that runs. All that is
asked of the store is that the row numbers of its cells fit in a word, as they do
when its addresses were read from texts or listed from a grid; and the same of a
cell on the path.
-/
import FormulaSheet.Proofs.Evaluation.Nesting
import FormulaSheet.Proofs.Guarded.Descent
import FormulaSheet.Sheet

set_option autoImplicit false

namespace FormulaSheet.Guarded

open Nested (Limits State)

/-! ## Bodies -/

/-- The body of a text that begins with the sign of equality. -/
def stripped? (raw : String) : Option (List Char) :=
  if raw.toList.head? = some '=' then some raw.toList.tail else none

/-- A way to ask for the value of a cell. -/
abbrev Call := Pass → Address → Except Fault (Value × Pass)

/-- The value of a text that should be an expression. -/
def arithmeticValue (cs : List Char) : Except Fault Value :=
  if cs.isEmpty || !cs.all Formula.isArithmetic then return .error .name
  else do
    match ← value (Expression.depthLimit + 1) cs with
    | .ok x => return if x.isFinite then .number x else .error .failed
    | .error _ => return .error .failed

/-- Adds up the members of a sum, each asked for on a copy of the path. The first circular one ends
it. -/
def addUp (call : Call) (sum : Float) : List Address → Pass → Except Fault (Value × Pass)
  | [], p => return (.number sum, p)
  | a :: rest, p => do
    let (v, r) ← call p a
    let r := { r with path := p.path }
    if v.isCircular then return (v, r)
    else match ← number? v with
      | some x => addUp call (sum + x) rest r
      | none => addUp call sum rest r

/-- Puts numbers in the place of the references, and tells whether one of them was circular. -/
def fillIn (call : Call) :
    List Formula.Lexeme → Pass → Except Fault ((Bool × List Char) × Pass)
  | [], p => return ((false, []), p)
  | .char c :: rest, p => do
    let ((circular, text), p) ← fillIn call rest p
    return ((circular, c :: text), p)
  | .reference letter digits :: rest, p => do
    match ← address? (letter :: digits) with
    | none =>
      let ((circular, text), p) ← fillIn call rest p
      return ((circular, '0' :: text), p)
    | some a =>
      let (v, p) ← call p a
      let operand := match ← number? v with
        | some x => Number.text x
        | none => ['0']
      let ((circular, text), p) ← fillIn call rest p
      return ((v.isCircular || circular, operand ++ text), p)

/-- Works out a body. -/
def body (call : Call) (s : Store) (p : Pass) (text : List Char) : Except Fault (Value × Pass) :=
  match Formula.sumCorners? text with
  | some (first, last) => do
    match ← Rect.ofCorners? first last with
    | none => return (.number 0, p)
    | some r =>
      let members ← r.members s
      addUp call 0 members p
  | none => do
    let ((circular, filled), p) ← fillIn call (Formula.lexemes text) p
    if circular then return (.error .circular, p)
    else return (← arithmeticValue filled, p)

/-! ## Walks -/

/-- A body that has been begun. -/
structure Frame where
  /-- The cell that holds it. -/
  cell : Address
  body : List Char
  /-- The cells it looks up that have not been looked at. -/
  unread : List Address

namespace Frame

def start (s : Store) (a : Address) (body : List Char) : Except Fault Frame := do
  let reads ← reads s body
  return ⟨a, body, reads⟩

/-- The first unread cell that holds a body which is neither known nor begun: its address, its body,
and what is unread after it. -/
def nextPending? (s : Store) (p : Pass) :
    List Address → Option (Address × List Char × List Address)
  | [] => none
  | a :: rest =>
    if p.memo.contains a || p.path.contains a then nextPending? s p rest
    else match (s.get? a).bind stripped? with
      | some body => some (a, body, rest)
      | none => nextPending? s p rest

end Frame

/-- Works until no frame is left, for so many turns at most, and gives the value of the last one. -/
def loop (call : Call) (s : Store) :
    Nat → Pass → Value → List Frame → Except Fault (Value × Pass)
  | _, p, last, [] => return (last, p)
  | 0, _, _, _ :: _ => throw .endless
  | turns + 1, p, last, frame :: rest =>
    match Frame.nextPending? s p frame.unread with
    | some (a, body, unread) => do
      let pending ← Frame.start s a body
      loop call s turns (p.enter a) last (pending :: { frame with unread } :: rest)
    | none => do
      let (v, r) ← body call s p frame.body
      -- the cell and its value go on the record
      let _ ← name frame.cell
      loop call s turns (r.leave frame.cell v) v rest

/-- Asks for a cell, with a given way to work out a body that is pending. -/
def ask (s : Store) (resolve : Pass → Address → List Char → Except Fault (Value × Pass)) : Call :=
  fun p a => match p.memo[a]? with
    | some v => return (v, p)
    | none =>
      if p.path.contains a then do
        -- that the cell is being worked out goes on the record
        let _ ← name a
        return (.error .circular, p)
      else match s.get? a with
        | none => return (.empty, p)
        | some raw => match stripped? raw with
          | some body => resolve p a body
          | none => return (.text raw, { p with memo := p.memo.insert a (.text raw) })

/-- Works out the body of a cell by a walk, with at most so many walks inside one another. -/
def resolve (s : Store) (turns : Nat) :
    Nat → Pass → Address → List Char → Except Fault (Value × Pass)
  | 0, _, _, _ => throw .nesting
  | depth + 1, p, a, body => do
    let frame ← Frame.start s a body
    loop (ask s (resolve s turns depth)) s turns (p.enter a) .empty [frame]

/-- The value of a cell. -/
def evaluate (s : Store) (l : Limits) : Call :=
  ask s (resolve s l.turns l.depth)

/-- The value of a text that stands in no cell. -/
def evaluateRaw (s : Store) (l : Limits) (p : Pass) (raw : String) : Except Fault (Value × Pass) :=
  match stripped? raw with
  | some text => body (evaluate s l) s p text
  | none => return (.text raw, p)

/-- Evaluates one cell of a grid and puts its value into the display. -/
def showNext (s : Store) (l : Limits) (shown : Display × Pass) (a : Address) :
    Except Fault (Display × Pass) := do
  let (v, p) ← evaluate s l shown.2 a
  return (shown.1.insert a v, p)

/-- The values of all cells of the grid, worked out in one pass. -/
def recompute (l : Limits) (sheet : Sheet) : Except Fault Display := do
  let addresses ← cells (List.range sheet.grid.rows) (List.range sheet.grid.columns)
  let shown ← addresses.foldlM (showNext sheet.store l) (Display.empty, Pass.initial)
  return shown.1

/-! ## Following the evaluator with its calls -/

section Following

variable {s : Store} {l : Limits} {call : Nested.Call} {guarded : Call} {q r : State} {a : Address}
  {v : Value}

/-- Where the one call has an outcome the guarded one has it too, and no fault, provided that a cell
on the path can be named. -/
def Follows (call : Nested.Call) (guarded : Call) : Prop :=
  ∀ (q : State) (a : Address) (v : Value) (r : State),
    (q.pass.path.contains a = true → a.Readable) → call q a = some (v, r) →
      guarded q.pass a = .ok (v, r.pass)

theorem arithmeticValue_eq (cs : List Char) :
    arithmeticValue cs = .ok (Formula.arithmeticValue cs) := by
  unfold arithmeticValue Formula.arithmeticValue
  by_cases h : (cs.isEmpty || !cs.all Formula.isArithmetic) = true
  · rw [if_pos h, if_pos h]
    rfl
  · rw [if_neg h, if_neg h, value_eq]
    cases Expression.value cs <;> rfl

/-- A call without outcome leaves none for the calls after it. -/
theorem askAll_none (call : Nested.Call) (u : Bool) (cells : List Address) :
    Recursion.askAll call.chained u cells none = none := by
  induction cells with
  | nil => rfl
  | cons a rest ih =>
    have hchained : call.chained none a = (.empty, none) := rfl
    simp only [Recursion.askAll, hchained, ih, ite_self]

/-- When calls one after another have an outcome, the first of them has one. -/
theorem exists_of_askAll {u : Bool} {cells : List Address}
    (h : Recursion.askAll call.chained u (a :: cells) (some q) = some r) :
    ∃ v q', call q a = some (v, q') := by
  cases hcall : call q a with
  | some outcome => exact ⟨outcome.1, outcome.2, rfl⟩
  | none =>
    have hchained : call.chained (some q) a = (.empty, none) := by
      simp only [Nested.Call.chained, Option.bind_some, hcall]
    simp only [Recursion.askAll, hchained, askAll_none, ite_self] at h
    cases h

theorem addUp_follows (h : Follows call guarded) {range : Option Range} {members : List Address}
    (hmembers : ∀ a ∈ members, a.Readable) {sum : Float}
    (hsum : Recursion.addUp (call.within (.sum range)).chained sum members (some q) = (v, some r)) :
    addUp guarded sum members q.pass = .ok (v, r.pass) := by
  induction members generalizing sum q with
  | nil =>
    cases hsum
    rfl
  | cons a rest ih =>
    have hasked := congrArg Prod.snd hsum
    rw [Recursion.snd_addUp] at hasked
    obtain ⟨w, q', hwithin⟩ := exists_of_askAll hasked
    obtain ⟨⟨w, q₁⟩, hcall, hpath⟩ := Option.map_eq_some_iff.mp hwithin
    cases hpath
    have hguarded := h q a w q₁ (fun _ => hmembers a List.mem_cons_self) hcall
    have hrest := fun sum => @ih (q₁.onPath q.pass.path)
      (fun b hb => hmembers b (List.mem_cons_of_mem _ hb)) sum
    simp only [Recursion.addUp, Nested.Call.chained_eq hwithin] at hsum
    simp only [addUp, hguarded, ok_bind, number?_eq]
    by_cases hcircular : w.isCircular = true
    · rw [if_pos hcircular] at hsum ⊢
      cases hsum
      rfl
    · rw [if_neg hcircular] at hsum ⊢
      cases hnumber : w.number? with
      | some x =>
        rw [hnumber] at hsum
        exact hrest _ hsum
      | none =>
        rw [hnumber] at hsum
        exact hrest _ hsum

theorem fillIn_follows (s : Store) (h : Follows call guarded) {ls : List Formula.Lexeme}
    {filled : Bool × List Char}
    (hfill : Recursion.fillIn call.chained (ls.map Formula.Lexeme.piece) (some q)
      = (filled, some r)) :
    fillIn guarded ls q.pass = .ok (filled, r.pass) := by
  induction ls generalizing q filled with
  | nil =>
    cases hfill
    rfl
  | cons l rest ih =>
    rw [List.map_cons] at hfill
    cases l with
    | char c =>
      obtain ⟨⟨⟨circular, text⟩, q'⟩, hrest⟩ :
        ∃ o, Recursion.fillIn call.chained (rest.map Formula.Lexeme.piece) (some q) = o := ⟨_, rfl⟩
      simp only [Formula.Lexeme.piece, Recursion.fillIn, hrest] at hfill
      cases hfill
      simp only [fillIn, ih hrest, ok_bind]
      rfl
    | reference letter digits =>
      simp only [fillIn, address?_eq, ok_bind]
      simp only [Formula.Lexeme.piece] at hfill
      cases htarget : Address.ofChars? (letter :: digits) with
      | none =>
        rw [htarget] at hfill
        obtain ⟨⟨⟨circular, text⟩, q'⟩, hrest⟩ :
          ∃ o, Recursion.fillIn call.chained (rest.map Formula.Lexeme.piece) (some q) = o :=
            ⟨_, rfl⟩
        simp only [Recursion.fillIn, hrest] at hfill
        cases hfill
        simp only [ih hrest, ok_bind]
        rfl
      | some a =>
        rw [htarget] at hfill
        have hasked := congrArg Prod.snd hfill
        rw [Recursion.snd_fillIn call.chained s] at hasked
        obtain ⟨v, q₁, hcall⟩ := exists_of_askAll hasked
        have hguarded := h q a v q₁ (fun _ => Address.readable_of_ofChars? htarget) hcall
        obtain ⟨⟨⟨circular, text⟩, q'⟩, hrest⟩ :
          ∃ o, Recursion.fillIn call.chained (rest.map Formula.Lexeme.piece) (some q₁) = o :=
            ⟨_, rfl⟩
        simp only [Recursion.fillIn, Nested.Call.chained_eq hcall, hrest] at hfill
        cases hfill
        simp only [hguarded, ok_bind, number?_eq, ih hrest]
        rfl

/-- **Bodies are worked out without a fault** where the calls that they make have none. -/
theorem body_follows (hs : s.Readable) (h : Follows call guarded) {text : List Char}
    (hbody : call.body s q (.ofChars text) = some (v, r)) :
    body guarded s q.pass text = .ok (v, r.pass) := by
  have hformula : Recursion.formula (call.within (.ofChars text)).chained s (some q) (.ofChars text)
      = (v, some r) := by
    unfold Nested.Call.body at hbody
    obtain ⟨⟨w, q'⟩, hw⟩ : ∃ o, Recursion.formula (call.within (.ofChars text)).chained s (some q)
      (.ofChars text) = o := ⟨_, rfl⟩
    rw [hw] at hbody ⊢
    cases q' with
    | none => cases hbody
    | some q' =>
      cases hbody
      rfl
  unfold body
  cases hcorners : Formula.sumCorners? text with
  | some corners =>
    obtain ⟨first, last⟩ := corners
    have hsum : Formula.ofChars text = .sum (Formula.rangeOfCorners first last) := by
      simp only [Formula.ofChars, hcorners]
    rw [hsum] at hformula
    simp only [Rect.ofCorners?_eq, ok_bind]
    cases hrange : Formula.rangeOfCorners first last with
    | none =>
      rw [hrange] at hformula
      cases hformula
      rfl
    | some range =>
      rw [hrange] at hformula
      have hmembers : ∀ a ∈ s.members range, a.Readable := by
        intro a ha
        rw [Store.members_eq_filter, List.mem_filter, Store.contains_eq_isSome] at ha
        obtain ⟨raw, hraw⟩ := Option.isSome_iff_exists.mp ha.2
        exact hs a raw hraw
      rw [Option.map_some]
      simp only [Rect.members_ofRange, ok_bind, ← s.members_eq_filter]
      exact addUp_follows h hmembers hformula
  | none =>
    have harithmetic : Formula.ofChars text
        = .arithmetic ((Formula.lexemes text).map Formula.Lexeme.piece) := by
      simp only [Formula.ofChars, hcorners, Formula.pieces_eq_map_lexemes]
    rw [harithmetic] at hformula
    obtain ⟨⟨⟨circular, filled⟩, q'⟩, hfill⟩ : ∃ o, Recursion.fillIn call.chained
      ((Formula.lexemes text).map Formula.Lexeme.piece) (some q) = o := ⟨_, rfl⟩
    simp only [Recursion.formula, Nested.Call.within, hfill] at hformula
    cases hformula
    simp only [fillIn_follows s h hfill, ok_bind, arithmeticValue_eq]
    cases circular <;> rfl

/-! ## Following the walk -/

theorem ofRaw?_eq (raw : String) : Formula.ofRaw? raw = (stripped? raw).map Formula.ofChars := by
  unfold Formula.ofRaw?
  split
  · next body hraw =>
    have hstripped : stripped? raw = some body := by
      rw [stripped?, hraw, List.head?_cons, if_pos rfl, List.tail_cons]
    exact (congrArg (Option.map Formula.ofChars) hstripped).symm
  · next hraw =>
    have hstripped : stripped? raw = none := by
      refine if_neg fun hhead => ?_
      obtain ⟨body, hbody⟩ := List.head?_eq_some_iff.mp hhead
      exact hraw body hbody
    exact (congrArg (Option.map Formula.ofChars) hstripped).symm

theorem bind_ofRaw?_eq (s : Store) (a : Address) :
    (s.get? a).bind Formula.ofRaw? = ((s.get? a).bind stripped?).map Formula.ofChars := by
  cases s.get? a with
  | none => rfl
  | some raw => exact ofRaw?_eq raw

namespace Frame

/-- The frame of the formula that the body is. -/
def opened (frame : Frame) : FormulaSheet.Frame :=
  ⟨frame.cell, .ofChars frame.body, frame.unread⟩

theorem start_eq (s : Store) (a : Address) (body : List Char) :
    start s a body = .ok ⟨a, body, s.lookups body⟩ := by
  rw [start, reads_eq]
  rfl

theorem opened_start (s : Store) (a : Address) (body : List Char) :
    opened ⟨a, body, s.lookups body⟩ = FormulaSheet.Frame.start s a (.ofChars body) := by
  rw [opened, FormulaSheet.Frame.start, Formula.reads_ofChars]

theorem firstPending?_eq (s : Store) (p : Pass) (unread : List Address) :
    FormulaSheet.Frame.firstPending? s p unread
      = (nextPending? s p unread).map fun (a, body, rest) => (a, .ofChars body, rest) := by
  induction unread with
  | nil => rfl
  | cons a rest ih =>
    rw [FormulaSheet.Frame.firstPending?, nextPending?, Pass.pending?, bind_ofRaw?_eq]
    by_cases hknown : (p.memo.contains a || p.path.contains a) = true
    · rw [if_pos hknown, if_pos hknown]
      exact ih
    · rw [if_neg hknown, if_neg hknown]
      cases (s.get? a).bind stripped? with
      | none => exact ih
      | some body => rfl

/-- What is pending is stored. -/
theorem readable_of_nextPending? (hs : s.Readable) {p : Pass} {unread rest : List Address}
    {body : List Char} (h : nextPending? s p unread = some (a, body, rest)) : a.Readable := by
  induction unread with
  | nil => cases h
  | cons b unread ih =>
    rw [nextPending?] at h
    split at h
    · exact ih h
    · cases hget : s.get? b with
      | none =>
        simp only [hget, Option.bind_none] at h
        exact ih h
      | some raw =>
        simp only [hget, Option.bind_some] at h
        cases hraw : stripped? raw with
        | none =>
          rw [hraw] at h
          exact ih h
        | some text =>
          rw [hraw] at h
          cases h
          exact hs _ raw hget

end Frame

/-- **A walk has no fault**, since what it begins is stored, and what is stored can be named. -/
theorem loop_follows (hs : s.Readable) (h : Follows call guarded) {turns : Nat}
    {frames : List Frame} {w : Value} (hframes : ∀ frame ∈ frames, frame.cell.Readable)
    (hloop : Nested.loop call s turns q v (frames.map Frame.opened) = some (w, r)) :
    loop guarded s turns q.pass v frames = .ok (w, r.pass) := by
  induction turns generalizing q v frames with
  | zero =>
    cases frames with
    | nil =>
      cases hloop
      rfl
    | cons frame rest => cases hloop
  | succ turns ih =>
    cases frames with
    | nil =>
      cases hloop
      rfl
    | cons frame rest =>
      have hrest : ∀ frame ∈ rest, frame.cell.Readable :=
        fun other hother => hframes other (List.mem_cons_of_mem _ hother)
      have hcell := hframes frame List.mem_cons_self
      have hfirst := Frame.firstPending?_eq s q.pass frame.unread
      rw [List.map_cons] at hloop
      rw [loop]
      cases hnext : Frame.nextPending? s q.pass frame.unread with
      | some pending =>
        obtain ⟨a, text, unread⟩ := pending
        rw [hnext] at hfirst
        rw [Nested.loop_push hfirst, ← Frame.opened_start] at hloop
        have hcells : ∀ other ∈ ⟨a, text, s.lookups text⟩ :: { frame with unread } :: rest,
            other.cell.Readable := by
          rw [List.forall_mem_cons, List.forall_mem_cons]
          exact ⟨Frame.readable_of_nextPending? hs hnext, hcell, hrest⟩
        simp only [Frame.start_eq, ok_bind]
        exact ih (q := q.push a) hcells hloop
      | none =>
        rw [hnext] at hfirst
        rw [Nested.loop] at hloop
        simp only [Frame.opened, hfirst, Option.map_none] at hloop
        obtain ⟨⟨x, q'⟩, hbody, hloop⟩ := Option.bind_eq_some_iff.mp hloop
        have hguarded : body guarded s q.pass frame.body = .ok (x, q'.pass) :=
          body_follows hs h (q := q.pop frame.opened) hbody
        simp only [hguarded, name_eq hcell, ok_bind]
        exact ih (q := q'.leave frame.cell x) hrest hloop

/-- To ask is safe where it is safe to work out what is stored. -/
theorem ask_follows (hs : s.Readable)
    {resolve : State → Address → Formula → Option (Value × State)}
    {guarded : Pass → Address → List Char → Except Fault (Value × Pass)}
    (h : ∀ q a text v r, a.Readable → resolve q a (.ofChars text) = some (v, r) →
      guarded q.pass a text = .ok (v, r.pass)) :
    Follows (Nested.ask s resolve) (ask s guarded) := by
  intro q a v r hpath hcall
  unfold Nested.ask at hcall
  unfold ask
  cases hmemo : q.pass.memo[a]? with
  | some known =>
    rw [hmemo] at hcall
    cases hcall
    rfl
  | none =>
    rw [hmemo] at hcall
    by_cases hbegun : q.pass.path.contains a = true
    · simp only [if_pos hbegun] at hcall ⊢
      cases hcall
      simp only [name_eq (hpath hbegun), ok_bind]
      rfl
    · simp only [if_neg hbegun] at hcall ⊢
      cases hget : s.get? a with
      | none =>
        rw [hget] at hcall
        cases hcall
        rfl
      | some raw =>
        rw [hget] at hcall
        simp only [ofRaw?_eq] at hcall
        cases hraw : stripped? raw with
        | none =>
          simp only [hraw, Option.map_none] at hcall ⊢
          cases hcall
          rfl
        | some text =>
          simp only [hraw, Option.map_some] at hcall ⊢
          exact h q a text v r (hs a raw hget) hcall

theorem resolve_follows (hs : s.Readable) (turns depth : Nat) {text : List Char}
    (ha : a.Readable) (hresolve : Nested.resolve s turns depth q a (.ofChars text) = some (v, r)) :
    resolve s turns depth q.pass a text = .ok (v, r.pass) := by
  induction depth generalizing q a text v r with
  | zero => cases hresolve
  | succ depth ih =>
    rw [Nested.resolve] at hresolve
    rw [resolve, Frame.start_eq]
    rw [← Frame.opened_start] at hresolve
    have hask : Follows (Nested.ask s (Nested.resolve s turns depth))
        (ask s (resolve s turns depth)) := ask_follows hs fun _ _ _ _ _ ha h => ih ha h
    have hcell : ∀ frame ∈ [(⟨a, text, s.lookups text⟩ : Frame)], frame.cell.Readable := by
      rw [List.forall_mem_singleton]
      exact ha
    exact loop_follows hs hask (q := q.push a) hcell hresolve

/-- **The guarded evaluator follows the other one**, with the same limits. -/
theorem evaluate_follows (hs : s.Readable) (l : Limits) :
    Follows (Nested.evaluate s l) (evaluate s l) :=
  ask_follows hs fun _ _ _ _ _ ha => resolve_follows hs l.turns l.depth ha

theorem evaluateRaw_follows (hs : s.Readable) (l : Limits) {raw : String}
    (h : Nested.evaluateRaw s l q raw = some (v, r)) :
    evaluateRaw s l q.pass raw = .ok (v, r.pass) := by
  unfold Nested.evaluateRaw at h
  unfold evaluateRaw
  rw [ofRaw?_eq] at h
  cases hraw : stripped? raw with
  | none =>
    rw [hraw] at h
    cases h
    rfl
  | some text =>
    rw [hraw] at h
    exact body_follows hs (evaluate_follows hs l) h

end Following

/-! ## Enough of the limits -/

section Enough

variable {s : Store}

/-- With enough of the limits a cell is evaluated without a fault. -/
theorem evaluate_eq (hs : s.Readable) (more : Limits) {p : Pass} {a : Address}
    (ha : p.path.contains a = true → a.Readable) :
    evaluate s (.enough s more) p a = .ok (p.evaluate s a) := by
  obtain ⟨r, hcall, hpass, -⟩ := (Nested.Between.start s p).exists_evaluate_eq a
  have hguarded := evaluate_follows hs _ (.start p) a _ r ha (hcall more)
  rw [hpass] at hguarded
  exact hguarded

theorem evaluateRaw_eq (hs : s.Readable) (more : Limits) (p : Pass) (raw : String) :
    evaluateRaw s (.enough s more) p raw = .ok (p.evaluateRaw s raw) := by
  obtain ⟨r, hcall, hpass, -⟩ := (Nested.Between.start s p).exists_evaluateRaw_eq raw
  have hguarded := evaluateRaw_follows hs _ (q := .start p) (hcall more)
  rw [hpass] at hguarded
  exact hguarded

/-- A pass with no cell on its path shows cell after cell without a fault. -/
theorem foldlM_showNext_eq (hs : s.Readable) (more : Limits) (addresses : List Address)
    (shown : Display × Pass) (hpath : shown.2.path = ∅) :
    addresses.foldlM (showNext s (.enough s more)) shown
      = .ok (addresses.foldl (Sheet.showNext s) shown) := by
  induction addresses generalizing shown with
  | nil => rfl
  | cons a rest ih =>
    have hnone : shown.2.path.contains a = true → a.Readable := by
      rw [hpath]
      simp
    have hshow : showNext s (.enough s more) shown a = .ok (Sheet.showNext s shown a) := by
      rw [showNext, evaluate_eq hs more hnone]
      rfl
    have hnext : (Sheet.showNext s shown a).2.path = ∅ :=
      ((Pass.Underway.refl s shown.2).evaluate a).2.path_eq.trans hpath
    rw [List.foldlM_cons, hshow, ok_bind, List.foldl_cons]
    exact ih _ hnext

theorem recompute_eq (hs : s.Readable) (more : Limits) (g : Grid) :
    recompute (.enough s more) ⟨s, g⟩ = .ok (Sheet.recompute ⟨s, g⟩) := by
  have hcolumns : List.range g.columns = (List.finRange 26).map Fin.val :=
    List.map_coe_finRange_eq_range.symm
  have hcells : cells (List.range g.rows) (List.range g.columns) = .ok g.addresses := by
    rw [hcolumns, cells_eq, Grid.addresses]
  unfold recompute
  simp only [hcells, ok_bind]
  rw [foldlM_showNext_eq hs more _ _ rfl]
  rfl

end Enough

/-- **Evaluation has no fault.** Let the row numbers of the stored cells fit in a word. Then every
cell, every text that stands in no cell and every grid is evaluated with all operations guarded, and
what comes out is what comes out without the guards, whatever is known already and whichever cells
that can be named are on the path. And any text at all is read as arithmetic with no more calls
inside one another than one above the number of signs and parentheses that may be open. -/
theorem evaluation_has_no_fault (s : Store) (hs : s.Readable) (more : Limits) :
    (∀ (p : Pass) (a : Address), (p.path.contains a = true → a.Readable) →
      evaluate s (.enough s more) p a = .ok (p.evaluate s a)) ∧
    (∀ (p : Pass) (raw : String),
      evaluateRaw s (.enough s more) p raw = .ok (p.evaluateRaw s raw)) ∧
    (∀ g : Grid, recompute (.enough s more) ⟨s, g⟩ = .ok (Sheet.recompute ⟨s, g⟩)) ∧
    ∀ cs : List Char, value (Expression.depthLimit + 1) cs = .ok (Expression.value cs) :=
  ⟨fun _ _ ha => evaluate_eq hs more ha, evaluateRaw_eq hs more, recompute_eq hs more, value_eq⟩

/-- A sum up to the last row that has a name, its corners in reverse, and a reference beyond. -/
theorem evaluation_has_no_fault_last_row :
    let s := (Store.empty.set ⟨18446744073709551614, 1⟩ "-5kg").set ⟨0, 0⟩
      "=SUM(b18446744073709551615:B2)"
    s.Readable ∧
    (evaluate s (.enough s ⟨0, 0⟩) .initial ⟨0, 0⟩).map Prod.fst = .ok (.number (-5)) ∧
    (evaluateRaw s (.enough s ⟨0, 0⟩) .initial "=-(+A1)*2+Z18446744073709551616").map Prod.fst
      = .ok (.number 10) := by
  intro s
  have hfirst : (⟨0, 0⟩ : Address).Readable := by simp [Address.Readable, Address.rowLimit]
  have hlast : (⟨18446744073709551614, 1⟩ : Address).Readable := by
    simp [Address.Readable, Address.rowLimit]
  have hs : s.Readable := (Store.readable_empty.set hlast _).set hfirst _
  obtain ⟨hcell, htext, -⟩ := evaluation_has_no_fault s hs ⟨0, 0⟩
  have hsum : (Pass.initial.evaluate s ⟨0, 0⟩).1 = .number (-5) := by decide +kernel
  have hraw : (Pass.initial.evaluateRaw s "=-(+A1)*2+Z18446744073709551616").1 = .number 10 := by
    decide +kernel
  refine ⟨hs, ?_, ?_⟩
  · rw [hcell .initial ⟨0, 0⟩ fun _ => hfirst, ← hsum]
    rfl
  · rw [htext .initial _, ← hraw]
    rfl

end FormulaSheet.Guarded
