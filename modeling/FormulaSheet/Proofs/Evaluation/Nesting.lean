/-
How far the evaluator goes.

A body asks for the cells that it reads, and to ask for a cell is to evaluate
it, which may begin a walk of its own. So a walk works out bodies, bodies ask for
cells, and cells may begin walks again, to a depth that nobody has bounded. The
walk of `Pass.walk` has no such calls: it only looks at the cells that a body
reads. Here the calls are put back, and limits with them. A walk may make so many
turns, each of which pushes a frame or pops one, and there may be so many walks
inside one another. A call that would need more has no outcome.

A small limit is enough. When a frame is popped, all that its body reads is
settled (`Kept.settled`), so that whatever the body asks for is answered by a
look, and at most a literal is noted. Hence there is one walk at a time, with two
turns for each formula of the store at most; and the outcome is that of the walk
without calls (`nesting_le_one`).

The state keeps books besides: which frames were pushed, and which were popped,
each with what was remembered at that moment.
-/
import FormulaSheet.Proofs.Evaluation.Recursion
import FormulaSheet.Proofs.Evaluation.Solution

set_option autoImplicit false

namespace FormulaSheet.Nested

/-! ## The evaluator with its calls -/

/-- A frame that was popped, and what was remembered when its body was worked out. -/
structure Popped where
  frame : Frame
  pass : Pass

/-- When the frame was popped, everything that the body of its cell looks up was known, or on the
path, or a literal, or not there. -/
def Popped.Settled (s : Store) (c : Popped) : Prop :=
  ∃ body, s.body? c.frame.cell = some body ∧ ∀ b ∈ s.lookups body,
    c.pass.memo.contains b = true ∨ c.pass.path.contains b = true ∨
      (∃ raw, s.get? b = some raw ∧ Formula.ofRaw? raw = none) ∨ s.get? b = none

/-- What is remembered, and what the walks have done so far. -/
structure State where
  pass : Pass
  /-- The cells for which a frame was pushed, the latest first. -/
  pushed : List Address
  /-- The frames that were popped, the latest first. -/
  popped : List Popped

namespace State

/-- The beginning: nothing has been done. -/
def start (p : Pass) : State := ⟨p, [], []⟩

def push (q : State) (a : Address) : State :=
  { q with pass := q.pass.enter a, pushed := a :: q.pushed }

def pop (q : State) (frame : Frame) : State :=
  { q with popped := ⟨frame, q.pass⟩ :: q.popped }

def leave (q : State) (a : Address) (v : Value) : State :=
  { q with pass := q.pass.leave a v }

def note (q : State) (a : Address) (v : Value) : State :=
  { q with pass := { q.pass with memo := q.pass.memo.insert a v } }

def onPath (q : State) (path : Path) : State :=
  { q with pass := { q.pass with path } }

end State

/-- How many turns each walk may make, and how many walks may be inside one another. -/
structure Limits where
  turns : Nat
  depth : Nat

/-- A way to ask for the value of a cell. There is no outcome when a limit is in the way. -/
abbrev Call := State → Address → Option (Value × State)

namespace Call

/-- A sum asks for each of its members on a copy of the path. Arithmetic asks on the path itself. -/
def within (call : Call) : Formula → Call
  | .sum _ => fun q a => (call q a).map fun (v, r) => (v, r.onPath q.pass.path)
  | .arithmetic _ => call

/-- Calls one after another: what comes after a call without outcome has none either. -/
def chained (call : Call) (q : Option State) (a : Address) : Value × Option State :=
  match q.bind (call · a) with
  | some (v, r) => (v, some r)
  | none => (.empty, none)

/-- Works out a body with a call for every cell that it asks for. -/
def body (call : Call) (s : Store) (q : State) (f : Formula) : Option (Value × State) :=
  match Recursion.formula (call.within f).chained s (some q) f with
  | (v, some r) => some (v, r)
  | (_, none) => none

end Call

/-- Works until no frame is left, for so many turns at most, and gives the value of the last one. -/
def loop (call : Call) (s : Store) : Nat → State → Value → List Frame → Option (Value × State)
  | _, q, last, [] => some (last, q)
  | 0, _, _, _ :: _ => none
  | turns + 1, q, last, frame :: rest =>
    match Frame.firstPending? s q.pass frame.unread with
    | some (a, f, unread) =>
      loop call s turns (q.push a) last (Frame.start s a f :: { frame with unread } :: rest)
    | none => do
      let (v, r) ← call.body s (q.pop frame) frame.formula
      loop call s turns (r.leave frame.cell v) v rest

/-- Asks for a cell, with a given way to work out a formula that is pending. -/
def ask (s : Store) (resolve : State → Address → Formula → Option (Value × State)) : Call :=
  fun q a => match q.pass.memo[a]? with
    | some v => some (v, q)
    | none =>
      if q.pass.path.contains a then some (.error .circular, q)
      else match s.get? a with
        | none => some (.empty, q)
        | some raw => match Formula.ofRaw? raw with
          | none => some (.text raw, q.note a (.text raw))
          | some f => resolve q a f

/-- Works out the formula of a cell by a walk, with at most so many walks inside one another. -/
def resolve (s : Store) (turns : Nat) : Nat → State → Address → Formula → Option (Value × State)
  | 0, _, _, _ => none
  | depth + 1, q, a, f =>
    loop (ask s (resolve s turns depth)) s turns (q.push a) .empty [Frame.start s a f]

/-- The value of a cell. -/
def evaluate (s : Store) (l : Limits) : Call :=
  ask s (resolve s l.turns l.depth)

/-- The value of a text that stands in no cell. -/
def evaluateRaw (s : Store) (l : Limits) (q : State) (raw : String) : Option (Value × State) :=
  match Formula.ofRaw? raw with
  | some f => (evaluate s l).body s q f
  | none => some (.text raw, q)

/-- Two turns for each formula, and one walk at a time; or more of both. -/
def Limits.enough (s : Store) (more : Limits) : Limits :=
  ⟨2 * s.formulas.length + more.turns, more.depth + 1⟩

section

variable {s : Store} {p₀ : Pass} {q r : State} {a b : Address} {f : Formula} {v w : Value}
  {frame : Frame} {rest : List Frame} {call : Call}

/-! ## What a body gives -/

theorem Call.chained_eq (h : call q a = some (v, r)) :
    call.chained (some q) a = (v, some r) := by
  simp only [Call.chained, Option.bind_some, h]

/-- A copy of the path makes no difference to a call that gives the path back. -/
theorem Call.within_eq (h : call q a = some (v, r)) (hpath : r.pass.path = q.pass.path) :
    call.within f q a = some (v, r) := by
  cases f with
  | arithmetic pieces => exact h
  | sum range =>
    simp only [Call.within, h, Option.map_some, State.onPath, ← hpath]

/-- A family of calls gives a cell its value with one outcome, settles it, and gives the path
back. -/
def Gives {ι : Type} (s : Store) (call : ι → Call) (settle : Pass → Address → Pass)
    (values : Address → Value) (holds : State → Prop) (a : Address) : Prop :=
  ∀ q, holds q → ∃ r, (∀ i, call i q a = some (values a, r)) ∧ r.pass = settle q.pass a ∧
    r.pass.path = q.pass.path ∧ r.pass.look s a = values a ∧ holds r

section Bodies

variable {ι : Type} {call : ι → Call} {settle : Pass → Address → Pass} {values : Address → Value}
  {holds : State → Prop}

/-- To ask for cells one after another is to consult them. -/
theorem exists_askAll_eq {cells : List Address}
    (h : ∀ a ∈ cells, Gives s call settle values holds a) (u : Bool) (hq : holds q) :
    ∃ r, (∀ i, Recursion.askAll ((call i).within f).chained u cells (some q) = some r) ∧
      r.pass = q.pass.consult s settle u cells ∧ holds r := by
  induction cells generalizing q with
  | nil => exact ⟨q, fun _ => rfl, rfl, hq⟩
  | cons a rest ih =>
    obtain ⟨r, hcall, hpass, hpath, hlook, hr⟩ := h a List.mem_cons_self q hq
    have hask : ∀ i, ((call i).within f).chained (some q) a = (values a, some r) :=
      fun i => Call.chained_eq (Call.within_eq (hcall i) hpath)
    simp only [Recursion.askAll, Pass.consult, hask, ← hpass, hlook]
    by_cases hstop : (u && (values a).isCircular) = true
    · simp only [if_pos hstop]
      exact ⟨r, fun _ => rfl, rfl, hr⟩
    · simp only [if_neg hstop]
      exact ih (fun b hb => h b (List.mem_cons_of_mem _ hb)) hr

/-- A body whose cells have values is worked out to its own value, and its cells are consulted. -/
theorem exists_body_eq (h : ∀ a ∈ f.reads s, Gives s call settle values holds a) (hq : holds q) :
    ∃ r, (∀ i, (call i).body s q f = some (f.value s values, r)) ∧
      r.pass = q.pass.consult s settle f.stopsAtCircular (f.reads s) ∧ holds r := by
  obtain ⟨r, hasked, hpass, hr⟩ := exists_askAll_eq (f := f) h f.stopsAtCircular hq
  refine ⟨r, fun i => ?_, hpass, hr⟩
  have hvalues : ∀ a ∈ f.reads s, Recursion.Gives ((call i).within f).chained values
      (fun q => ∃ r, q = some r ∧ holds r) a := by
    rintro a ha _ ⟨q, rfl, hq⟩
    obtain ⟨r, hcall, -, hpath, -, hr⟩ := h a ha q hq
    rw [Call.chained_eq (Call.within_eq (hcall i) hpath)]
    exact ⟨rfl, r, rfl, hr⟩
  have hvalue := (Recursion.formula_spec (s := s) (q := some q) hvalues ⟨q, rfl, hq⟩).1
  have hstate := Recursion.snd_formula ((call i).within f).chained s (some q) f
  rw [hasked i] at hstate
  have hbody : Recursion.formula ((call i).within f).chained s (some q) f
      = (f.value s values, some r) := Prod.ext hvalue hstate
  simp only [Call.body, hbody]

end Bodies

/-! ## What is settled is answered by a look -/

/-- To ask for a settled cell begins no walk: it is a look, after which a literal is noted. -/
theorem ask_of_settled {resolve : State → Address → Formula → Option (Value × State)}
    (h : q.pass.pending? s a = none) :
    ask s resolve q a = some (q.pass.look s a, { q with pass := q.pass.noteLiteral s a }) := by
  rw [Pass.pending?_eq_none_iff] at h
  unfold ask Pass.look Pass.noteLiteral
  rw [Std.ExtTreeMap.contains_eq_isSome_getElem?] at h ⊢
  cases hmemo : q.pass.memo[a]? with
  | some v => simp
  | none =>
    by_cases hpath : q.pass.path.contains a = true
    · simp [hpath]
    · cases hcell : s.get? a with
      | none => simp [hpath]
      | some raw =>
        have hliteral : Formula.ofRaw? raw = none := by simpa [hmemo, hpath, hcell] using h
        simp [hpath, hliteral, State.note]

/-- To ask for a pending cell is to work out its formula. -/
theorem ask_of_pending {resolve : State → Address → Formula → Option (Value × State)}
    (h : q.pass.pending? s a = some f) : ask s resolve q a = resolve q a f := by
  unfold ask
  unfold Pass.pending? at h
  rw [Std.ExtTreeMap.contains_eq_isSome_getElem?] at h
  cases hmemo : q.pass.memo[a]? with
  | some v => simp [hmemo] at h
  | none =>
    by_cases hpath : q.pass.path.contains a = true
    · simp [hpath] at h
    · cases hcell : s.get? a with
      | none => simp [hcell] at h
      | some raw =>
        have hformula : Formula.ofRaw? raw = some f := by simpa [hmemo, hpath, hcell] using h
        simp [hpath, hformula]

/-- A state that another one has become by noting literals. -/
structure Noted (s : Store) (q r : State) : Prop where
  look : ∀ b, r.pass.look s b = q.pass.look s b
  settled : ∀ b, q.pass.pending? s b = none → r.pass.pending? s b = none
  memo : ∀ b, q.pass.memo.contains b = true → r.pass.memo.contains b = true
  pushed : r.pushed = q.pushed
  popped : r.popped = q.popped

theorem Noted.refl (s : Store) (q : State) : Noted s q q where
  look _ := rfl
  settled _ h := h
  memo _ h := h
  pushed := rfl
  popped := rfl

theorem Noted.noteLiteral (h : Noted s q r) (a : Address) :
    Noted s q { r with pass := r.pass.noteLiteral s a } where
  look b := (Pass.look_noteLiteral s r.pass a b).trans (h.look b)
  settled b hb := Pass.settled_noteLiteral a (h.settled b hb)
  memo b hb := Pass.memo_noteLiteral s r.pass a (h.memo b hb)
  pushed := h.pushed
  popped := h.popped

/-- A body that reads settled cells begins no walk, whatever the limits are. -/
theorem exists_body_eq_of_settled (h : ∀ b ∈ f.reads s, q.pass.pending? s b = none) :
    ∃ r, (∀ l, (evaluate s l).body s q f = some (f.value s (q.pass.look s), r)) ∧
      r.pass = q.pass.consult s (Pass.noteLiteral s) f.stopsAtCircular (f.reads s) ∧
      Noted s q r := by
  have hgives : ∀ b ∈ f.reads s,
      Gives s (evaluate s) (Pass.noteLiteral s) (q.pass.look s) (Noted s q) b := by
    intro b hb r hr
    have hnext := hr.noteLiteral b
    refine ⟨_, fun l => ?_, rfl, Pass.path_noteLiteral s r.pass b, hnext.look b, hnext⟩
    rw [evaluate, ask_of_settled (hr.settled b (h b hb)), hr.look]
  exact exists_body_eq hgives (Noted.refl s q)

/-- To close a frame is to pop it, to work out its body with calls, and to leave its cell. -/
theorem pass_leave_eq_close (hpass : r.pass = q.pass.consult s (Pass.noteLiteral s)
      frame.formula.stopsAtCircular (frame.formula.reads s)) (hnoted : Noted s q r) :
    (r.leave frame.cell (frame.formula.value s (q.pass.look s))).pass = q.pass.close s frame := by
  have hlook : r.pass.look s = q.pass.look s := funext hnoted.look
  rw [Pass.close, State.leave, ← hpass, hlook]

/-! ## The books -/

/-- A frame that was begun finds all its cells settled when nothing that it has not read is
pending. -/
theorem settled_of_begun (h : p₀.Begun s q.pass frame)
    (hnone : ∀ b ∈ frame.formula.reads s, q.pass.pending? s b = none) :
    Popped.Settled s ⟨frame, q.pass⟩ := by
  obtain ⟨body, hbody, hformula⟩ := Pass.exists_body_of_pending h.pending
  refine ⟨body, hbody, fun b hb => ?_⟩
  rw [← Formula.reads_ofChars, hformula] at hb
  rcases Pass.pending?_eq_none_iff.mp (hnone b hb) with hmemo | hpath | hcell
  · exact .inl hmemo
  · exact .inr (.inl hpath)
  · cases hget : s.get? b with
    | none => exact .inr (.inr (.inr rfl))
    | some raw =>
      rw [hget] at hcell
      exact .inr (.inr (.inl ⟨raw, rfl, hcell⟩))

/-- What the books say while the frames of some cells are open. Every cell pushed holds a formula,
is either open or popped, and was not pushed twice; the popped ones are known. And whenever a frame
was popped, its body found all cells settled. -/
structure Kept (s : Store) (q : State) (opened : List Address) : Prop where
  pushed : q.pushed.Perm (opened ++ q.popped.map fun c => c.frame.cell)
  nodup : q.pushed.Nodup
  formula : ∀ a ∈ q.pushed, a ∈ s.formulas
  known : ∀ c ∈ q.popped, q.pass.memo.contains c.frame.cell = true
  settled : ∀ c ∈ q.popped, c.Settled s

theorem Kept.start (s : Store) (p : Pass) : Kept s (.start p) [] where
  pushed := .nil
  nodup := .nil
  formula := by simp [State.start]
  known := by simp [State.start]
  settled := by simp [State.start]

/-- A cell that is pending has not been pushed: what was pushed is on the path or known. -/
theorem Kept.push {opened : List Address} (h : Kept s q opened)
    (hopened : ∀ b ∈ opened, q.pass.path.contains b = true) (ha : q.pass.pending? s a = some f) :
    Kept s (q.push a) (a :: opened) where
  pushed := h.pushed.cons a
  nodup := by
    refine List.nodup_cons.mpr ⟨fun hpushed => ?_, h.nodup⟩
    have hsettled : q.pass.pending? s a = none := by
      rw [Pass.pending?_eq_none_iff]
      rcases List.mem_append.mp (h.pushed.mem_iff.mp hpushed) with hmem | hmem
      · exact .inr (.inl (hopened a hmem))
      · obtain ⟨c, hc, rfl⟩ := List.mem_map.mp hmem
        exact .inl (h.known c hc)
    rw [ha] at hsettled
    cases hsettled
  formula b hb := by
    rcases List.mem_cons.mp hb with rfl | hb
    · obtain ⟨body, hbody, -⟩ := Pass.exists_body_of_pending ha
      exact Store.mem_formulas hbody
    · exact h.formula b hb
  known := h.known
  settled := h.settled

/-- The top frame is closed when its body finds all cells settled. -/
theorem Kept.close {opened : List Address} (h : Kept s q (frame.cell :: opened))
    (hsettled : Popped.Settled s ⟨frame, q.pass⟩)
    (hnoted : Noted s (q.pop frame) r) (v : Value) : Kept s (r.leave frame.cell v) opened := by
  obtain ⟨pass, pushed, popped⟩ := r
  obtain rfl : pushed = q.pushed := hnoted.pushed
  obtain rfl : popped = ⟨frame, q.pass⟩ :: q.popped := hnoted.popped
  have hknown : ∀ c ∈ (⟨frame, q.pass⟩ :: q.popped : List Popped),
      (pass.memo.insert frame.cell v).contains c.frame.cell = true := by
    rw [List.forall_mem_cons]
    refine ⟨by simp, fun c hc => ?_⟩
    rw [Std.ExtTreeMap.contains_insert, hnoted.memo _ (h.known c hc), Bool.or_true]
  exact ⟨h.pushed.trans List.perm_middle.symm, h.nodup, h.formula, hknown,
    List.forall_mem_cons.mpr ⟨hsettled, h.settled⟩⟩

/-! ## The loop -/

theorem loop_nil (turns : Nat) : loop call s turns q v [] = some (v, q) := by
  cases turns <;> rfl

theorem loop_push {turns : Nat} {unread : List Address}
    (h : Frame.firstPending? s q.pass frame.unread = some (a, f, unread)) :
    loop call s (turns + 1) q v (frame :: rest)
      = loop call s turns (q.push a) v (Frame.start s a f :: { frame with unread } :: rest) := by
  rw [loop]
  simp only [h]

theorem loop_pop {turns : Nat} (h : Frame.firstPending? s q.pass frame.unread = none)
    (hbody : call.body s (q.pop frame) frame.formula = some (w, r)) :
    loop call s (turns + 1) q v (frame :: rest)
      = loop call s turns (r.leave frame.cell w) w rest := by
  rw [loop]
  simp only [h, hbody, Option.bind_eq_bind, Option.bind_some]

/-- **The loop ends** when it has a turn for each frame and two for each pending cell, with one
outcome for all such limits. It leaves what the walk leaves, and gives the value of the cell whose
frame is the last. -/
theorem exists_loop_eq {frames : List Frame} (h : p₀.Underway s q.pass frames)
    (hkept : Kept s q (frames.map Frame.cell)) (v : Value) :
    ∃ w r, (∀ l turns, 2 * q.pass.pendingCount s + frames.length ≤ turns →
        loop (evaluate s l) s turns q v frames = some (w, r)) ∧
      r.pass = q.pass.walk s frames ∧ Kept s r [] ∧
      ∀ a, (frames.map Frame.cell).getLast? = some a → w = r.pass.look s a := by
  obtain ⟨p, hp⟩ : ∃ p, q.pass = p := ⟨_, rfl⟩
  rw [hp] at h ⊢
  -- the turns that are left go down as the measure of the walk does
  fun_induction Pass.walk s p frames generalizing q v with
  | case1 p => exact ⟨v, q, fun _ turns _ => loop_nil turns, hp, hkept, by simp⟩
  | case2 p frame rest a f unread hfirst ih =>
    subst hp
    have hpending := Pass.firstPending?_pending hfirst
    have hopened : ∀ b ∈ (frame :: rest).map Frame.cell, q.pass.path.contains b = true :=
      fun b hb => (h.path b).mpr (.inr hb)
    obtain ⟨w, r, hloop, hpass, hbooks, hlast⟩ :=
      ih (hkept.push hopened hpending) v (h.descend hfirst) rfl
    refine ⟨w, r, fun l turns hturns => ?_, hpass, hbooks, fun b hb => hlast b ?_⟩
    · have hless := Pass.pendingCount_enter_lt (s := s) (p := q.pass) (a := a)
        (by rw [hpending]; rfl)
      simp only [List.length_cons] at hturns hloop
      cases turns with
      | zero => omega
      | succ turns =>
        rw [loop_push hfirst]
        exact hloop l turns (by omega)
    · rw [List.map_cons, List.map_cons, List.getLast?_cons_cons]
      exact hb
  | case3 p frame rest hfirst ih =>
    subst hp
    -- nothing that is unread is pending any more, so the body finds all its cells settled
    have hbegun := h.begun frame List.mem_cons_self
    have hnone : ∀ b ∈ frame.formula.reads s, q.pass.pending? s b = none := by
      intro b hb
      rcases hbegun.read b hb with hunread | hread
      · exact Pass.firstPending?_eq_none hfirst b hunread
      · exact hread
    obtain ⟨r, hbody, hread, hnoted⟩ := exists_body_eq_of_settled (q := q.pop frame) hnone
    have hclosed := pass_leave_eq_close hread hnoted
    obtain ⟨w, t, hloop, hpass, hbooks, hlast⟩ :=
      ih (hkept.close (settled_of_begun hbegun hnone) hnoted _) _
        (h.close (Pass.firstPending?_eq_none hfirst)) hclosed
    refine ⟨w, t, fun l turns hturns => ?_, hpass, hbooks, fun b hb => ?_⟩
    · have hless := Pass.pendingCount_close_le s q.pass frame
      simp only [List.length_cons] at hturns
      cases turns with
      | zero => omega
      | succ turns =>
        rw [loop_pop hfirst (hbody l)]
        exact hloop l turns (by omega)
    · cases rest with
      | cons next rest =>
        rw [List.map_cons, List.map_cons, List.getLast?_cons_cons] at hb
        exact hlast b hb
      | nil =>
        have hend := hloop ⟨0, 0⟩ _ (Nat.le_refl _)
        rw [loop_nil, Option.some.injEq, Prod.mk.injEq] at hend
        obtain rfl : frame.cell = b := by simpa using hb
        rw [← hend.1, ← hend.2]
        simp [State.leave, Pass.leave, Pass.look]

/-! ## Calls from outside -/

/-- Between calls from outside the walks that go on from a pass have come to an end, and no frame is
open. -/
structure Between (s : Store) (p₀ : Pass) (q : State) : Prop where
  underway : p₀.Underway s q.pass []
  kept : Kept s q []

theorem Between.start (s : Store) (p : Pass) : Between s p (.start p) where
  underway := .refl s p
  kept := .start s p

/-- A call with enough of both limits has one outcome, namely the value and the pass of the walk. -/
theorem Between.exists_evaluate_eq (h : Between s p₀ q) (a : Address) :
    ∃ r, (∀ more, evaluate s (.enough s more) q a = some ((q.pass.evaluate s a).1, r)) ∧
      r.pass = (q.pass.evaluate s a).2 ∧ Between s p₀ r := by
  have hunder : p₀.Underway s (q.pass.evaluate s a).2 [] := (h.underway.evaluate a).2
  cases hpending : q.pass.pending? s a with
  | none =>
    have hsettle : (q.pass.evaluate s a).2 = q.pass.noteLiteral s a := by
      simp only [Pass.evaluate, Pass.settle, hpending]
    refine ⟨{ q with pass := q.pass.noteLiteral s a }, fun more => ?_, hsettle.symm,
      hsettle ▸ hunder, { h.kept with
        known := fun c hc => Pass.memo_noteLiteral s q.pass a (h.kept.known c hc) }⟩
    rw [evaluate, ask_of_settled hpending, Pass.evaluate_of_settled hpending]
  | some f =>
    have hsettle : (q.pass.evaluate s a).2 = (q.pass.enter a).walk s [Frame.start s a f] := by
      simp only [Pass.evaluate, Pass.settle, hpending]
    have hbegun : p₀.Underway s (q.push a).pass [Frame.start s a f] :=
      h.underway.push hpending .nil
    have hpushed : Kept s (q.push a) [a] := h.kept.push (by simp) hpending
    obtain ⟨w, r, hloop, hpass, hkept, hlast⟩ := exists_loop_eq hbegun hpushed .empty
    have hpass : r.pass = (q.pass.evaluate s a).2 := hpass.trans hsettle.symm
    have hvalue : w = (q.pass.evaluate s a).1 := by
      rw [hlast a rfl, hpass]
      rfl
    refine ⟨r, fun more => ?_, hpass, hpass ▸ hunder, hkept⟩
    rw [evaluate, ask_of_pending hpending, Limits.enough, resolve, ← hvalue]
    apply hloop ⟨_, more.depth⟩
    -- the first frame was pushed before the first turn
    have hless : (q.push a).pass.pendingCount s < q.pass.pendingCount s :=
      Pass.pendingCount_enter_lt (by rw [hpending]; rfl)
    have hle := Pass.pendingCount_le s q.pass
    simp only [List.length_singleton]
    omega

/-- A text that stands in no cell begins walks one after another, and none inside another one. -/
theorem Between.exists_evaluateRaw_eq (h : Between s p₀ q) (raw : String) :
    ∃ r, (∀ more, evaluateRaw s (.enough s more) q raw = some ((q.pass.evaluateRaw s raw).1, r)) ∧
      r.pass = (q.pass.evaluateRaw s raw).2 ∧ Between s p₀ r := by
  cases hformula : Formula.ofRaw? raw with
  | none =>
    refine ⟨q, fun _ => ?_, ?_, h⟩
    · simp only [evaluateRaw, Pass.evaluateRaw, hformula]
    · simp only [Pass.evaluateRaw, hformula]
  | some f =>
    have hgives : ∀ b ∈ f.reads s, Gives s (fun more => evaluate s (.enough s more))
        (Pass.settle s) (fun b => (p₀.evaluate s b).1) (Between s p₀) b := by
      intro b _ r hr
      obtain ⟨t, hcall, hpass, ht⟩ := hr.exists_evaluate_eq b
      have hvalue : (r.pass.evaluate s b).1 = (p₀.evaluate s b).1 := hr.underway.evaluate_eq b
      refine ⟨t, fun more => (hcall more).trans (by rw [hvalue]), hpass, ?_, ?_, ht⟩
      · rw [ht.underway.path_eq, hr.underway.path_eq]
      · rw [hpass]
        exact hvalue
    obtain ⟨r, hbody, hpass, hr⟩ := exists_body_eq hgives h
    refine ⟨r, fun more => ?_, ?_, hr⟩
    · simp only [evaluateRaw, Pass.evaluateRaw, hformula]
      rw [hbody more, (h.underway.evaluateFormula f).1]
    · simp only [Pass.evaluateRaw, hformula]
      exact hpass

end

/-- **One walk at a time.** Whatever is remembered at the beginning, to evaluate a cell, or a text
that stands in no cell, never begins a walk inside another one: the outcome is the same whether or
not that is allowed, and it is the one of the walk without calls. For whenever a frame is popped,
what its body looks up is settled. -/
theorem nesting_le_one (s : Store) (p : Pass) :
    (∀ a, ∃ q, (∀ more, evaluate s (.enough s more) (.start p) a = some ((p.evaluate s a).1, q)) ∧
      q.pass = (p.evaluate s a).2 ∧ ∀ c ∈ q.popped, c.Settled s) ∧
    ∀ raw, ∃ q,
      (∀ more, evaluateRaw s (.enough s more) (.start p) raw
        = some ((p.evaluateRaw s raw).1, q)) ∧
      q.pass = (p.evaluateRaw s raw).2 ∧ ∀ c ∈ q.popped, c.Settled s := by
  have hstart := Between.start s p
  constructor
  · intro a
    obtain ⟨q, hcall, hpass, hq⟩ := hstart.exists_evaluate_eq a
    exact ⟨q, hcall, hpass, hq.kept.settled⟩
  · intro raw
    obtain ⟨q, hcall, hpass, hq⟩ := hstart.exists_evaluateRaw_eq raw
    exact ⟨q, hcall, hpass, hq.kept.settled⟩

-- one walk is needed: where none may begin, a stored formula has no outcome
example :
    (evaluate (Store.empty.set ⟨0, 0⟩ "=1") ⟨2, 0⟩ (.start .initial) ⟨0, 0⟩).isNone = true := by
  decide +kernel

end FormulaSheet.Nested
