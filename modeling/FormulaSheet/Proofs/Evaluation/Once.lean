/-
Each formula is worked out once.

A pass is asked for many cells, by one caller or by several, and each call may
come on a path of its own. What the calls share is the memo, and that is enough:
a cell whose frame was popped is known from then on, and a cell whose frame is
still open is on the path, so no cell is ever pushed again. The books of a
session (`Kept`) say so after every call. Hence there are at most as many
frames, over the whole session, as the store holds formulas, and every walk comes
to an end.

To recompute a sheet is such a session, with a call for each cell of the grid.
-/
import FormulaSheet.Proofs.Evaluation.Nesting
import FormulaSheet.Proofs.Evaluation.Sharing
import Mathlib.Data.List.Perm.Subperm

set_option autoImplicit false

namespace FormulaSheet.Nested

variable {s : Store} {q : State}

/-! ## Sessions -/

/-- The answer to a request. -/
def answer (s : Store) (l : Limits) (q : State) : Request → Option (Value × State)
  | .cell a => evaluate s l q a
  | .text raw => evaluateRaw s l q raw

/-- Requests one after another, each on a path of its own. They share the memo. -/
def session (s : Store) (l : Limits) :
    State → List (Path × Request) → Option (List Value × State)
  | q, [] => some ([], q)
  | q, (path, request) :: rest => do
    let (v, q) ← answer s l (q.onPath path) request
    let (values, q) ← session s l q rest
    some (v :: values, q)

/-- The pass that a request leaves behind when it comes on a path of its own. -/
def leftBy (s : Store) (p : Pass) (call : Path × Request) : Pass :=
  (Pass.answer s { p with path := call.1 } call.2).2

/-- The books do not mind a change of path between two calls. -/
theorem Kept.onPath (h : Kept s q []) (path : Path) : Kept s (q.onPath path) [] where
  pushed := h.pushed
  nodup := h.nodup
  formula := h.formula
  known := h.known
  settled := h.settled

theorem Kept.exists_answer_eq (h : Kept s q []) (request : Request) :
    ∃ v r, (∀ more, answer s (.enough s more) q request = some (v, r)) ∧
      r.pass = (q.pass.answer s request).2 ∧ Kept s r [] := by
  have hbetween : Between s q.pass q := ⟨.refl s q.pass, h⟩
  cases request with
  | cell a =>
    obtain ⟨r, hcall, hpass, hr⟩ := hbetween.exists_evaluate_eq a
    exact ⟨_, r, hcall, hpass, hr.kept⟩
  | text raw =>
    obtain ⟨r, hcall, hpass, hr⟩ := hbetween.exists_evaluateRaw_eq raw
    exact ⟨_, r, hcall, hpass, hr.kept⟩

/-- **A session ends**, with its books in order. -/
theorem Kept.exists_session_eq (h : Kept s q []) (calls : List (Path × Request)) :
    ∃ values r, (∀ more, session s (.enough s more) q calls = some (values, r)) ∧
      r.pass = calls.foldl (leftBy s) q.pass ∧ Kept s r [] := by
  induction calls generalizing q with
  | nil => exact ⟨[], q, fun _ => rfl, rfl, h⟩
  | cons call rest ih =>
    obtain ⟨path, request⟩ := call
    obtain ⟨v, t, hanswer, hpass, ht⟩ := (h.onPath path).exists_answer_eq request
    obtain ⟨values, r, hsession, hleft, hr⟩ := ih ht
    refine ⟨v :: values, r, fun more => ?_, ?_, hr⟩
    · simp only [session, hanswer more, hsession more, Option.bind_eq_bind, Option.bind_some]
    · rw [hleft, hpass]
      rfl

/-! ## What the books of a session say -/

/-- No formula was begun twice, and all that were begun were finished. -/
structure State.Once (s : Store) (q : State) : Prop where
  pushed : q.pushed.Nodup
  popped : (q.popped.map fun c => c.frame.cell).Nodup
  finished : (q.popped.map fun c => c.frame.cell).Perm q.pushed
  stored : ∀ a ∈ q.pushed, a ∈ s.formulas
  count : q.pushed.length ≤ s.formulas.length

theorem Kept.once (h : Kept s q []) : q.Once s where
  pushed := h.nodup
  popped := h.pushed.nodup_iff.mp h.nodup
  finished := h.pushed.symm
  stored := h.formula
  count := (h.nodup.subperm h.formula).length_le

/-! ## Recomputing -/

/-- To show cells one after another is to ask for them, each on the path that the pass began
with. -/
theorem snd_foldl_showNext (s : Store) (cells : List Address) (d : Display) (p : Pass) :
    (cells.foldl (Sheet.showNext s) (d, p)).2
      = (cells.map fun a => (p.path, Request.cell a)).foldl (leftBy s) p := by
  induction cells generalizing d p with
  | nil => rfl
  | cons a rest ih =>
    have hpath : (p.evaluate s a).2.path = p.path :=
      ((Pass.Underway.refl s p).evaluate a).2.path_eq
    rw [List.foldl_cons, Sheet.showNext, ih, hpath]
    rfl

/-- **Each formula at most once.** Any session of calls comes to an end, whatever its memo and the
paths of its calls hold, within two turns of each walk for each formula of the store. In all of it
no cell is pushed twice and no body is worked out twice, so that there are no more frames than
formulas. And so it is when a sheet is recomputed. -/
theorem each_formula_once (s : Store) :
    (∀ (memo : Memo) (calls : List (Path × Request)), ∃ values q,
      (∀ more, session s (.enough s more) (.start ⟨memo, ∅⟩) calls = some (values, q)) ∧
        q.pass = calls.foldl (leftBy s) ⟨memo, ∅⟩ ∧ q.Once s) ∧
    ∀ g : Grid, ∃ values q,
      (∀ more, session s (.enough s more) (.start .initial)
        (g.addresses.map fun a => (∅, .cell a)) = some (values, q)) ∧
      q.pass = (g.addresses.foldl (Sheet.showNext s) (Display.empty, .initial)).2 ∧ q.Once s := by
  constructor
  · intro memo calls
    obtain ⟨values, q, hsession, hleft, hq⟩ := (Kept.start s ⟨memo, ∅⟩).exists_session_eq calls
    exact ⟨values, q, hsession, hleft, hq.once⟩
  · intro g
    obtain ⟨values, q, hsession, hleft, hq⟩ := (Kept.start s .initial).exists_session_eq
      (g.addresses.map fun a => (∅, Request.cell a))
    refine ⟨values, q, hsession, ?_, hq.once⟩
    rw [hleft, snd_foldl_showNext]
    rfl

end FormulaSheet.Nested
