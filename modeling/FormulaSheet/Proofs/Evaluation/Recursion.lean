/-
The plain recursion, and why the walk stands in for it.

The shortest way to say what a cell is worth is a recursion. A known cell has
the value that the memo says; a cell on the path is circular; a literal is
noted; and a formula enters the path, has its body worked out with a recursive
call for each cell that stands in it, and leaves the path for the memo. The
depth of the calls is that of the longest chain of references, and so the walk
does the same work with a stack of frames.

Not the same work exactly. A frame settles all the cells it reads before its
body is applied, while here a sum gives up at its first circular cell: the walk
visits cells that the recursion never sees, and it visits them on another path.
So the two memos may differ. The values do not, because both are the meaning of
the cell in the pass that it is asked for, and this for the same reason
(`Pass.means_look`): whatever is on the path waits for the cell in question.

The path is part of the type of what is returned. A call gives the path back as
it got it, and that is what makes the next call go down by the same measure: the
number of cells in the store that are not on the path.
-/
import FormulaSheet.Proofs.Evaluation.Value

set_option autoImplicit false

namespace FormulaSheet

namespace Recursion

/-! ## Bodies

A body asks for its cells one after another. What is asked, and what is kept
from one question to the next, is left open here. -/

section Bodies

variable {σ : Type}

/-- Adds up the members of a sum. The first circular one ends it. -/
def addUp (ask : σ → Address → Value × σ) (sum : Float) : List Address → σ → Value × σ
  | [], q => (.number sum, q)
  | a :: rest, q =>
    let (v, q) := ask q a
    if v.isCircular then (v, q)
    else match v.number? with
      | some x => addUp ask (sum + x) rest q
      | none => addUp ask sum rest q

/-- Puts numbers in the place of the references, and tells whether one of them was circular. -/
def fillIn (ask : σ → Address → Value × σ) : List Piece → σ → (Bool × List Char) × σ
  | [], q => ((false, []), q)
  | .char c :: rest, q =>
    let ((circular, text), q) := fillIn ask rest q
    ((circular, c :: text), q)
  | .reference none :: rest, q =>
    let ((circular, text), q) := fillIn ask rest q
    ((circular, '0' :: text), q)
  | .reference (some a) :: rest, q =>
    let (v, q) := ask q a
    let ((circular, text), q) := fillIn ask rest q
    ((v.isCircular || circular, v.operand ++ text), q)

/-- Works out a formula, asking for the cells it reads where its body needs them. -/
def formula (ask : σ → Address → Value × σ) (s : Store) (q : σ) : Formula → Value × σ
  | .sum none => (.number 0, q)
  | .sum (some r) => addUp ask 0 (s.members r) q
  | .arithmetic pieces =>
    let ((circular, text), q) := fillIn ask pieces q
    (if circular then .error .circular else Formula.arithmeticValue text, q)

end Bodies

/-! ## What a body gives -/

section Answers

variable {s : Store} {σ : Type} {ask : σ → Address → Value × σ} {values : Address → Value}
  {holds : σ → Prop}

/-- Asking for a cell gives its value, and something is kept in doing so. -/
def Gives (ask : σ → Address → Value × σ) (values : Address → Value) (holds : σ → Prop)
    (a : Address) : Prop :=
  ∀ q, holds q → (ask q a).1 = values a ∧ holds (ask q a).2

/-- The sum of members whose values are known. One circular value decides, wherever it stands. -/
theorem addUp_spec {cells : List Address} (h : ∀ a ∈ cells, Gives ask values holds a)
    (sum : Float) {q : σ} (hq : holds q) :
    (addUp ask sum cells q).1 =
        (if (cells.map values).any Value.isCircular then .error .circular
          else .number (((cells.map values).filterMap Value.number?).foldl (· + ·) sum)) ∧
      holds (addUp ask sum cells q).2 := by
  induction cells generalizing sum q with
  | nil => exact ⟨rfl, hq⟩
  | cons a rest ih =>
    obtain ⟨hvalue, hnext⟩ := h a List.mem_cons_self q hq
    have hrest := fun sum => ih (fun b hb => h b (List.mem_cons_of_mem _ hb)) sum hnext
    simp only [addUp, hvalue, List.map_cons, List.any_cons]
    -- the sum ends here, or goes on with or without a number from this cell
    by_cases hcircular : (values a).isCircular = true
    · simp only [hcircular, Bool.true_or, if_true]
      exact ⟨Value.isCircular_iff.mp hcircular, hnext⟩
    · simp only [Bool.eq_false_iff.mpr hcircular, Bool.false_or, Bool.false_eq_true, if_false,
        List.filterMap_cons]
      cases (values a).number? with
      | some x => exact hrest (sum + x)
      | none => exact hrest sum

/-- The text of an expression whose references have known values, and whether one is circular. -/
theorem fillIn_spec {pieces : List Piece}
    (h : ∀ a ∈ (Formula.arithmetic pieces).reads s, Gives ask values holds a) {q : σ}
    (hq : holds q) :
    (fillIn ask pieces q).1 =
        (((Formula.arithmetic pieces).reads s).any fun a => (values a).isCircular,
          pieces.flatMap (Formula.substitute values)) ∧
      holds (fillIn ask pieces q).2 := by
  induction pieces generalizing q with
  | nil => exact ⟨rfl, hq⟩
  | cons piece rest ih =>
    match piece with
    | .char c =>
      obtain ⟨hrest, hkept⟩ := ih h hq
      refine ⟨?_, hkept⟩
      simp only [fillIn, hrest]
      rfl
    | .reference none =>
      obtain ⟨hrest, hkept⟩ := ih h hq
      refine ⟨?_, hkept⟩
      simp only [fillIn, hrest]
      rfl
    | .reference (some a) =>
      obtain ⟨hvalue, hnext⟩ := h a List.mem_cons_self q hq
      obtain ⟨hrest, hkept⟩ := ih (fun b hb => h b (List.mem_cons_of_mem _ hb)) hnext
      refine ⟨?_, hkept⟩
      simp only [fillIn, hrest, hvalue]
      rfl

/-- A formula, worked out from cell to cell, has the value of its body. -/
theorem formula_spec {f : Formula} (h : ∀ a ∈ f.reads s, Gives ask values holds a) {q : σ}
    (hq : holds q) :
    (formula ask s q f).1 = f.value s values ∧ holds (formula ask s q f).2 := by
  match f, h with
  | .sum none, _ => exact ⟨rfl, hq⟩
  | .sum (some r), h => exact addUp_spec h 0 hq
  | .arithmetic pieces, h =>
    obtain ⟨hfill, hkept⟩ := fillIn_spec h hq
    refine ⟨?_, hkept⟩
    simp only [formula, hfill, Formula.value, List.any_map, Function.comp_def]

end Answers

/-! ## What a body asks for -/

section Asking

variable {σ : Type} (ask : σ → Address → Value × σ)

/-- Asks for cells in order. With `untilCircular` the first circular one is the last. -/
def askAll (untilCircular : Bool) : List Address → σ → σ
  | [], q => q
  | a :: rest, q =>
    if untilCircular && (ask q a).1.isCircular then (ask q a).2
    else askAll untilCircular rest (ask q a).2

theorem snd_addUp (sum : Float) (cells : List Address) (q : σ) :
    (addUp ask sum cells q).2 = askAll ask true cells q := by
  induction cells generalizing sum q with
  | nil => rfl
  | cons a rest ih =>
    simp only [addUp, askAll, Bool.true_and]
    by_cases h : (ask q a).1.isCircular = true
    · rw [if_pos h, if_pos h]
    · rw [if_neg h, if_neg h]
      cases (ask q a).1.number? with
      | some x => exact ih (sum + x) _
      | none => exact ih sum _

theorem snd_fillIn (s : Store) (pieces : List Piece) (q : σ) :
    (fillIn ask pieces q).2
      = askAll ask false ((Formula.arithmetic pieces).reads s) q := by
  induction pieces generalizing q with
  | nil => rfl
  | cons piece rest ih =>
    match piece with
    | .char c => exact ih q
    | .reference none => exact ih q
    | .reference (some a) => exact ih (ask q a).2

/-- A body asks for the cells that it reads, in their order. -/
theorem snd_formula (s : Store) (q : σ) (f : Formula) :
    (formula ask s q f).2 = askAll ask f.stopsAtCircular (f.reads s) q := by
  match f with
  | .sum none => rfl
  | .sum (some r) => exact snd_addUp ask 0 (s.members r) q
  | .arithmetic pieces => exact snd_fillIn ask s pieces q

end Asking

/-! ## The recursion -/

/-- The passes with a given path. -/
abbrev On (path : Path) := { p : Pass // p.path = path }

/-- How many cells of the store are not on a path. -/
def offPath (s : Store) (path : Path) : Nat :=
  s.addresses.countP fun a => !path.contains a

theorem offPath_insert_lt {s : Store} {path : Path} {a : Address} (ha : a ∈ s.addresses)
    (hpath : ¬ path.contains a = true) : offPath s (path.insert a) < offPath s path := by
  refine Pass.countP_lt_countP ?_ ha ?_ ?_
  · intro b hb
    rw [Std.ExtTreeSet.contains_insert, Bool.not_or, Bool.and_eq_true] at hb
    exact hb.2
  · simp
  · rw [Bool.eq_false_iff.mpr hpath]
    rfl

theorem erase_insert {path : Path} {a : Address} (hpath : ¬ path.contains a = true) :
    (path.insert a).erase a = path := by
  apply Std.ExtTreeSet.ext_contains
  intro b
  by_cases hab : a = b
  · subst hab
    simp [hpath]
  · have hne : (compare a b == .eq) = false := by
      rw [beq_eq_false_iff_ne, ne_eq, Std.LawfulEqOrd.compare_eq_iff_eq]
      exact hab
    simp [hne, bne]

/-- The pass after a call is on the path of the pass before it. -/
def On.after {path : Path} (q : On path) (r : Value × On q.1.path) : Value × On path :=
  (r.1, ⟨r.2.1, r.2.2.trans q.2⟩)

/-- Finishes a cell that was entered: it leaves the path for the memo. -/
def On.finish {p : Pass} {a : Address} (hpath : ¬ p.path.contains a = true)
    (r : Value × On (p.enter a).path) : Value × On p.path :=
  (r.1, ⟨r.2.1.leave a r.1, by
    have hpath' : r.2.1.path = p.path.insert a := r.2.2
    rw [Pass.leave, hpath', erase_insert hpath]⟩)

/-- The value of a cell by plain recursion, and what the pass remembers afterwards. -/
def evaluate (s : Store) (p : Pass) (a : Address) : Value × On p.path :=
  match p.memo[a]? with
  | some v => (v, ⟨p, rfl⟩)
  | none =>
    if hpath : p.path.contains a = true then (.error .circular, ⟨p, rfl⟩)
    else match _hcell : s.get? a with
      | none => (.empty, ⟨p, rfl⟩)
      | some raw => match Formula.ofRaw? raw with
        | none => (.text raw, ⟨{ p with memo := p.memo.insert a (.text raw) }, rfl⟩)
        | some f =>
          On.finish hpath (formula (fun (q : On (p.enter a).path) b => q.after (evaluate s q.1 b))
            s ⟨p.enter a, rfl⟩ f)
termination_by offPath s p.path
decreasing_by
  rw [q.2]
  exact offPath_insert_lt (by rw [Store.mem_addresses, _hcell]; rfl) hpath

/-- The value of a text that stands in no cell, by plain recursion. -/
def evaluateRaw (s : Store) (p : Pass) (raw : String) : Value × On p.path :=
  match Formula.ofRaw? raw with
  | some f => formula (fun (q : On p.path) b => q.after (evaluate s q.1 b)) s ⟨p, rfl⟩ f
  | none => (.text raw, ⟨p, rfl⟩)

/-! ## The recursion gives what the walk gives -/

section Walk

variable {s : Store} {p₀ p : Pass} {a : Address} {begun : List Address}

/-- A call in a pass that goes on from `p₀` gives what the walk gives in `p₀`, and what it leaves in
the memo goes on from there again. -/
theorem evaluate_spec (hm : p₀.Faithful s p.memo) (hp : p₀.Extends p.path begun)
    (hwait : p₀.Await s begun a) :
    (evaluate s p a).1 = (p₀.evaluate s a).1 ∧ p₀.Faithful s (evaluate s p a).2.1.memo := by
  fun_induction evaluate s p a generalizing begun with
  | case1 p a v hmemo => exact ⟨Pass.means_iff.mp (hm.means a v hmemo), hm⟩
  | case2 p a hmemo hpath =>
    have hsettled : p.pending? s a = none := Pass.pending?_eq_none_iff.mpr (.inr (.inl hpath))
    have hmeans := Pass.means_look hm hp hwait hsettled
    simp only [Pass.look, hmemo, if_pos hpath] at hmeans
    exact ⟨Pass.means_iff.mp hmeans, hm⟩
  | case3 p a hmemo hpath hcell =>
    have hsettled : p.pending? s a = none :=
      Pass.pending?_eq_none_iff.mpr (.inr (.inr (by rw [hcell]; rfl)))
    have hmeans := Pass.means_look hm hp hwait hsettled
    simp only [Pass.look, hmemo, if_neg hpath, hcell] at hmeans
    exact ⟨Pass.means_iff.mp hmeans, hm⟩
  | case4 p a hmemo hpath raw hcell hliteral =>
    have hsettled : p.pending? s a = none :=
      Pass.pending?_eq_none_iff.mpr (.inr (.inr (by rw [hcell]; exact hliteral)))
    have hmeans := Pass.means_look hm hp hwait hsettled
    simp only [Pass.look, hmemo, if_neg hpath, hcell] at hmeans
    exact ⟨Pass.means_iff.mp hmeans, hm.insert hmeans⟩
  | case5 p a hmemo hpath raw hcell f hformula ih =>
    -- the formula was pending when the outermost call was made
    have hpending : p₀.pending? s a = some f := by
      apply Pass.pending?_eq_of_later hm hp
      rw [Pass.pending?, Std.ExtTreeMap.contains_eq_isSome_getElem?, hmemo, hcell]
      simp [hpath, hformula]
    -- inside the body the cell itself is begun, and waits for what the body reads
    have hgives : ∀ b ∈ f.reads s,
        Gives (fun (q : On (p.enter a).path) b => q.after (evaluate s q.1 b))
          (fun b => (p₀.evaluate s b).1) (fun q => p₀.Faithful s q.1.memo) b := by
      intro b hb q hq
      have hbegun : p₀.Extends q.1.path (a :: begun) := by
        rw [q.2]
        exact Pass.Extends.enter hp a
      have hwait : p₀.Await s begun a := hwait
      exact ih q b hq hbegun (hwait.cons ⟨f, hpending, hb⟩)
    obtain ⟨hvalue, hkept⟩ := formula_spec (q := ⟨p.enter a, rfl⟩) hgives hm
    have hcell : (p₀.evaluate s a).1 = f.value s fun b => (p₀.evaluate s b).1 :=
      Pass.evaluate_of_pending hpending
    rw [← hcell] at hvalue
    exact ⟨hvalue, hkept.insert (Pass.means_iff.mpr hvalue)⟩

/-- Where nothing has been begun since `p₀`, a call gives what the walk gives in `p₀`. -/
theorem gives_evaluate (s : Store) (p₀ : Pass) (a : Address) :
    Gives (fun (q : On p₀.path) b => q.after (evaluate s q.1 b))
      (fun b => (p₀.evaluate s b).1) (fun q => p₀.Faithful s q.1.memo) a := by
  intro q hq
  have hpath : p₀.Extends q.1.path [] := by
    rw [q.2]
    exact .refl p₀
  exact evaluate_spec hq hpath .nil

theorem evaluate_eq (s : Store) (p : Pass) (a : Address) :
    (evaluate s p a).1 = (p.evaluate s a).1 :=
  (gives_evaluate s p a ⟨p, rfl⟩ (.refl s p)).1

theorem evaluateRaw_eq (s : Store) (p : Pass) (raw : String) :
    (evaluateRaw s p raw).1 = (p.evaluateRaw s raw).1 := by
  unfold evaluateRaw Pass.evaluateRaw
  cases Formula.ofRaw? raw with
  | none => rfl
  | some f =>
    have hwalks := ((Pass.Underway.refl s p).evaluateFormula f).1
    have hcalls := formula_spec (s := s) (f := f) (q := ⟨p, rfl⟩)
      (fun b _ => gives_evaluate s p b) (.refl s p)
    exact hcalls.1.trans hwalks.symm

end Walk

end Recursion

/-- **The walk gives what the plain recursion gives**, for every cell and every text, whatever the
memo and the path hold at the beginning; and it gives the path back. -/
theorem evaluate_eq_recursion (s : Store) (p : Pass) :
    (∀ a, (p.evaluate s a).1 = (Recursion.evaluate s p a).1 ∧ (p.evaluate s a).2.path = p.path) ∧
    ∀ raw, (p.evaluateRaw s raw).1 = (Recursion.evaluateRaw s p raw).1 ∧
      (p.evaluateRaw s raw).2.path = p.path := by
  have hbegin := Pass.Underway.refl s p
  constructor
  · intro a
    exact ⟨(Recursion.evaluate_eq s p a).symm, (hbegin.evaluate a).2.path_eq⟩
  · intro raw
    exact ⟨(Recursion.evaluateRaw_eq s p raw).symm, (hbegin.evaluateRaw raw).2.path_eq⟩

end FormulaSheet
