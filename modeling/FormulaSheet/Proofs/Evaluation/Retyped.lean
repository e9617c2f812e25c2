/-
Typing in what a cell shows.

A formula learns little of a cell that it reads: whether it is circular, and the
number that it is read as, and of that not even the sign of a zero. Two values
that are alike in this give every formula the same value (`value_congr_alike`).

So a stored cell may be overwritten by a literal that is read as the cell was,
and no other cell and no text changes its value (`evaluate_set_of_alike`), even
though a formula with all its reads has gone. For the cell was not circular, and
so it was on no circle and on no way to one. The text that a computed number is
shown by is such a literal.
-/
import FormulaSheet.Proofs.Evaluation.Edit
import FormulaSheet.Proofs.Number.Shown

set_option autoImplicit false

namespace FormulaSheet

open Relation (ReflTransGen TransGen)
open Number (asShown)

/-! ## Values that formulas do not tell apart -/

/-- Two values are alike when both are circular or none, and both are read as the same number, the
sign of a zero aside, or none. -/
structure Value.Alike (v w : Value) : Prop where
  isCircular : v.isCircular = w.isCircular
  number? : v.number?.map asShown = w.number?.map asShown

namespace Value

variable {v w : Value} {x : Float}

theorem Alike.refl (v : Value) : v.Alike v := ⟨rfl, rfl⟩

/-- Alike values become the same text in arithmetic. -/
theorem Alike.operand_eq (h : v.Alike w) : v.operand = w.operand := by
  have hoperand : ∀ v : Value, v.operand = (v.number?.map asShown).elim ['0'] Number.text := by
    intro v
    unfold operand
    cases v.number? with
    | none => rfl
    | some x => exact (Number.text_asShown x).symm
  rw [hoperand, hoperand, h.number?]

theorem number?_text_shown (hx : x.isNaN = false) :
    (Value.text (String.ofList (Number.text x))).number? = some (asShown x) := by
  rw [Value.number?, String.toList_ofList, Number.leading?_text hx]

/-- A number is like the text that it is shown by. -/
theorem alike_text_shown (hx : x.isNaN = false) :
    (Value.number x).Alike (.text (String.ofList (Number.text x))) where
  isCircular := rfl
  number? := by
    rw [number?_text_shown hx, number?_number, Option.map_some, Option.map_some,
      Number.asShown_asShown]

end Value

namespace Formula

theorem filterMap_number?_map (values : List Value) :
    (values.filterMap Value.number?).map asShown
      = values.filterMap fun v => v.number?.map asShown := by
  rw [List.map_filterMap]

/-- **A formula does not tell alike values apart.** -/
theorem value_congr_alike {s : Store} {f : Formula} {look look' : Address → Value}
    (h : ∀ a ∈ f.reads s, (look a).Alike (look' a)) : f.value s look = f.value s look' := by
  have hcircular : ((f.reads s).map look).any Value.isCircular
      = ((f.reads s).map look').any Value.isCircular := by
    rw [List.any_map, List.any_map, Bool.eq_iff_iff, List.any_eq_true, List.any_eq_true]
    refine exists_congr fun a => and_congr_right fun ha => ?_
    rw [Function.comp_apply, Function.comp_apply, (h a ha).isCircular]
  have hnumbers : (((f.reads s).map look).filterMap Value.number?).map asShown
      = (((f.reads s).map look').filterMap Value.number?).map asShown := by
    rw [filterMap_number?_map, filterMap_number?_map, List.filterMap_map, List.filterMap_map]
    exact List.filterMap_congr fun a ha => (h a ha).number?
  unfold value
  dsimp only
  rw [hcircular]
  match f, h, hnumbers with
  | sum r, _, hnumbers =>
    dsimp only
    rw [← Number.total_map_asShown, hnumbers, Number.total_map_asShown]
  | arithmetic pieces, h, _ =>
    have hpieces : pieces.flatMap (substitute look) = pieces.flatMap (substitute look') := by
      rw [List.flatMap_def, List.flatMap_def]
      congr 1
      apply List.map_congr_left
      intro p hp
      match p with
      | .char c => rfl
      | .reference none => rfl
      | .reference (some a) => exact (h a (List.mem_filterMap.mpr ⟨_, hp, rfl⟩)).operand_eq
    simp only [hpieces]

end Formula

namespace Store

variable {s : Store} {a b c d : Address} {raw : String}

/-! ## Overwriting a cell by what it is read as -/

/-- A cell that is not circular is on no way to a circle. -/
theorem ne_of_way_to_circle (hc : s.evaluate c ≠ .error .circular)
    (hway : ReflTransGen s.Reads a b) (hcycle : TransGen s.Reads b b) : a ≠ c := by
  rintro rfl
  exact hc (Pass.evaluate_eq_circular_iff.mpr
    (Pass.circular_initial_iff.mpr ⟨b, hway, hcycle⟩))

section Overwritten

variable (hstored : s.get? c ≠ none) (hclear : raw ≠ "")

include hstored hclear

theorem contains_set_of_stored (a : Address) : (s.set c raw).contains a = s.contains a := by
  rw [contains_eq_isSome, contains_eq_isSome]
  by_cases hac : a = c
  · rw [hac, s.get?_set_self c hclear, Option.isSome_some,
      Option.isSome_iff_ne_none.mpr hstored]
  · rw [s.get?_set_of_ne raw hac]

/-- A body looks up the same cells as before. -/
theorem lookups_set_of_stored (body : List Char) :
    (s.set c raw).lookups body = s.lookups body :=
  lookups_congr fun b _ => contains_set_of_stored hstored hclear b

/-- The other cells read what they did before. -/
theorem Reads.set_of_ne (h : s.Reads a b) (ha : a ≠ c) : (s.set c raw).Reads a b := by
  obtain ⟨body, hbody, hb⟩ := h
  refine ⟨body, ?_, by rwa [lookups_set_of_stored hstored hclear]⟩
  rw [Store.body?, s.get?_set_of_ne raw ha]
  exact hbody

/-- The circular cells are circular still. -/
theorem circular_set (hc : s.evaluate c ≠ .error .circular) (h : Pass.initial.Circular s a) :
    Pass.initial.Circular (s.set c raw) a := by
  rw [Pass.circular_initial_iff] at h ⊢
  obtain ⟨b, hway, hcycle⟩ := h
  refine ⟨b, ?_, ?_⟩
  · induction hway using ReflTransGen.head_induction_on with
    | refl => exact .refl
    | head hstep hrest ih =>
      exact ih.head (hstep.set_of_ne hstored hclear
        (ne_of_way_to_circle hc (hrest.head hstep) hcycle))
  · have hback : ∀ e, TransGen s.Reads e b → TransGen (s.set c raw).Reads e b := by
      intro e he
      induction he using TransGen.head_induction_on with
      | single hstep =>
        exact .single (hstep.set_of_ne hstored hclear
          (ne_of_way_to_circle hc (.single hstep) hcycle))
      | head hstep hrest ih =>
        exact ih.head (hstep.set_of_ne hstored hclear
          (ne_of_way_to_circle hc (hrest.to_reflTransGen.head hstep) hcycle))
    exact hback b hcycle

/-- What the other cells mean does not change. -/
theorem means_set (hliteral : Formula.ofRaw? raw = none) (halike : (s.evaluate c).Alike (.text raw))
    {v : Value} (hv : Pass.initial.Means s a v) (ha : a ≠ c) :
    Pass.initial.Means (s.set c raw) a v := by
  have hc : s.evaluate c ≠ .error .circular := by
    intro hcircular
    have := halike.isCircular
    rw [hcircular] at this
    cases this
  have hpending : ∀ {a}, a ≠ c → Pass.initial.pending? (s.set c raw) a
      = Pass.initial.pending? s a := by
    intro a ha
    rw [Pass.pending?_initial, Pass.pending?_initial, body?, body?, s.get?_set_of_ne raw ha]
  induction hv with
  | @settled a hsettled =>
    have hlook : Pass.initial.look s a = Pass.initial.look (s.set c raw) a := by
      rw [Pass.look_initial, Pass.look_initial, s.get?_set_of_ne raw ha]
    exact hlook ▸ .settled ((hpending ha).trans hsettled)
  | @circular a f hf hcircular =>
    exact .circular ((hpending ha).trans hf) (circular_set hstored hclear hc hcircular)
  | @formula a f values hf hvalues _ ih =>
    obtain ⟨body, -, rfl⟩ := Pass.exists_body_of_pending hf
    have hreads : (Formula.ofChars body).reads s = (Formula.ofChars body).reads (s.set c raw) := by
      rw [Formula.reads_ofChars, Formula.reads_ofChars, lookups_set_of_stored hstored hclear]
    -- the formula sees the literal in the place of the value of the cell
    have hvalue : (Formula.ofChars body).value s values = (Formula.ofChars body).value (s.set c raw)
        fun b => if b = c then .text raw else values b := by
      rw [← Formula.value_congr_store hreads]
      refine Formula.value_congr_alike fun b hb => ?_
      by_cases hbc : b = c
      · rw [if_pos hbc]
        subst hbc
        rwa [Pass.means_iff.mp (hvalues b hb)]
      · rw [if_neg hbc]
        exact .refl _
    rw [hvalue]
    refine .of_reads ((hpending ha).trans hf) fun b hb => ?_
    rw [← hreads] at hb
    by_cases hbc : b = c
    · rw [if_pos hbc, hbc]
      exact Pass.means_iff.mpr (evaluate_of_literal (s.get?_set_self c hclear) hliteral).symm
    · rw [if_neg hbc]
      exact ih b hb hbc

/-- **Overwriting a cell by what it is read as** changes the value of no other cell and of no
text. -/
theorem evaluate_set_of_alike (hliteral : Formula.ofRaw? raw = none)
    (halike : (s.evaluate c).Alike (.text raw)) :
    (∀ d, d ≠ c → (s.set c raw).evaluate d = s.evaluate d) ∧
      ∀ other, (s.set c raw).evaluateRaw other = s.evaluateRaw other := by
  have hcells : ∀ d, d ≠ c → (s.set c raw).evaluate d = s.evaluate d := fun d hd =>
    (Pass.means_iff.mp
      (means_set hstored hclear hliteral halike (Pass.means_iff.mpr rfl) hd)).symm
  refine ⟨hcells, fun other => ?_⟩
  cases hformula : Formula.ofRaw? other with
  | none => rw [evaluateRaw_of_literal _ hformula, evaluateRaw_of_literal _ hformula]
  | some f =>
    obtain ⟨body, hbody⟩ := exists_body_of_ofRaw? hformula
    have hreads : (Formula.ofChars body).reads (s.set c raw) = (Formula.ofChars body).reads s := by
      rw [Formula.reads_ofChars, Formula.reads_ofChars, lookups_set_of_stored hstored hclear]
    rw [evaluateRaw_of_body hbody, evaluateRaw_of_body hbody, ← Formula.value_ofChars,
      ← Formula.value_ofChars, Formula.value_congr_store hreads]
    refine Formula.value_congr_alike fun b _ => ?_
    by_cases hbc : b = c
    · rw [hbc, evaluate_of_literal (s.get?_set_self c hclear) hliteral]
      exact ⟨halike.isCircular.symm, halike.number?.symm⟩
    · rw [hcells b hbc]
      exact .refl _

end Overwritten

/-- A cell with a number holds something. -/
theorem get?_ne_none_of_number {x : Float} (h : s.evaluate c = .number x) : s.get? c ≠ none := by
  intro hnone
  rw [evaluate_of_get?_eq_none hnone] at h
  cases h

end Store

/-! ## Shown numbers -/

/-- The text of a number is a literal. -/
theorem Number.ofRaw?_shown (x : Float) :
    Formula.ofRaw? (String.ofList (Number.text x)) = none := by
  unfold Formula.ofRaw?
  rw [String.toList_ofList]
  split
  · next body hbody => exact absurd hbody (head_text_ne x body)
  · rfl

theorem Number.shown_ne_empty (x : Float) : String.ofList (Number.text x) ≠ "" := by
  intro hempty
  have hlist := congrArg String.toList hempty
  rw [String.toList_ofList] at hlist
  exact text_ne_nil x hlist

/-- **Printed numbers read back everywhere.** A number that is not missing reads back from its text,
but for the sign of a zero. If it is finite, the text is digits with at most one point among them
and a minus before them, passes the test for arithmetic, and is an expression with this number for
its value. And to type the text into the cell that shows it leaves all readings as they were: the
cell is the same operand, and every other cell and every text keeps its value. -/
theorem shown_reads_back (x : Float) (hx : x.isNaN = false) :
    Number.leading? (Number.text x) = some (asShown x) ∧
    (x.isFinite = true → Number.IsPlain (Number.text x) ∧
      (Number.text x ≠ [] ∧ (Number.text x).all Formula.isArithmetic = true) ∧
      Expression.value (Number.text x) = .ok (asShown x)) ∧
    ∀ (s : Store) (c : Address), s.evaluate c = .number x →
      let typed := s.set c (String.ofList (Number.text x))
      (typed.evaluate c).number? = some (asShown x) ∧
      (typed.evaluate c).operand = (s.evaluate c).operand ∧
      (∀ d, d ≠ c → typed.evaluate d = s.evaluate d) ∧
      ∀ raw, typed.evaluateRaw raw = s.evaluateRaw raw := by
  refine ⟨Number.leading?_text hx, fun hfinite => ⟨Number.isPlain_text hfinite,
    Number.isArithmetic_text hfinite, Number.value_text hfinite⟩, fun s c hc => ?_⟩
  intro typed
  have htyped : typed.evaluate c = .text (String.ofList (Number.text x)) :=
    Store.evaluate_of_literal (s.get?_set_self c (Number.shown_ne_empty x)) (Number.ofRaw?_shown x)
  have halike : (s.evaluate c).Alike (.text (String.ofList (Number.text x))) := by
    rw [hc]
    exact Value.alike_text_shown hx
  refine ⟨?_, ?_, Store.evaluate_set_of_alike (Store.get?_ne_none_of_number hc)
    (Number.shown_ne_empty x) (Number.ofRaw?_shown x) halike⟩
  · rw [htyped, Value.number?_text_shown hx]
  · rw [htyped, halike.operand_eq]

/-- A cell that is worth the negative zero, a sum that it is added to, and a quotient. -/
theorem shown_reads_back_minus_zero :
    let s := (Store.ofEntries [("A1", "5"), ("A2", "=-0"), ("B1", "=SUM(A1:A2)+A2/A1")]).1
    let x : Float := -0
    x.isNaN = false ∧ s.evaluate ⟨1, 0⟩ = .number x ∧
      (s.set ⟨1, 0⟩ (String.ofList (Number.text x))).evaluate ⟨0, 1⟩ = s.evaluate ⟨0, 1⟩ := by
  intro s x
  have hx : x.isNaN = false := by decide +kernel
  have hcell : s.evaluate ⟨1, 0⟩ = .number x := by decide +kernel
  exact ⟨hx, hcell, ((shown_reads_back x hx).2.2 s ⟨1, 0⟩ hcell).2.2.1 ⟨0, 1⟩ (by decide)⟩

end FormulaSheet
