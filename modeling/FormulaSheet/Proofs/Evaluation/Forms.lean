/-
The two forms of a formula: which bodies are sums, and what the others come to.

A body is evaluated as a sum exactly if it has the documented form, or if it gets it
by writing an `s` for each long s and a `k` for each sign of the kelvin. For bodies
without these two characters the documentation is exact. A body with one of them in
the keyword is the sum of its range all the same; with one of them in a corner it is
the sum over no range, which is zero whatever the cells hold.

Everything else is arithmetic. So where it reads no circle and holds a character
outside its references that arithmetic does not know, its name is not known
(`sum_form_exact`).
-/
import FormulaSheet.Proofs.Evaluation.Marks
import FormulaSheet.Proofs.Formula.Recognition

set_option autoImplicit false

namespace FormulaSheet.Formula

/-- A body has the documented form of a sum. -/
def Documented (body : List Char) : Prop :=
  ∃ first last, IsSum body first last

/-- A body is evaluated as the sum over a range, or over none. -/
def EvaluatedAsSum (body : List Char) : Prop :=
  ∃ range, ofChars body = .sum range

section Bodies

variable {body first last : List Char}

theorem evaluatedAsSum_iff_exists_corners :
    EvaluatedAsSum body ↔ ∃ first last, sumCorners? body = some (first, last) := by
  constructor
  · rintro ⟨range, h⟩
    cases hform : sumCorners? body with
    | none =>
      rw [ofChars_of_none hform] at h
      cases h
    | some corners => exact ⟨corners.1, corners.2, rfl⟩
  · rintro ⟨first, last, h⟩
    exact ⟨_, ofChars_of_some h⟩

/-- A documented body holds neither of the two characters beyond ASCII. -/
theorem Documented.not_folded (h : Documented body) : ¬ Folded body := by
  obtain ⟨first, last, h⟩ := h
  exact map_plain_eq_iff.mp h.map_plain

theorem evaluatedAsSum_iff :
    EvaluatedAsSum body ↔ Documented body ∨ Folded body ∧ Documented (body.map plain) := by
  have hplain : EvaluatedAsSum body ↔ Documented (body.map plain) :=
    evaluatedAsSum_iff_exists_corners.trans exists_sumCorners?_iff
  by_cases hfolded : Folded body
  · have hnot : ¬ Documented body := fun h => h.not_folded hfolded
    rw [hplain, or_iff_right hnot, and_iff_right hfolded]
  · rw [hplain, map_plain_eq_iff.mpr hfolded, or_iff_left fun h => hfolded h.1]

/-- Where one of the two stands in no corner, it makes no difference. -/
theorem ofChars_map_plain (h : sumCorners? body = some (first, last))
    (hcorners : ¬ (Folded first ∨ Folded last)) : ofChars body = ofChars (body.map plain) := by
  obtain ⟨hfirst, hlast⟩ := not_or.mp hcorners
  have hplain := (isSum_of_sumCorners? h).sumCorners?
  rw [map_plain_eq_iff.mpr hfirst, map_plain_eq_iff.mpr hlast] at hplain
  rw [ofChars_of_some h, ofChars_of_some hplain]

/-- Otherwise the sum is over no range. -/
theorem ofChars_of_folded (h : sumCorners? body = some (first, last))
    (hcorners : Folded first ∨ Folded last) : ofChars body = .sum none := by
  rw [ofChars_of_some h, rangeOfCorners_of_folded hcorners]

end Bodies

end FormulaSheet.Formula

namespace FormulaSheet.Store

open Formula

variable {s : Store} {body : List Char} {v : Value}

/-- A sum over no range reads nothing, and is zero. -/
theorem Yields.eq_zero (h : s.Yields body v) (hnone : ofChars body = .sum none) :
    v = .number 0 := by
  rw [h.eq_applied, ← value_ofChars, hnone]
  rfl

/-- What an arithmetic body comes to: a circle if it reads one; otherwise what its text is worth,
and so a name that is not known if it holds an unknown character outside its references. -/
theorem Yields.of_arithmetic (h : s.Yields body v) (hform : sumCorners? body = none) :
    (v = .error .circular ∧ ∃ a ∈ s.lookups body, s.evaluate a = .error .circular) ∨
      v = worth (filledText s.evaluate body) ∧
        ((∃ c, Lexeme.char c ∈ lexemes body ∧ ¬ InAlphabet c) → v = .error .name) := by
  by_cases hcircular : ∃ a ∈ s.lookups body, s.evaluate a = .error .circular
  · obtain ⟨a, ha, hvalue⟩ := hcircular
    exact .inl ⟨h.eq_circular ha hvalue, a, ha, hvalue⟩
  · have hworth := h.eq_worth hform fun a ha hvalue => hcircular ⟨a, ha, hvalue⟩
    refine .inr ⟨hworth, fun hunknown => ?_⟩
    rw [hworth]
    exact worth_filledText_eq_name_iff.mpr (.inr (.inl hunknown))

/-- **The form of a sum is exact up to two characters.** A body is evaluated as a sum exactly if it
has the documented form, or if it holds a long s or the sign of the kelvin and has the documented
form once these have been replaced by `s` and `k`; the documented ones hold neither. In the
documented form the range is the one between the two references. With one of the two characters in
a corner there is no range and the value is zero in every store; with none in a corner the body is
the same formula as the one with both replaced. And every other body is arithmetic: it is circular
if it reads a circular cell, and otherwise worth what its text is with the references replaced,
which is a name that is not known if a character outside the references is not one of
arithmetic. -/
theorem sum_form_exact (body : List Char) :
    (EvaluatedAsSum body ↔ Documented body ∨ Folded body ∧ Documented (body.map plain)) ∧
    (Documented body → ¬ Folded body) ∧
    (∀ first last, IsSum body first last → ofChars body = .sum (rangeOfCorners first last)) ∧
    (∀ first last, sumCorners? body = some (first, last) →
      ((Folded first ∨ Folded last) →
        ofChars body = .sum none ∧ ∀ (s : Store) (v : Value), s.Yields body v → v = .number 0) ∧
      (¬ (Folded first ∨ Folded last) → ofChars body = ofChars (body.map plain))) ∧
    (¬ EvaluatedAsSum body →
      ofChars body = .arithmetic (pieces body) ∧
      ∀ (s : Store) (v : Value), s.Yields body v →
        (v = .error .circular ∧ ∃ a ∈ s.lookups body, s.evaluate a = .error .circular) ∨
          v = worth (filledText s.evaluate body) ∧
            ((∃ c, Lexeme.char c ∈ lexemes body ∧ ¬ InAlphabet c) → v = .error .name)) := by
  refine ⟨evaluatedAsSum_iff, Documented.not_folded, fun first last h => ?_,
    fun first last h => ⟨fun hfolded => ?_, ofChars_map_plain h⟩, fun hnot => ?_⟩
  · exact ofChars_of_some h.sumCorners?
  · have hnone := ofChars_of_folded h hfolded
    exact ⟨hnone, fun s v hv => hv.eq_zero hnone⟩
  · have hform : sumCorners? body = none := by
      rw [Option.eq_none_iff_forall_ne_some]
      intro corners h
      exact hnot (evaluatedAsSum_iff_exists_corners.mpr ⟨corners.1, corners.2, h⟩)
    exact ⟨ofChars_of_none hform, fun s v hv => hv.of_arithmetic hform⟩

/-- A documented sum in mixed case, and one with blanks in it, which is arithmetic. -/
theorem sum_form_exact_blanks :
    let s : Store := (empty.set ⟨0, 0⟩ "1").set ⟨1, 0⟩ "2"
    EvaluatedAsSum "sUm(a1:A02)".toList ∧ s.evaluateRaw "=sUm(a1:A02)" = .number 3 ∧
      s.evaluateRaw "=SUM( A1:A2 )" = .error .name := by
  intro s
  have hfirst : IsReference "a1".toList :=
    @IsReference.intro 'a' ['1'] (by decide) (by decide) (List.forall_mem_singleton.mpr (by decide))
  have hlast : IsReference "A02".toList :=
    @IsReference.intro 'A' ['0', '2'] (by decide) (by decide) (List.all_eq_true.mp (by decide))
  have hkeyword : "sUm".toList.map Char.toLower = ['s', 'u', 'm'] := by decide
  have hsum : IsSum "sUm(a1:A02)".toList "a1".toList "A02".toList := .intro hkeyword hfirst hlast
  have hnot : ¬ EvaluatedAsSum "SUM( A1:A2 )".toList := by
    rw [evaluatedAsSum_iff_exists_corners]
    rintro ⟨first, last, h⟩
    cases (show sumCorners? "SUM( A1:A2 )".toList = none by decide).symm.trans h
  have hyields : s.Yields "SUM( A1:A2 )".toList (s.evaluateRaw "=SUM( A1:A2 )") :=
    .inr ⟨_, rfl, rfl⟩
  have harithmetic := ((sum_form_exact "SUM( A1:A2 )".toList).2.2.2.2 hnot).2 s _ hyields
  refine ⟨(sum_form_exact _).1.mpr (.inl ⟨_, _, hsum⟩), by decide +kernel, ?_⟩
  refine harithmetic.elim (fun hcircular => ?_) fun hworth => hworth.2 ⟨'U', ?_, ?_⟩
  · have hvalue : s.evaluateRaw "=SUM( A1:A2 )" ≠ .error .circular := by decide +kernel
    exact absurd hcircular.1 hvalue
  · decide +kernel
  · decide

/-- A long s in the keyword and a sign of the kelvin in a corner: neither body has the documented
form, and both are evaluated as sums. -/
theorem sum_form_beyond_ascii :
    let s : Store := (empty.set ⟨0, 0⟩ "1").set ⟨1, 0⟩ "2"
    (¬ Documented "\u017fUM(A1:A2)".toList ∧
      s.evaluateRaw "=\u017fUM(A1:A2)" = .number 3) ∧
    ¬ Documented "SUM(\u212a1:A1)".toList ∧ s.evaluateRaw "=SUM(\u212a1:A1)" = .number 0 := by
  intro s
  refine ⟨⟨fun h => h.not_folded (.inl ?_), by decide +kernel⟩,
    fun h => h.not_folded (.inr ?_), by decide +kernel⟩
  · decide
  · decide

end FormulaSheet.Store
