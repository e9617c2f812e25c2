/-
Numbers and marks: what a formula can come to.

An arithmetic formula goes through two tests. The first one looks at the
characters of the body with its references replaced, the second one at the number
that comes out. So what it yields is a finite number, a name that is not known or
a failure. Which of the marks it is does not depend on what is written into the
cells that it refers to, except in one way: a number that is not finite is shown
by a word, and a word is not known.

A sum goes through neither test. It is worth what its numbers add up to, and that
is not finite where one of them is not, or where they leave the finite range
together. There is no other way for a formula to show such a number
(`nonfinite_exactly_from_sums`).
-/
import FormulaSheet.Proofs.Evaluation.RangeSum
import FormulaSheet.Proofs.Evaluation.Solution
import FormulaSheet.Proofs.Formula.Alphabet

set_option autoImplicit false

namespace FormulaSheet.Store

open Formula (InAlphabet Lexeme lexemes sumCorners? filledText worth)

variable {s : Store} {body : List Char} {v : Value}

/-! ## The two forms -/

theorem not_exists_circular (hclear : ∀ a ∈ s.lookups body, s.evaluate a ≠ .error .circular) :
    ¬ ∃ a ∈ s.lookups body, s.evaluate a = .error .circular := by
  rintro ⟨a, ha, hcircular⟩
  exact hclear a ha hcircular

/-- An arithmetic body that reads no circle yields what its text is worth with the references
replaced. -/
theorem Yields.eq_worth (h : s.Yields body v) (hform : sumCorners? body = none)
    (hclear : ∀ a ∈ s.lookups body, s.evaluate a ≠ .error .circular) :
    v = worth (filledText s.evaluate body) := by
  rw [h.eq_applied, applied, if_neg (not_exists_circular hclear), hform]
  rfl

/-- The numbers that a body reads, added up from zero in the order in which it reads them. -/
def readTotal (s : Store) (body : List Char) : Float :=
  ((s.lookups body).filterMap fun a => (s.evaluate a).number?).foldl (· + ·) 0

/-- A sum that reads no circle yields the total of its numbers. -/
theorem Yields.eq_readTotal {first last : List Char} (h : s.Yields body v)
    (hform : sumCorners? body = some (first, last))
    (hclear : ∀ a ∈ s.lookups body, s.evaluate a ≠ .error .circular) :
    v = .number (s.readTotal body) := by
  rw [h.eq_applied, applied, if_neg (not_exists_circular hclear), hform]
  rfl

/-- A formula that reads a circle is circular. -/
theorem Yields.eq_circular {a : Address} (h : s.Yields body v) (ha : a ∈ s.lookups body)
    (hcircular : s.evaluate a = .error .circular) : v = .error .circular := by
  rw [h.eq_applied, applied, if_pos ⟨a, ha, hcircular⟩]

/-! ## Numbers that are not finite -/

/-- **Only sums show what is not finite.** A formula yields a number that is not finite exactly when
it is a sum, reads no circle, and the numbers that it reads add up to such a number. An arithmetic
formula never does. -/
theorem nonfinite_exactly_from_sums (h : s.Yields body v) :
    (∃ x, v = .number x ∧ x.isFinite = false) ↔
      sumCorners? body ≠ none ∧ (∀ a ∈ s.lookups body, s.evaluate a ≠ .error .circular) ∧
        (s.readTotal body).isFinite = false := by
  by_cases hclear : ∀ a ∈ s.lookups body, s.evaluate a ≠ .error .circular
  · cases hform : sumCorners? body with
    | none =>
      refine iff_of_false ?_ fun hsum => hsum.1 rfl
      rintro ⟨x, hx, hinfinite⟩
      -- what an arithmetic formula yields has been tested
      rw [h.eq_worth hform hclear] at hx
      have hname : worth (filledText s.evaluate body) ≠ .error .name := by
        rw [hx]
        nofun
      obtain hfailed | ⟨y, hy, hfinite⟩ := Formula.worth_of_ne_name hname
      · cases hx.symm.trans hfailed
      · cases hx.symm.trans hy
        rw [hfinite] at hinfinite
        cases hinfinite
    | some corners =>
      rw [h.eq_readTotal hform hclear]
      constructor
      · rintro ⟨x, hx, hinfinite⟩
        cases hx
        exact ⟨nofun, hclear, hinfinite⟩
      · rintro ⟨-, -, hinfinite⟩
        exact ⟨_, rfl, hinfinite⟩
  · refine iff_of_false ?_ fun hsum => hclear hsum.2.1
    rintro ⟨x, rfl, -⟩
    push Not at hclear
    obtain ⟨a, ha, hcircular⟩ := hclear
    cases h.eq_circular ha hcircular

/-- Two infinite numbers of either sign have no sum. -/
theorem nonfinite_exactly_from_sums_of_words :
    let s : Store := (Store.empty.set ⟨0, 0⟩ "Infinity").set ⟨1, 0⟩ "-Infinity km"
    ∃ x, s.evaluateRaw "=sum(a2:A1)" = .number x ∧ x.isFinite = false := by
  intro s
  have hraw : "=sum(a2:A1)".toList = '=' :: "sum(a2:A1)".toList := rfl
  exact (nonfinite_exactly_from_sums (.inr ⟨_, hraw, rfl⟩)).mpr
    ⟨by decide, by decide +kernel, by decide +kernel⟩

/-- Two finite numbers, each of them a literal, and a formula that shows no finite number. -/
theorem sum_leaves_finite_range :
    let s : Store := (Store.empty.set ⟨0, 0⟩ "1e308").set ⟨1, 0⟩ "1e308"
    s.evaluateRaw "=SUM(A1:A2)" = .number (Number.infinite false) ∧
      (Number.infinite false).isFinite = false := by
  decide +kernel

/-! ## Marks -/

/-- **The mark for names.** An arithmetic formula that reads no circle is given this mark exactly
when its body is empty, when there is a character in it, outside the references, that arithmetic
does not know, or when one of the cells it refers to has a number that is not finite. If it is not
given this mark, it has failed or yields a finite number, whatever the cells hold. -/
theorem name_mark_exact (hform : sumCorners? body = none)
    (hclear : ∀ a ∈ s.lookups body, s.evaluate a ≠ .error .circular) (h : s.Yields body v) :
    (v = .error .name ↔
      body = [] ∨ (∃ c, Lexeme.char c ∈ lexemes body ∧ ¬ InAlphabet c) ∨
        ∃ a ∈ s.lookups body, ∃ x, (s.evaluate a).number? = some x ∧ x.isFinite = false) ∧
    (v ≠ .error .name → v = .error .failed ∨ ∃ x, v = .number x ∧ x.isFinite = true) := by
  rw [h.eq_worth hform hclear]
  refine ⟨?_, Formula.worth_of_ne_name⟩
  rw [Formula.worth_filledText_eq_name_iff]
  have hlookups : s.lookups body = (lexemes body).filterMap Lexeme.target? := by
    rw [lookups, hform]
  have hunbounded : (∃ l ∈ lexemes body, l.Unbounded s.evaluate) ↔
      ∃ a ∈ s.lookups body, ∃ x, (s.evaluate a).number? = some x ∧ x.isFinite = false := by
    rw [hlookups]
    constructor
    · rintro ⟨l, hl, a, ha, hx⟩
      exact ⟨a, List.mem_filterMap.mpr ⟨l, hl, ha⟩, hx⟩
    · rintro ⟨a, ha, hx⟩
      obtain ⟨l, hl, htarget⟩ := List.mem_filterMap.mp ha
      exact ⟨l, hl, a, htarget, hx⟩
  rw [hunbounded]

/-- A letter that belongs to no reference, and without it a text, a failure and a reference to no
cell. -/
theorem name_mark_exact_letter :
    let s : Store := (Store.empty.set ⟨0, 0⟩ "12 km").set ⟨1, 0⟩ "=1/0"
    s.evaluateRaw "=A1+AA2*b7-A0" = .error .name ∧
      (s.evaluateRaw "=A1+A2*b7-A0" = .error .failed ∨
        ∃ x, s.evaluateRaw "=A1+A2*b7-A0" = .number x ∧ x.isFinite = true) := by
  intro s
  have hletter : Lexeme.char 'A' ∈ lexemes "A1+AA2*b7-A0".toList := by decide +kernel
  have hunknown : s.Yields "A1+AA2*b7-A0".toList (s.evaluateRaw "=A1+AA2*b7-A0") :=
    .inr ⟨_, rfl, rfl⟩
  have hknown : s.Yields "A1+A2*b7-A0".toList (s.evaluateRaw "=A1+A2*b7-A0") :=
    .inr ⟨_, rfl, rfl⟩
  constructor
  · exact (name_mark_exact (by decide) (by decide +kernel) hunknown).1.mpr
      (.inr (.inl ⟨'A', hletter, by decide⟩))
  · exact (name_mark_exact (by decide) (by decide +kernel) hknown).2 (by decide +kernel)

/-- A name that is not known although every character of the body is. -/
theorem name_mark_from_word :
    let s : Store := Store.empty.set ⟨0, 0⟩ "Infinity"
    let body := "A1+1".toList
    sumCorners? body = none ∧ (∀ a ∈ s.lookups body, s.evaluate a ≠ .error .circular) ∧
      ¬ (s.evaluateRaw "=A1+1" = .error .name ↔
        body = [] ∨ ∃ c, Lexeme.char c ∈ lexemes body ∧ ¬ InAlphabet c) := by
  intro s body
  have hname : s.evaluateRaw "=A1+1" = .error .name := by decide +kernel
  have hknown : ¬ (body = [] ∨ ∃ c, Lexeme.char c ∈ lexemes body ∧ ¬ InAlphabet c) := by
    have hlexemes : lexemes body = [.reference 'A' ['1'], .char '+', .char '1'] := by
      decide +kernel
    have hsome : body ≠ [] := by
      show "A1+1".toList ≠ []
      decide
    rintro (hempty | ⟨c, hc, hunknown⟩)
    · exact hsome hempty
    · simp only [hlexemes, List.mem_cons, List.not_mem_nil, reduceCtorEq, Lexeme.char.injEq,
        or_false, false_or] at hc
      obtain rfl | rfl := hc
      · exact hunknown (by decide)
      · exact hunknown (by decide)
  exact ⟨by decide, by decide +kernel, fun hiff => hknown (hiff.mp hname)⟩

end FormulaSheet.Store
