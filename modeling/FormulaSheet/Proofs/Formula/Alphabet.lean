/-
The characters of a body with its references replaced.

Before a text is read as an expression, a test asks whether it has characters that
arithmetic does not know. The test sees the texts that have been put in the place
of the references as well as the body itself. But a finite number is shown by
digits, a point and a minus, and where there is no number a zero is put in. Only
what is not finite is shown by a word (`Number.inAlphabet_text_iff`), and so the
test says nothing about the cells but whether one of them has such a number
(`worth_filledText_eq_name_iff`).
-/
import FormulaSheet.Proofs.Formula.Filling

set_option autoImplicit false

namespace FormulaSheet

namespace Formula

/-! ## Marks of a text -/

/-- The mark for names is the outcome of the test. -/
theorem worth_eq_name_iff {text : List Char} :
    worth text = .error .name ↔ text = [] ∨ ∃ c ∈ text, ¬ InAlphabet c := by
  have hany : text.any (¬ InAlphabet ·) = true ↔ ∃ c ∈ text, ¬ InAlphabet c := by
    simp only [List.any_eq_true, decide_eq_true_eq]
  rw [← hany]
  unfold worth
  by_cases h : text = [] ∨ text.any (¬ InAlphabet ·) = true
  · rw [if_pos h, iff_true_right h]
  · rw [if_neg h, iff_false_right h]
    split
    · split <;> nofun
    · nofun

/-- A text that is not given this mark is worth a finite number or has failed. -/
theorem worth_of_ne_name {text : List Char} (h : worth text ≠ .error .name) :
    worth text = .error .failed ∨ ∃ x, worth text = .number x ∧ x.isFinite = true := by
  unfold worth at h ⊢
  by_cases htest : text = [] ∨ text.any (¬ InAlphabet ·) = true
  · rw [if_pos htest] at h
    exact absurd rfl h
  · rw [if_neg htest]
    cases Expression.value text with
    | error e => exact .inl rfl
    | ok x =>
      by_cases hx : x.isFinite = true
      · exact .inr ⟨x, if_pos hx, hx⟩
      · exact .inl (if_neg hx)

/-- A text that is worth a number has this number for its value as an expression. -/
theorem value_of_worth {text : List Char} {x : Float} (h : worth text = .number x) :
    Expression.value text = .ok x := by
  unfold worth at h
  by_cases htest : text = [] ∨ text.any (¬ InAlphabet ·) = true
  · rw [if_pos htest] at h
    cases h
  · rw [if_neg htest] at h
    cases hvalue : Expression.value text with
    | error e =>
      rw [hvalue] at h
      cases h
    | ok y =>
      simp only [hvalue] at h
      by_cases hy : y.isFinite = true
      · rw [if_pos hy, Value.number.injEq] at h
        rw [h]
      · rw [if_neg hy] at h
        cases h

end Formula

/-! ## Texts of numbers -/

namespace Number

open Formula (InAlphabet)

/-- **Only what is not finite is shown by a word.** -/
theorem inAlphabet_text_iff {x : Float} : (∀ c ∈ text x, InAlphabet c) ↔ x.isFinite = true := by
  constructor
  · -- the words have a letter each
    intro hall
    have hfinite : x.isFinite = x.toModel.unpack.isFinite := rfl
    rw [hfinite]
    cases hunpack : x.toModel.unpack with
    | zero s | finite s m q h => rfl
    | notANumber =>
      have htext : text x = "NaN".toList := by
        unfold text
        rw [hunpack]
      exact absurd (hall 'N' (htext ▸ by decide)) (by decide)
    | infinity s =>
      have htext : text x = (if isMinus s then ['-'] else []) ++ infinityWord := by
        unfold text
        rw [hunpack]
      exact absurd (hall 'I' (htext ▸ List.mem_append_right _ (by decide))) (by decide)
  · intro hx c hc
    obtain ⟨negative, run, d, htext, hread, -⟩ := exists_text_eq hx
    rw [htext] at hc
    obtain hsign | hrun := List.mem_append.mp hc
    · cases negative with
      | true =>
        obtain rfl := List.mem_singleton.mp hsign
        decide
      | false => cases hsign
    · have hnumeric := Numeral.all_isNumeric_of_magnitude? hread
      exact Formula.inAlphabet_of_isNumeric (List.all_eq_true.mp hnumeric c hrun)

theorem text_ne_nil (x : Float) : text x ≠ [] := by
  intro hnil
  have hx : x.isFinite = true := inAlphabet_text_iff.mp (by rw [hnil]; nofun)
  obtain ⟨negative, run, d, htext, hread, -⟩ := exists_text_eq hx
  -- a magnitude has a digit
  obtain ⟨-, rfl⟩ := List.append_eq_nil_iff.mp (htext.symm.trans hnil)
  cases hread

end Number

/-! ## Bodies -/

namespace Formula

variable {values : Address → Value} {body : List Char}

namespace Lexeme

variable {letter : Char} {digits : List Char} {x : Float}

/-- What stands for a reference to a cell with a number. -/
theorem filled_of_read
    (h : (Address.ofChars? (letter :: digits)).bind (fun a => (values a).number?) = some x) :
    (reference letter digits).filled values = Number.text x := by
  simp only [filled, h]

theorem filled_of_unread
    (h : (Address.ofChars? (letter :: digits)).bind (fun a => (values a).number?) = none) :
    (reference letter digits).filled values = ['0'] := by
  simp only [filled, h]

/-- A reference to a cell with a number that is not finite. -/
def Unbounded (values : Address → Value) (l : Lexeme) : Prop :=
  ∃ a ∈ l.target?, ∃ x ∈ (values a).number?, x.isFinite = false

theorem unbounded_reference_iff :
    (reference letter digits).Unbounded values ↔
      ∃ x ∈ (Address.ofChars? (letter :: digits)).bind fun a => (values a).number?,
        x.isFinite = false := by
  constructor
  · rintro ⟨a, ha, x, hx, hinfinite⟩
    exact ⟨x, Option.bind_eq_some_iff.mpr ⟨a, ha, hx⟩, hinfinite⟩
  · rintro ⟨x, hread, hinfinite⟩
    obtain ⟨a, ha, hx⟩ := Option.bind_eq_some_iff.mp hread
    exact ⟨a, ha, x, hx, hinfinite⟩

theorem filled_ne_nil (values : Address → Value) (l : Lexeme) : l.filled values ≠ [] := by
  cases l with
  | char c => nofun
  | reference letter digits =>
    cases hread : (Address.ofChars? (letter :: digits)).bind fun a => (values a).number? with
    | none =>
      rw [filled_of_unread hread]
      nofun
    | some x =>
      rw [filled_of_read hread]
      exact Number.text_ne_nil x

theorem inAlphabet_filled_iff :
    (∀ c ∈ (reference letter digits).filled values, InAlphabet c)
      ↔ ¬ (reference letter digits).Unbounded values := by
  rw [unbounded_reference_iff]
  cases hread : (Address.ofChars? (letter :: digits)).bind fun a => (values a).number? with
  | none =>
    rw [filled_of_unread hread]
    exact iff_of_true (List.forall_mem_singleton.mpr (by decide)) nofun
  | some x =>
    rw [filled_of_read hread, Number.inAlphabet_text_iff]
    simp

end Lexeme

theorem filledText_eq_nil_iff : filledText values body = [] ↔ body = [] := by
  constructor
  · intro hnil
    cases body with
    | nil => rfl
    | cons c cs =>
      have hfirst : ∃ l ls, lexemes (c :: cs) = l :: ls := by
        rw [lexemes]
        split <;> exact ⟨_, _, rfl⟩
      obtain ⟨l, ls, hlexemes⟩ := hfirst
      rw [filledText, hlexemes, List.flatMap_cons, List.append_eq_nil_iff] at hnil
      exact absurd hnil.1 (l.filled_ne_nil values)
  · rintro rfl
    simp [filledText, lexemes]

/-- **The test on a body.** The mark for names tells that the body is empty, that it has an unknown
character outside its references, or that a reference has a number that is not finite. -/
theorem worth_filledText_eq_name_iff :
    worth (filledText values body) = .error .name ↔
      body = [] ∨ (∃ c, Lexeme.char c ∈ lexemes body ∧ ¬ InAlphabet c) ∨
        ∃ l ∈ lexemes body, l.Unbounded values := by
  rw [worth_eq_name_iff, filledText_eq_nil_iff]
  refine or_congr_right ?_
  constructor
  · rintro ⟨c, hc, hunknown⟩
    obtain ⟨l, hl, hfilled⟩ := List.mem_flatMap.mp hc
    cases l with
    | char d =>
      obtain rfl := List.mem_singleton.mp hfilled
      exact .inl ⟨c, hl, hunknown⟩
    | reference letter digits =>
      refine .inr ⟨_, hl, ?_⟩
      by_contra hbounded
      exact hunknown (Lexeme.inAlphabet_filled_iff.mpr hbounded c hfilled)
  · rintro (⟨c, hl, hunknown⟩ | ⟨l, hl, hunbounded⟩)
    · exact ⟨c, List.mem_flatMap.mpr ⟨_, hl, List.mem_singleton_self c⟩, hunknown⟩
    · cases l with
      | char d =>
        obtain ⟨a, ha, -⟩ := hunbounded
        cases ha
      | reference letter digits =>
        by_contra hnone
        refine absurd hunbounded (Lexeme.inAlphabet_filled_iff.mp fun c hc => ?_)
        by_contra hunknown
        exact hnone ⟨c, List.mem_flatMap.mpr ⟨_, hl, hc⟩, hunknown⟩

end Formula

end FormulaSheet
