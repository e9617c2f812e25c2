/-
References spelt in other ways.

A reference may be written with its letter in either case and with more or fewer
zeros before its row. Bodies that differ in nothing else are the same formula
(`Respelt.ofChars_eq`). It is not that the texts were brought into one form first:
both are cut by the same steps, which end at the same places counted in references,
though not in characters. So the proofs follow two texts at once, and what carries
them is that no reference begins with a digit and none is cut in two: the digits
that two respelt texts begin with are the same, and the rests are respelt
(`Respelt.cut_digits`).
-/
import FormulaSheet.Proofs.Formula.Recognition
import FormulaSheet.Proofs.Formula.Symbols

set_option autoImplicit false

namespace FormulaSheet.Formula

/-- Another spelling of a reference: the letter in the same or the other case, and the same digits
behind any number of zeros. -/
structure OtherSpelling (letter : Char) (digits : List Char) (letter' : Char)
    (digits' : List Char) : Prop where
  isReference : IsReference (letter :: digits)
  isReference' : IsReference (letter' :: digits')
  letter : letter.toUpper = letter'.toUpper
  digits : digits.dropWhile (· == '0') = digits'.dropWhile (· == '0')

/-- Two texts that differ in the spelling of some of their references, each with all digits that
stand behind its letter, and in nothing else. -/
inductive Respelt : List Char → List Char → Prop
  | nil : Respelt [] []
  | char (c : Char) {cs cs' : List Char} (h : Respelt cs cs') : Respelt (c :: cs) (c :: cs')
  | reference {letter letter' : Char} {digits digits' after after' : List Char}
      (hspelling : OtherSpelling letter digits letter' digits')
      (hafter : ∀ c ∈ after.head?, c.isDigit = false) (h : Respelt after after') :
      Respelt (letter :: (digits ++ after)) (letter' :: (digits' ++ after'))

/-! ## One reference -/

section Reference

variable {letter letter' : Char} {digits digits' cs : List Char}

/-- Zeros before a number do not count. -/
theorem ofDigitChars_dropWhile_zero (digits : List Char) :
    Nat.ofDigitChars 10 (digits.dropWhile (· == '0')) 0 = Nat.ofDigitChars 10 digits 0 := by
  induction digits with
  | nil => rfl
  | cons d digits ih =>
    by_cases hd : d = '0'
    · rw [List.dropWhile_cons_of_pos (by simpa using hd), ih, hd, Nat.ofDigitChars_cons]
      rfl
    · rw [List.dropWhile_cons_of_neg (by simpa using hd)]

/-- **The spellings of a reference denote the same**, be it an address or nothing. -/
theorem OtherSpelling.ofChars?_eq (h : OtherSpelling letter digits letter' digits') :
    Address.ofChars? (letter :: digits) = Address.ofChars? (letter' :: digits') := by
  have hnumber : Nat.ofDigitChars 10 digits 0 = Nat.ofDigitChars 10 digits' 0 := by
    rw [← ofDigitChars_dropWhile_zero, h.digits, ofDigitChars_dropWhile_zero]
  have hcol : Column.ofAlpha letter h.isReference.isAlpha
      = Column.ofAlpha letter' h.isReference'.isAlpha := by
    simp only [Column.ofAlpha, h.letter]
  rw [Address.ofChars?_cons_of_letter (Column.ofLetter?_of_isAlpha h.isReference.isAlpha),
    Address.ofChars?_cons_of_letter (Column.ofLetter?_of_isAlpha h.isReference'.isAlpha),
    hcol, hnumber]
  have hall : digits.all Char.isDigit = true := List.all_eq_true.mpr h.isReference.isDigit
  have hall' : digits'.all Char.isDigit = true := List.all_eq_true.mpr h.isReference'.isDigit
  simp only [ne_eq, h.isReference.ne_nil, h.isReference'.ne_nil, hall, hall', not_false_eq_true,
    true_and]

/-- Two references that denote the same cell are other spellings of one another. -/
theorem OtherSpelling.of_ofChars? {a : Address}
    (h : Address.ofChars? (letter :: digits) = some a)
    (h' : Address.ofChars? (letter' :: digits') = some a) :
    OtherSpelling letter digits letter' digits' := by
  obtain ⟨w, hw, rfl⟩ := Address.ofChars?_eq_some_iff.mp h
  obtain ⟨v, hv, hsame⟩ := Address.ofChars?_eq_some_iff.mp h'
  obtain ⟨rfl, rfl⟩ := List.cons.inj hw
  obtain ⟨rfl, rfl⟩ := List.cons.inj hv
  obtain ⟨hletter, hdigits⟩ := (Address.Spelling.address_eq_iff w v).mp hsame.symm
  exact {
    isReference := .intro w.isAlpha_letter w.digits_ne_nil w.isDigit_of_mem
    isReference' := .intro v.isAlpha_letter v.digits_ne_nil v.isDigit_of_mem
    letter := hletter
    digits := hdigits }

/-- A reference is a corner as a whole. -/
theorem IsReference.corner?_append (h : IsReference (letter :: digits))
    (hcs : ∀ c ∈ cs.head?, c.isDigit = false) :
    corner? (letter :: (digits ++ cs)) = some (letter :: digits, cs) := by
  refine corner?_eq_some_iff.mpr ⟨rfl, ?_, hcs⟩
  rwa [map_plain_eq_iff.mpr h.not_folded]

/-- A reference is one piece. -/
theorem IsReference.foldr_append (h : IsReference (letter :: digits))
    (hcs : ∀ c ∈ cs.head?, c.isDigit = false) :
    (letter :: (digits ++ cs)).foldr Cut.cons ⟨[], []⟩
      = ⟨[], .reference (Address.ofChars? (letter :: digits)) :: pieces cs⟩ := by
  obtain ⟨htake, hdrop⟩ := takeWhile_run_append h.isDigit hcs
  have hfold : (digits ++ cs).foldr Cut.cons ⟨[], []⟩ = ⟨digits, pieces cs⟩ := by
    have hdigits := digits_foldr_cons (digits ++ cs)
    have hpieces := pieces_foldr_cons (digits ++ cs)
    rw [htake] at hdigits
    rw [hdrop] at hpieces
    generalize (digits ++ cs).foldr Cut.cons ⟨[], []⟩ = cut at hdigits hpieces ⊢
    cases cut
    cases hdigits
    cases hpieces
    rfl
  rw [List.foldr_cons, hfold, Cut.cons, if_neg (not_isDigit_of_isAlpha h.isAlpha), if_pos]
  simp [h.isAlpha, h.ne_nil]

end Reference

/-! ## Two texts at once -/

namespace Respelt

variable {c : Char} {cs cs' body body' corner first last rest : List Char}

theorem refl (cs : List Char) : Respelt cs cs := by
  induction cs with
  | nil => exact .nil
  | cons c cs ih => exact .char c ih

theorem append_left (before : List Char) (h : Respelt cs cs') :
    Respelt (before ++ cs) (before ++ cs') := by
  induction before with
  | nil => exact h
  | cons c before ih => exact .char c ih

/-- **Any reference of a body can be spelt in another way.** -/
theorem of_mem_lexemes {letter letter' : Char} {digits digits' : List Char}
    (hmem : .reference letter digits ∈ lexemes cs)
    (hspelling : OtherSpelling letter digits letter' digits') :
    ∃ before after, cs = before ++ letter :: (digits ++ after) ∧
      Respelt cs (before ++ letter' :: (digits' ++ after)) := by
  fun_induction lexemes cs with
  | case1 => cases hmem
  | case2 c cs h ih =>
    have hsplit : c :: cs = (c :: cs.takeWhile Char.isDigit) ++ cs.dropWhile Char.isDigit := by
      rw [List.cons_append, List.takeWhile_append_dropWhile]
    rcases List.mem_cons.mp hmem with heq | hmem
    · cases heq
      refine ⟨[], cs.dropWhile Char.isDigit, hsplit, ?_⟩
      rw [hsplit]
      exact .reference hspelling not_of_head?_dropWhile (.refl _)
    · obtain ⟨before, after, hrest, hrespelt⟩ := ih hmem
      refine ⟨c :: cs.takeWhile Char.isDigit ++ before, after, ?_, ?_⟩
      · rw [List.append_assoc, ← hrest, ← hsplit]
      · rw [List.append_assoc, hsplit]
        exact hrespelt.append_left _
  | case3 c cs h ih =>
    rcases List.mem_cons.mp hmem with heq | hmem
    · cases heq
    · obtain ⟨before, after, rfl, hrespelt⟩ := ih hmem
      exact ⟨c :: before, after, rfl, .char c hrespelt⟩

/-- Where no reference begins both texts have the same character. -/
theorem of_cons (h : Respelt (c :: cs) cs')
    (hc : c.isAlpha = false ∨ ∀ d ∈ cs.head?, d.isDigit = false) :
    ∃ ds, cs' = c :: ds ∧ Respelt cs ds := by
  generalize htext : c :: cs = text at h
  cases h with
  | nil => cases htext
  | char d h =>
    cases htext
    exact ⟨_, rfl, h⟩
  | @reference letter letter' digits digits' after after' hspelling hafter h =>
    cases htext
    exfalso
    rcases hc with hc | hc
    · cases hc.symm.trans hspelling.isReference.isAlpha
    · obtain ⟨d, digits, rfl⟩ := List.exists_cons_of_ne_nil hspelling.isReference.ne_nil
      cases (hc d rfl).symm.trans (hspelling.isReference.isDigit d List.mem_cons_self)

theorem of_nil (h : Respelt [] cs') : cs' = [] := by
  cases h with
  | nil => rfl

/-- Both begin with the same digits, and the rests are respelt. -/
theorem cut_digits (h : Respelt cs cs') :
    cs.takeWhile Char.isDigit = cs'.takeWhile Char.isDigit ∧
      Respelt (cs.dropWhile Char.isDigit) (cs'.dropWhile Char.isDigit) := by
  induction h with
  | nil => exact ⟨rfl, .nil⟩
  | char c h ih =>
    by_cases hc : c.isDigit = true
    · rw [List.takeWhile_cons_of_pos hc, List.takeWhile_cons_of_pos hc,
        List.dropWhile_cons_of_pos hc, List.dropWhile_cons_of_pos hc, ih.1]
      exact ⟨rfl, ih.2⟩
    · rw [List.takeWhile_cons_of_neg hc, List.takeWhile_cons_of_neg hc,
        List.dropWhile_cons_of_neg hc, List.dropWhile_cons_of_neg hc]
      exact ⟨rfl, .char c h⟩
  | @reference letter letter' digits digits' after after' hspelling hafter h ih =>
    -- both begin with a letter, so there are no digits to cut
    have hletter := not_isDigit_of_isAlpha hspelling.isReference.isAlpha
    have hletter' := not_isDigit_of_isAlpha hspelling.isReference'.isAlpha
    rw [List.takeWhile_cons_of_neg hletter, List.takeWhile_cons_of_neg hletter',
      List.dropWhile_cons_of_neg hletter, List.dropWhile_cons_of_neg hletter']
    exact ⟨rfl, .reference hspelling hafter h⟩

/-- If the one begins with no digit, neither does the other. -/
theorem head_not_isDigit (h : Respelt cs cs') (hcs : ∀ c ∈ cs.head?, c.isDigit = false) :
    ∀ c ∈ cs'.head?, c.isDigit = false := by
  cases h with
  | nil => exact hcs
  | char c h => exact hcs
  | reference hspelling hafter h =>
    rintro c ⟨⟩
    exact Bool.eq_false_iff.mpr (not_isDigit_of_isAlpha hspelling.isReference'.isAlpha)

/-! ## The arithmetic form -/

/-- Both are cut into the same pieces, with the same digits before them. -/
theorem foldr_eq (h : Respelt cs cs') :
    cs.foldr Cut.cons ⟨[], []⟩ = cs'.foldr Cut.cons ⟨[], []⟩ := by
  induction h with
  | nil => rfl
  | char c h ih => rw [List.foldr_cons, List.foldr_cons, ih]
  | reference hspelling hafter h ih =>
    rw [hspelling.isReference.foldr_append hafter,
      hspelling.isReference'.foldr_append (h.head_not_isDigit hafter), hspelling.ofChars?_eq,
      pieces, pieces, ih]

theorem pieces_eq (h : Respelt cs cs') : pieces cs = pieces cs' := by
  rw [pieces, pieces, h.foldr_eq]

/-! ## The sum form -/

/-- A corner of the one is a corner of the other, and denotes the same. -/
theorem exists_corner (h : Respelt cs cs') (hread : corner? cs = some (corner, rest)) :
    ∃ corner' rest', corner? cs' = some (corner', rest') ∧
      Address.ofChars? corner = Address.ofChars? corner' ∧ Respelt rest rest' := by
  cases h with
  | nil => cases hread
  | @char c cs cs' h =>
    obtain ⟨htake, hrest⟩ := h.cut_digits
    rw [corner?_cons] at hread ⊢
    rw [← htake]
    simp only [Option.ite_none_right_eq_some, Option.some.injEq, Prod.mk.injEq] at hread ⊢
    obtain ⟨htest, rfl, rfl⟩ := hread
    exact ⟨_, _, ⟨htest, rfl, rfl⟩, rfl, hrest⟩
  | reference hspelling hafter h =>
    rw [hspelling.isReference.corner?_append hafter] at hread
    cases hread
    exact ⟨_, _, hspelling.isReference'.corner?_append (h.head_not_isDigit hafter),
      hspelling.ofChars?_eq, h⟩

theorem exists_corners (h : Respelt cs cs') (hread : corners? cs = some (first, last)) :
    ∃ first' last', corners? cs' = some (first', last') ∧
      Address.ofChars? first = Address.ofChars? first' ∧
      Address.ofChars? last = Address.ofChars? last' := by
  unfold corners? at hread
  split at hread
  · next f rest hfirst =>
    split at hread
    · next l hlast =>
      cases hread
      -- what is left behind a corner is respelt, and it begins with the same mark
      obtain ⟨first', rest', hfirst', haddress, hcolon⟩ := h.exists_corner hfirst
      obtain ⟨rest', rfl, hrest⟩ := hcolon.of_cons (.inl (by decide))
      obtain ⟨last', end', hlast', haddress', hend⟩ := hrest.exists_corner hlast
      obtain ⟨end', rfl, hnil⟩ := hend.of_cons (.inl (by decide))
      obtain rfl := hnil.of_nil
      exact ⟨first', last', by simp only [corners?, hfirst', hlast'], haddress, haddress'⟩
    · cases hread
  · cases hread

/-- What folds to a letter is no digit. -/
theorem not_isDigit_of_foldsTo {small : Char} (hsmall : small.isAlpha = true)
    (h : foldsTo small c = true) : c.isDigit = false := by
  obtain ⟨-, hnumeric, -⟩ := class_of_foldsToLetter (foldsToLetter_of_foldsTo hsmall h)
  exact Bool.eq_false_iff.mpr fun hdigit => by
    cases hnumeric.symm.trans (Expression.isNumeric_of_isDigit hdigit)

/-- **What is a sum in one spelling is one in the other**, between the same addresses. No reference
begins in the keyword, since no digit stands there. -/
theorem exists_sumCorners (h : Respelt body body') (hread : sumCorners? body = some (first, last)) :
    ∃ first' last', sumCorners? body' = some (first', last') ∧
      Address.ofChars? first = Address.ofChars? first' ∧
      Address.ofChars? last = Address.ofChars? last' := by
  unfold sumCorners? at hread
  split at hread
  · next s u m rest =>
    simp only [Option.ite_none_right_eq_some, Bool.and_eq_true] at hread
    obtain ⟨⟨⟨hs, hu⟩, hm⟩, hcorners⟩ := hread
    have hu' := not_isDigit_of_foldsTo (by decide) hu
    have hm' := not_isDigit_of_foldsTo (by decide) hm
    obtain ⟨cs₁, rfl, h₁⟩ := h.of_cons (.inr (by rintro d ⟨⟩; exact hu'))
    obtain ⟨cs₂, rfl, h₂⟩ := h₁.of_cons (.inr (by rintro d ⟨⟩; exact hm'))
    obtain ⟨cs₃, rfl, h₃⟩ := h₂.of_cons (.inr (by rintro d ⟨⟩; rfl))
    obtain ⟨cs₄, rfl, h₄⟩ := h₃.of_cons (.inl (by decide))
    obtain ⟨first', last', hcorners', haddresses⟩ := h₄.exists_corners hcorners
    refine ⟨first', last', ?_, haddresses⟩
    simp only [sumCorners?, hs, hu, hm, hcorners', Bool.and_self, if_true]
  · cases hread

theorem symm (h : Respelt cs cs') : Respelt cs' cs := by
  induction h with
  | nil => exact .nil
  | char c _ ih => exact .char c ih
  | reference hspelling hafter h ih =>
    refine .reference ⟨hspelling.isReference', hspelling.isReference, hspelling.letter.symm,
      hspelling.digits.symm⟩ (h.head_not_isDigit hafter) ih

/-- **Bodies that are respelt are the same formula.** -/
theorem ofChars_eq (h : Respelt body body') : ofChars body = ofChars body' := by
  cases hform : sumCorners? body with
  | some corners =>
    obtain ⟨first', last', hform', hfirst, hlast⟩ := h.exists_sumCorners hform
    rw [ofChars_of_some hform, ofChars_of_some hform', rangeOfCorners, rangeOfCorners, hfirst,
      hlast]
  | none =>
    have hform' : sumCorners? body' = none := by
      rw [Option.eq_none_iff_forall_ne_some]
      intro corners hread
      obtain ⟨first, last, hsome, -⟩ := h.symm.exists_sumCorners hread
      cases hform.symm.trans hsome
    rw [ofChars_of_none hform, ofChars_of_none hform', h.pieces_eq]

end Respelt

end FormulaSheet.Formula
