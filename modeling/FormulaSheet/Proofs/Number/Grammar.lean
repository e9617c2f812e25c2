/-
What a numeral is, and that the longest one is taken.

What a numeral is can be said without a reader: a sign or none, digits with a point
on some side of them or without one, and an exponent or none (`Form`). A text may
begin with several numerals, each a part of the next one: `12.5e3` begins with `1`,
`12`, `12.`, `12.5` and itself. The reader looks at one character after another and
never goes back, except that a letter without digits behind it is given back as no
exponent. It takes the longest numeral, and this has two halves.

What is taken is a numeral (`exists_form_of_scan?`). And whatever stands behind a
numeral, the reader does not stop before its end (`scan?_form_append`): where it
leaves a part, a character stands that no longer numeral could have there. So what
it leaves is shorter than what any other numeral leaves. With nothing behind it a
numeral is read to its end, and as what is written (`scan?_form`).
-/
import FormulaSheet.Number
import Mathlib.Data.List.Infix
import Mathlib.Data.List.TakeWhile

set_option autoImplicit false

namespace FormulaSheet.Numeral

open Float.Model.UnpackedFloat (Sign)
open Number (isMinus)

/-! ## What a numeral is -/

/-- A sign that may be missing. -/
inductive SignForm : List Char → Sign → Prop
  | none : SignForm [] .positive
  | plus : SignForm ['+'] .positive
  | minus : SignForm ['-'] .negative

/-- Digits, or a point with digits before it, behind it or on both sides, and what they mean: so
many units of the last place. -/
inductive MagnitudeForm : List Char → Decimal → Prop
  | whole {digits : List Char} (hne : digits ≠ [])
      (hdigits : ∀ c ∈ digits, c.isDigit = true) : MagnitudeForm digits ⟨natural digits, 0⟩
  | pointed {digits fraction : List Char} (hne : digits ++ fraction ≠ [])
      (hdigits : ∀ c ∈ digits ++ fraction, c.isDigit = true) :
      MagnitudeForm (digits ++ '.' :: fraction) ⟨natural (digits ++ fraction), -fraction.length⟩

/-- The letter of an exponent, a sign or none, and digits, and the power of ten that they mean; or
nothing. -/
inductive ExponentForm : List Char → Int → Prop
  | none : ExponentForm [] 0
  | written {letter : Char} {sign digits : List Char} {s : Sign}
      (hletter : letter = 'e' ∨ letter = 'E') (hsign : SignForm sign s) (hne : digits ≠ [])
      (hdigits : ∀ c ∈ digits, c.isDigit = true) :
      ExponentForm (letter :: (sign ++ digits))
        (if isMinus s then -(natural digits : Int) else natural digits)

/-- The texts that are numerals, each with the sign and the decimal that it means. -/
inductive Form : List Char → Sign → Decimal → Prop
  | mk {sign magnitude exponent : List Char} {s : Sign} {d : Decimal} {power : Int}
      (hsign : SignForm sign s) (hmagnitude : MagnitudeForm magnitude d)
      (hexponent : ExponentForm exponent power) :
      Form (sign ++ (magnitude ++ exponent)) s ⟨d.digits, d.exponent + power⟩

/-- The numerals that a text begins with. -/
def Begins (cs numeral : List Char) : Prop :=
  numeral <+: cs ∧ ∃ s d, Form numeral s d

/-- The longest numeral that a text begins with. -/
def Longest (cs numeral : List Char) : Prop :=
  Begins cs numeral ∧ ∀ other, Begins cs other → other.length ≤ numeral.length

theorem Longest.unique {cs numeral other : List Char} (h : Longest cs numeral)
    (h' : Longest cs other) : numeral = other :=
  List.IsPrefix.eq_of_length (List.prefix_of_prefix_length_le h.1.1 h'.1.1 (h'.2 _ h.1))
    ((h'.2 _ h.1).antisymm (h.2 _ h'.1))

/-! ## Runs of digits -/

section Digits

variable {digits t : List Char} {c : Char}

theorem isDigit_of_mem_takeWhile (cs : List Char) :
    ∀ c ∈ cs.takeWhile Char.isDigit, c.isDigit = true :=
  fun _ hc => List.mem_takeWhile_imp hc

theorem takeWhile_digits_append (h : ∀ c ∈ digits, c.isDigit = true) (t : List Char) :
    (digits ++ t).takeWhile Char.isDigit = digits ++ t.takeWhile Char.isDigit :=
  List.takeWhile_append_of_pos h

theorem dropWhile_digits_append (h : ∀ c ∈ digits, c.isDigit = true) (t : List Char) :
    (digits ++ t).dropWhile Char.isDigit = t.dropWhile Char.isDigit :=
  List.dropWhile_append_of_pos h

/-- A run of digits ends where no digit follows. -/
theorem dropWhile_eq_of_head (h : ∀ c ∈ t.head?, c.isDigit = false) :
    t.dropWhile Char.isDigit = t := by
  cases t with
  | nil => rfl
  | cons c t => exact List.dropWhile_cons_of_neg (by simp [h c rfl])

theorem takeWhile_eq_nil_of_dropWhile_eq (h : t.dropWhile Char.isDigit = t) :
    t.takeWhile Char.isDigit = [] := by
  have hsplit := List.takeWhile_append_dropWhile (p := Char.isDigit) (l := t)
  rw [h] at hsplit
  exact List.append_left_eq_self.mp hsplit

theorem ne_sign_of_isDigit (h : c.isDigit = true) : c ≠ '+' ∧ c ≠ '-' := by
  constructor
  · rintro rfl
    cases h
  · rintro rfl
    cases h

end Digits

/-! ## What is taken is a numeral -/

section Taken

variable {cs rest : List Char} {negative : Bool} {d : Decimal}

theorem exists_form_of_sign (cs : List Char) : ∃ x s, cs = x ++ (sign cs).2 ∧
    SignForm x s ∧ isMinus s = (sign cs).1 := by
  unfold sign
  split
  · exact ⟨_, _, rfl, .minus, rfl⟩
  · exact ⟨_, _, rfl, .plus, rfl⟩
  · exact ⟨_, _, rfl, .none, rfl⟩

theorem exists_form_of_magnitude? (h : magnitude? cs = some (d, rest)) :
    ∃ m, cs = m ++ rest ∧ MagnitudeForm m d := by
  have hsplit := (List.takeWhile_append_dropWhile (p := Char.isDigit) (l := cs)).symm
  simp only [magnitude?] at h
  split at h
  · next tail hrest =>
    obtain ⟨hne, h⟩ := Option.ite_none_left_eq_some.mp h
    obtain ⟨rfl, rfl⟩ := Prod.mk.inj (Option.some.inj h)
    have htail := (List.takeWhile_append_dropWhile (p := Char.isDigit) (l := tail)).symm
    refine ⟨_, ?_, .pointed (by simpa using hne) fun c hc => ?_⟩
    · rw [hrest, htail] at hsplit
      simpa using hsplit
    · exact (List.mem_append.mp hc).elim (isDigit_of_mem_takeWhile _ c)
        (isDigit_of_mem_takeWhile _ c)
  · obtain ⟨hne, h⟩ := Option.ite_none_left_eq_some.mp h
    obtain ⟨rfl, rfl⟩ := Prod.mk.inj (Option.some.inj h)
    exact ⟨_, hsplit, .whole (by simpa using hne) (isDigit_of_mem_takeWhile cs)⟩

theorem exists_form_of_exponent (cs : List Char) : ∃ e,
    cs = e ++ (exponent cs).2 ∧ ExponentForm e (exponent cs).1 := by
  cases cs with
  | nil => exact ⟨[], rfl, .none⟩
  | cons c tail =>
    simp only [exponent]
    split
    · next hletter =>
      obtain ⟨x, s, hsplit, hsign, hminus⟩ := exists_form_of_sign tail
      split
      · exact ⟨[], rfl, .none⟩
      · next hne =>
        have hform := @ExponentForm.written c _ _ _ (by simpa using hletter) hsign
          (by simpa using hne) (isDigit_of_mem_takeWhile (sign tail).2)
        rw [hminus] at hform
        refine ⟨_, ?_, hform⟩
        rw [List.cons_append, List.append_assoc, List.takeWhile_append_dropWhile, ← hsplit]
    · exact ⟨[], rfl, .none⟩

/-- **What is taken is a numeral**, with the sign and the decimal that are found. -/
theorem exists_form_of_scan? (h : scan? cs = some ((negative, d), rest)) :
    ∃ p s, cs = p ++ rest ∧ Form p s d ∧ isMinus s = negative := by
  obtain ⟨x, s, hsplit, hsign, hminus⟩ := exists_form_of_sign cs
  simp only [scan?] at h
  split at h
  · cases h
  · next r rest' hread =>
    obtain ⟨m, hrest, hmagnitude⟩ := exists_form_of_magnitude? hread
    obtain ⟨e, hrest', hexponent⟩ := exists_form_of_exponent rest'
    simp only [Option.some.injEq, Prod.mk.injEq] at h
    obtain ⟨⟨rfl, rfl⟩, rfl⟩ := h
    refine ⟨x ++ (m ++ e), s, ?_, .mk hsign hmagnitude hexponent, hminus⟩
    rw [List.append_assoc, List.append_assoc, ← hrest', ← hrest, ← hsplit]

end Taken

/-! ## The reader does not stop before the end of a numeral -/

section Reached

variable {x m e cs t p : List Char} {s : Sign} {d : Decimal} {power : Int} {c : Char}

theorem sign_form_append (h : SignForm x s) (hc : c ≠ '+' ∧ c ≠ '-') (cs : List Char) :
    sign (x ++ c :: cs) = (isMinus s, c :: cs) := by
  cases h with
  | plus => rfl
  | minus => rfl
  | none =>
    rw [List.nil_append]
    unfold sign
    split
    · next heq => exact absurd (List.cons.inj heq).1 hc.2
    · next heq => exact absurd (List.cons.inj heq).1 hc.1
    · rfl

/-- A magnitude begins with no sign. -/
theorem MagnitudeForm.exists_cons (h : MagnitudeForm m d) :
    ∃ c cs, m = c :: cs ∧ c ≠ '+' ∧ c ≠ '-' := by
  cases h with
  | whole hne hdigits =>
    obtain ⟨c, cs, rfl⟩ := List.exists_cons_of_ne_nil hne
    exact ⟨c, cs, rfl, ne_sign_of_isDigit (hdigits c List.mem_cons_self)⟩
  | @pointed digits fraction hne hdigits =>
    cases digits with
    | nil => exact ⟨'.', fraction, rfl, by decide, by decide⟩
    | cons c digits => exact ⟨c, _, rfl, ne_sign_of_isDigit (hdigits c List.mem_cons_self)⟩

/-- **A magnitude is read to its end, or beyond it.** It is read as what it means if reading ends
there, as it does where neither a digit nor a point follows. -/
theorem magnitude?_form_append (h : MagnitudeForm m d) (t : List Char) :
    ∃ d' rest, magnitude? (m ++ t) = some (d', rest) ∧ rest <:+ t ∧ (rest = t → d' = d) ∧
      ((∀ c ∈ t.head?, c.isDigit = false ∧ c ≠ '.') → rest = t) := by
  have hsuffix : t.dropWhile Char.isDigit <:+ t := List.dropWhile_suffix _
  cases h with
  | whole hne hdigits =>
    have hfilled : (m ++ t.takeWhile Char.isDigit).isEmpty = false := by simp [hne]
    simp only [magnitude?, takeWhile_digits_append hdigits, dropWhile_digits_append hdigits,
      hfilled, Bool.false_and, if_neg Bool.false_ne_true]
    split
    · next tail htail =>
      -- behind the digits there is a point, which is read too
      rw [htail] at hsuffix
      have hrest : tail.dropWhile Char.isDigit <:+ tail := List.dropWhile_suffix _
      refine ⟨_, _, rfl, hrest.trans ((List.suffix_cons _ _).trans hsuffix), ?_, ?_⟩
      · intro heq
        have hlength := hrest.length_le
        have hlength' := hsuffix.length_le
        rw [heq] at hlength
        rw [List.length_cons] at hlength'
        omega
      · intro hhead
        rw [dropWhile_eq_of_head fun c hc => (hhead c hc).1] at htail
        exact absurd rfl (hhead '.' (by rw [htail]; rfl)).2
    · refine ⟨_, _, rfl, hsuffix, ?_, fun hhead => dropWhile_eq_of_head fun c hc => (hhead c hc).1⟩
      intro heq
      rw [takeWhile_eq_nil_of_dropWhile_eq heq, List.append_nil]
  | @pointed digits fraction hne hdigits =>
    have hwhole := fun c hc => hdigits c (List.mem_append_left fraction hc)
    have hfraction := fun c hc => hdigits c (List.mem_append_right digits hc)
    have hpoint : ('.' :: (fraction ++ t)).takeWhile Char.isDigit = [] := rfl
    have hpoint' : ('.' :: (fraction ++ t)).dropWhile Char.isDigit = '.' :: (fraction ++ t) := rfl
    have hfilled : ¬ (digits.isEmpty && (fraction ++ t.takeWhile Char.isDigit).isEmpty) = true := by
      simp only [Bool.and_eq_true, List.isEmpty_iff, List.append_eq_nil_iff]
      rintro ⟨hnil, hnil', -⟩
      exact hne (by rw [hnil, hnil', List.append_nil])
    simp only [List.append_assoc, List.cons_append, magnitude?, takeWhile_digits_append hwhole,
      dropWhile_digits_append hwhole, hpoint, hpoint', takeWhile_digits_append hfraction,
      dropWhile_digits_append hfraction, List.append_nil, if_neg hfilled]
    refine ⟨_, _, rfl, hsuffix, ?_, fun hhead => dropWhile_eq_of_head fun c hc => (hhead c hc).1⟩
    intro heq
    rw [takeWhile_eq_nil_of_dropWhile_eq heq, List.append_nil]

theorem exponent_suffix (cs : List Char) : (exponent cs).2 <:+ cs := by
  obtain ⟨e, hsplit, -⟩ := exists_form_of_exponent cs
  exact ⟨e, hsplit.symm⟩

/-- Where nothing is taken there is no exponent. -/
theorem exponent_eq_zero (h : (exponent cs).2 = cs) : (exponent cs).1 = 0 := by
  obtain ⟨e, hsplit, hform⟩ := exists_form_of_exponent cs
  rw [h] at hsplit
  obtain rfl : e = [] := List.append_left_eq_self.mp hsplit.symm
  generalize (exponent cs).1 = power at hform
  cases hform
  rfl

/-- **An exponent is read to its end, or beyond it**, and as what it means if reading ends there. -/
theorem exponent_form_append (h : ExponentForm e power) (t : List Char) :
    (exponent (e ++ t)).2 <:+ t ∧ ((exponent (e ++ t)).2 = t → (exponent (e ++ t)).1 = power) := by
  cases h with
  | none => exact ⟨exponent_suffix t, exponent_eq_zero⟩
  | @written letter x digits s hletter hsign hne hdigits =>
    have hsigned : sign (x ++ (digits ++ t)) = (isMinus s, digits ++ t) := by
      obtain ⟨c, digits, rfl⟩ := List.exists_cons_of_ne_nil hne
      exact sign_form_append hsign (ne_sign_of_isDigit (hdigits c List.mem_cons_self)) _
    have hread : exponent (letter :: (x ++ digits) ++ t)
        = (if isMinus s then -(natural (digits ++ t.takeWhile Char.isDigit) : Int)
            else natural (digits ++ t.takeWhile Char.isDigit), t.dropWhile Char.isDigit) := by
      have hletter' : (letter = 'e' || letter = 'E') = true := by simpa using hletter
      have hfilled : (digits ++ t.takeWhile Char.isDigit).isEmpty = false := by simp [hne]
      simp only [List.cons_append, List.append_assoc, exponent, hletter', hsigned,
        takeWhile_digits_append hdigits, dropWhile_digits_append hdigits, hfilled, if_pos,
        if_neg Bool.false_ne_true]
    rw [hread]
    refine ⟨List.dropWhile_suffix _, fun heq => ?_⟩
    simp only [takeWhile_eq_nil_of_dropWhile_eq heq, List.append_nil]

/-- An exponent that is written out begins with a letter, before which a magnitude ends. -/
theorem ExponentForm.eq_nil_or_head (h : ExponentForm e power) (t : List Char) :
    e = [] ∨ ∀ c ∈ (e ++ t).head?, c.isDigit = false ∧ c ≠ '.' := by
  cases h with
  | none => exact .inl rfl
  | written hletter =>
    right
    rintro _ ⟨⟩
    rcases hletter with rfl | rfl
    · decide
    · decide

/-- **A numeral is read to its end, or beyond it**, and as what it means if reading ends there. -/
theorem scan?_form_append (h : Form p s d) (t : List Char) :
    ∃ d' rest, scan? (p ++ t) = some ((isMinus s, d'), rest) ∧ rest <:+ t ∧
      (rest = t → d' = d) := by
  cases h with
  | @mk x m e _ d power hsign hmagnitude hexponent =>
    obtain ⟨d', r, hread, hsuffix, hvalue, hstop⟩ := magnitude?_form_append hmagnitude (e ++ t)
    obtain ⟨c, m', rfl, hc⟩ := hmagnitude.exists_cons
    have hsigned : sign (x ++ (c :: m' ++ e) ++ t) = (isMinus s, c :: m' ++ (e ++ t)) := by
      rw [List.append_assoc, List.append_assoc]
      exact sign_form_append hsign hc _
    refine ⟨⟨d'.digits, d'.exponent + (exponent r).1⟩, (exponent r).2, ?_, ?_⟩
    · simp only [scan?, hsigned, hread]
    · rcases hexponent.eq_nil_or_head t with rfl | hhead
      · -- without an exponent the magnitude may have been read beyond its end
        cases hexponent
        have hleft := (exponent_suffix r).trans hsuffix
        refine ⟨hleft, fun heq => ?_⟩
        have hr : r = t := by
          refine hsuffix.eq_of_length_le ?_
          rw [List.nil_append, ← heq]
          exact (exponent_suffix r).length_le
        rw [← hr] at heq
        rw [hvalue hr, exponent_eq_zero heq]
      · obtain ⟨hleft, hpower⟩ := exponent_form_append hexponent t
        rw [hstop hhead]
        exact ⟨hleft, fun heq => by rw [hvalue (hstop hhead), hpower heq]⟩

end Reached

/-! ## To the end of a text -/

section Ends

variable {m p : List Char} {s s' : Sign} {d d' : Decimal}

/-- A magnitude is read as what it means. -/
theorem magnitude?_form (h : MagnitudeForm m d) : magnitude? m = some (d, []) := by
  obtain ⟨d', rest, hread, hsuffix, hvalue, -⟩ := magnitude?_form_append h []
  have hrest : rest = [] := List.suffix_nil.mp hsuffix
  rw [List.append_nil] at hread
  rw [hread, hvalue hrest, hrest]

/-- **A numeral is read as what it means.** -/
theorem scan?_form (h : Form p s d) : scan? p = some ((isMinus s, d), []) := by
  obtain ⟨d', rest, hread, hsuffix, hvalue⟩ := scan?_form_append h []
  have hrest : rest = [] := List.suffix_nil.mp hsuffix
  rw [List.append_nil] at hread
  rw [hread, hvalue hrest, hrest]

theorem signForm_minus (negative : Bool) :
    ∃ s, SignForm (if negative then ['-'] else []) s ∧ isMinus s = negative := by
  cases negative with
  | true => exact ⟨_, .minus, rfl⟩
  | false => exact ⟨_, .none, rfl⟩

/-- A numeral means one thing. -/
theorem Form.unique (h : Form p s d) (h' : Form p s' d') : s = s' ∧ d = d' := by
  have hread := scan?_form h
  rw [scan?_form h', Option.some.injEq, Prod.mk.injEq, Prod.mk.injEq] at hread
  obtain ⟨⟨hsign, rfl⟩, -⟩ := hread
  refine ⟨?_, rfl⟩
  cases s with
  | positive => cases s' with
    | positive => rfl
    | negative => cases hsign
  | negative => cases s' with
    | positive => cases hsign
    | negative => rfl

end Ends

/-! ## So the longest one is taken -/

section Found

variable {cs p rest : List Char} {negative : Bool} {d : Decimal}

theorem exists_scan?_of_begins (h : Begins cs p) : ∃ found, scan? cs = some found := by
  obtain ⟨⟨t, rfl⟩, s, v, hform⟩ := h
  obtain ⟨d, rest, hread, -⟩ := scan?_form_append hform t
  exact ⟨_, hread⟩

/-- **What is taken is the longest numeral.** -/
theorem longest_of_scan? (h : scan? cs = some ((negative, d), rest)) :
    ∃ p s, cs = p ++ rest ∧ Longest cs p ∧ Form p s d ∧ isMinus s = negative := by
  obtain ⟨p, s, hsplit, hform, hminus⟩ := exists_form_of_scan? h
  refine ⟨p, s, hsplit, ⟨⟨⟨rest, hsplit.symm⟩, s, _, hform⟩, ?_⟩, hform, hminus⟩
  rintro other ⟨⟨t, ht⟩, s', d', hother⟩
  obtain ⟨d'', rest', hread, hsuffix, -⟩ := scan?_form_append hother t
  rw [ht, h, Option.some.injEq, Prod.mk.injEq] at hread
  -- behind any other numeral no less is left than what the reader has left
  have hle := hsuffix.length_le
  have hlength := congrArg List.length (ht.trans hsplit)
  rw [← hread.2] at hle
  simp only [List.length_append] at hlength
  omega

end Found

end FormulaSheet.Numeral
