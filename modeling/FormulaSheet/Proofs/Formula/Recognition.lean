/-
Which bodies are sums.

The documented form of a sum is a keyword in letters of either case, and between
parentheses two references with a colon between them, each of them a letter of ASCII
and digits. The recogniser ignores case by folding, and so it takes two more
characters for letters, the long s for an `s` and the sign of the kelvin for a `k`.
There is no other difference: a body is recognised exactly if it has the documented
form once these two have been replaced (`sumCorners?_eq_some_iff`,
`exists_sumCorners?_iff`).

A corner that begins with one of the two is no address, so such a body has no range
at all; in the keyword they change nothing (`ofChars_of_sumCorners?`).
-/
import FormulaSheet.Proofs.Evaluation.RangeSum
import Mathlib.Data.List.TakeWhile

set_option autoImplicit false

namespace FormulaSheet.Formula

/-! ## The documented form -/

/-- A reference: a letter of ASCII and one or more digits. -/
inductive IsReference : List Char → Prop
  | intro {letter : Char} {digits : List Char} (hletter : letter.isAlpha = true)
      (hne : digits ≠ []) (hdigits : ∀ d ∈ digits, d.isDigit = true) :
      IsReference (letter :: digits)

/-- A body in the documented form of a sum, with its corners: from end to end a keyword in any case
and two references, and no blanks. -/
inductive IsSum : List Char → List Char → List Char → Prop
  | intro {keyword first last : List Char} (hkeyword : keyword.map Char.toLower = ['s', 'u', 'm'])
      (hfirst : IsReference first) (hlast : IsReference last) :
      IsSum (sumText keyword first last) first last

/-- The letter of ASCII to which the long s and the sign of the kelvin fold. -/
def plain (c : Char) : Char :=
  if c = '\u017f' then 's' else if c = '\u212a' then 'k' else c

/-- One of the two stands in a text. -/
def Folded (cs : List Char) : Prop :=
  '\u017f' ∈ cs ∨ '\u212a' ∈ cs

/-! ## Characters -/

section Characters

variable {c mark small : Char} {cs : List Char}

theorem plain_of_ne (hs : c ≠ '\u017f') (hk : c ≠ '\u212a') : plain c = c := by
  rw [plain, if_neg hs, if_neg hk]

/-- What holds of the two characters, and of those that are left as they are, holds of all. -/
theorem plain_cases {P : Char → Prop} (hs : P '\u017f') (hk : P '\u212a')
    (hsame : c ≠ '\u017f' → c ≠ '\u212a' → plain c = c → P c) : P c := by
  by_cases h₁ : c = '\u017f'
  · exact h₁ ▸ hs
  · by_cases h₂ : c = '\u212a'
    · exact h₂ ▸ hk
    · exact hsame h₁ h₂ (plain_of_ne h₁ h₂)

theorem isDigit_plain : (plain c).isDigit = c.isDigit :=
  plain_cases (P := fun c => (plain c).isDigit = c.isDigit) (by decide) (by decide)
    fun _ _ h => by rw [h]

theorem isAlpha_plain : (plain c).isAlpha = foldsToLetter c :=
  plain_cases (P := fun c => (plain c).isAlpha = foldsToLetter c) (by decide) (by decide)
    fun hs hk h => by
      rw [h, foldsToLetter, beq_false_of_ne hs, beq_false_of_ne hk, Bool.or_false, Bool.or_false]

/-- A character that is no letter comes from itself alone. -/
theorem plain_eq_iff (hmark : mark ∈ ['(', ':', ')']) : plain c = mark ↔ c = mark := by
  refine plain_cases (P := fun c => plain c = mark ↔ c = mark) ?_ ?_ fun _ _ h => by rw [h]
  all_goals
    simp only [List.mem_cons, List.not_mem_nil, or_false] at hmark
    obtain rfl | rfl | rfl := hmark <;> decide

/-- To fold to a small letter is to become it in one of the two ways. -/
theorem foldsTo_iff (hsmall : small.isAlpha = true) :
    foldsTo small c = true ↔ (plain c).toLower = small := by
  have hs : '\u017f' ≠ small := by
    rintro rfl
    cases hsmall
  have hk : '\u212a' ≠ small := by
    rintro rfl
    cases hsmall
  refine plain_cases (P := fun c => foldsTo small c = true ↔ (plain c).toLower = small) ?_ ?_
    fun h₁ h₂ h => ?_
  · have hlower : '\u017f'.toLower = '\u017f' := by decide
    have hplain : (plain '\u017f').toLower = 's' := by decide
    have hkelvin : ('\u017f' == '\u212a') = false := by decide
    rw [hplain, foldsTo, hlower, beq_false_of_ne hs, hkelvin, beq_self_eq_true, Bool.and_false,
      Bool.and_true, Bool.or_false, Bool.false_or, beq_iff_eq]
    exact eq_comm
  · have hlower : '\u212a'.toLower = '\u212a' := by decide
    have hplain : (plain '\u212a').toLower = 'k' := by decide
    have hlong : ('\u212a' == '\u017f') = false := by decide
    rw [hplain, foldsTo, hlower, beq_false_of_ne hk, hlong, beq_self_eq_true, Bool.and_false,
      Bool.and_true, Bool.or_false, Bool.false_or, beq_iff_eq]
    exact eq_comm
  · rw [h, foldsTo, beq_false_of_ne h₁, beq_false_of_ne h₂]
    simp

theorem map_plain_eq_iff : cs.map plain = cs ↔ ¬ Folded cs := by
  have hfixed : cs.map plain = cs ↔ ∀ c ∈ cs, plain c = c := by
    conv_lhs => rhs; rw [← List.map_id cs]
    exact List.map_inj_left
  rw [hfixed, Folded, not_or]
  constructor
  · exact fun hall => ⟨fun hs => absurd (hall _ hs) (by decide),
      fun hk => absurd (hall _ hk) (by decide)⟩
  · rintro ⟨hs, hk⟩ c hc
    exact plain_of_ne (fun heq => hs (heq ▸ hc)) fun heq => hk (heq ▸ hc)

end Characters

/-! ## Documented forms hold neither of the two -/

section Documented

variable {letter : Char} {digits keyword first last cs : List Char}

theorem IsReference.isAlpha (h : IsReference (letter :: digits)) : letter.isAlpha = true := by
  cases h with
  | intro hletter _ _ => exact hletter

theorem IsReference.isDigit (h : IsReference (letter :: digits)) :
    ∀ d ∈ digits, d.isDigit = true := by
  cases h with
  | intro _ _ hdigits => exact hdigits

theorem IsReference.ne_nil (h : IsReference (letter :: digits)) : digits ≠ [] := by
  cases h with
  | intro _ hne _ => exact hne

theorem IsReference.not_folded (h : IsReference cs) : ¬ Folded cs := by
  obtain ⟨hletter, -, hdigits⟩ := h
  rintro (hs | hk)
  · rcases List.mem_cons.mp hs with rfl | hs
    · cases hletter
    · cases hdigits _ hs
  · rcases List.mem_cons.mp hk with rfl | hk
    · cases hletter
    · cases hdigits _ hk

theorem not_folded_of_toLower (h : keyword.map Char.toLower = ['s', 'u', 'm']) :
    ¬ Folded keyword := by
  have hmem : ∀ c ∈ keyword, c.toLower ∈ ['s', 'u', 'm'] := fun c hc =>
    h ▸ List.mem_map_of_mem hc
  rintro (hs | hk)
  · exact absurd (hmem _ hs) (by decide)
  · exact absurd (hmem _ hk) (by decide)

theorem map_plain_sumText : (sumText keyword first last).map plain
    = sumText (keyword.map plain) (first.map plain) (last.map plain) := by
  simp only [sumText, List.map_append, List.map_cons, List.map_nil]
  rfl

theorem IsSum.map_plain (h : IsSum cs first last) : cs.map plain = cs := by
  obtain ⟨hkeyword, hfirst, hlast⟩ := h
  rw [map_plain_sumText, map_plain_eq_iff.mpr (not_folded_of_toLower hkeyword),
    map_plain_eq_iff.mpr hfirst.not_folded, map_plain_eq_iff.mpr hlast.not_folded]

end Documented

/-! ## The recogniser -/

section Recogniser

variable {keyword corner first last rest body cs : List Char}

theorem corner?_cons (c : Char) (cs : List Char) :
    corner? (c :: cs)
      = if (foldsToLetter c && !(cs.takeWhile Char.isDigit).isEmpty) = true then
          some (c :: cs.takeWhile Char.isDigit, cs.dropWhile Char.isDigit)
        else none :=
  rfl

theorem corner?_eq_some_iff :
    corner? cs = some (corner, rest) ↔
      cs = corner ++ rest ∧ IsReference (corner.map plain) ∧ ∀ c ∈ rest.head?, c.isDigit = false := by
  constructor
  · intro h
    cases cs with
    | nil => cases h
    | cons c cs =>
      rw [corner?_cons] at h
      simp only [Option.ite_none_right_eq_some, Bool.and_eq_true, Bool.not_eq_true',
        List.isEmpty_eq_false_iff, Option.some.injEq, Prod.mk.injEq] at h
      obtain ⟨⟨hletter, hne⟩, rfl, rfl⟩ := h
      refine ⟨?_, .intro (isAlpha_plain.trans hletter) (by simpa using hne) ?_, ?_⟩
      · rw [List.cons_append, List.takeWhile_append_dropWhile]
      · intro d hd
        obtain ⟨e, he, rfl⟩ := List.mem_map.mp hd
        exact isDigit_plain.trans (List.mem_takeWhile_imp he)
      · exact not_of_head?_dropWhile
  · rintro ⟨rfl, hreference, hrest⟩
    cases corner with
    | nil => cases hreference
    | cons c digits =>
      rw [List.map_cons] at hreference
      obtain ⟨hletter, hne, hdigits⟩ := hreference
      -- no digit becomes another character, and none comes from another
      have hall : ∀ d ∈ digits, d.isDigit = true := fun d hd =>
        isDigit_plain.symm.trans (hdigits _ (List.mem_map_of_mem hd))
      obtain ⟨htake, hdrop⟩ := takeWhile_run_append hall hrest
      have hsome : digits ≠ [] := fun hnil => hne (by rw [hnil]; rfl)
      rw [List.cons_append, corner?, htake, hdrop, if_pos]
      simp [← isAlpha_plain, hletter, hsome]

theorem corners?_eq_some_iff :
    corners? cs = some (first, last) ↔
      cs = first ++ ':' :: (last ++ [')']) ∧ IsReference (first.map plain) ∧
        IsReference (last.map plain) := by
  constructor
  · intro h
    unfold corners? at h
    split at h
    · next first' rest hreadFirst =>
      split at h
      · next last' hreadLast =>
        cases h
        obtain ⟨rfl, hfirst, -⟩ := corner?_eq_some_iff.mp hreadFirst
        obtain ⟨rfl, hlast, -⟩ := corner?_eq_some_iff.mp hreadLast
        exact ⟨rfl, hfirst, hlast⟩
      · cases h
    · cases h
  · rintro ⟨rfl, hfirst, hlast⟩
    have h₁ := corner?_eq_some_iff.mpr ⟨rfl, hfirst, show ∀ c ∈ (':' :: (last ++ [')'])).head?,
      c.isDigit = false by rintro c ⟨⟩; rfl⟩
    have h₂ := corner?_eq_some_iff.mpr ⟨rfl, hlast, show ∀ c ∈ [')'].head?,
      c.isDigit = false by rintro c ⟨⟩; rfl⟩
    simp only [corners?, h₁, h₂]

/-- **The recogniser knows the documented form up to the two characters.** -/
theorem sumCorners?_eq_some_iff :
    sumCorners? body = some (first, last) ↔
      ∃ keyword, body = sumText keyword first last ∧
        (keyword.map plain).map Char.toLower = ['s', 'u', 'm'] ∧
        IsReference (first.map plain) ∧ IsReference (last.map plain) := by
  constructor
  · intro h
    unfold sumCorners? at h
    split at h
    · next s u m rest =>
      simp only [Option.ite_none_right_eq_some, Bool.and_eq_true] at h
      obtain ⟨⟨⟨hs, hu⟩, hm⟩, hcorners⟩ := h
      obtain ⟨rfl, hfirst, hlast⟩ := corners?_eq_some_iff.mp hcorners
      rw [foldsTo_iff (by decide)] at hs hu hm
      refine ⟨[s, u, m], rfl, ?_, hfirst, hlast⟩
      simp only [List.map_cons, List.map_nil, hs, hu, hm]
    · cases h
  · rintro ⟨keyword, rfl, hkeyword, hreferences⟩
    have hlength : keyword.length = 3 := by simpa using congrArg List.length hkeyword
    obtain ⟨s, u, m, rfl⟩ := List.length_eq_three.mp hlength
    simp only [List.map_cons, List.map_nil, List.cons.injEq, and_true] at hkeyword
    obtain ⟨hs, hu, hm⟩ := hkeyword
    rw [← foldsTo_iff (by decide)] at hs hu hm
    have hcorners := corners?_eq_some_iff.mpr ⟨rfl, hreferences⟩
    simp only [sumText, List.cons_append, List.nil_append, sumCorners?, hs, hu, hm, hcorners,
      Bool.and_self, if_true]

/-- The corners of a recognised body are those of the documented form. -/
theorem isSum_of_sumCorners? (h : sumCorners? body = some (first, last)) :
    IsSum (body.map plain) (first.map plain) (last.map plain) := by
  obtain ⟨keyword, rfl, hkeyword, hfirst, hlast⟩ := sumCorners?_eq_some_iff.mp h
  rw [map_plain_sumText]
  exact .intro hkeyword hfirst hlast

/-- A text that becomes a sum is one up to the two characters. -/
theorem exists_sumText_of_map_plain {keyword' first' last' : List Char}
    (h : body.map plain = sumText keyword' first' last') :
    ∃ keyword first last, body = sumText keyword first last ∧ keyword.map plain = keyword' ∧
      first.map plain = first' ∧ last.map plain = last' := by
  obtain ⟨keyword, cs, rfl, hkeyword, h₁⟩ := List.map_eq_append_iff.mp h
  obtain ⟨c₁, cs, rfl, hc₁, h₂⟩ := List.map_eq_cons_iff.mp h₁
  obtain ⟨first, cs, rfl, hfirst, h₃⟩ := List.map_eq_append_iff.mp h₂
  obtain ⟨c₂, cs, rfl, hc₂, h₄⟩ := List.map_eq_cons_iff.mp h₃
  obtain ⟨last, cs, rfl, hlast, h₅⟩ := List.map_eq_append_iff.mp h₄
  obtain ⟨c₃, cs, rfl, hc₃, h₆⟩ := List.map_eq_cons_iff.mp h₅
  obtain rfl := (plain_eq_iff (by decide)).mp hc₁
  obtain rfl := (plain_eq_iff (by decide)).mp hc₂
  obtain rfl := (plain_eq_iff (by decide)).mp hc₃
  obtain rfl := List.map_eq_nil_iff.mp h₆
  exact ⟨keyword, first, last, rfl, hkeyword, hfirst, hlast⟩

/-- **Which bodies are recognised.** -/
theorem exists_sumCorners?_iff :
    (∃ first last, sumCorners? body = some (first, last)) ↔
      ∃ first last, IsSum (body.map plain) first last := by
  constructor
  · rintro ⟨first, last, h⟩
    exact ⟨_, _, isSum_of_sumCorners? h⟩
  · rintro ⟨first', last', h⟩
    generalize hbody : body.map plain = text at h
    obtain ⟨hkeyword, hfirst, hlast⟩ := h
    -- the marks between the parts come from themselves, so the body has the same parts
    obtain ⟨keyword, first, last, rfl, rfl, rfl, rfl⟩ := exists_sumText_of_map_plain hbody
    exact ⟨first, last, sumCorners?_eq_some_iff.mpr ⟨keyword, rfl, hkeyword, hfirst, hlast⟩⟩

theorem IsSum.sumCorners? (h : IsSum body first last) :
    sumCorners? body = some (first, last) := by
  obtain ⟨hkeyword, hfirst, hlast⟩ := h
  refine sumCorners?_eq_some_iff.mpr ⟨_, rfl, ?_, ?_, ?_⟩
  · rwa [map_plain_eq_iff.mpr (not_folded_of_toLower hkeyword)]
  · rwa [map_plain_eq_iff.mpr hfirst.not_folded]
  · rwa [map_plain_eq_iff.mpr hlast.not_folded]

end Recogniser

/-! ## What a body is read as -/

section Reading

variable {first last body cs : List Char}

theorem ofChars_of_some (h : sumCorners? body = some (first, last)) :
    ofChars body = .sum (rangeOfCorners first last) := by
  rw [ofChars, h]

theorem ofChars_of_none (h : sumCorners? body = none) : ofChars body = .arithmetic (pieces body) := by
  rw [ofChars, h]

/-- A corner with one of the two characters is no address. -/
theorem ofChars?_of_folded (h : Folded cs) : Address.ofChars? cs = none := by
  cases hread : Address.ofChars? cs with
  | none => rfl
  | some a =>
    obtain ⟨w, rfl, -⟩ := Address.ofChars?_eq_some_iff.mp hread
    exact absurd h (IsReference.intro w.isAlpha_letter w.digits_ne_nil w.isDigit_of_mem).not_folded

theorem rangeOfCorners_of_folded (h : Folded first ∨ Folded last) :
    rangeOfCorners first last = none := by
  unfold rangeOfCorners
  rcases h with h | h
  · rw [ofChars?_of_folded h]
  · rw [ofChars?_of_folded h]
    cases Address.ofChars? first <;> rfl

end Reading

end FormulaSheet.Formula
