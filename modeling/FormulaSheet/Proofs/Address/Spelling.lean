/-
The spellings of an address.

An address can be written in many ways: with its letter in either case and with any
number of zeros before its row. A text is read as an address exactly if it is one
of these spellings, and then as the address that is spelt (`ofText?_eq_some_iff`);
a row number that is zero or does not fit in 64 bits makes none.

All spellings of an address come down to one. With the letter made a capital and
the zeros taken away, a spelling is the canonical text of what it spells
(`chars_address`), for the digits of a number are its digits in decimal as soon as
no zero stands before them. So two spellings mean the same cell exactly if they
differ in nothing else (`address_eq_iff`).
-/
import FormulaSheet.Proofs.Address.Codec
import FormulaSheet.Proofs.Formula.Lexeme
import Mathlib.Data.List.Induction

set_option autoImplicit false

namespace FormulaSheet

/-! ## Letters -/

/-- What is so for all codes below a limit is so for all characters with such a code. -/
theorem forall_char_of_forall_code {P : Char → Prop} {limit : Nat}
    (h : ∀ n < limit, P (Char.ofNat n)) {c : Char} (hc : c.toNat < limit) : P c := by
  have hcode := h c.toNat hc
  rwa [Char.ofNat_toNat] at hcode

namespace Column

variable {c : Char} {col : Column}

theorem code_lt_of_isAlpha (h : c.isAlpha = true) : c.toNat < 123 := by
  have hcode := Formula.isAlpha_iff.mp h
  omega

/-- A letter that is made a capital lies between `A` and `Z`. -/
theorem toUpper_bounds (h : c.isAlpha = true) : 65 ≤ c.toUpper.toNat ∧ c.toUpper.toNat < 91 :=
  forall_char_of_forall_code
    (P := fun c => c.isAlpha = true → 65 ≤ c.toUpper.toNat ∧ c.toUpper.toNat < 91) (by decide)
    (code_lt_of_isAlpha h) h

/-- The column whose letter a letter is, in either case. -/
def ofAlpha (c : Char) (h : c.isAlpha = true) : Column :=
  ⟨c.toUpper.toNat - 65, by have := toUpper_bounds h; omega⟩

theorem letter_ofAlpha (h : c.isAlpha = true) : (ofAlpha c h).letter = c.toUpper := by
  have hlow := (toUpper_bounds h).1
  have hcode : (ofAlpha c h).val + 65 = c.toUpper.toNat := Nat.sub_add_cancel hlow
  rw [letter, hcode, Char.ofNat_toNat]

/-- A letter is read as its column. -/
theorem ofLetter?_of_isAlpha (h : c.isAlpha = true) : ofLetter? c = some (ofAlpha c h) :=
  forall_char_of_forall_code
    (P := fun c => (h : c.isAlpha = true) → ofLetter? c = some (ofAlpha c h)) (by decide)
    (code_lt_of_isAlpha h) h

/-- And nothing else is. -/
theorem ofLetter?_eq_none (h : ¬ c.isAlpha = true) : ofLetter? c = none := by
  rw [Formula.isAlpha_iff, not_or] at h
  unfold ofLetter?
  rw [dif_neg h.1, dif_neg h.2]

theorem isAlpha_of_ofLetter? (h : ofLetter? c = some col) : c.isAlpha = true := by
  by_contra halpha
  rw [ofLetter?_eq_none halpha] at h
  cases h

end Column

/-! ## Digits -/

section Digits

variable {c : Char} {digits : List Char}

theorem toDigits_of_isDigit (h : c.isDigit = true) :
    Nat.toDigits 10 (c.toNat - '0'.toNat) = [c] := by
  have hcode : c.toNat < 58 := Nat.lt_succ_of_le (Char.isDigit_iff_toNat.mp h).2
  exact forall_char_of_forall_code
    (P := fun c => c.isDigit = true → Nat.toDigits 10 (c.toNat - '0'.toNat) = [c]) (by decide)
    hcode h

/-- Without a zero before them, digits are the digits of their number. The induction is on the
digits from the right, since that is how the digits of a number are made. -/
theorem toDigits_of_head_ne (hc : c ≠ '0') (hdigits : ∀ d ∈ c :: digits, d.isDigit = true) :
    0 < Nat.ofDigitChars 10 (c :: digits) 0 ∧
      Nat.toDigits 10 (Nat.ofDigitChars 10 (c :: digits) 0) = c :: digits := by
  induction digits using List.reverseRecOn with
  | nil =>
    have hdigit := hdigits c List.mem_cons_self
    have hvalue : Nat.ofDigitChars 10 [c] 0 = c.toNat - '0'.toNat := by
      rw [Nat.ofDigitChars_cons, Nat.ofDigitChars_nil, Nat.mul_zero, Nat.zero_add]
    rw [hvalue]
    refine ⟨?_, toDigits_of_isDigit hdigit⟩
    have hlow := (Char.isDigit_iff_toNat.mp hdigit).1
    have hne : c.toNat ≠ '0'.toNat := fun heq => hc (Char.toNat_inj.mp heq)
    omega
  | append_singleton digits d ih =>
    have hd : d.isDigit = true := hdigits d (by simp)
    obtain ⟨hpos, hbefore⟩ := ih fun e he => hdigits e (by
      rw [← List.cons_append]
      exact List.mem_append_left [d] he)
    have hvalue : Nat.ofDigitChars 10 (c :: (digits ++ [d])) 0
        = 10 * Nat.ofDigitChars 10 (c :: digits) 0 + (d.toNat - '0'.toNat) := by
      rw [← List.cons_append, Nat.ofDigitChars_append, Nat.ofDigitChars_cons (c := d),
        Nat.ofDigitChars_nil]
    have hlast : d.toNat - '0'.toNat < 10 := by
      have hbounds := Char.isDigit_iff_toNat.mp hd
      have hnine : '9'.toNat = '0'.toNat + 9 := rfl
      omega
    rw [hvalue, ← Nat.toDigits_append_toDigits (by decide) hpos hlast, hbefore,
      toDigits_of_isDigit hd]
    exact ⟨by omega, rfl⟩

/-- The digits of the number of some digits are these without the zeros before them. -/
theorem toDigits_ofDigitChars (hdigits : ∀ d ∈ digits, d.isDigit = true)
    (hpos : 0 < Nat.ofDigitChars 10 digits 0) :
    Nat.toDigits 10 (Nat.ofDigitChars 10 digits 0) = digits.dropWhile (· == '0') := by
  induction digits with
  | nil => cases hpos
  | cons c digits ih =>
    by_cases hc : c = '0'
    · have hvalue : Nat.ofDigitChars 10 (c :: digits) 0 = Nat.ofDigitChars 10 digits 0 := by
        rw [hc, Nat.ofDigitChars_cons]
        rfl
      rw [hvalue] at hpos ⊢
      rw [List.dropWhile_cons_of_pos (by simpa using hc)]
      exact ih (fun d hd => hdigits d (List.mem_cons_of_mem c hd)) hpos
    · rw [List.dropWhile_cons_of_neg (by simpa using hc)]
      exact (toDigits_of_head_ne hc hdigits).2

end Digits

namespace Address

/-! ## Spellings -/

/-- One way to write an address: a letter, and digits for a row number that is not zero and fits in
64 bits. -/
structure Spelling where
  letter : Char
  digits : List Char
  isAlpha_letter : letter.isAlpha = true
  digits_ne_nil : digits ≠ []
  isDigit_of_mem : ∀ c ∈ digits, c.isDigit = true
  one_le_number : 1 ≤ Nat.ofDigitChars 10 digits 0
  number_lt : Nat.ofDigitChars 10 digits 0 < rowLimit

namespace Spelling

variable (w v : Spelling)

/-- The text that is written. -/
def chars : List Char :=
  w.letter :: w.digits

/-- The address that is meant: columns and rows are counted from zero. -/
def address : Address where
  row := Nat.ofDigitChars 10 w.digits 0 - 1
  col := Column.ofAlpha w.letter w.isAlpha_letter

/-- The digits without the zeros before them. -/
def plainDigits : List Char :=
  w.digits.dropWhile (· == '0')

/-- **The canonical text of what is spelt** has the letter as a capital and the digits without the
zeros before them. -/
theorem chars_address : w.address.chars = w.letter.toUpper :: w.plainDigits := by
  have hrow : w.address.row + 1 = Nat.ofDigitChars 10 w.digits 0 :=
    Nat.sub_add_cancel w.one_le_number
  have hletter : w.address.col.letter = w.letter.toUpper := Column.letter_ofAlpha w.isAlpha_letter
  rw [Address.chars, hrow, hletter, toDigits_ofDigitChars w.isDigit_of_mem w.one_le_number]
  rfl

/-- Two spellings mean the same cell exactly if they agree up to the case of the letter and the
zeros before the row. -/
theorem address_eq_iff : w.address = v.address ↔
    w.letter.toUpper = v.letter.toUpper ∧ w.plainDigits = v.plainDigits := by
  rw [← List.cons.injEq, ← chars_address, ← chars_address]
  constructor
  · intro h
    rw [h]
  · intro h
    exact eq_of_text_eq (congrArg String.ofList h)

end Spelling

/-! ## Reading -/

section Reading

variable {cs : List Char} {a : Address}

theorem ofChars?_cons_of_letter {c : Char} {col : Column} (h : Column.ofLetter? c = some col)
    (digits : List Char) :
    ofChars? (c :: digits)
      = if digits ≠ [] ∧ digits.all Char.isDigit = true ∧ 0 < Nat.ofDigitChars 10 digits 0 ∧
          Nat.ofDigitChars 10 digits 0 < rowLimit then
          some ⟨Nat.ofDigitChars 10 digits 0 - 1, col⟩
        else none := by
  simp only [ofChars?, h]

/-- What is spelt is read. -/
theorem ofChars?_chars_spelling (w : Spelling) : ofChars? w.chars = some w.address := by
  rw [Spelling.chars, ofChars?_cons_of_letter (Column.ofLetter?_of_isAlpha w.isAlpha_letter)]
  exact if_pos ⟨w.digits_ne_nil, List.all_eq_true.mpr w.isDigit_of_mem, w.one_le_number,
    w.number_lt⟩

/-- What is read is spelt. -/
theorem exists_spelling_of_ofChars? (h : ofChars? cs = some a) :
    ∃ w : Spelling, cs = w.chars ∧ w.address = a := by
  cases cs with
  | nil => cases h
  | cons c digits =>
    by_cases halpha : c.isAlpha = true
    · rw [ofChars?_cons_of_letter (Column.ofLetter?_of_isAlpha halpha),
        Option.ite_none_right_eq_some] at h
      obtain ⟨⟨hne, hdigits, hlow, hhigh⟩, ha⟩ := h
      exact ⟨⟨c, digits, halpha, hne, List.all_eq_true.mp hdigits, hlow, hhigh⟩, rfl,
        Option.some.inj ha⟩
    · simp only [ofChars?, Column.ofLetter?_eq_none halpha] at h
      cases h

/-- **The texts that are read are the spellings.** -/
theorem ofChars?_eq_some_iff :
    ofChars? cs = some a ↔ ∃ w : Spelling, cs = w.chars ∧ w.address = a := by
  constructor
  · exact exists_spelling_of_ofChars?
  · rintro ⟨w, rfl, rfl⟩
    exact ofChars?_chars_spelling w

theorem ofText?_of_spelling {s : String} {w : Spelling} (h : s.toList = w.chars) :
    ofText? s = some w.address := by
  rw [ofText?, h, ofChars?_chars_spelling]

end Reading

/-- **Addresses and their texts.** A text is read exactly if it is one letter of ASCII and one or
more digits for a number between 1 and the largest of 64 bits, and as the cell that these mean. The
text of a cell whose row number fits in 64 bits is read as the cell. No two cells have one text. And
two texts that are read mean the same cell exactly if they agree up to the case of the letter and
the zeros before the row. -/
theorem spellings_and_texts :
    (∀ (s : String) (a : Address),
      ofText? s = some a ↔ ∃ w : Spelling, s.toList = w.chars ∧ w.address = a) ∧
    (∀ a : Address, a.row + 1 < rowLimit → ofText? a.text = some a) ∧
    (∀ a b : Address, a.text = b.text → a = b) ∧
    ∀ (s t : String) (w v : Spelling), s.toList = w.chars → t.toList = v.chars →
      (ofText? s = ofText? t ↔
        w.letter.toUpper = v.letter.toUpper ∧ w.plainDigits = v.plainDigits) := by
  refine ⟨fun s a => ofChars?_eq_some_iff, fun a => ofText?_text, fun a b => eq_of_text_eq, ?_⟩
  intro s t w v hs ht
  rw [ofText?_of_spelling hs, ofText?_of_spelling ht, Option.some.injEq, Spelling.address_eq_iff]

/-- The last row there is, spelt with zeros before it and in two cases, and the row after it. -/
theorem spellings_and_texts_last_row :
    ofText? "z0018446744073709551615" = some ⟨18446744073709551614, 25⟩ ∧
      ofText? "z0018446744073709551615" = ofText? "Z18446744073709551615" ∧
      ofText? (text ⟨18446744073709551614, 25⟩) = some ⟨18446744073709551614, 25⟩ ∧
      ofText? "Z18446744073709551616" = none := by
  obtain ⟨hread, hwritten, -, hsame⟩ := spellings_and_texts
  have hlow : Nat.ofDigitChars 10 "0018446744073709551615".toList 0 = 18446744073709551615 := by
    decide +kernel
  have hhigh : Nat.ofDigitChars 10 "18446744073709551615".toList 0 = 18446744073709551615 := by
    decide +kernel
  let w : Spelling := ⟨'z', "0018446744073709551615".toList, by decide, by decide,
    List.all_eq_true.mp (by decide), by rw [hlow]; decide, by rw [hlow]; decide⟩
  let v : Spelling := ⟨'Z', "18446744073709551615".toList, by decide, by decide,
    List.all_eq_true.mp (by decide), by rw [hhigh]; decide, by rw [hhigh]; decide⟩
  have hw : "z0018446744073709551615".toList = w.chars := rfl
  have hv : "Z18446744073709551615".toList = v.chars := rfl
  have hcol : Column.ofAlpha 'z' (by decide) = 25 := by decide
  have haddress : w.address = ⟨18446744073709551614, 25⟩ := by
    rw [Spelling.address, hlow, hcol]
  have hletter : 'z'.toUpper = 'Z'.toUpper := by decide
  have hplain : "0018446744073709551615".toList.dropWhile (· == '0')
      = "18446744073709551615".toList.dropWhile (· == '0') := by decide
  exact ⟨(hread _ _).mpr ⟨w, hw, haddress⟩, (hsame _ _ w v hw hv).mpr ⟨hletter, hplain⟩,
    hwritten _ (by decide), by decide +kernel⟩

end Address

end FormulaSheet
