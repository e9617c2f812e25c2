/-
Addresses written and read again.

The canonical text of an address is a letter and the digits of a row number, and
a reader that takes this text finds the address again, provided that the row
number fits in 64 bits. The proviso concerns no address that is met with: one
that was read is readable, and so is every address of a grid whose rows can be
counted in 64 bits. That two addresses never share a text needs no proviso,
since the digits of a number name it whatever its size.
-/
import FormulaSheet.Address
import FormulaSheet.Grid

set_option autoImplicit false

namespace FormulaSheet

/-- The letter of a column is read as the column. -/
theorem Column.ofLetter?_letter (c : Column) : ofLetter? c.letter = some c := by
  revert c
  decide

namespace Address

variable {a b : Address}

/-- An address whose row number fits in 64 bits. -/
def Readable (a : Address) : Prop :=
  a.row + 1 < rowLimit

/-- What has been read can be read. -/
theorem readable_of_ofChars? {cs : List Char} (h : ofChars? cs = some a) : a.Readable := by
  cases cs with
  | nil => cases h
  | cons c digits =>
    cases hletter : Column.ofLetter? c with
    | none =>
      simp only [ofChars?, hletter] at h
      cases h
    | some col =>
      simp only [ofChars?, hletter] at h
      split at h
      · next hrow =>
        obtain rfl := Option.some.inj h
        obtain ⟨-, -, hpos, hlimit⟩ := hrow
        rw [Readable, Nat.sub_add_cancel hpos]
        exact hlimit
      · cases h

/-- A row of a grid has a number that fits where the count of the rows fits. -/
theorem readable_of_contains {g : Grid} (hrows : g.rows < rowLimit) (h : g.contains a = true) :
    a.Readable := by
  have hrow : a.row < g.rows := by simpa [Grid.contains] using h
  exact Nat.lt_of_le_of_lt hrow hrows

theorem ofChars?_chars (h : a.Readable) : ofChars? a.chars = some a := by
  have hletter : Column.ofLetter? a.col.letter = some a.col := Column.ofLetter?_letter a.col
  have hrow : Nat.ofDigitChars 10 (Nat.toDigits 10 (a.row + 1)) 0 = a.row + 1 :=
    Nat.ofDigitChars_ten_toDigits
  have hne : Nat.toDigits 10 (a.row + 1) ≠ [] := by
    intro hnil
    rw [hnil] at hrow
    exact Nat.succ_ne_zero a.row hrow.symm
  have hdigits : (Nat.toDigits 10 (a.row + 1)).all Char.isDigit = true := by
    rw [List.all_eq_true]
    intro c hc
    exact Nat.isDigit_of_mem_toDigits (by decide) (by decide) hc
  unfold chars ofChars?
  simp only [hletter, hrow, Nat.add_sub_cancel]
  exact if_pos ⟨hne, hdigits, Nat.succ_pos _, h⟩

/-- **An address is found again in its text.** -/
theorem ofText?_text (h : a.Readable) : ofText? a.text = some a := by
  rw [ofText?, text, String.toList_ofList, ofChars?_chars h]

/-- The readable addresses are those that some text is read as. -/
theorem readable_iff : a.Readable ↔ ∃ text, ofText? text = some a := by
  constructor
  · intro h
    exact ⟨a.text, ofText?_text h⟩
  · rintro ⟨text, h⟩
    exact readable_of_ofChars? h

/-- Two addresses have two texts, however far down they lie. -/
theorem eq_of_text_eq (h : a.text = b.text) : a = b := by
  have hchars : a.chars = b.chars := String.ofList_injective h
  obtain ⟨hletter, hdigits⟩ := List.cons.inj hchars
  have hcol : a.col = b.col := by
    have hread := congrArg Column.ofLetter? hletter
    rw [Column.ofLetter?_letter, Column.ofLetter?_letter] at hread
    exact Option.some.inj hread
  have hrow : a.row + 1 = b.row + 1 :=
    calc a.row + 1 = Nat.ofDigitChars 10 (Nat.toDigits 10 (a.row + 1)) 0 :=
          Nat.ofDigitChars_ten_toDigits.symm
      _ = Nat.ofDigitChars 10 (Nat.toDigits 10 (b.row + 1)) 0 := by rw [hdigits]
      _ = b.row + 1 := Nat.ofDigitChars_ten_toDigits
  cases a
  cases b
  simp_all

end Address

end FormulaSheet
