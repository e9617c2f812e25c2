/-
Blank characters: the members of the Unicode property White_Space.

Three places ask whether a character is blank: the reader of leading numbers,
which drops the blanks a text begins with; the splitter of expressions, which
skips them; and the reader of edits, which drops them on both sides of an
address. All three mean the same twenty-five characters, so the set is listed
once, here, and core's `Char.isWhitespace`, which knows only five of them, is
not used.
-/
set_option autoImplicit false

namespace FormulaSheet.Text

/-- A character is blank when it has the property White_Space. -/
def isBlank (c : Char) : Bool :=
  let n := c.toNat
  (9 ≤ n && n ≤ 13) || n == 0x20 || n == 0x85 || n == 0xA0 || n == 0x1680
    || (0x2000 ≤ n && n ≤ 0x200A) || n == 0x2028 || n == 0x2029 || n == 0x202F
    || n == 0x205F || n == 0x3000

/-- The text from its first character that is not blank. -/
def dropBlanks (cs : List Char) : List Char :=
  cs.dropWhile isBlank

/-- The text without the blanks at its two ends. -/
def trim (cs : List Char) : List Char :=
  (dropBlanks (dropBlanks cs).reverse).reverse

/-! ## What a cut leaves -/

@[simp] theorem dropBlanks_cons_of_not {c : Char} {cs : List Char} (h : isBlank c = false) :
    dropBlanks (c :: cs) = c :: cs := by
  simp [dropBlanks, h]

end FormulaSheet.Text
