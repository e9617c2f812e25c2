/-
Operations with their guards.

Some steps of evaluation are not defined everywhere. A difference of two counts
may be negative, a sum may not fit in a machine word, an index may be that of no
column, and a text may be cut inside of a character. The definitions that run do
not show this, since natural numbers, the type of columns and lists of characters
leave no room for it. Here each such step is taken as a machine takes it: it
looks at its operands first, and where it is not defined there is a fault.

The lemmas say that no fault occurs, and that each operation gives what the one
that runs gives. Little is needed for it. The first letter of an address is a
letter of ASCII; a row number that could be read fits in a word; the corners of a
range are put in order before they are subtracted; and a sign is one byte long.
-/
import FormulaSheet.Proofs.Address.Spelling
import FormulaSheet.Proofs.Formula.Body
import FormulaSheet.Proofs.Store.Contents
import Mathlib.Data.List.Forall2

set_option autoImplicit false

namespace FormulaSheet.Guarded

/-- A step that was taken where it is not defined. -/
inductive Fault where
  /-- The index is that of no column. -/
  | column (index : Nat)
  /-- A difference is negative. -/
  | underflow
  /-- A sum does not fit. -/
  | overflow
  /-- A text is cut inside of a character, or behind its end. -/
  | slice
  /-- The place in a list of tokens is behind its end. -/
  | position
  /-- There are more calls inside one another than are allowed. -/
  | nesting
  /-- A loop goes on for longer than is allowed. -/
  | endless
deriving DecidableEq

/-! ## Arithmetic -/

/-- One more than the largest number in a byte. -/
def byteLimit : Nat := 256

/-- One more than the largest number in a word, which has 64 bits. -/
def wordLimit : Nat := Address.rowLimit

def sub (m n : Nat) : Except Fault Nat :=
  if n ≤ m then .ok (m - n) else .error .underflow

def add (limit m n : Nat) : Except Fault Nat :=
  if m + n < limit then .ok (m + n) else .error .overflow

/-- A sum that is asked for with a way out. -/
def checkedAdd? (m n : Nat) : Option Nat :=
  if m + n < wordLimit then some (m + n) else none

/-- A product that is asked for with a way out. -/
def checkedMul? (m n : Nat) : Option Nat :=
  if m * n < wordLimit then some (m * n) else none

/-- A difference that is asked for with a way out. -/
def checkedSub? (m n : Nat) : Option Nat :=
  if n ≤ m then some (m - n) else none

theorem ok_bind {α β : Type} (x : α) (f : α → Except Fault β) : (.ok x >>= f) = f x :=
  rfl

theorem sub_eq {m n : Nat} (h : n ≤ m) : sub m n = .ok (m - n) :=
  if_pos h

theorem add_eq {limit m n : Nat} (h : m + n < limit) : add limit m n = .ok (m + n) :=
  if_pos h

/-! ## Addresses -/

/-- The address at a column index and a row index. An index of no column is a fault. -/
def cell (col row : Nat) : Except Fault Address :=
  match Address.ofIndices col row with
  | .ok a => .ok a
  | .error e => .error (.column e.index)

/-- The number of a run of digits, if it fits in a word. -/
def word? (digits : List Char) : Option Nat :=
  let n := Nat.ofDigitChars 10 digits 0
  if n < wordLimit then some n else none

/-- Reads an address. The letter is made a capital and counted from `A` on. -/
def address? : List Char → Except Fault (Option Address)
  | [] => return none
  | c :: digits =>
    if c.isAlpha && !digits.isEmpty && digits.all Char.isDigit then do
      let col ← sub c.toUpper.toNat 65
      let row := (word? digits).bind (checkedSub? · 1)
      return row.bind fun row => (Address.ofIndices col row).toOption
    else return none

/-- The canonical text of an address. -/
def name (a : Address) : Except Fault (List Char) := do
  let letter ← add byteLimit a.col.val 65
  let row ← add wordLimit a.row 1
  return Char.ofNat letter :: Nat.toDigits 10 row

theorem cell_eq (a : Address) : cell a.col.val a.row = .ok a := by
  have hcol : Address.ofIndices a.col.val a.row = .ok a := dif_pos a.col.isLt
  rw [cell, hcol]

/-- The row of a run of digits, if its number is not zero and fits in a word. -/
theorem row?_eq (digits : List Char) :
    (word? digits).bind (checkedSub? · 1)
      = if 0 < Nat.ofDigitChars 10 digits 0 ∧ Nat.ofDigitChars 10 digits 0 < Address.rowLimit then
          some (Nat.ofDigitChars 10 digits 0 - 1)
        else none := by
  unfold word? wordLimit
  by_cases hfits : Nat.ofDigitChars 10 digits 0 < Address.rowLimit
  · rw [if_pos hfits, Option.bind_some, checkedSub?]
    exact if_congr (and_iff_left hfits).symm rfl rfl
  · rw [if_neg hfits, if_neg fun h => hfits h.2]
    rfl

/-- **To read an address is safe**, whatever the text is. -/
theorem address?_eq (cs : List Char) : address? cs = .ok (Address.ofChars? cs) := by
  cases cs with
  | nil => rfl
  | cons c digits =>
    simp only [address?]
    by_cases halpha : c.isAlpha = true
    · have hle := (Column.toUpper_bounds halpha).1
      rw [Address.ofChars?_cons_of_letter (Column.ofLetter?_of_isAlpha halpha), halpha]
      by_cases hdigits : digits ≠ [] ∧ digits.all Char.isDigit = true
      · have hindex : ∀ row, (Address.ofIndices (c.toUpper.toNat - 65) row).toOption
            = some ⟨row, Column.ofAlpha c halpha⟩ := fun row =>
          congrArg Except.toOption (dif_pos (Column.ofAlpha c halpha).isLt)
        simp only [hdigits, List.isEmpty_eq_false_iff.mpr hdigits.1, Bool.not_false, Bool.and_self,
          if_true, sub_eq hle, row?_eq, ne_eq, not_false_eq_true, true_and]
        by_cases hrow : 0 < Nat.ofDigitChars 10 digits 0 ∧
            Nat.ofDigitChars 10 digits 0 < Address.rowLimit
        · rw [if_pos hrow, if_pos hrow]
          exact congrArg Except.ok (hindex _)
        · rw [if_neg hrow, if_neg hrow]
          rfl
      · have hnone : ¬ (true && !digits.isEmpty && digits.all Char.isDigit) = true := by
          simpa using hdigits
        rw [if_neg hnone, if_neg fun h => hdigits ⟨h.1, h.2.1⟩]
        rfl
    · have hnone : Address.ofChars? (c :: digits) = none := by
        simp only [Address.ofChars?, Column.ofLetter?_eq_none halpha]
      rw [hnone, Bool.eq_false_iff.mpr halpha]
      rfl

/-- To write an address is safe when its row number fits in a word. -/
theorem name_eq {a : Address} (h : a.Readable) : name a = .ok a.chars := by
  have hletter : add byteLimit a.col.val 65 = .ok (a.col.val + 65) := by
    refine add_eq ?_
    have := a.col.isLt
    simp only [byteLimit]
    omega
  have hrow : add wordLimit a.row 1 = .ok (a.row + 1) := add_eq h
  rw [name, hletter, hrow]
  rfl

/-! ## Ranges -/

/-- When each step gives something, all of them in a row give the list of it. -/
theorem mapM_eq_ok {α β : Type} {f : α → Except Fault β} {xs : List α} {ys : List β}
    (h : List.Forall₂ (fun x y => f x = .ok y) xs ys) : xs.mapM f = .ok ys := by
  induction h with
  | nil => rfl
  | cons hx _ ih =>
    rw [List.mapM_cons, hx, ih]
    rfl

/-- The addresses at the given rows and columns, row by row. -/
def cells (rows columns : List Nat) : Except Fault (List Address) := do
  let listed ← rows.mapM fun row => columns.mapM fun col => cell col row
  return listed.flatten

/-- To list addresses is safe when each index is that of a column. -/
theorem cells_eq (rows : List Nat) (columns : List Column) :
    cells rows (columns.map Fin.val)
      = .ok (rows.flatMap fun row => columns.map fun c => ⟨row, c⟩) := by
  have hrow : ∀ row, (columns.map Fin.val).mapM (fun col => cell col row)
      = .ok (columns.map fun c => (⟨row, c⟩ : Address)) := by
    intro row
    refine mapM_eq_ok ?_
    rw [List.forall₂_map_left_iff, List.forall₂_map_right_iff, List.forall₂_same]
    exact fun c _ => cell_eq ⟨row, c⟩
  have hrows : rows.mapM (fun row => (columns.map Fin.val).mapM fun col => cell col row)
      = .ok (rows.map fun row => columns.map fun c => (⟨row, c⟩ : Address)) := by
    refine mapM_eq_ok ?_
    rw [List.forall₂_map_right_iff, List.forall₂_same]
    exact fun row _ => hrow row
  rw [cells, hrows, List.flatMap_def]
  rfl

/-- The numbers from `first` to `last`, both included. -/
def between (first last : Nat) : List Nat :=
  List.range' first (last + 1 - first)

/-- A rectangle by its four sides, of which nothing is known. -/
structure Rect where
  top : Nat
  bottom : Nat
  left : Nat
  right : Nat

namespace Rect

/-- The rectangle between two corners, which may come in any order. -/
def spanning (a b : Address) : Rect :=
  ⟨min a.row b.row, max a.row b.row, min a.col.val b.col.val, max a.col.val b.col.val⟩

/-- The rectangle between two corners, if both are addresses. -/
def ofCorners? (first last : List Char) : Except Fault (Option Rect) := do
  match ← address? first with
  | none => return none
  | some a => match ← address? last with
    | none => return none
    | some b => return some (spanning a b)

/-- How many addresses are in a rectangle, if that fits in a word. -/
def size? (r : Rect) : Except Fault (Option Nat) := do
  let height ← sub r.bottom r.top
  match checkedAdd? height 1 with
  | none => return none
  | some rows =>
    let width ← sub r.right r.left
    let columns ← add wordLimit width 1
    return checkedMul? rows columns

def contains (r : Rect) (a : Address) : Bool :=
  r.top ≤ a.row && a.row ≤ r.bottom && r.left ≤ a.col.val && a.col.val ≤ r.right

/-- The addresses of a rectangle, row by row. -/
def addresses (r : Rect) : Except Fault (List Address) :=
  cells (between r.top r.bottom) (between r.left r.right)

/-- The addresses of a rectangle at which something is stored, row by row. Of the rectangle and the
store the smaller one is searched. -/
def members (s : Store) (r : Rect) : Except Fault (List Address) := do
  let size ← r.size?
  if size.any (· ≤ s.size) then
    let addresses ← r.addresses
    return addresses.filter s.contains
  else return (s.addresses.filter r.contains).mergeSort fun a b => (compare a b).isLE

/-- The sides of a range. -/
def ofRange (r : Range) : Rect :=
  ⟨r.top, r.bottom, r.left.val, r.right.val⟩

theorem spanning_eq (a b : Address) : spanning a b = ofRange (Range.spanning a b) := by
  simp only [spanning, ofRange, Range.spanning, Range.val_leftmost, Range.val_rightmost]

theorem ofCorners?_eq (first last : List Char) :
    ofCorners? first last = .ok ((Formula.rangeOfCorners first last).map ofRange) := by
  unfold ofCorners? Formula.rangeOfCorners
  rw [address?_eq, address?_eq]
  cases Address.ofChars? first with
  | none => rfl
  | some a =>
    cases Address.ofChars? last with
    | none => rfl
    | some b => exact congrArg (fun r => Except.ok (some r)) (spanning_eq a b)

/-- The sides of a range are in order, and its columns are few. So its size is told if it fits. -/
theorem size?_ofRange (r : Range) :
    (ofRange r).size? = .ok (if r.size < wordLimit then some r.size else none) := by
  have hheight : sub (ofRange r).bottom (ofRange r).top = .ok (r.bottom - r.top) :=
    sub_eq r.top_le_bottom
  have hwidth : sub (ofRange r).right (ofRange r).left = .ok (r.right.val - r.left.val) :=
    sub_eq r.left_le_right
  have hcolumns : add wordLimit (r.right.val - r.left.val) 1
      = .ok (r.right.val - r.left.val + 1) := by
    refine add_eq ?_
    have := r.right.isLt
    simp only [wordLimit, Address.rowLimit]
    omega
  simp only [size?, hheight, hwidth, hcolumns, ok_bind]
  by_cases hrows : r.bottom - r.top + 1 < wordLimit
  · have hadd : checkedAdd? (r.bottom - r.top) 1 = some (r.bottom - r.top + 1) := if_pos hrows
    rw [hadd]
    rfl
  · -- so many rows are too many by themselves
    have hadd : checkedAdd? (r.bottom - r.top) 1 = none := if_neg hrows
    have hsize : ¬ r.size < wordLimit := fun hlt =>
      hrows (Nat.lt_of_le_of_lt (Nat.le_mul_of_pos_right _ (Nat.succ_pos _)) hlt)
    rw [hadd, if_neg hsize]
    rfl

/-- The columns of a range are those between its sides. -/
theorem map_val_columns (r : Range) :
    r.columns.map Fin.val = between r.left.val r.right.val := by
  have hcolumns : (r.columns.map Fin.val).Pairwise (· < ·) := by
    rw [List.pairwise_map]
    exact (List.pairwise_lt_finRange 26).filter _
  have hbetween : (between r.left.val r.right.val).Pairwise (· < ·) :=
    List.pairwise_lt_range' 1 Nat.one_pos
  have hmem : ∀ n, n ∈ r.columns.map Fin.val ↔ n ∈ between r.left.val r.right.val := by
    intro n
    simp only [List.mem_map, Range.mem_columns, between, List.mem_range'_1, Fin.le_def]
    constructor
    · rintro ⟨c, ⟨hleft, hright⟩, rfl⟩
      omega
    · rintro ⟨hleft, hright⟩
      have hle : n ≤ r.right.val := by omega
      exact ⟨⟨n, Nat.lt_of_le_of_lt hle r.right.isLt⟩, ⟨hleft, hle⟩, rfl⟩
  have hperm := (List.perm_ext_iff_of_nodup (hcolumns.imp Nat.ne_of_lt)
    (hbetween.imp Nat.ne_of_lt)).mpr hmem
  refine List.Perm.eq_of_pairwise (fun m n _ _ hmn hnm => ?_) hcolumns hbetween hperm
  exact absurd hnm (Nat.lt_asymm hmn)

/-- To list the addresses of a range is safe, because its sides are columns. -/
theorem addresses_ofRange (r : Range) : (ofRange r).addresses = .ok r.addresses := by
  have hcount : r.bottom + 1 - r.top = r.bottom - r.top + 1 := by
    have := r.top_le_bottom
    omega
  simp only [addresses, ofRange]
  rw [← map_val_columns, cells_eq, Range.addresses, between, hcount]

/-- **To search a range is safe**, in either way. -/
theorem members_ofRange (s : Store) (r : Range) :
    members s (ofRange r) = .ok (r.addresses.filter s.contains) := by
  unfold members
  rw [size?_ofRange, addresses_ofRange]
  have hscan := s.mergeSort_filter_eq r (.refl _)
  by_cases hsmall :
      (if r.size < wordLimit then some r.size else none).any (· ≤ s.size) = true
  · exact if_pos hsmall
  · exact (if_neg hsmall).trans (congrArg Except.ok hscan)

end Rect

/-! ## Numbers -/

/-- The first byte of a text in UTF-8. -/
def firstByte? : List Char → Option UInt8
  | [] => none
  | c :: _ => (String.utf8EncodeChar c).head?

/-- The rest of a text from a place on that is counted in bytes. The place must be between two
characters. -/
def dropBytes : Nat → List Char → Except Fault (List Char)
  | 0, cs => .ok cs
  | _ + 1, [] => .error .slice
  | n + 1, c :: cs =>
    if c.utf8Size ≤ n + 1 then dropBytes (n + 1 - c.utf8Size) cs else .error .slice

/-- Reads a sign that may be missing, by the first byte. The answer is true for a minus. -/
def sign (cs : List Char) : Except Fault (Bool × List Char) := do
  if firstByte? cs = some 0x2D then
    return (true, ← dropBytes 1 cs)
  else if firstByte? cs = some 0x2B then
    return (false, ← dropBytes 1 cs)
  else return (false, cs)

/-- The number a text begins with, blanks before it aside. -/
def leading? (cs : List Char) : Except Fault (Option Float) :=
  let body := Text.dropBlanks cs
  match Numeral.scan? body with
  | some ((negative, d), _) => return some (d.toSigned negative)
  | none => do
    let (negative, rest) ← sign body
    return if Number.infinityWord.isPrefixOf rest then some (Number.infinite negative) else none

/-- The number that a value stands for in a formula. -/
def number? : Value → Except Fault (Option Float)
  | .number x => return some x
  | .text s => leading? s.toList
  | .error _ => return none

/-- A first byte of ASCII is a character by itself. -/
theorem toNat_of_firstByte? {c : Char} {cs : List Char} {b : UInt8}
    (h : firstByte? (c :: cs) = some b) (hb : b.toNat < 128) : c.toNat = b.toNat := by
  have hencode : String.utf8EncodeChar c =
      if c.toNat ≤ 0x7f then [UInt8.ofNat c.toNat]
      else if c.toNat ≤ 0x7ff then
        [UInt8.ofNat (c.toNat / 64 % 0x20 + 0xc0), UInt8.ofNat (c.toNat % 0x40 + 0x80)]
      else if c.toNat ≤ 0xffff then
        [UInt8.ofNat (c.toNat / 4096 % 0x10 + 0xe0), UInt8.ofNat (c.toNat / 64 % 0x40 + 0x80),
          UInt8.ofNat (c.toNat % 0x40 + 0x80)]
      else
        [UInt8.ofNat (c.toNat / 262144 % 0x08 + 0xf0), UInt8.ofNat (c.toNat / 4096 % 0x40 + 0x80),
          UInt8.ofNat (c.toNat / 64 % 0x40 + 0x80), UInt8.ofNat (c.toNat % 0x40 + 0x80)] := rfl
  rw [firstByte?, hencode] at h
  have hfirst : ∀ {n : Nat}, UInt8.ofNat n = b → n % 256 = b.toNat := by
    rintro n rfl
    exact UInt8.toNat_ofNat'.symm
  by_cases hone : c.toNat ≤ 0x7f
  · rw [if_pos hone] at h
    have hbyte := hfirst (Option.some.inj h)
    omega
  · -- the first bytes of longer forms are larger than the bytes of ASCII
    exfalso
    by_cases htwo : c.toNat ≤ 0x7ff
    · rw [if_neg hone, if_pos htwo] at h
      have hbyte := hfirst (Option.some.inj h)
      omega
    · by_cases hthree : c.toNat ≤ 0xffff
      · rw [if_neg hone, if_neg htwo, if_pos hthree] at h
        have hbyte := hfirst (Option.some.inj h)
        omega
      · rw [if_neg hone, if_neg htwo, if_neg hthree] at h
        have hbyte := hfirst (Option.some.inj h)
        omega

/-- A character whose code is that of a first byte is that byte. -/
theorem firstByte?_ne {c d : Char} {b : UInt8} (hd : d.toNat = b.toNat) (hb : b.toNat < 128)
    (h : c ≠ d) (cs : List Char) : firstByte? (c :: cs) ≠ some b := by
  intro hfirst
  have hcode := (toNat_of_firstByte? hfirst hb).trans hd.symm
  exact h (Char.toNat_inj.mp hcode)

theorem dropBytes_one {c : Char} (h : c.utf8Size = 1) (cs : List Char) :
    dropBytes 1 (c :: cs) = .ok cs := by
  rw [dropBytes, h, if_pos (Nat.le_refl _), Nat.sub_self, dropBytes]

/-- **To cut a sign off is safe**, since it is one byte long. -/
theorem sign_eq (cs : List Char) : sign cs = .ok (Numeral.sign cs) := by
  cases cs with
  | nil => rfl
  | cons c rest =>
    by_cases hminus : c = '-'
    · subst hminus
      have hfirst : firstByte? ('-' :: rest) = some 0x2D := rfl
      have hdrop : dropBytes 1 ('-' :: rest) = .ok rest := dropBytes_one rfl rest
      rw [sign, if_pos hfirst, hdrop]
      rfl
    · by_cases hplus : c = '+'
      · subst hplus
        have hfirst : firstByte? ('+' :: rest) = some 0x2B := rfl
        have hdrop : dropBytes 1 ('+' :: rest) = .ok rest := dropBytes_one rfl rest
        rw [sign, if_neg (firstByte?_ne rfl (by decide) hminus rest), if_pos hfirst, hdrop]
        rfl
      · have hnone : Numeral.sign (c :: rest) = (false, c :: rest) := by
          unfold Numeral.sign
          split <;> simp_all
        rw [sign, if_neg (firstByte?_ne (d := '-') rfl (by decide) hminus rest),
          if_neg (firstByte?_ne (d := '+') rfl (by decide) hplus rest), hnone]
        rfl

/-- To read the number a text begins with is safe. -/
theorem leading?_eq (cs : List Char) : leading? cs = .ok (Number.leading? cs) := by
  unfold leading? Number.leading?
  simp only [sign_eq]
  cases Numeral.scan? (Text.dropBlanks cs) with
  | none => rfl
  | some found => rfl

theorem number?_eq (v : Value) : number? v = .ok v.number? := by
  cases v with
  | number x => rfl
  | text s => exact leading?_eq s.toList
  | error m => rfl

/-! ## What a body looks up -/

/-- The addresses that references denote. -/
def targets : List Formula.Lexeme → Except Fault (List Address)
  | [] => return []
  | .char _ :: rest => targets rest
  | .reference letter digits :: rest => do
    let target ← address? (letter :: digits)
    let others ← targets rest
    return target.toList ++ others

/-- The cells that a body looks up, in order. -/
def reads (s : Store) (body : List Char) : Except Fault (List Address) := do
  match Formula.sumCorners? body with
  | some (first, last) =>
    match ← Rect.ofCorners? first last with
    | some r => r.members s
    | none => return []
  | none => targets (Formula.lexemes body)

theorem targets_eq (ls : List Formula.Lexeme) :
    targets ls = .ok (ls.filterMap Formula.Lexeme.target?) := by
  induction ls with
  | nil => rfl
  | cons l rest ih =>
    cases l with
    | char c => exact ih
    | reference letter digits =>
      rw [targets, address?_eq, ih, List.filterMap_cons, Formula.Lexeme.target?]
      cases Address.ofChars? (letter :: digits) <;> rfl

/-- **To find out what a body looks up is safe**, whatever stands in it. -/
theorem reads_eq (s : Store) (body : List Char) : reads s body = .ok (s.lookups body) := by
  unfold reads Store.lookups
  cases Formula.sumCorners? body with
  | none => exact targets_eq _
  | some corners =>
    obtain ⟨first, last⟩ := corners
    simp only [Rect.ofCorners?_eq, Formula.rangeOfCorners]
    cases Address.ofChars? first with
    | none => rfl
    | some a =>
      cases Address.ofChars? last with
      | none => rfl
      | some b =>
        have hmembers := Rect.members_ofRange s (Range.spanning a b)
        rw [Range.addresses_spanning] at hmembers
        exact hmembers

end FormulaSheet.Guarded
