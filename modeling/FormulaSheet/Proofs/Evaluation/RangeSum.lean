/-
Sums over rectangles, as one would add them up by hand.

To sum a rectangle by hand is to go through it row by row, stored cell or not,
and to add the number of each address that has one. The evaluator takes a
shorter way. It looks at the stored cells only, and finds these by searching
the rectangle or the store, whichever is smaller. Addition of floats does not
associate, so it matters that nothing changes the order: both searches list the
same cells row by row, even when the store gives its cells in no order at all
and they are sorted afterwards (`mergeSort_filter_eq`).

What is left is a function of the numbers in the rectangle. Whatever leaves the
rectangle and the cells that it depends on alone leaves the sum alone, and the
corners may be given in any arrangement.
-/
import FormulaSheet.Proofs.Address.Spelling
import FormulaSheet.Proofs.Evaluation.Dependence
import Mathlib.Data.List.Basic

set_option autoImplicit false

namespace FormulaSheet

open Relation (ReflTransGen)

/-! ## Sums as they are written -/

/-- The text of a sum without the sign of equality: a keyword and two corners. -/
def Formula.sumText (keyword first last : List Char) : List Char :=
  keyword ++ '(' :: (first ++ ':' :: (last ++ [')']))

/-- A sum as it is written into a cell. -/
def Formula.sumRaw (keyword first last : List Char) : String :=
  String.ofList ('=' :: sumText keyword first last)

namespace Formula

theorem toList_sumRaw (keyword first last : List Char) :
    (sumRaw keyword first last).toList = '=' :: sumText keyword first last :=
  String.toList_ofList

/-- The text of an address is a letter and digits, and so a corner of a range. -/
theorem corner?_append {text : List Char} {a : Address} (h : Address.ofChars? text = some a)
    {c : Char} (hc : c.isDigit = false) (rest : List Char) :
    corner? (text ++ c :: rest) = some (text, c :: rest) := by
  cases text with
  | nil => simp [Address.ofChars?] at h
  | cons letter digits =>
    unfold Address.ofChars? at h
    cases hletter : Column.ofLetter? letter with
    | none => simp [hletter] at h
    | some col =>
      simp only [hletter, Option.ite_none_right_eq_some] at h
      obtain ⟨⟨hne, hdigits, -⟩, -⟩ := h
      rw [List.all_eq_true] at hdigits
      -- the character behind the address is no digit, so exactly its digits are taken
      have hrest : ∀ d ∈ (c :: rest).head?, d.isDigit = false := by
        rintro d ⟨⟩
        exact hc
      obtain ⟨htake, hdrop⟩ := takeWhile_run_append hdigits hrest
      rw [List.cons_append, corner?, htake, hdrop, if_pos]
      simp [foldsToLetter, Column.isAlpha_of_ofLetter? hletter, hne]

/-- Between the corners of a sum there may be any two addresses, and its keyword is written in
letters of either case. -/
theorem sumCorners?_sumText {keyword first last : List Char} {a b : Address}
    (hkeyword : keyword.map Char.toLower = ['s', 'u', 'm'])
    (hfirst : Address.ofChars? first = some a) (hlast : Address.ofChars? last = some b) :
    sumCorners? (sumText keyword first last) = some (first, last) := by
  have hcorners : corners? (first ++ ':' :: (last ++ [')'])) = some (first, last) := by
    have h₁ := corner?_append hfirst (c := ':') (by decide) (last ++ [')'])
    have h₂ := corner?_append hlast (c := ')') (by decide) []
    simp only [corners?, h₁, h₂]
  have hlength : keyword.length = 3 := by simpa using congrArg List.length hkeyword
  -- lower case is taken character by character, so the keyword has three of them
  match keyword, hlength with
  | [s, u, m], _ =>
  simp only [List.map_cons, List.map_nil, List.cons.injEq, and_true] at hkeyword
  obtain ⟨hs, hu, hm⟩ := hkeyword
  simp only [sumText, List.cons_append, List.nil_append, sumCorners?, foldsTo, hs, hu, hm,
    hcorners]
  rfl

/-- What the text of a sum looks up. -/
theorem lookups_sumText (s : Store) {keyword first last : List Char} {a b : Address}
    (hkeyword : keyword.map Char.toLower = ['s', 'u', 'm'])
    (hfirst : Address.ofChars? first = some a) (hlast : Address.ofChars? last = some b) :
    s.lookups (sumText keyword first last) = (a.rectangle b).filter s.contains := by
  simp only [Store.lookups, sumCorners?_sumText hkeyword hfirst hlast, hfirst, hlast]

/-- What the text of a sum mentions. -/
theorem mem_mentioned_sumText {keyword first last : List Char} {a b c : Address}
    (hkeyword : keyword.map Char.toLower = ['s', 'u', 'm'])
    (hfirst : Address.ofChars? first = some a) (hlast : Address.ofChars? last = some b) :
    c ∈ mentioned (sumText keyword first last) ↔ a.Within b c := by
  simp only [mentioned, sumCorners?_sumText hkeyword hfirst hlast, hfirst, hlast,
    Address.mem_rectangle]

end Formula

/-! ## The sum of a rectangle -/

namespace Store

variable {s t : Store} {a b : Address}

/-- Adds the number of a cell, if it has one. -/
def addNumber (s : Store) (sum : Float) (a : Address) : Float :=
  match (s.evaluate a).number? with
  | some x => sum + x
  | none => sum

/-- The sum of the rectangle between two corners, added up address by address: row by row, in each
row from the first column to the last. -/
def scanSum (s : Store) (a b : Address) : Float :=
  (List.range' (min a.row b.row) (max a.row b.row - min a.row b.row + 1)).foldl
    (fun sum row => (List.finRange 26).foldl
      (fun sum col => if a.Within b ⟨row, col⟩ then s.addNumber sum ⟨row, col⟩ else sum) sum) 0

/-- To go through the rows and columns is to go through the addresses of the rectangle. -/
theorem scanSum_eq_foldl (s : Store) (a b : Address) :
    s.scanSum a b = (a.rectangle b).foldl s.addNumber 0 := by
  simp only [scanSum, Address.rectangle, List.foldl_flatMap, List.foldl_filter, List.foldl_map,
    decide_eq_true_eq]

/-- Empty addresses have no number, so it is enough to add up the stored ones. -/
theorem foldl_addNumber_eq (s : Store) (cells : List Address) :
    cells.foldl s.addNumber 0
      = ((cells.filter s.contains).filterMap fun c => (s.evaluate c).number?).foldl (· + ·) 0 := by
  rw [List.foldl_filterMap, List.foldl_filter]
  refine List.foldl_ext _ _ _ fun sum c _ => ?_
  -- an address that holds nothing is the empty text, which is no number
  by_cases hc : s.contains c = true
  · rw [if_pos hc, addNumber]
    cases (s.evaluate c).number? <;> rfl
  · have hnone : s.get? c = none := by simpa [contains_eq_isSome] using hc
    rw [if_neg hc, addNumber, evaluate_of_get?_eq_none hnone]
    rfl

/-- What the text of a sum is worth when no address of its rectangle is circular. -/
theorem applied_sumText (s : Store) {keyword first last : List Char}
    (hkeyword : keyword.map Char.toLower = ['s', 'u', 'm'])
    (hfirst : Address.ofChars? first = some a) (hlast : Address.ofChars? last = some b)
    (hclear : ∀ c, a.Within b c → s.evaluate c ≠ .error .circular) :
    s.applied s.evaluate (Formula.sumText keyword first last) = .number (s.scanSum a b) := by
  have hlookups := Formula.lookups_sumText s hkeyword hfirst hlast
  have hnone : ¬ ∃ c ∈ s.lookups (Formula.sumText keyword first last),
      s.evaluate c = .error .circular := by
    rintro ⟨c, hc, hcircular⟩
    rw [hlookups, List.mem_filter, Address.mem_rectangle] at hc
    exact hclear c hc.1 hcircular
  simp only [applied]
  rw [if_neg hnone, Formula.sumCorners?_sumText hkeyword hfirst hlast, hlookups,
    scanSum_eq_foldl, foldl_addNumber_eq]

/-- The arrangement of the corners makes no difference, and neither does the spelling. -/
theorem applied_sumText_congr (s : Store) {keyword first last keyword' first' last' : List Char}
    {a' b' : Address} (hkeyword' : keyword'.map Char.toLower = ['s', 'u', 'm'])
    (hfirst' : Address.ofChars? first' = some a') (hlast' : Address.ofChars? last' = some b')
    (hkeyword : keyword.map Char.toLower = ['s', 'u', 'm'])
    (hfirst : Address.ofChars? first = some a) (hlast : Address.ofChars? last = some b)
    (hsides : a'.SameSides b' a b) :
    s.applied s.evaluate (Formula.sumText keyword' first' last')
      = s.applied s.evaluate (Formula.sumText keyword first last) := by
  have hlookups : s.lookups (Formula.sumText keyword' first' last')
      = s.lookups (Formula.sumText keyword first last) := by
    rw [Formula.lookups_sumText s hkeyword' hfirst' hlast',
      Formula.lookups_sumText s hkeyword hfirst hlast, hsides.rectangle_eq]
  simp only [applied, hlookups, Formula.sumCorners?_sumText hkeyword' hfirst' hlast',
    Formula.sumCorners?_sumText hkeyword hfirst hlast]

/-- **A sum is the sum of its rectangle**, added up address by address, wherever the formula stands.
Both searches for the stored cells of the rectangle list the same ones in the same order. What a
store holds elsewhere makes no difference, as long as no cell of the rectangle depends on it; and
neither does the arrangement of the corners, how far down they may be. -/
theorem sum_eq_scanSum (s : Store) {keyword first last : List Char} {a b : Address}
    (hkeyword : keyword.map Char.toLower = ['s', 'u', 'm'])
    (hfirst : Address.ofChars? first = some a) (hlast : Address.ofChars? last = some b) :
    let raw := Formula.sumRaw keyword first last
    ((∀ c, a.Within b c → s.evaluate c ≠ .error .circular) →
      s.evaluateRaw raw = .number (s.scanSum a b)) ∧
    (∀ (t : Store) (c : Address), t.get? c = some raw → t.evaluate c = t.evaluateRaw raw) ∧
    (∀ listed : List Address, listed.Perm s.addresses →
      ((listed.filter (Range.spanning a b).contains).mergeSort fun c d => (compare c d).isLE)
        = (Range.spanning a b).addresses.filter s.contains) ∧
    (∀ t : Store, (∀ c d, a.Within b c → ReflTransGen s.Mentions c d → t.get? d = s.get? d) →
      t.evaluateRaw raw = s.evaluateRaw raw) ∧
    ∀ (keyword' first' last' : List Char) (a' b' : Address),
      keyword'.map Char.toLower = ['s', 'u', 'm'] → Address.ofChars? first' = some a' →
      Address.ofChars? last' = some b' → a'.SameSides b' a b →
      s.evaluateRaw (Formula.sumRaw keyword' first' last') = s.evaluateRaw raw := by
  intro raw
  have hraw : ∀ t : Store, t.evaluateRaw raw
      = t.applied t.evaluate (Formula.sumText keyword first last) :=
    fun t => evaluateRaw_of_body (Formula.toList_sumRaw _ _ _)
  refine ⟨fun hclear => ?_, fun t c hc => ?_, fun listed => s.mergeSort_filter_eq _, fun t ht => ?_,
    fun keyword' first' last' a' b' hkeyword' hfirst' hlast' hsides => ?_⟩
  · rw [hraw, applied_sumText s hkeyword hfirst hlast hclear]
  · have hbody : t.body? c = some (Formula.sumText keyword first last) := by
      simp only [body?, hc, Option.map_some, raw, Formula.toList_sumRaw]
    rw [evaluate_of_body? hbody, hraw]
  · -- what the rectangle depends on is a set that holds whatever its cells mention
    have hagree : Agree s t fun d => ∃ c, a.Within b c ∧ ReflTransGen s.Mentions c d :=
      { get? := fun d hd => by
          obtain ⟨c, hc, hcd⟩ := hd
          exact (ht c d hc hcd).symm
        mentions := fun d e hd hde => by
          obtain ⟨c, hc, hcd⟩ := hd
          exact ⟨c, hc, hcd.tail hde⟩ }
    rw [hraw, hraw]
    refine (applied_eq_of_agree hagree fun c hc => ⟨c, ?_, .refl⟩).symm
    exact (Formula.mem_mentioned_sumText hkeyword hfirst hlast).mp hc
  · rw [hraw, evaluateRaw_of_body (Formula.toList_sumRaw _ _ _)]
    exact applied_sumText_congr s hkeyword' hfirst' hlast' hkeyword hfirst hlast hsides

/-- Two stored cells in a rectangle of four, whose corners come in the last of the arrangements; a
cell outside refers to one of them. -/
theorem sum_eq_scanSum_reversed :
    let s := ((empty.set ⟨0, 0⟩ "2").set ⟨1, 1⟩ "3kg").set ⟨4, 2⟩ "=A1"
    (∀ c, Address.Within ⟨1, 1⟩ ⟨0, 0⟩ c → s.evaluate c ≠ .error .circular) ∧
      s.evaluateRaw (Formula.sumRaw ['S', 'u', 'm'] ['b', '2'] ['A', '1']) = .number 5 := by
  intro s
  have hclear : ∀ c, Address.Within ⟨1, 1⟩ ⟨0, 0⟩ c → s.evaluate c ≠ .error .circular := by
    have hsmall : ∀ row : Fin 2, ∀ col : Column, s.evaluate ⟨row.val, col⟩ ≠ .error .circular := by
      decide +kernel
    rintro ⟨row, col⟩ ⟨hrow, -⟩
    exact hsmall ⟨row, by simp only at hrow; omega⟩ col
  have hsum := (sum_eq_scanSum s (show ['S', 'u', 'm'].map Char.toLower = ['s', 'u', 'm'] by decide)
    (show Address.ofChars? ['b', '2'] = some ⟨1, 1⟩ by decide)
    (show Address.ofChars? ['A', '1'] = some ⟨0, 0⟩ by decide)).1 hclear
  have hscan : s.scanSum ⟨1, 1⟩ ⟨0, 0⟩ = 5 := by decide +kernel
  exact ⟨hclear, hsum.trans (congrArg Value.number hscan)⟩

end Store

end FormulaSheet
