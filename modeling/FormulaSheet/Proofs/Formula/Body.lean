/-
Bodies as texts: what a body looks up, and what it is worth.

The evaluator works on formulas, which have been read, and searches a range by
whichever way is shorter. Here both are said again over the text of the body and
without a choice. A body in the form of a sum looks up the stored cells of the
rectangle between its corners, row by row. Any other body looks up the addresses that its references
denote, from left to right. And given values for all cells, a body is worth a
circle, or a sum, or what its text is worth as an expression once the references
have been replaced.

The two theorems are that a formula reads what its body looks up
(`reads_ofChars`) and has the value that its body is worth (`value_ofChars`).
-/
import FormulaSheet.Formula.Value
import FormulaSheet.Proofs.Address.Rectangle
import FormulaSheet.Proofs.Formula.Lexeme

set_option autoImplicit false

namespace FormulaSheet

/-! ## The cells of a range, row by row -/

/-- Addresses are ordered by row and then by column. -/
theorem Address.compare_eq_lt_iff {a b : Address} :
    compare a b = .lt ↔ a.row < b.row ∨ a.row = b.row ∧ a.col.val < b.col.val := by
  have hcompare : compare a b = (compare a.row b.row).then (compare a.col.val b.col.val) := rfl
  rw [hcompare, Ordering.then_eq_lt, Nat.compare_eq_lt, Nat.compare_eq_eq, Nat.compare_eq_lt]

theorem Address.ne_of_lt {a b : Address} (h : compare a b = .lt) : a ≠ b := by
  rintro rfl
  rw [Address.compare_eq_lt_iff] at h
  omega

/-- The addresses of a range are listed in order. -/
theorem Range.pairwise_addresses (r : Range) :
    r.addresses.Pairwise fun a b => compare a b = .lt := by
  rw [Range.addresses, List.pairwise_flatMap]
  constructor
  · intro row _
    rw [List.pairwise_map]
    refine ((List.pairwise_lt_finRange 26).filter _).imp ?_
    intro c d hcd
    exact Address.compare_eq_lt_iff.mpr (.inr ⟨rfl, hcd⟩)
  · refine (List.pairwise_lt_range' 1 Nat.one_pos).imp ?_
    intro row row' hrow a ha b hb
    obtain ⟨c, -, rfl⟩ := List.mem_map.mp ha
    obtain ⟨d, -, rfl⟩ := List.mem_map.mp hb
    exact Address.compare_eq_lt_iff.mpr (.inl hrow)

/-- Take the stored cells in any order, keep those in a range and sort them: that gives the stored
ones among the addresses of the range, row by row. -/
theorem Store.mergeSort_filter_eq (s : Store) (r : Range) {listed : List Address}
    (h : listed.Perm s.addresses) :
    (listed.filter r.contains).mergeSort (fun a b => (compare a b).isLE)
      = r.addresses.filter s.contains := by
  have hkeys : s.addresses.Nodup :=
    (Std.ExtTreeMap.ordered_keys (t := s.cells)).imp Address.ne_of_lt
  have hrange := r.pairwise_addresses.filter s.contains
  have hmem : ∀ a, a ∈ listed.filter r.contains ↔ a ∈ r.addresses.filter s.contains := by
    intro a
    rw [List.mem_filter, List.mem_filter, h.mem_iff, Store.mem_addresses, Range.mem_addresses,
      Store.contains_eq_isSome, and_comm]
  have hperm := (List.perm_ext_iff_of_nodup ((h.nodup_iff.mpr hkeys).filter _)
    (hrange.imp Address.ne_of_lt)).mpr hmem
  -- two lists of the same cells, both in order
  refine List.Perm.eq_of_pairwise ?_ (List.pairwise_mergeSort ?_ ?_ _)
    (hrange.imp Ordering.isLE_of_eq_lt) ((List.mergeSort_perm _ _).trans hperm)
  · intro a b _ _ hab hba
    exact Std.LawfulEqOrd.eq_of_compare (Std.OrientedCmp.isLE_antisymm hab hba)
  · intro a b c hab hbc
    exact Std.TransOrd.isLE_trans hab hbc
  · intro a b
    rw [Std.OrientedOrd.eq_swap (a := b)]
    cases compare a b <;> rfl

/-- **Both searches agree.** Whichever of the range and the store is searched, the same cells come
in the same order. -/
theorem Store.members_eq_filter (s : Store) (r : Range) :
    s.members r = r.addresses.filter s.contains := by
  unfold Store.members
  split
  · rfl
  · -- the store gives its cells in order, so that sorting them changes nothing
    have hstore : (s.addresses.filter r.contains).Pairwise fun a b => compare a b = .lt :=
      Std.ExtTreeMap.ordered_keys.filter _
    rw [← s.mergeSort_filter_eq r (.refl _),
      List.mergeSort_of_pairwise (hstore.imp Ordering.isLE_of_eq_lt)]

/-! ## What a body looks up -/

/-- The cells that a body looks up, in order. -/
def Store.lookups (s : Store) (body : List Char) : List Address :=
  match Formula.sumCorners? body with
  | some (first, last) =>
    match Address.ofChars? first, Address.ofChars? last with
    | some a, some b => (a.rectangle b).filter s.contains
    | _, _ => []
  | none => (Formula.lexemes body).filterMap Formula.Lexeme.target?

/-- A formula reads what its body looks up. -/
theorem Formula.reads_ofChars (s : Store) (body : List Char) :
    (ofChars body).reads s = s.lookups body := by
  unfold ofChars Store.lookups
  cases sumCorners? body with
  | some corners =>
    obtain ⟨first, last⟩ := corners
    simp only [rangeOfCorners]
    cases Address.ofChars? first with
    | none => rfl
    | some a =>
      cases Address.ofChars? last with
      | none => rfl
      | some b =>
        have hmembers := s.members_eq_filter (Range.spanning a b)
        rw [Range.addresses_spanning] at hmembers
        exact hmembers
  | none =>
    simp only [reads, pieces_eq_map_lexemes, List.filterMap_map]
    congr 1
    funext l
    cases l <;> rfl

/-! ## What a body is worth -/

/-- The characters of expressions. -/
def Formula.InAlphabet (c : Char) : Prop :=
  c.isDigit = true ∨ c ∈ ['+', '-', '*', '/', '(', ')', '.'] ∨ Text.isBlank c = true

instance (c : Char) : Decidable (Formula.InAlphabet c) :=
  inferInstanceAs (Decidable (_ ∨ _ ∨ _))

/-- What stands for a part of a body when the cells have the given values: for a reference the
shown text of the number of its cell, and zero where there is none. -/
def Formula.Lexeme.filled (values : Address → Value) (l : Lexeme) : List Char :=
  match l with
  | .reference letter digits =>
    match (Address.ofChars? (letter :: digits)).bind fun a => (values a).number? with
    | some x => Number.text x
    | none => ['0']
  | .char c => [c]

/-- What a text is worth as an expression. -/
def Formula.worth (text : List Char) : Value :=
  if text = [] ∨ text.any (¬ InAlphabet ·) then .error .name
  else match Expression.value text with
    | .ok x => if x.isFinite = true then .number x else .error .failed
    | .error _ => .error .failed

/-- A body applied once to the values of all cells. -/
def Store.applied (s : Store) (values : Address → Value) (body : List Char) : Value :=
  if ∃ a ∈ s.lookups body, values a = .error .circular then .error .circular
  else match Formula.sumCorners? body with
    | some _ =>
      .number (((s.lookups body).filterMap fun a => (values a).number?).foldl (· + ·) 0)
    | none => Formula.worth ((Formula.lexemes body).flatMap (Formula.Lexeme.filled values))

namespace Formula

theorem isArithmetic_iff {c : Char} : isArithmetic c = true ↔ InAlphabet c := by
  have hsigns : "+-*/().".toList = ['+', '-', '*', '/', '(', ')', '.'] := rfl
  rw [isArithmetic, InAlphabet, hsigns, Bool.or_eq_true, Bool.or_eq_true, List.contains_iff_mem,
    or_assoc]

theorem arithmeticValue_eq_worth (text : List Char) : arithmeticValue text = worth text := by
  have hguard : (text.isEmpty || !text.all isArithmetic) = true
      ↔ (text = [] ∨ text.any (¬ InAlphabet ·) = true) := by
    rw [Bool.or_eq_true, List.isEmpty_iff, Bool.not_eq_true', List.all_eq_false, List.any_eq_true]
    simp only [isArithmetic_iff, decide_eq_true_eq]
  unfold arithmeticValue worth
  by_cases h : text = [] ∨ text.any (¬ InAlphabet ·) = true
  · rw [if_pos h, if_pos (hguard.mpr h)]
  · have hclear : ¬ (text.isEmpty || !text.all isArithmetic) = true := fun hb => h (hguard.mp hb)
    exact (if_neg hclear).trans (if_neg h).symm

theorem substitute_piece (values : Address → Value) (l : Lexeme) :
    substitute values l.piece = l.filled values := by
  cases l with
  | char c => rfl
  | reference letter digits =>
    simp only [Lexeme.piece, Lexeme.filled]
    cases Address.ofChars? (letter :: digits) <;> rfl

/-- The value of a formula is what its body is worth. -/
theorem value_ofChars (s : Store) (values : Address → Value) (body : List Char) :
    (ofChars body).value s values = s.applied values body := by
  unfold Store.applied
  by_cases h : ∃ a ∈ s.lookups body, values a = .error .circular
  · rw [if_pos h]
    obtain ⟨a, ha, hcircular⟩ := h
    exact value_of_circular (by rw [reads_ofChars]; exact ha) hcircular
  · rw [if_neg h]
    have hclear : ¬ (((ofChars body).reads s).map values).any Value.isCircular = true := by
      rw [List.any_map, List.any_eq_true, reads_ofChars]
      rintro ⟨a, ha, hcircular⟩
      exact h ⟨a, ha, Value.isCircular_iff.mp hcircular⟩
    simp only [value]
    rw [if_neg hclear, reads_ofChars, List.filterMap_map]
    unfold ofChars
    cases sumCorners? body with
    | some corners => rfl
    | none =>
      simp only [pieces_eq_map_lexemes, List.flatMap_map, substitute_piece,
        arithmeticValue_eq_worth]

end Formula

end FormulaSheet
