/-
The box of a display is the smallest range that holds the populated cells.

The box is found by widening a range from cell to cell. What is known of it on
the way is that it holds all cells so far, and that each of its four sides
touches one of them (`Encloses`). Touching says at once that no range that holds
the cells can be smaller (`IsSmallest`), and which row and which column are the
last ones, so that the exports need nothing else.
-/
import FormulaSheet.Display
import Mathlib.Order.Bounds.Basic

set_option autoImplicit false

namespace FormulaSheet

/-! ## Ranges around cells -/

namespace Range

theorem length_columns (r : Range) : r.columns.length = r.right.val - r.left.val + 1 := by
  have hlength : ∀ left right : Column, left ≤ right →
      ((List.finRange 26).filter fun c => left ≤ c && c ≤ right).length
        = right.val - left.val + 1 := by decide +kernel
  exact hlength r.left r.right r.left_le_right

variable {P Q : Address → Prop} {r r' : Range} {a b : Address}

/-- A range that holds all cells of a kind, and that has one of them at each of its sides. -/
structure Encloses (r : Range) (P : Address → Prop) : Prop where
  contains : ∀ a, P a → r.contains a = true
  top : ∃ a, P a ∧ a.row = r.top
  bottom : ∃ a, P a ∧ a.row = r.bottom
  left : ∃ a, P a ∧ a.col = r.left
  right : ∃ a, P a ∧ a.col = r.right

theorem contains_iff :
    r.contains a = true ↔
      (r.top ≤ a.row ∧ a.row ≤ r.bottom) ∧ r.left ≤ a.col ∧ a.col ≤ r.right := by
  simp [contains, and_assoc]

/-- The smallest range that holds all cells of a kind: every range that holds them holds it. -/
structure IsSmallest (r : Range) (P : Address → Prop) : Prop where
  contains : ∀ a, P a → r.contains a = true
  least : ∀ r' : Range, (∀ a, P a → r'.contains a = true) →
    ∀ b, r.contains b = true → r'.contains b = true

/-- There is only one: the corners of each are in the other. -/
theorem IsSmallest.unique (h : r.IsSmallest P) (h' : r'.IsSmallest P) : r = r' := by
  have hfirst (r : Range) : r.contains ⟨r.top, r.left⟩ = true :=
    contains_iff.mpr ⟨⟨Nat.le_refl _, r.top_le_bottom⟩, Fin.le_refl _, r.left_le_right⟩
  have hlast (r : Range) : r.contains ⟨r.bottom, r.right⟩ = true :=
    contains_iff.mpr ⟨⟨r.top_le_bottom, Nat.le_refl _⟩, r.left_le_right, Fin.le_refl _⟩
  have hin := contains_iff.mp (h.least r' h'.contains _ (hfirst r))
  have hin' := contains_iff.mp (h'.least r h.contains _ (hfirst r'))
  have hout := contains_iff.mp (h.least r' h'.contains _ (hlast r))
  have hout' := contains_iff.mp (h'.least r h.contains _ (hlast r'))
  cases r
  cases r'
  rw [mk.injEq]
  exact ⟨Nat.le_antisymm hin'.1.1 hin.1.1, Nat.le_antisymm hout.1.2 hout'.1.2,
    Fin.le_antisymm hin'.2.1 hin.2.1, Fin.le_antisymm hout.2.2 hout'.2.2⟩

theorem Encloses.isSmallest (h : r.Encloses P) : r.IsSmallest P where
  contains := h.contains
  least r' h' b hb := by
    obtain ⟨top, htop, htop'⟩ := h.top
    obtain ⟨bottom, hbottom, hbottom'⟩ := h.bottom
    obtain ⟨left, hleft, hleft'⟩ := h.left
    obtain ⟨right, hright, hright'⟩ := h.right
    have ht := contains_iff.mp (h' top htop)
    have hm := contains_iff.mp (h' bottom hbottom)
    have hl := contains_iff.mp (h' left hleft)
    have hr := contains_iff.mp (h' right hright)
    rw [contains_iff] at hb ⊢
    rw [← htop', ← hbottom', ← hleft', ← hright'] at hb
    exact ⟨⟨ht.1.1.trans hb.1.1, hb.1.2.trans hm.1.2⟩, Fin.le_trans hl.2.1 hb.2.1,
      Fin.le_trans hb.2.2 hr.2.2⟩

theorem Encloses.isGreatest_bottom (h : r.Encloses P) :
    IsGreatest {row | ∃ a, P a ∧ a.row = row} r.bottom := by
  refine ⟨h.bottom, ?_⟩
  rintro _ ⟨a, ha, rfl⟩
  exact (contains_iff.mp (h.contains a ha)).1.2

theorem Encloses.isGreatest_right (h : r.Encloses P) :
    IsGreatest {col | ∃ a, P a ∧ a.col = col} r.right := by
  refine ⟨h.right, ?_⟩
  rintro _ ⟨a, ha, rfl⟩
  exact (contains_iff.mp (h.contains a ha)).2.2

theorem leftmost_eq_or (c d : Column) : leftmost c d = c ∨ leftmost c d = d := by
  unfold leftmost
  split
  · exact .inl rfl
  · exact .inr rfl

theorem rightmost_eq_or (c d : Column) : rightmost c d = c ∨ rightmost c d = d := by
  unfold rightmost
  split
  · exact .inr rfl
  · exact .inl rfl

theorem encloses_spanning_self (a : Address) : (spanning a a).Encloses (· = a) := by
  have hleft : a.col = leftmost a.col a.col := by
    rcases leftmost_eq_or a.col a.col with h | h <;> exact h.symm
  have hright : a.col = rightmost a.col a.col := by
    rcases rightmost_eq_or a.col a.col with h | h <;> exact h.symm
  refine ⟨?_, ⟨a, rfl, (Nat.min_self _).symm⟩, ⟨a, rfl, (Nat.max_self _).symm⟩,
    ⟨a, rfl, hleft⟩, ⟨a, rfl, hright⟩⟩
  rintro _ rfl
  rw [contains_iff]
  exact ⟨⟨Nat.min_le_left _ _, Nat.le_max_left _ _⟩, leftmost_le _ _, le_rightmost _ _⟩

/-- To widen a range by a cell is to enclose the cell as well. -/
theorem Encloses.widen (h : r.Encloses P) (a : Address) :
    (r.widen a).Encloses fun b => P b ∨ b = a where
  contains b hb := by
    rw [contains_iff]
    have hleft : leftmost r.left a.col ≤ a.col := leftmost_comm r.left a.col ▸ leftmost_le _ _
    have hright : a.col ≤ rightmost r.right a.col := rightmost_comm r.right a.col ▸ le_rightmost _ _
    rcases hb with hb | rfl
    · obtain ⟨⟨htop, hbottom⟩, hcols⟩ := contains_iff.mp (h.contains b hb)
      exact ⟨⟨(Nat.min_le_left _ _).trans htop, hbottom.trans (Nat.le_max_left _ _)⟩,
        Fin.le_trans (leftmost_le _ _) hcols.1, Fin.le_trans hcols.2 (le_rightmost _ _)⟩
    · exact ⟨⟨Nat.min_le_right _ _, Nat.le_max_right _ _⟩, hleft, hright⟩
  top := by
    obtain ⟨b, hb, hrow⟩ := h.top
    rcases Nat.le_total r.top a.row with hle | hle
    · exact ⟨b, .inl hb, hrow.trans (Nat.min_eq_left hle).symm⟩
    · exact ⟨a, .inr rfl, (Nat.min_eq_right hle).symm⟩
  bottom := by
    obtain ⟨b, hb, hrow⟩ := h.bottom
    rcases Nat.le_total r.bottom a.row with hle | hle
    · exact ⟨a, .inr rfl, (Nat.max_eq_right hle).symm⟩
    · exact ⟨b, .inl hb, hrow.trans (Nat.max_eq_left hle).symm⟩
  left := by
    obtain ⟨b, hb, hcol⟩ := h.left
    rcases leftmost_eq_or r.left a.col with heq | heq
    · exact ⟨b, .inl hb, hcol.trans heq.symm⟩
    · exact ⟨a, .inr rfl, heq.symm⟩
  right := by
    obtain ⟨b, hb, hcol⟩ := h.right
    rcases rightmost_eq_or r.right a.col with heq | heq
    · exact ⟨b, .inl hb, hcol.trans heq.symm⟩
    · exact ⟨a, .inr rfl, heq.symm⟩

theorem Encloses.congr (h : r.Encloses P) (hPQ : ∀ a, P a ↔ Q a) : r.Encloses Q := by
  obtain rfl : P = Q := funext fun a => propext (hPQ a)
  exact h

theorem Encloses.foldl_widen (h : r.Encloses P) (as : List Address) :
    (as.foldl Range.widen r).Encloses fun b => P b ∨ b ∈ as := by
  induction as generalizing r P with
  | nil => exact h.congr fun b => by simp
  | cons a as ih => exact (ih (h.widen a)).congr fun b => by simp [or_assoc]

/-- The smallest range that holds some cells encloses them. -/
theorem encloses_of_hull? {as : List Address} (h : hull? as = some r) : r.Encloses (· ∈ as) := by
  cases as with
  | nil => cases h
  | cons a as =>
    obtain rfl := Option.some.inj h
    exact ((encloses_spanning_self a).foldl_widen as).congr fun b => by simp

theorem hull?_eq_none_iff {as : List Address} : hull? as = none ↔ as = [] := by
  cases as with
  | nil => simp [hull?]
  | cons a as => simp [hull?]

end Range

/-! ## The box of a display -/

namespace Display

variable {d : Display} {a : Address} {box : Range}

/-- A cell for which something is shown. -/
def Populated (d : Display) (a : Address) : Prop :=
  ∃ v, d.get? a = some v ∧ v.isEmpty = false

theorem isNumber_iff : d.isNumber a = true ↔ ∃ x, d.get? a = some (.number x) := by
  unfold isNumber
  cases d.get? a with
  | none => simp
  | some v => cases v <;> simp [Value.isNumber]

theorem mem_populated {v : Value} :
    (a, v) ∈ d.populated ↔ d.get? a = some v ∧ v.isEmpty = false := by
  have hmem : (a, v) ∈ d.values.toList ↔ d.get? a = some v :=
    Std.ExtTreeMap.mem_toList_iff_getElem?_eq_some
  simp [populated, hmem]

theorem mem_map_populated : (a ∈ d.populated.map fun e => e.1) ↔ d.Populated a := by
  rw [List.mem_map]
  constructor
  · rintro ⟨⟨b, v⟩, hmem, rfl⟩
    exact ⟨v, mem_populated.mp hmem⟩
  · rintro ⟨v, hv⟩
    exact ⟨(a, v), mem_populated.mpr hv, rfl⟩

/-- **The box** encloses the populated cells. -/
theorem encloses_of_box? (h : d.box? = some box) : box.Encloses d.Populated :=
  (Range.encloses_of_hull? h).congr fun _ => mem_map_populated

/-- There is none only where nothing is populated. -/
theorem box?_eq_none_iff : d.box? = none ↔ ∀ a, ¬ d.Populated a := by
  have hlist : (d.populated.map fun e => e.1) = [] ↔ ∀ a, ¬ d.Populated a := by
    simp only [List.eq_nil_iff_forall_not_mem, mem_map_populated]
  exact Range.hull?_eq_none_iff.trans hlist

end Display

end FormulaSheet
