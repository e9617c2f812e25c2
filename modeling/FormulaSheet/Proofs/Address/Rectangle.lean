/-
The rectangle between two corners.

An address lies in the rectangle that two corners span if its row lies between their
rows and its column between their columns (`Address.Within`). That says nothing of
which corner comes first. The addresses of the rectangle are found by going through
the rows, from the upper one down to the lower one, and in each row through all
columns, and taking what lies in it (`Address.rectangle`).

A range is made from two corners by putting its sides in order first. It holds the
same addresses (`Range.contains_spanning`) and lists them in the same order
(`Range.addresses_spanning`), so what is said of a sum needs to know of corners only.
-/
import FormulaSheet.Range
import Mathlib.Data.List.Basic

set_option autoImplicit false

namespace FormulaSheet

/-! ## What lies between two corners -/

/-- An address lies in the rectangle that two corners span, the sides included. -/
def Address.Within (a b c : Address) : Prop :=
  (min a.row b.row ≤ c.row ∧ c.row ≤ max a.row b.row) ∧
    min a.col.val b.col.val ≤ c.col.val ∧ c.col.val ≤ max a.col.val b.col.val

instance (a b c : Address) : Decidable (a.Within b c) :=
  inferInstanceAs (Decidable ((_ ∧ _) ∧ _ ∧ _))

/-- The addresses between two corners, row by row, and in each row from the first column to the
last. -/
def Address.rectangle (a b : Address) : List Address :=
  (List.range' (min a.row b.row) (max a.row b.row - min a.row b.row + 1)).flatMap fun row =>
    ((List.finRange 26).map (Address.mk row)).filter fun c => a.Within b c

theorem Address.mem_rectangle {a b c : Address} : c ∈ a.rectangle b ↔ a.Within b c := by
  simp only [rectangle, List.mem_flatMap, List.mem_range'_1, List.mem_filter, List.mem_map,
    decide_eq_true_eq]
  constructor
  · rintro ⟨row, -, -, hwithin⟩
    exact hwithin
  · intro hwithin
    obtain ⟨htop, hbottom⟩ := hwithin.1
    exact ⟨c.row, ⟨htop, by omega⟩, ⟨c.col, List.mem_finRange _, rfl⟩, hwithin⟩

/-- Two pairs of corners with the same rows and the same columns, in one of the four
arrangements. -/
def Address.SameSides (a b c d : Address) : Prop :=
  (a.row = c.row ∧ b.row = d.row ∨ a.row = d.row ∧ b.row = c.row) ∧
    (a.col = c.col ∧ b.col = d.col ∨ a.col = d.col ∧ b.col = c.col)

namespace Address.SameSides

variable {a b c d e : Address}

theorem rows_eq (h : a.SameSides b c d) :
    min a.row b.row = min c.row d.row ∧ max a.row b.row = max c.row d.row := by
  have := h.1
  omega

theorem cols_eq (h : a.SameSides b c d) :
    min a.col.val b.col.val = min c.col.val d.col.val ∧
      max a.col.val b.col.val = max c.col.val d.col.val := by
  rcases h.2 with ⟨h₁, h₂⟩ | ⟨h₁, h₂⟩
  · exact ⟨by rw [h₁, h₂], by rw [h₁, h₂]⟩
  · exact ⟨by rw [h₁, h₂, Nat.min_comm], by rw [h₁, h₂, Nat.max_comm]⟩

theorem within_iff (h : a.SameSides b c d) : a.Within b e ↔ c.Within d e := by
  simp only [Within, h.rows_eq, h.cols_eq]

/-- The arrangement of the corners makes no difference. -/
theorem rectangle_eq (h : a.SameSides b c d) : a.rectangle b = c.rectangle d := by
  simp only [rectangle, h.rows_eq, h.within_iff]

end Address.SameSides

/-! ## The range of two corners -/

namespace Range

theorem val_leftmost (c d : Column) : (leftmost c d).val = min c.val d.val := by
  unfold leftmost
  split <;> simp only [Fin.le_def] at * <;> omega

theorem val_rightmost (c d : Column) : (rightmost c d).val = max c.val d.val := by
  unfold rightmost
  split <;> simp only [Fin.le_def] at * <;> omega

theorem contains_spanning {a b c : Address} :
    (spanning a b).contains c = true ↔ a.Within b c := by
  simp only [contains, Bool.and_eq_true, decide_eq_true_eq, and_assoc]
  simp only [spanning, Address.Within, Fin.le_def, val_leftmost, val_rightmost, and_assoc]

/-- The range of two corners lists the rectangle between them, in the same order. -/
theorem addresses_spanning (a b : Address) : (spanning a b).addresses = a.rectangle b := by
  have hrows : ∀ row ∈ List.range' (spanning a b).top
      ((spanning a b).bottom - (spanning a b).top + 1),
      (spanning a b).columns.map (Address.mk row)
        = ((List.finRange 26).map (Address.mk row)).filter fun c => a.Within b c := by
    intro row hrow
    -- in a row of the range only the column decides whether an address lies in it
    have hbetween : (spanning a b).top ≤ row ∧ row ≤ (spanning a b).bottom := by
      rw [List.mem_range'_1] at hrow
      have := (spanning a b).top_le_bottom
      omega
    rw [columns, List.filter_map]
    congr 1
    refine List.filter_congr fun col _ => ?_
    rw [Function.comp_apply, Bool.eq_iff_iff, decide_eq_true_eq, ← contains_spanning, contains]
    simp [hbetween]
  exact List.flatMap_congr hrows

end Range

end FormulaSheet
