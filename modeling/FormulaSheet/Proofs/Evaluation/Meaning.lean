/-
What the cells mean, as long as a pass stands still.

A pass settles some cells: it knows their values, or has them on its path, or
they hold no formula. Every other cell is pending and reads the cells of its
formula. So a pass is a graph with values at its leaves, and that graph gives
every cell a value, whatever the order in which one looks at them: a cell is
circular when going from cell to cell one can come round in a circle, or to a
leaf that is circular, and otherwise its formula is applied to the values of
what it reads.

`Means` is this value, as a relation. It is said without a walk and without a
memo that grows, and no cell has two of them (`Means.unique`). That every cell
has one is what the walk is for, and is proved with it.
-/
import FormulaSheet.Evaluation.Walk
import Mathlib.Logic.Relation

set_option autoImplicit false

namespace FormulaSheet.Pass

open Relation (ReflTransGen TransGen)

variable {s : Store} {p : Pass} {a b : Address} {f : Formula} {v w : Value}

/-! ## The graph of a pass -/

/-- A pending cell reads the cells of its formula. A settled cell reads nothing. -/
def Reads (s : Store) (p : Pass) (a b : Address) : Prop :=
  ∃ f, p.pending? s a = some f ∧ b ∈ f.reads s

/-- From the cell one can come round in a circle, or to a settled cell that is circular. -/
def Circular (s : Store) (p : Pass) (a : Address) : Prop :=
  ∃ b, ReflTransGen (p.Reads s) a b ∧
    (TransGen (p.Reads s) b b ∨ p.pending? s b = none ∧ p.look s b = .error .circular)

theorem not_reads_of_settled (h : p.pending? s a = none) : ¬ p.Reads s a b := by
  rintro ⟨f, hf, -⟩
  rw [h] at hf
  cases hf

/-- A settled cell is circular exactly when it looks so. -/
theorem circular_iff_of_settled (h : p.pending? s a = none) :
    p.Circular s a ↔ p.look s a = .error .circular := by
  constructor
  · rintro ⟨b, hab, hb⟩
    -- no way leads on from the cell, neither to another one nor back to itself
    rcases ReflTransGen.cases_head hab with rfl | ⟨c, hac, -⟩
    · rcases hb with hcycle | ⟨-, hlook⟩
      · obtain ⟨c, hac, -⟩ := TransGen.head'_iff.mp hcycle
        exact absurd hac (not_reads_of_settled h)
      · exact hlook
    · exact absurd hac (not_reads_of_settled h)
  · intro hlook
    exact ⟨a, .refl, .inr ⟨h, hlook⟩⟩

theorem Circular.of_cycle (h : TransGen (p.Reads s) a a) : p.Circular s a :=
  ⟨a, .refl, .inl h⟩

/-- What reads a circular cell is circular. -/
theorem Circular.of_reads (hab : p.Reads s a b) (hb : p.Circular s b) : p.Circular s a := by
  obtain ⟨c, hbc, hc⟩ := hb
  exact ⟨c, .head hab hbc, hc⟩

/-- A pending cell that is circular reads a circular cell. -/
theorem Circular.exists_mem_reads (hf : p.pending? s a = some f) (h : p.Circular s a) :
    ∃ b ∈ f.reads s, p.Circular s b := by
  have hstep : ∀ c, p.Reads s a c → c ∈ f.reads s := by
    rintro c ⟨g, hg, hc⟩
    rw [hf, Option.some.injEq] at hg
    rw [hg]
    exact hc
  obtain ⟨b, hab, hb⟩ := h
  rcases ReflTransGen.cases_head hab with rfl | ⟨c, hac, hcb⟩
  · rcases hb with hcycle | ⟨hsettled, -⟩
    · -- the circle is its own: the next cell on it is circular too
      obtain ⟨c, hac, hca⟩ := TransGen.head'_iff.mp hcycle
      exact ⟨c, hstep c hac, a, hca, .inl hcycle⟩
    · rw [hf] at hsettled
      cases hsettled
  · exact ⟨c, hstep c hac, b, hcb, hb⟩

/-! ## The value of a cell in that graph -/

/-- The value of a cell: what a settled cell looks like, a circle, or the formula of a cell applied
to the values of the cells it reads. -/
inductive Means (s : Store) (p : Pass) : Address → Value → Prop
  | settled {a : Address} (h : p.pending? s a = none) : Means s p a (p.look s a)
  | circular {a : Address} {f : Formula} (hf : p.pending? s a = some f) (h : p.Circular s a) :
      Means s p a (.error .circular)
  | formula {a : Address} {f : Formula} {values : Address → Value}
      (hf : p.pending? s a = some f)
      (hvalues : ∀ b ∈ f.reads s, Means s p b (values b))
      (hclear : ∀ b ∈ f.reads s, (values b).isCircular = false) : Means s p a (f.value s values)

/-- A circular cell has no other value. -/
theorem Means.eq_circular (hv : p.Means s a v) (h : p.Circular s a) : v = .error .circular := by
  induction hv with
  | settled hsettled => exact (circular_iff_of_settled hsettled).mp h
  | circular => rfl
  | formula hf _ hclear ih =>
    obtain ⟨b, hb, hcircular⟩ := Circular.exists_mem_reads hf h
    have hread := hclear b hb
    rw [ih b hb hcircular] at hread
    cases hread

/-- No other cell has the value of a circular one. -/
theorem Means.circular_of_eq (hv : p.Means s a v) (h : v = .error .circular) :
    p.Circular s a := by
  cases hv with
  | settled hsettled => exact (circular_iff_of_settled hsettled).mpr h
  | circular _ hcircular => exact hcircular
  | @formula _ f values hf _ hclear =>
    obtain ⟨b, hb, hread⟩ : ∃ b ∈ f.reads s, (values b).isCircular = true := by
      rw [← List.any_eq_true, ← Formula.isCircular_value, h]
      rfl
    rw [hclear b hb] at hread
    cases hread

/-- A cell has one value. -/
theorem Means.unique (hv : p.Means s a v) (hw : p.Means s a w) : v = w := by
  -- along the first derivation; a circular cell is circular in both, so no other mixture occurs
  induction hv generalizing w with
  | settled hsettled =>
    cases hw with
    | settled => rfl
    | circular hf => simp [hsettled] at hf
    | formula hf => simp [hsettled] at hf
  | circular _ h => exact (hw.eq_circular h).symm
  | @formula a f values hf hvalues hclear ih =>
    cases hw with
    | settled hsettled => simp [hf] at hsettled
    | circular _ h => exact (Means.formula hf hvalues hclear).eq_circular h
    | @formula _ g others hg hothers _ =>
      obtain rfl : f = g := by simpa [hf] using hg
      exact Formula.value_congr fun b hb => ih b hb (hothers b hb)

/-- The formula of a pending cell, applied to the values of what it reads, gives the value of the
cell, be it circular or not. -/
theorem Means.of_reads {values : Address → Value} (hf : p.pending? s a = some f)
    (hvalues : ∀ b ∈ f.reads s, p.Means s b (values b)) : p.Means s a (f.value s values) := by
  by_cases h : ∃ b ∈ f.reads s, values b = .error .circular
  · obtain ⟨b, hb, hcircular⟩ := h
    have hread : p.Circular s b := (hvalues b hb).circular_of_eq hcircular
    rw [Formula.value_of_circular hb hcircular]
    exact .circular hf (.of_reads ⟨f, hf, hb⟩ hread)
  · have hclear : ∀ b ∈ f.reads s, (values b).isCircular = false := by
      intro b hb
      rw [Bool.eq_false_iff, Ne, Value.isCircular_iff]
      exact fun hcircular => h ⟨b, hb, hcircular⟩
    exact .formula hf hvalues hclear

end FormulaSheet.Pass
