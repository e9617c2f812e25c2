/-
What evaluating gives.

To evaluate a cell is to settle it and to look. Settling goes on from any pass
in which the walks have come to an end, and so the value is what the cell means,
in that pass and in every one it goes on from (`Underway.evaluate`). Since a
cell means one thing, evaluating it is a function of the pass alone, and `Means`
can be left behind: the value of a settled cell is what it looks like, and the
value of a pending one its formula, applied to the values of the cells it reads.

A formula that stands in no cell has the same value, although a sum stops at its
first circular cell and leaves the others unsettled: one circular cell decides.
-/
import FormulaSheet.Proofs.Evaluation.Soundness

set_option autoImplicit false

namespace FormulaSheet.Pass

variable {s : Store} {p₀ p : Pass} {a b : Address} {f : Formula} {v : Value}

/-! ## Settling -/

theorem settled_walk {frames : List Frame} (h : p.pending? s b = none) :
    (p.walk s frames).pending? s b = none := by
  fun_induction Pass.walk s p frames with
  | case1 p => exact h
  | case2 p frame rest a f unread hfirst ih => exact ih (settled_enter a h)
  | case3 p frame rest hfirst ih => exact ih (settled_close frame h)

/-- To note a literal changes nothing that one sees. -/
theorem look_noteLiteral (s : Store) (p : Pass) (a b : Address) :
    (p.noteLiteral s a).look s b = p.look s b := by
  rcases noteLiteral_cases s p a with hsame | ⟨raw, hcell, -, hmemo, hpath, hnoted⟩
  · rw [hsame]
  · rw [hnoted]
    by_cases hab : a = b
    · subst hab
      simp [look, hmemo, hcell, hpath]
    · simp [look, Std.ExtTreeMap.getElem?_insert, hab]

theorem settled_settle (a : Address) (h : p.pending? s b = none) :
    (p.settle s a).pending? s b = none := by
  unfold settle
  split
  · exact settled_walk (settled_enter a h)
  · exact settled_noteLiteral a h

/-- Settling settles: a pending cell is on the path when the walk begins. -/
theorem settled_settle_self (s : Store) (p : Pass) (a : Address) :
    (p.settle s a).pending? s a = none := by
  unfold settle
  split
  · apply settled_walk
    rw [pending?_eq_none_iff]
    exact .inr (.inl (by simp [enter]))
  · next ha => exact settled_noteLiteral a ha

theorem Underway.settle (h : p₀.Underway s p []) (a : Address) :
    p₀.Underway s (p.settle s a) [] := by
  unfold Pass.settle
  split
  · next f ha =>
    have hframe := h.push ha .nil
    exact hframe.walk
  · exact h.noteLiteral a

/-- Between walks a settled cell looks like what it means. -/
theorem Underway.means_look (h : p₀.Underway s p []) (hb : p.pending? s b = none) :
    p₀.Means s b (p.look s b) :=
  Pass.means_look h.memo h.path .nil hb

/-! ## Evaluating a cell -/

/-- The value of a cell is what it means, in this pass and in the one it goes on from. -/
theorem Underway.evaluate (h : p₀.Underway s p []) (a : Address) :
    p₀.Means s a (p.evaluate s a).1 ∧ p₀.Underway s (p.evaluate s a).2 [] :=
  ⟨(h.settle a).means_look (settled_settle_self s p a), h.settle a⟩

/-- A cell evaluates to what it means, and means nothing else. -/
theorem means_iff : p.Means s a v ↔ v = (p.evaluate s a).1 := by
  have heval := ((Underway.refl s p).evaluate a).1
  constructor
  · exact fun hv => hv.unique heval
  · rintro rfl
    exact heval

/-- A later pass gives a cell the value that the first one gives it. -/
theorem Underway.evaluate_eq (h : p₀.Underway s p []) (a : Address) :
    (p.evaluate s a).1 = (p₀.evaluate s a).1 :=
  means_iff.mp (h.evaluate a).1

theorem evaluate_of_settled (h : p.pending? s a = none) : (p.evaluate s a).1 = p.look s a :=
  (means_iff.mp (.settled h)).symm

/-- A pending cell has the value of its formula, applied to the values of the cells it reads. -/
theorem evaluate_of_pending (h : p.pending? s a = some f) :
    (p.evaluate s a).1 = f.value s fun b => (p.evaluate s b).1 :=
  (means_iff.mp (.of_reads h fun _ _ => means_iff.mpr rfl)).symm

/-- The value of a cell is circular exactly when the cell is. -/
theorem evaluate_eq_circular_iff : (p.evaluate s a).1 = .error .circular ↔ p.Circular s a := by
  have heval : p.Means s a (p.evaluate s a).1 := means_iff.mpr rfl
  exact ⟨heval.circular_of_eq, heval.eq_circular⟩

/-! ## Evaluating a text -/

/-- Consulting cells settles all of them, unless it stops at a circular one. -/
theorem Underway.consult (h : p₀.Underway s p []) (u : Bool) (cells : List Address) :
    p₀.Underway s (p.consult s (Pass.settle s) u cells) [] ∧
      ((∀ b ∈ cells, (p.consult s (Pass.settle s) u cells).pending? s b = none) ∨
        ∃ b ∈ cells, (p.consult s (Pass.settle s) u cells).pending? s b = none ∧
          (p.consult s (Pass.settle s) u cells).look s b = .error .circular) := by
  induction cells generalizing p with
  | nil => exact ⟨h, .inl (by simp)⟩
  | cons a rest ih =>
    simp only [Pass.consult]
    split
    · next hstop =>
      rw [Bool.and_eq_true, Value.isCircular_iff] at hstop
      exact ⟨h.settle a, .inr ⟨a, by simp, settled_settle_self s p a, hstop.2⟩⟩
    · -- what the first cell settles is still settled at the end
      obtain ⟨hunder, hrest⟩ := ih (h.settle a)
      refine ⟨hunder, ?_⟩
      rcases hrest with hall | ⟨b, hb, hcircular⟩
      · left
        intro b hb
        rcases List.mem_cons.mp hb with rfl | hb
        · exact consult_induction (motive := fun q => q.pending? s b = none)
            (fun q c hq => settled_settle c hq) rest _ (settled_settle_self s p b)
        · exact hall b hb
      · exact .inr ⟨b, List.mem_cons_of_mem _ hb, hcircular⟩

/-- A formula that stands in no cell has the value of its body, applied to the values of the cells
it reads. -/
theorem Underway.evaluateFormula (h : p₀.Underway s p []) (f : Formula) :
    (p.evaluateFormula s f).1 = f.value s (fun b => (p₀.evaluate s b).1) ∧
      p₀.Underway s (p.evaluateFormula s f).2 [] := by
  obtain ⟨hunder, hsettled⟩ := h.consult f.stopsAtCircular (f.reads s)
  refine ⟨?_, hunder⟩
  simp only [Pass.evaluateFormula]
  rcases hsettled with hall | ⟨b, hb, hnone, hcircular⟩
  · exact Formula.value_congr fun b hb => means_iff.mp (hunder.means_look (hall b hb))
  · have hvalue : (p₀.evaluate s b).1 = .error .circular := by
      rw [← means_iff.mp (hunder.means_look hnone), hcircular]
    rw [Formula.value_of_circular hb hcircular, Formula.value_of_circular hb hvalue]

/-- A text that stands in no cell has the same value in a later pass. -/
theorem Underway.evaluateRaw (h : p₀.Underway s p []) (raw : String) :
    (p.evaluateRaw s raw).1 = (p₀.evaluateRaw s raw).1 ∧
      p₀.Underway s (p.evaluateRaw s raw).2 [] := by
  unfold Pass.evaluateRaw
  split
  · next f _ =>
    obtain ⟨hvalue, hunder⟩ := h.evaluateFormula f
    exact ⟨hvalue.trans ((Underway.refl s p₀).evaluateFormula f).1.symm, hunder⟩
  · exact ⟨rfl, h⟩

end FormulaSheet.Pass
