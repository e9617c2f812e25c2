/-
One pass may serve many requests.

The cells and texts that one asks for in a pass share its memo, and what one of
them leaves there the next one finds. It never shows: the memo holds meanings
only, and a cell means the same whoever asked before. So a run of requests gives
each of them the value it has in a pass of its own, in whatever order they come
and however often they are repeated.

To recompute a sheet is such a run, over all cells of the grid.
-/
import FormulaSheet.Proofs.Evaluation.Value
import FormulaSheet.Sheet

set_option autoImplicit false

namespace FormulaSheet

/-- What one can ask in a pass: the value of a cell, or of a text that stands in no cell. -/
inductive Request where
  | cell (a : Address)
  | text (raw : String)

namespace Pass

/-- The value that is asked for, and what the pass remembers afterwards. -/
def answer (s : Store) (p : Pass) : Request → Value × Pass
  | .cell a => p.evaluate s a
  | .text raw => p.evaluateRaw s raw

/-- The values that are asked for one after another in one pass. -/
def answers (s : Store) (p : Pass) : List Request → List Value
  | [] => []
  | r :: rest => (p.answer s r).1 :: answers s (p.answer s r).2 rest

theorem Underway.answer {s : Store} {p₀ p : Pass} (h : p₀.Underway s p []) (r : Request) :
    (p.answer s r).1 = (p₀.answer s r).1 ∧ p₀.Underway s (p.answer s r).2 [] := by
  cases r with
  | cell a => exact ⟨h.evaluate_eq a, (h.evaluate a).2⟩
  | text raw => exact h.evaluateRaw raw

/-- A run of requests in a later pass gives each the answer of the first pass. -/
theorem Underway.answers {s : Store} {p₀ p : Pass} (h : p₀.Underway s p [])
    (requests : List Request) :
    p.answers s requests = requests.map fun r => (p₀.answer s r).1 := by
  induction requests generalizing p with
  | nil => rfl
  | cons r rest ih =>
    obtain ⟨hvalue, hnext⟩ := h.answer r
    rw [Pass.answers, List.map_cons, hvalue, ih hnext]

end Pass

namespace Sheet

/-- Showing cells one after another shows each with its own value and leaves the others as they
were. -/
theorem get?_foldl_showNext {s : Store} {p : Pass} (cells : List Address) (d : Display)
    (h : Pass.initial.Underway s p []) (b : Address) :
    (cells.foldl (showNext s) (d, p)).1.get? b
      = if b ∈ cells then some (s.evaluate b) else d.get? b := by
  induction cells generalizing d p with
  | nil => simp
  | cons a rest ih =>
    have hvalue : (p.evaluate s a).1 = s.evaluate a := h.evaluate_eq a
    rw [List.foldl_cons, showNext, ih _ (h.evaluate a).2, Display.get?_insert, hvalue]
    by_cases hrest : b ∈ rest
    · rw [if_pos hrest, if_pos (List.mem_cons_of_mem _ hrest)]
    · rw [if_neg hrest]
      by_cases hab : a = b
      · rw [if_pos hab, if_pos (by simp [hab]), hab]
      · have hnot : b ∉ a :: rest := by
          rw [List.mem_cons, not_or]
          exact ⟨fun hba => hab hba.symm, hrest⟩
        rw [if_neg hab, if_neg hnot]

variable {s : Store} {g : Grid} {a : Address}

theorem get?_recompute (s : Store) (g : Grid) (a : Address) :
    (recompute ⟨s, g⟩).get? a = if a ∈ g.addresses then some (s.evaluate a) else none := by
  rw [recompute, get?_foldl_showNext _ _ (Pass.Underway.refl s .initial), Display.get?_empty]

theorem get?_recompute_of_contains (h : g.contains a = true) :
    (recompute ⟨s, g⟩).get? a = some (s.evaluate a) := by
  rw [get?_recompute, if_pos (Grid.mem_addresses.mpr h)]

theorem get?_recompute_of_not_contains (h : g.contains a = false) :
    (recompute ⟨s, g⟩).get? a = none := by
  rw [get?_recompute, if_neg (by simp [Grid.mem_addresses, h])]

end Sheet

/-- **Sharing never shows.** Requests that share one pass get the answers that each gets in a pass
of its own. And recomputing a sheet shows the cells of the grid and no others, each with the value
it has in a pass of its own. -/
theorem sharing_never_shows (s : Store) :
    (∀ requests : List Request, Pass.initial.answers s requests
      = requests.map fun r => (Pass.initial.answer s r).1) ∧
    ∀ (g : Grid) (a : Address), (Sheet.recompute ⟨s, g⟩).get? a
      = if a.row < g.rows then some (s.evaluate a) else none := by
  have hinitial := Pass.Underway.refl s Pass.initial
  refine ⟨hinitial.answers, fun g a => ?_⟩
  have hmem : a ∈ g.addresses ↔ a.row < g.rows := by
    rw [Grid.mem_addresses, Grid.contains, decide_eq_true_eq]
  rw [Sheet.recompute, Sheet.get?_foldl_showNext _ _ hinitial, Display.get?_empty]
  by_cases h : a.row < g.rows
  · rw [if_pos h, if_pos (hmem.mpr h)]
  · rw [if_neg h, if_neg (fun ha => h (hmem.mp ha))]

end FormulaSheet
