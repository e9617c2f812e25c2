/-
What is listed: the stored cells of the grid, and no others.

A cell is listed when its value is not the empty text. That a stored cell never
has the empty text for its value, and that every other cell has it, is a matter
of kinds. What is stored as a literal is a text that is not empty, because the
store holds no other. What is stored as a formula is worth a number or a mark
(`IsComputed`): a text that it refers to takes part as the number it begins
with, or as zero, and never comes out at the end.

Two lists of cells that are in order and have the same members are equal. So the
listed cells are the stored ones above the last row, in the order of the store.
-/
import FormulaSheet.Proofs.CommandLine.Session
import FormulaSheet.Proofs.Evaluation.Sharing
import FormulaSheet.Proofs.Evaluation.Solution
import FormulaSheet.Proofs.Export.Box

set_option autoImplicit false

namespace FormulaSheet

/-! ## The kinds of values -/

/-- What a formula can come to: a number, or a mark. -/
def Value.IsComputed (v : Value) : Prop :=
  (∃ x, v = .number x) ∨ ∃ m, v = .error m

theorem Value.IsComputed.isEmpty_eq_false {v : Value} (h : v.IsComputed) : v.isEmpty = false := by
  obtain ⟨x, rfl⟩ | ⟨m, rfl⟩ := h
  · rfl
  · rfl

theorem Formula.isComputed_worth (text : List Char) : (worth text).IsComputed := by
  unfold worth
  split
  · exact .inr ⟨_, rfl⟩
  · split
    · split
      · exact .inl ⟨_, rfl⟩
      · exact .inr ⟨_, rfl⟩
    · exact .inr ⟨_, rfl⟩

namespace Store

variable {s : Store} {a : Address}

/-- Whatever the cells are worth, a body is worth a number or a mark. -/
theorem isComputed_applied (s : Store) (values : Address → Value) (body : List Char) :
    (s.applied values body).IsComputed := by
  unfold applied
  split
  · exact .inr ⟨_, rfl⟩
  · split
    · exact .inl ⟨_, rfl⟩
    · exact Formula.isComputed_worth _

/-- A cell with a formula is worth a number or a mark. -/
theorem isComputed_evaluate {raw : String} (h : s.get? a = some raw)
    (hformula : raw.toList.head? = some '=') : (s.evaluate a).IsComputed := by
  obtain ⟨body, hbody⟩ := List.head?_eq_some_iff.mp hformula
  rw [evaluate_of_body? (body?_of_get? h hbody)]
  exact s.isComputed_applied s.evaluate body

/-- A cell with any other text is worth that text. -/
theorem evaluate_of_head?_ne {raw : String} (h : s.get? a = some raw)
    (hliteral : raw.toList.head? ≠ some '=') : s.evaluate a = .text raw := by
  refine evaluate_of_literal h ?_
  cases hformula : Formula.ofRaw? raw with
  | none => rfl
  | some f =>
    obtain ⟨body, hbody⟩ := exists_body_of_ofRaw? hformula
    rw [hbody] at hliteral
    exact absurd rfl hliteral

/-- Only of a cell that holds nothing the value is empty. -/
theorem isEmpty_evaluate_iff : (s.evaluate a).isEmpty = false ↔ a ∈ s.addresses := by
  rw [mem_addresses]
  cases h : s.get? a with
  | none =>
    rw [evaluate_of_get?_eq_none h]
    simp [Value.isEmpty, Value.empty]
  | some raw =>
    rw [Option.isSome_some, iff_true_right rfl]
    by_cases hformula : raw.toList.head? = some '='
    · exact (isComputed_evaluate h hformula).isEmpty_eq_false
    · rw [evaluate_of_head?_ne h hformula, Value.isEmpty, String.isEmpty_eq_false_iff]
      exact s.ne_empty a raw h

end Store

/-! ## Lists of cells in order -/

/-- Two lists of cells in order are equal when they have the same members. -/
theorem Address.eq_of_pairwise {xs ys : List Address}
    (hxs : xs.Pairwise fun a b => compare a b = .lt) (hys : ys.Pairwise fun a b => compare a b = .lt)
    (hmem : ∀ a, a ∈ xs ↔ a ∈ ys) : xs = ys := by
  have hperm := (List.perm_ext_iff_of_nodup (hxs.imp Address.ne_of_lt)
    (hys.imp Address.ne_of_lt)).mpr hmem
  refine List.Perm.eq_of_pairwise ?_ hxs hys hperm
  intro a b _ _ hab hba
  rw [Address.compare_eq_lt_iff] at hab hba
  omega

/-- Populated cells are listed in order. -/
theorem Display.pairwise_populated (d : Display) :
    (d.populated.map fun e => e.1).Pairwise fun a b => compare a b = .lt := by
  rw [List.pairwise_map]
  exact (Std.ExtTreeMap.ordered_keys_toList (t := d.values)).filter _

/-! ## The display of a sheet -/

namespace Sheet

variable {s : Store} {g : Grid} {a : Address}

/-- The stored cells of the grid, row by row. -/
def shown (s : Store) (g : Grid) : List Address :=
  s.addresses.filter g.contains

theorem mem_shown : a ∈ shown s g ↔ (s.get? a).isSome = true ∧ a.row < g.rows := by
  rw [shown, List.mem_filter, Store.mem_addresses, Grid.contains, decide_eq_true_eq]

theorem pairwise_shown (s : Store) (g : Grid) :
    (shown s g).Pairwise fun a b => compare a b = .lt :=
  Std.ExtTreeMap.ordered_keys.filter _

theorem populated_recompute_iff : (recompute ⟨s, g⟩).Populated a ↔ a ∈ shown s g := by
  rw [Display.Populated, get?_recompute, shown, List.mem_filter, ← Grid.mem_addresses]
  by_cases hgrid : a ∈ g.addresses
  · rw [if_pos hgrid, ← Store.isEmpty_evaluate_iff, and_iff_left hgrid]
    constructor
    · rintro ⟨v, hv, hempty⟩
      rwa [Option.some.inj hv]
    · exact fun hempty => ⟨_, rfl, hempty⟩
  · rw [if_neg hgrid]
    constructor
    · rintro ⟨v, hv, -⟩
      cases hv
    · exact fun h => absurd h.2 hgrid

/-- The populated cells are the stored ones of the grid, each with its own value. -/
theorem populated_recompute (s : Store) (g : Grid) :
    (recompute ⟨s, g⟩).populated = (shown s g).map fun a => (a, s.evaluate a) := by
  have hcells : ((recompute ⟨s, g⟩).populated.map fun e => e.1) = shown s g := by
    refine Address.eq_of_pairwise (Display.pairwise_populated _) (pairwise_shown s g) fun a => ?_
    rw [Display.mem_map_populated, populated_recompute_iff]
  rw [← hcells, List.map_map]
  refine (List.map_id _).symm.trans (List.map_congr_left ?_)
  rintro ⟨a, v⟩ hmem
  have hvalue := (Display.mem_populated.mp hmem).1
  rw [get?_recompute] at hvalue
  split at hvalue
  · rw [id, Function.comp_apply, Option.some.inj hvalue]
  · cases hvalue

end Sheet

/-! ## Kinds and the list -/

/-- **The kinds of values, and the list of the populated cells.** In a display that has been
recomputed, a cell that holds nothing has the empty text, a literal is its own text, and a formula
is a number or a mark. So the populated cells are the stored ones above the last row, each with its
value and each once, by row and then by column. The list has a line for each of them, and the box
is the smallest range that holds them. -/
theorem kinds_and_listing (s : Store) (g : Grid) :
    (∀ a, a.row < g.rows →
      (s.get? a = none → (Sheet.recompute ⟨s, g⟩).get? a = some (.text "")) ∧
      ∀ raw, s.get? a = some raw →
        (raw.toList.head? ≠ some '=' → (Sheet.recompute ⟨s, g⟩).get? a = some (.text raw)) ∧
        (raw.toList.head? = some '=' →
          (∃ x, (Sheet.recompute ⟨s, g⟩).get? a = some (.number x)) ∨
            ∃ m, (Sheet.recompute ⟨s, g⟩).get? a = some (.error m))) ∧
    (∀ a v, (a, v) ∈ (Sheet.recompute ⟨s, g⟩).populated ↔
      ((s.get? a).isSome = true ∧ a.row < g.rows) ∧ v = s.evaluate a) ∧
    (Sheet.recompute ⟨s, g⟩).populated.Pairwise (fun e e' =>
      e.1.row < e'.1.row ∨ e.1.row = e'.1.row ∧ e.1.col.val < e'.1.col.val) ∧
    (∀ (W : Type) [Files (StateM W)] (d : Document) (p : CommandLine.Printed) (w : W),
      d.display = Sheet.recompute ⟨s, g⟩ →
      ∃ lines, CommandLine.play d p w CommandLine.list
          = (((.ok (), { p with output := p.output ++ lines }), d), w) ∧
        lines = String.join ((s.addresses.filter g.contains).map fun a =>
          a.text ++ "\t" ++ (s.evaluate a).display ++ "\n")) ∧
    (∀ box, (Sheet.recompute ⟨s, g⟩).box? = some box →
      box.IsSmallest fun a => (s.get? a).isSome = true ∧ a.row < g.rows) ∧
    ((Sheet.recompute ⟨s, g⟩).box? = none ↔ ∀ a, (s.get? a).isSome = true → ¬ a.row < g.rows) := by
  have hpopulated : ∀ a, (Sheet.recompute ⟨s, g⟩).Populated a ↔
      (s.get? a).isSome = true ∧ a.row < g.rows := fun a =>
    Sheet.populated_recompute_iff.trans Sheet.mem_shown
  refine ⟨fun a hrow => ?_, fun a v => ?_, ?_, ?_, fun box hbox => ?_, ?_⟩
  · have hvalue : (Sheet.recompute ⟨s, g⟩).get? a = some (s.evaluate a) :=
      Sheet.get?_recompute_of_contains (by rwa [Grid.contains, decide_eq_true_eq])
    rw [hvalue]
    refine ⟨fun h => congrArg some (Store.evaluate_of_get?_eq_none h), fun raw h => ⟨?_, ?_⟩⟩
    · exact fun hliteral => congrArg some (Store.evaluate_of_head?_ne h hliteral)
    · intro hformula
      obtain ⟨x, hx⟩ | ⟨m, hm⟩ := Store.isComputed_evaluate h hformula
      · exact .inl ⟨x, congrArg some hx⟩
      · exact .inr ⟨m, congrArg some hm⟩
  · rw [Sheet.populated_recompute, List.mem_map, ← Sheet.mem_shown]
    constructor
    · rintro ⟨b, hb, heq⟩
      obtain ⟨rfl, rfl⟩ := Prod.mk.inj heq
      exact ⟨hb, rfl⟩
    · rintro ⟨ha, rfl⟩
      exact ⟨a, ha, rfl⟩
  · rw [Sheet.populated_recompute, List.pairwise_map]
    exact (Sheet.pairwise_shown s g).imp Address.compare_eq_lt_iff.mp
  · intro W _ d p w hd
    refine ⟨_, CommandLine.play_list d p w, ?_⟩
    rw [hd, Sheet.populated_recompute, CommandLine.listing, List.map_map]
    rfl
  · exact ((Display.encloses_of_box? hbox).congr hpopulated).isSmallest
  · rw [Display.box?_eq_none_iff]
    refine forall_congr' fun a => ?_
    rw [hpopulated, not_and]

/-- A text that looks like a number, a formula that refers to it, and a cell below the last row. -/
theorem kinds_and_listing_numeral :
    let s := ((Store.empty.set ⟨0, 0⟩ "007").set ⟨0, 1⟩ "=A1+C1").set ⟨4, 2⟩ "below"
    let d := { Document.new ⟨2⟩ with sheet := ⟨s, ⟨2⟩⟩, display := Sheet.recompute ⟨s, ⟨2⟩⟩ }
    d.display.get? ⟨0, 2⟩ = some (.text "") ∧ d.display.get? ⟨0, 0⟩ = some (.text "007") ∧
      ((∃ x, d.display.get? ⟨0, 1⟩ = some (.number x)) ∨
        ∃ m, d.display.get? ⟨0, 1⟩ = some (.error m)) ∧
      (CommandLine.play d {} (Files.Tree.new []) CommandLine.list).1.1.2.output
        = "A1\t007\nB1\t7\n" := by
  intro s d
  obtain ⟨hkinds, -, -, hlist, -, -⟩ := kinds_and_listing s ⟨2⟩
  obtain ⟨lines, hplay, hlines⟩ := hlist Files.Tree d {} (Files.Tree.new []) rfl
  have hrow : 0 < (⟨2⟩ : Grid).rows := by decide
  refine ⟨(hkinds ⟨0, 2⟩ hrow).1 (by decide +kernel), ?_, ?_, ?_⟩
  · exact ((hkinds ⟨0, 0⟩ hrow).2 "007" (by decide +kernel)).1 (by decide +kernel)
  · exact ((hkinds ⟨0, 1⟩ hrow).2 "=A1+C1" (by decide +kernel)).2 (by decide +kernel)
  · rw [hplay, hlines]
    decide +kernel

end FormulaSheet
