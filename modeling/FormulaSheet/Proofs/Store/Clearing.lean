/-
Entries that clear a cell.

A snapshot may hold an entry with an empty text, and to load it is to write the
empty text, which clears the cell. Mostly nobody can tell, for the cell is empty
anyway when all cells are replaced. But a snapshot is keyed by texts and a store
by addresses, so one cell can be filled under one spelling and cleared under
another one that comes later.

That is all there is to it. Leave the entries that clear a cell out, and each cell
holds the text of the last entry that names it and has one
(`lastText_withoutClearing`); with them it holds the text of the last entry that
names it. The two differ exactly in the cells whose last entry is empty and some
other one is not.
-/
import FormulaSheet.Proofs.Store.Contents

set_option autoImplicit false

namespace FormulaSheet.Store

variable {entries : List (String × String)} {a : Address}

/-- Whether an entry clears a cell: its key is an address and its text is empty. -/
def isClearing (e : String × String) : Bool :=
  isAddressed e && e.2 == ""

/-- The entries without those that clear a cell. -/
def withoutClearing (entries : List (String × String)) : List (String × String) :=
  entries.filter fun e => !isClearing e

/-- A text that entries supply for a cell is lost: the last entry that names the cell clears it. -/
def Loses (entries : List (String × String)) (a : Address) : Prop :=
  lastText entries a = "" ∧ ∃ e ∈ entries, Address.ofText? e.1 = some a ∧ e.2 ≠ ""

/-! ## The texts that are left -/

theorem isClearing_of_names {e : String × String} (h : Address.ofText? e.1 = some a) :
    isClearing e = (e.2 == "") := by
  rw [isClearing, isAddressed, h]
  rfl

theorem withoutClearing_append (entries : List (String × String)) (e : String × String) :
    withoutClearing (entries ++ [e])
      = withoutClearing entries ++ if isClearing e then [] else [e] := by
  rw [withoutClearing, withoutClearing, List.filter_append]
  cases h : isClearing e <;> simp [h]

/-- Without the entries that clear a cell the last one that names the cell and has a text counts. -/
theorem lastText_withoutClearing (entries : List (String × String)) (e : String × String)
    (a : Address) :
    lastText (withoutClearing (entries ++ [e])) a
      = if Address.ofText? e.1 = some a ∧ e.2 ≠ "" then e.2
        else lastText (withoutClearing entries) a := by
  rw [withoutClearing_append]
  by_cases hnames : Address.ofText? e.1 = some a
  · by_cases hempty : e.2 = ""
    · simp [isClearing_of_names hnames, hempty]
    · simp [isClearing_of_names hnames, hempty, lastText_append, hnames]
  · have hne : ¬ (Address.ofText? e.1 = some a ∧ e.2 ≠ "") := fun h => hnames h.1
    rw [if_neg hne]
    cases isClearing e with
    | true => simp
    | false => simp [lastText_append, hnames]

/-- A cell is left without a text exactly when no entry has one for it. -/
theorem lastText_withoutClearing_eq_empty_iff :
    lastText (withoutClearing entries) a = "" ↔
      ∀ e ∈ entries, Address.ofText? e.1 = some a → e.2 = "" := by
  induction entries using List.reverseRecOn with
  | nil => simp [withoutClearing, lastText]
  | append_singleton entries e ih =>
    rw [lastText_withoutClearing, List.forall_mem_append, List.forall_mem_singleton, ← ih]
    by_cases h : Address.ofText? e.1 = some a ∧ e.2 ≠ ""
    · rw [if_pos h]
      exact iff_of_false h.2 fun hall => h.2 (hall.2 h.1)
    · rw [if_neg h]
      exact ⟨fun hrest => ⟨hrest, fun hnames => by_contra fun hne => h ⟨hnames, hne⟩⟩, And.left⟩

/-- A cell whose last entry has a text keeps it. -/
theorem lastText_withoutClearing_of_ne (h : lastText entries a ≠ "") :
    lastText (withoutClearing entries) a = lastText entries a := by
  induction entries using List.reverseRecOn with
  | nil => exact absurd rfl h
  | append_singleton entries e ih =>
    rw [lastText_withoutClearing]
    rw [lastText_append] at h ⊢
    by_cases hnames : Address.ofText? e.1 = some a
    · rw [if_pos hnames] at h ⊢
      rw [if_pos ⟨hnames, h⟩]
    · rw [if_neg hnames] at h ⊢
      rw [if_neg fun hboth => hnames hboth.1, ih h]

theorem lastText_withoutClearing_eq_iff :
    lastText (withoutClearing entries) a = lastText entries a ↔ ¬ Loses entries a := by
  by_cases hlast : lastText entries a = ""
  · rw [hlast, lastText_withoutClearing_eq_empty_iff, Loses, and_iff_right hlast]
    push Not
    rfl
  · exact iff_of_true (lastText_withoutClearing_of_ne hlast) fun h => hlast h.1

theorem held?_inj {text raw : String} : held? text = held? raw ↔ text = raw := by
  refine ⟨fun h => ?_, fun h => h ▸ rfl⟩
  by_cases hraw : raw = ""
  · subst hraw
    by_contra hne
    rw [held?, held?, if_neg hne, if_pos rfl] at h
    cases h
  · exact (held?_eq_some_iff.mp (h.trans (held?_eq_some_iff.mpr ⟨rfl, hraw⟩))).1

/-- No key that is left out has to do with clearing. -/
theorem skipped_withoutClearing (entries : List (String × String)) :
    (ofEntries (withoutClearing entries)).2 = (ofEntries entries).2 := by
  have hkeeps : ∀ e : String × String, (!isAddressed e && !isClearing e) = !isAddressed e := by
    intro e
    rw [isClearing]
    cases isAddressed e <;> rfl
  rw [skipped_ofEntries, skipped_ofEntries, withoutClearing, List.filter_filter,
    funext hkeeps]

/-- **Clearing by another spelling.** Whatever is in the store, entries are loaded with the same
number of keys left out whether or not the ones that clear a cell are among them. A cell holds the
same in both cases exactly if the entries do not lose a text for it; so the stores are equal exactly
if they lose none. Where they lose one, the cell is empty, and without the entries that clear it, it
is not. -/
theorem clearing_shows_exactly (t : Store) (entries : List (String × String)) :
    (t.perform (.load (withoutClearing entries))).2 = (t.perform (.load entries)).2 ∧
    (∀ a, (t.perform (.load (withoutClearing entries))).1.get? a
        = (t.perform (.load entries)).1.get? a ↔ ¬ Loses entries a) ∧
    ((t.perform (.load (withoutClearing entries))).1 = (t.perform (.load entries)).1 ↔
      ∀ a, ¬ Loses entries a) ∧
    ∀ a, Loses entries a ↔ (t.perform (.load entries)).1.get? a = none ∧
      ∃ raw, (t.perform (.load (withoutClearing entries))).1.get? a = some raw := by
  have hcell : ∀ a, (ofEntries (withoutClearing entries)).1.get? a
      = (ofEntries entries).1.get? a ↔ ¬ Loses entries a := by
    intro a
    rw [get?_ofEntries, get?_ofEntries, held?_inj, lastText_withoutClearing_eq_iff]
  refine ⟨?_, hcell, ⟨fun h a => (hcell a).mp (congrArg (Store.get? · a) h), fun h => ?_⟩,
    fun a => ⟨fun h => ?_, ?_⟩⟩
  · exact congrArg (fun keys : List String => Answer.skipped keys.length)
      (skipped_withoutClearing entries)
  · exact Store.ext fun a => (hcell a).mpr (h a)
  · have hnone : (ofEntries entries).1.get? a = none := by
      rw [get?_ofEntries, h.1]
      rfl
    refine ⟨hnone, Option.isSome_iff_exists.mp (Option.isSome_iff_ne_none.mpr fun hsame => ?_)⟩
    exact (hcell a).mp (hsame.trans hnone.symm) h
  · rintro ⟨hnone, raw, hraw⟩
    by_contra hkept
    have hsame : some raw = none := hraw.symm.trans (((hcell a).mpr hkept).trans hnone)
    cases hsame

/-- A cell that is filled as `A1` and cleared as `a1`. -/
theorem later_spelling_clears :
    let entries := [("A1", "5"), ("a1", "")]
    withoutClearing entries = [("A1", "5")] ∧
      (empty.perform (.load entries)).1.get? ⟨0, 0⟩ = none ∧
      (empty.perform (.load (withoutClearing entries))).1.get? ⟨0, 0⟩ = some "5" := by
  decide +kernel

end FormulaSheet.Store
