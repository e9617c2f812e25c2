/-
Histories of documents.

A document is made, for a file or for none, and then one operation after another
is carried out on it. Between two operations anything may happen to the files,
so each of them has a world of its own.

What a document is like is said of every history at once. The display is kept
beside the texts and is not worked out when it is asked for, so each operation
has to leave it right, at each of its exits. That it does is an invariant of one
step, and by `Change` there are six steps to look at. Since to recompute looks at
the texts and the grid and at nothing else, the invariant says more than that a
display is up to date: nothing of the past is left in it.
-/
import FormulaSheet.Files.Tree
import FormulaSheet.Proofs.Document.Operation

set_option autoImplicit false

namespace FormulaSheet.Document

/-! ## Making a document for a file -/

section Opening

variable {W : Type} [Files (StateM W)] {d : Document} {w w₁ : W} {path : String}

/-- Whether something is at a path, and the world after that has been asked. -/
def finding (w : W) (path : String) : Bool × W :=
  (Files.found path : StateM W Bool).run w

/-- Whether a file is there is asked before anything else. -/
theorem attempt_found (d : Document) (w : W) (path : String) :
    attempt d w (beside (ExceptT.lift (Files.found path)))
      = ((.ok (finding w path).1, d), (finding w path).2) :=
  rfl

theorem attempt_openFile_of_found (h : finding w path = (true, w₁)) :
    attempt d w (openFile (some path)) = attempt d w₁ (load path) := by
  have hfound := attempt_found d w path
  rw [h] at hfound
  exact attempt_bind_of_ok hfound

theorem attempt_openFile_of_not_found (h : finding w path = (false, w₁)) :
    attempt d w (openFile (some path)) = ((.ok [], { d with path := some path }), w₁) := by
  have hfound := attempt_found d w path
  rw [h] at hfound
  exact (attempt_bind_of_ok hfound).trans (attempt_bind_of_ok (attempt_modify _))

/-- A file that is there and could be opened has been loaded. -/
theorem exists_reading_of_openFile {d' : Document} {w₂ : W} {warnings : List Warning}
    (hfound : finding w path = (true, w₁))
    (hopen : attempt d w (openFile (some path)) = ((.ok warnings, d'), w₂)) :
    ∃ s, reading w₁ path = (.ok s, w₂) ∧ d' = d.replace path (Store.ofEntries s.toList).1 := by
  rw [attempt_openFile_of_found hfound] at hopen
  rcases reading_cases w₁ path with ⟨s, w', hread⟩ | ⟨e, w', hread⟩
  · rw [attempt_load_of_ok hread, Prod.mk.injEq, Prod.mk.injEq] at hopen
    obtain ⟨⟨-, rfl⟩, rfl⟩ := hopen
    exact ⟨s, hread, rfl⟩
  · rw [attempt_load_of_error hread] at hopen
    cases hopen

end Opening

/-! ## Histories -/

section Histories

variable {W : Type} [Files (StateM W)] {grid : Grid} {d : Document} {events : List Event}

/-- A document of a grid, and what has happened to it since it was made, the latest first. -/
inductive History (W : Type) [Files (StateM W)] (grid : Grid) : Document → List Event → Prop
  | new : History W grid (Document.new grid) []
  /-- It was made for a file that is there and that could be loaded. -/
  | loaded {path : String} {warnings : List Warning} {d : Document} {w w₁ w₂ : W}
      (hfound : finding w path = (true, w₁))
      (hopen : attempt (Document.new grid) w (openFile (some path)) = ((.ok warnings, d), w₂)) :
      History W grid d [⟨.load path, .ok none, d⟩]
  /-- It was made for a file that is not there yet. -/
  | named {path : String} {warnings : List Warning} {d : Document} {w w₁ w₂ : W}
      (hfound : finding w path = (false, w₁))
      (hopen : attempt (Document.new grid) w (openFile (some path)) = ((.ok warnings, d), w₂)) :
      History W grid d []
  /-- An operation was carried out, whether or not it failed. -/
  | step {d : Document} {events : List Event} (w : W) (op : Operation)
      (h : History W grid d events) :
      History W grid (perform d w op).document (perform d w op :: events)

/-- A property that a document has when it is made, and that each operation preserves, is had by
every document. To make a document from a file is to load the file into a new one, so this is no
case of its own. -/
theorem History.invariant {P : Document → List Event → Prop} (hnew : P (Document.new grid) [])
    (hnamed : ∀ path, P { Document.new grid with path := some path } [])
    (hstep : ∀ {d events event}, P d events → Change d event → P event.document (event :: events))
    (h : History W grid d events) : P d events := by
  induction h with
  | new => exact hnew
  | @loaded path _ _ _ _ _ hfound hopen =>
    obtain ⟨s, -, rfl⟩ := exists_reading_of_openFile hfound hopen
    exact hstep hnew (.loaded path s)
  | @named path _ _ _ _ _ hfound hopen =>
    rw [attempt_openFile_of_not_found hfound, Prod.mk.injEq, Prod.mk.injEq] at hopen
    obtain ⟨⟨-, rfl⟩, -⟩ := hopen
    exact hnamed path
  | step w op _ ih => exact hstep ih (change_perform _ w op)

end Histories

/-! ## The display -/

section Displays

variable {W : Type} [Files (StateM W)] {grid : Grid} {d : Document} {events : List Event}

/-- A document whose grid is the given one, and whose display is the one of its texts. -/
structure Current (grid : Grid) (d : Document) : Prop where
  grid_eq : d.sheet.grid = grid
  display_eq : d.display = d.sheet.recompute

theorem Current.new (grid : Grid) : Current grid (Document.new grid) := ⟨rfl, rfl⟩

/-- One operation leaves the display up to date. Where the texts change they are recomputed; where
they do not, the display of before still is the one of the texts. -/
theorem Current.change {event : Event} (h : Current grid d) (hchange : Change d event) :
    Current grid event.document := by
  cases hchange with
  | refused => exact h
  | wrote => exact ⟨h.grid_eq, rfl⟩
  | recalculated => exact ⟨h.grid_eq, rfl⟩
  | loaded => exact ⟨h.grid_eq, rfl⟩
  | saved => exact ⟨h.grid_eq, h.display_eq⟩
  | exported => exact h

theorem History.current (h : History W grid d events) : Current grid d :=
  h.invariant (P := fun d _ => Current grid d) (.new grid)
    (fun _ => ⟨rfl, rfl⟩) Current.change

theorem Current.display_eq_recompute (h : Current grid d) :
    d.display = Sheet.recompute ⟨d.sheet.store, grid⟩ := by
  rw [h.display_eq, ← h.grid_eq]

/-- **The display is up to date and keeps no trace of the past.** Whatever happened to a document,
its display is the one of its texts in the grid that it was made with, no cell of it holds the empty
text, and every document with the same grid and the same texts has the same display. -/
theorem display_up_to_date (h : History W grid d events) :
    d.display = Sheet.recompute ⟨d.sheet.store, grid⟩ ∧
    (∀ a, d.raw? a ≠ some "") ∧
    ∀ (W' : Type) [Files (StateM W')] (d' : Document) (events' : List Event),
      History W' grid d' events' → (∀ a, d'.raw? a = d.raw? a) → d'.display = d.display := by
  refine ⟨h.current.display_eq_recompute, d.sheet.store.get?_ne_some_empty, ?_⟩
  intro W' _ d' events' h' hraw
  have hstore : d'.sheet.store = d.sheet.store := Store.ext hraw
  rw [h.current.display_eq_recompute, h'.current.display_eq_recompute, hstore]

end Displays

/-- A document with a circle in its past and a load that failed, and one that was written at
once. -/
theorem display_up_to_date_after_detour :
    let w := Files.Tree.new ["home"]
    let circle := (perform (new ⟨2⟩) w (.setCell ⟨0, 0⟩ "=A1")).document
    let refused := (perform circle w (.load "missing.json")).document
    let edited := (perform refused w (.applyEdit "B1==A1*21")).document
    let detour := (perform edited w (.setCell ⟨0, 0⟩ "2")).document
    let begun := (perform (new ⟨2⟩) w (.setCell ⟨0, 0⟩ "2")).document
    let direct := (perform begun w (.setCell ⟨0, 1⟩ "=A1*21")).document
    detour.display = Sheet.recompute ⟨detour.sheet.store, ⟨2⟩⟩ ∧
      direct.display = detour.display := by
  intro w circle refused edited detour begun direct
  have hdetour : History Files.Tree ⟨2⟩ detour _ :=
    (((History.new.step w _).step w _).step w _).step w _
  have hdirect : History Files.Tree ⟨2⟩ direct _ := (History.new.step w _).step w _
  have hdetourStore : detour.sheet.store
      = ((Store.empty.set ⟨0, 0⟩ "=A1").set ⟨0, 1⟩ "=A1*21").set ⟨0, 0⟩ "2" := rfl
  have hdirectStore : direct.sheet.store
      = (Store.empty.set ⟨0, 0⟩ "2").set ⟨0, 1⟩ "=A1*21" := rfl
  have hraw : ∀ a, direct.raw? a = detour.raw? a := by
    intro a
    rw [raw?, raw?, hdetourStore, hdirectStore]
    simp only [Store.get?_set]
    grind
  obtain ⟨hcurrent, -, hsame⟩ := display_up_to_date hdetour
  exact ⟨hcurrent, hsame _ _ _ hdirect hraw⟩

end FormulaSheet.Document
