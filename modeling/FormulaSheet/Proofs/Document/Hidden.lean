/-
The cells below the last row.

A file may hold more rows than a sheet has. Loading takes all of them, editing keeps
to the grid, and the display stops at its last row; so there are cells that nobody
sees and that formulas may read all the same.

An edit writes into the grid, and no other operation but a load writes at all. So
what stands outside is, whatever else has happened, what the latest load left there
(`lastLoaded`), and nothing if there was none. That is an invariant, and it needs no
more of an operation than what it can have done (`Change`).

The rest is read off from it. A file that is saved has an entry for each cell of the
store and asks nobody for the grid. And a cell is recomputed from the store, with
which the grid has nothing to do.
-/
import FormulaSheet.Proofs.Document.Modified
import FormulaSheet.Proofs.Document.Saving
import FormulaSheet.Proofs.Evaluation.Sharing
import FormulaSheet.Proofs.Evaluation.Solution

set_option autoImplicit false

namespace FormulaSheet.Document

/-! ## The latest load -/

section Loads

variable {event : Event} {events : List Event}

/-- An operation that takes the texts from a file. -/
def Operation.loads : Operation → Bool
  | load _ => true
  | _ => false

/-- A load that succeeded. -/
def Event.loads (event : Event) : Bool :=
  event.operation.loads && event.result.isOk

/-- What the cells held after the latest load that succeeded, and nothing if there was none. -/
def lastLoaded (events : List Event) : Store :=
  (events.find? Event.loads).elim Store.empty (·.document.sheet.store)

theorem lastLoaded_cons_of_loads (h : event.loads = true) :
    lastLoaded (event :: events) = event.document.sheet.store := by
  rw [lastLoaded, List.find?_cons_of_pos h, Option.elim]

theorem lastLoaded_cons_of_not_loads (h : event.loads = false) :
    lastLoaded (event :: events) = lastLoaded events := by
  rw [lastLoaded, List.find?_cons_of_neg (by rw [h]; decide), ← lastLoaded]

theorem lastLoaded_of_not_loads (h : ∀ event ∈ events, event.loads = false) :
    lastLoaded events = Store.empty := by
  have hfind : events.find? Event.loads = none := by
    rw [List.find?_eq_none]
    intro event hevent
    rw [h event hevent]
    decide
  rw [lastLoaded, hfind, Option.elim]

end Loads

/-! ## What stands outside of the grid -/

section Outside

variable {W : Type} [Files (StateM W)] {grid : Grid} {d d' : Document} {events : List Event}
  {event : Event} {a : Address} {w w' : W} {op : Operation}

/-- What is no load leaves the cells outside as they are. -/
theorem Change.raw?_outside (hchange : Change d event) (hloads : event.loads = false)
    (houtside : d.sheet.grid.contains a = false) : event.document.raw? a = d.raw? a := by
  cases hchange with
  | refused => rfl
  | wrote _ hinside =>
    refine raw?_write_of_ne d _ ?_
    rintro rfl
    rw [houtside] at hinside
    cases hinside
  | recalculated => rfl
  | loaded => cases hloads
  | saved => rfl
  | exported => rfl

/-- **Outside of the grid stands what was loaded.** -/
theorem History.raw?_outside (h : History W grid d events) (houtside : grid.contains a = false) :
    d.raw? a = (lastLoaded events).get? a := by
  -- what is outside stays outside, since the grid is the same all along (`Current`)
  refine (h.invariant (P := fun d events =>
    Current grid d ∧ d.raw? a = (lastLoaded events).get? a) ⟨.new grid, rfl⟩
    (fun _ => ⟨⟨rfl, rfl⟩, rfl⟩) ?_).2
  rintro d events event ⟨hcurrent, ih⟩ hchange
  refine ⟨hcurrent.change hchange, ?_⟩
  cases hloads : event.loads with
  | true => rw [lastLoaded_cons_of_loads hloads, raw?]
  | false =>
    rw [lastLoaded_cons_of_not_loads hloads, ← ih]
    refine hchange.raw?_outside hloads ?_
    rw [hcurrent.grid_eq]
    exact houtside

/-- A load that succeeds has read a snapshot, and the cells hold what that says. -/
theorem exists_reading_of_loads (h : (perform d w op).loads = true) :
    ∃ path s w', op = .load path ∧ reading w path = (.ok s, w') ∧
      (perform d w op).document.sheet.store = (Store.ofEntries s.toList).1 := by
  cases op with
  | load path =>
    rcases reading_cases w path with ⟨s, w', hread⟩ | ⟨e, w', hread⟩
    · exact ⟨path, s, w', rfl, hread, by rw [perform_load_of_ok hread]; rfl⟩
    · rw [perform_load_of_error hread] at h
      cases h
  | setCell | setCellAt | applyEdit | clearCell | recalculate | save | saveAs | writeCsv
  | writeMarkdown => cases h

/-- And every load of a history, the one that a document was made with among them. -/
theorem History.exists_reading (h : History W grid d events) (hevent : event ∈ events)
    (hloads : event.loads = true) :
    ∃ path s, ∃ w w' : W, event.operation = .load path ∧ reading w path = (.ok s, w') ∧
      event.document.sheet.store = (Store.ofEntries s.toList).1 := by
  induction h with
  | new => cases hevent
  | named => cases hevent
  | @loaded path _ _ _ w₁ w₂ hfound hopen =>
    obtain rfl := List.mem_singleton.mp hevent
    obtain ⟨s, hread, rfl⟩ := exists_reading_of_openFile hfound hopen
    exact ⟨path, s, w₁, w₂, rfl, hread, rfl⟩
  | step w op _ ih =>
    rcases List.mem_cons.mp hevent with rfl | hevent
    · obtain ⟨path, s, w', rfl, hread, hstore⟩ := exists_reading_of_loads hloads
      exact ⟨path, s, w, w', rfl, hread, hstore⟩
    · exact ih hevent

end Outside

/-! ## The files that are saved -/

section Files

variable {W : Type} [Files (StateM W)] {grid : Grid} {d d' : Document} {events : List Event}
  {a : Address} {w w' : W} {op : Operation} {v : Option Address}

theorem path_and_writing_of_saveAs {path : String}
    (h : attempt d w (saveAs path) = ((.ok (), d'), w')) : d'.path = some path ∧
      writing w path (Snapshot.text d.sheet.store.snapshot) = (.ok (), w') := by
  have hwrite := writing_of_attempt_saveAs h
  rw [attempt_saveAs_of_ok hwrite, Prod.mk.injEq, Prod.mk.injEq] at h
  obtain ⟨⟨-, rfl⟩, -⟩ := h
  exact ⟨rfl, hwrite⟩

/-- To save with success is to have written the snapshot to what is the file from then on. -/
theorem exists_writing_of_save (hop : op = .save ∨ ∃ path, op = .saveAs path)
    (h : attempt d w op.step = ((.ok v, d'), w')) : ∃ path, d'.path = some path ∧
      writing w path (Snapshot.text d.sheet.store.snapshot) = (.ok (), w') := by
  obtain rfl | ⟨path, rfl⟩ := hop
  · obtain ⟨_, hsave⟩ := exists_of_attempt_bind_pure h
    cases hpath : d.path with
    | none =>
      rw [attempt_save_of_none hpath] at hsave
      cases hsave
    | some path =>
      rw [attempt_save_of_some hpath] at hsave
      obtain ⟨_, hsaveAs⟩ := exists_of_attempt_bind_pure hsave
      exact ⟨path, path_and_writing_of_saveAs hsaveAs⟩
  · obtain ⟨_, hsaveAs⟩ := exists_of_attempt_bind_pure h
    exact ⟨path, path_and_writing_of_saveAs hsaveAs⟩

/-- An entry under the text of a cell is what the cell holds. -/
theorem getElem?_snapshot_text (s : Store) (a : Address) (raw : String) :
    s.snapshot[a.text]? = some raw ↔ s.get? a = some raw := by
  rw [Store.getElem?_snapshot]
  constructor
  · rintro ⟨b, htext, hraw⟩
    rwa [Address.eq_of_text_eq htext]
  · exact fun hraw => ⟨a, rfl, hraw⟩

/-- **The cells below the last row are kept.** Whatever has happened to a document, outside of its
grid stands what the latest load left there, which is what the entries of a file say, and nothing if
none has succeeded. A file that is saved is read as a snapshot of the cells of the document, and
outside of the grid it says what was loaded. In the display there are none of these cells; and a
formula in the grid is worth what its body is worth when every cell, hidden or not, has the value it
evaluates to. -/
theorem hidden_cells_are_kept (h : History W grid d events) :
    (∀ a, grid.contains a = false → d.raw? a = (lastLoaded events).get? a) ∧
    (∀ event ∈ events, event.loads = true →
      ∃ path s, ∃ w w' : W, event.operation = .load path ∧ reading w path = (.ok s, w') ∧
        event.document.sheet.store = (Store.ofEntries s.toList).1) ∧
    ((∀ event ∈ events, event.loads = false) → ∀ a, grid.contains a = false → d.raw? a = none) ∧
    (∀ (w w' : W) (op : Operation) (v : Option Address) (d' : Document),
      (op = .save ∨ ∃ path, op = .saveAs path) → attempt d w op.step = ((.ok v, d'), w') →
      ∃ path text snapshot, d'.path = some path ∧ writing w path text = (.ok (), w') ∧
        Snapshot.ofText? text = some snapshot ∧
        (∀ key raw, snapshot[key]? = some raw ↔ ∃ a, key = a.text ∧ d.raw? a = some raw) ∧
        ∀ a raw, grid.contains a = false →
          (snapshot[a.text]? = some raw ↔ (lastLoaded events).get? a = some raw)) ∧
    (∀ a, grid.contains a = false → d.display.get? a = none) ∧
    ∀ a body, grid.contains a = true → d.sheet.store.body? a = some body →
      d.display.get? a = some (d.sheet.store.applied d.sheet.store.evaluate body) := by
  have hdisplay := h.current.display_eq_recompute
  refine ⟨fun a => h.raw?_outside, fun event hevent => h.exists_reading hevent,
    fun hnone a houtside => ?_, fun w w' op v d' hop hsave => ?_, fun a houtside => ?_,
    fun a body hinside hbody => ?_⟩
  · rw [h.raw?_outside houtside, lastLoaded_of_not_loads hnone, Store.get?_empty]
  · obtain ⟨path, hpath, hwrite⟩ := exists_writing_of_save hop hsave
    refine ⟨path, _, _, hpath, hwrite, d.sheet.store.ofText?_text_snapshot,
      fun key raw => Store.getElem?_snapshot, fun a raw houtside => ?_⟩
    rw [getElem?_snapshot_text, ← h.raw?_outside houtside, raw?]
  · rw [hdisplay, Sheet.get?_recompute_of_not_contains houtside]
  · rw [hdisplay, Sheet.get?_recompute_of_contains hinside, Store.evaluate_of_body? hbody]

end Files

/-- A file with seven rows in a sheet of five: an edit below the last row is refused, an edit above
it is accepted, and the file is saved. -/
theorem hidden_cells_are_kept_seventh_row :
    let w := Files.Tree.new ["home"]
    let five := perform (new ⟨7⟩) w (.applyEdit "A7=5")
    let tall := perform five.document w (.applyEdit "A1==A7")
    let w' := (attempt tall.document w (saveAs "sheet.json")).2
    let load := perform (new ⟨5⟩) w' (.load "sheet.json")
    let refused := perform load.document w' (.applyEdit "A7=9")
    let edited := perform refused.document w' (.applyEdit "A2=2")
    refused.result = .error (.outside ⟨6, 0⟩ 5) ∧
      edited.document.raw? ⟨6, 0⟩ = some "5" ∧ edited.document.display.get? ⟨6, 0⟩ = none ∧
      edited.document.display.get? ⟨0, 0⟩ = some (edited.document.sheet.store.applied
        edited.document.sheet.store.evaluate ['A', '7']) ∧
      ∃ w'' text snapshot, writing w' "sheet.json" text = (.ok (), w'') ∧
        Snapshot.ofText? text = some snapshot ∧ snapshot["A7"]? = some "5" := by
  intro w five tall w' load refused edited
  have hhistory : History Files.Tree ⟨5⟩ edited.document [edited, refused, load] :=
    ((History.new.step w' _).step w' _).step w' _
  obtain ⟨hkept, -, -, hfile, hhidden, hshown⟩ := hidden_cells_are_kept hhistory
  have hrun : refused.result = .error (.outside ⟨6, 0⟩ 5) ∧
      (lastLoaded [edited, refused, load]).get? ⟨6, 0⟩ = some "5" ∧
      edited.document.sheet.store.body? ⟨0, 0⟩ = some ['A', '7'] ∧
      (attempt edited.document w' (Operation.step .save)).1.1 = .ok none ∧
      (attempt edited.document w' (Operation.step .save)).1.2.path = some "sheet.json" := by
    decide +kernel
  obtain ⟨hrefused, hloaded, hbody, hresult, hpath⟩ := hrun
  obtain ⟨saved, hsaved⟩ : ∃ saved, attempt edited.document w' (Operation.step .save) = saved :=
    ⟨_, rfl⟩
  rw [hsaved] at hresult hpath
  obtain ⟨⟨result, d'⟩, w''⟩ := saved
  obtain rfl : result = .ok none := hresult
  obtain ⟨path, text, snapshot, hpath', hwrite, hread, -, hentry⟩ :=
    hfile w' w'' .save none d' (.inl rfl) hsaved
  obtain rfl : "sheet.json" = path := Option.some.inj (hpath.symm.trans hpath')
  have hgrid : Grid.contains ⟨5⟩ ⟨6, 0⟩ = false := by decide
  exact ⟨hrefused, (hkept _ hgrid).trans hloaded, hhidden _ hgrid, hshown _ _ (by decide) hbody,
    w'', text, snapshot, hwrite, hread, (hentry ⟨6, 0⟩ "5" hgrid).mpr hloaded⟩

end FormulaSheet.Document
