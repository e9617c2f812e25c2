/-
What a document has saved, it can load again, unless it is too large.

Whoever loads a file that a document has saved, the document itself or another
one with the same grid, gets the same texts and the same display. Four things
come together in this. The cells have row numbers that can be read, because an
edit stays in the grid and a load reads its keys (`History.readable`). The file
is understood, and as the snapshot that was written (`Snapshot.ofText?_text`).
The snapshot is loaded as the store that it was taken from
(`Store.ofEntries_snapshot`). And the system of files gives back the bytes that
it took. That is all that is assumed of it, and it is assumed of the one write that
saves (`Keeps`), for there are paths that take bytes and give none back.

The two sides do not ask the same, though. Loading refuses a file beyond a limit,
and saving writes files of any size; so there are documents that are saved
without complaint to a file that nobody can load.
-/
import FormulaSheet.Proofs.Document.Failure
import FormulaSheet.Proofs.Document.History
import FormulaSheet.Proofs.Files.Written
import FormulaSheet.Proofs.Snapshot.RoundTrip
import FormulaSheet.Proofs.Store.Contents

set_option autoImplicit false

namespace FormulaSheet

/-! ## The file of a store -/

namespace Store

variable {s : Store} {a : Address} {raw : String}

/-- All entries of a snapshot of a store are written, for no cell holds the empty text. -/
theorem written_snapshot (s : Store) : Snapshot.written s.snapshot = s.snapshot.toList := by
  rw [Snapshot.written, List.filter_eq_self]
  intro e he
  obtain ⟨a, -, hraw⟩ := mem_toList_snapshot.mp he
  have hne : e.2 ≠ "" := by
    intro hempty
    rw [hempty] at hraw
    exact s.get?_ne_some_empty a hraw
  simpa using hne

theorem ofText?_text_snapshot (s : Store) :
    Snapshot.ofText? (Snapshot.text s.snapshot) = some s.snapshot := by
  rw [Snapshot.ofText?_text, written_snapshot, Snapshot.ofList_toList]

end Store

/-! ### Its size -/

section Size

variable {s : Store} {a : Address} {raw : String}

/-- Every character takes a byte or more. -/
theorem length_le_utf8ByteSize_ofList (cs : List Char) :
    cs.length ≤ (String.ofList cs).utf8ByteSize := by
  induction cs using List.reverseRecOn with
  | nil => exact Nat.zero_le _
  | append_singleton cs c ih =>
    have hpos : 0 < c.utf8Size := Char.utf8Size_pos c
    have hpush : String.ofList (cs ++ [c]) = (String.ofList cs).push c := by
      rw [String.ofList_append]
      rfl
    rw [hpush, String.utf8ByteSize_push, List.length_append, List.length_singleton]
    omega

theorem length_le_length_flatMap_escape (cs : List Char) :
    cs.length ≤ (cs.flatMap Json.escape).length := by
  induction cs with
  | nil => exact Nat.zero_le _
  | cons c cs ih =>
    have hescape : 0 < (Json.escape c).length := by
      unfold Json.escape
      repeat' split
      all_goals exact Nat.succ_pos _
    rw [List.flatMap_cons, List.length_append, List.length_cons]
    omega

theorem length_le_length_intercalate (sep : List Char) {cs : List Char}
    {pieces : List (List Char)} (h : cs ∈ pieces) :
    cs.length ≤ (List.intercalate sep pieces).length := by
  induction pieces with
  | nil => cases h
  | cons piece pieces ih =>
    cases pieces with
    | nil =>
      obtain rfl := List.mem_singleton.mp h
      simp
    | cons piece' pieces =>
      rw [List.intercalate_cons_cons, List.length_append, List.length_append]
      rcases List.mem_cons.mp h with rfl | h
      · omega
      · have := ih h
        omega

theorem length_lt_length_quote (cs : List Char) : cs.length < (Json.quote cs).length := by
  have hescape := length_le_length_flatMap_escape cs
  rw [Json.quote, List.cons_append, List.length_cons, List.length_append]
  omega

theorem length_lt_length_entry (address raw : String) :
    raw.length < (Snapshot.entry address raw).length := by
  have hquote := length_lt_length_quote raw.toList
  have hpieces : Snapshot.entry address raw = "    ".toList ++ Json.quote address.toList
      ++ ": \x7b\n      \"value\": ".toList ++ Json.quote raw.toList ++ "\n    \x7d".toList := rfl
  rw [String.length_toList] at hquote
  rw [hpieces, List.length_append, List.length_append]
  omega

theorem length_entry_le_length_cells {entries : List (String × String)} {address : String}
    (h : (address, raw) ∈ entries) :
    (Snapshot.entry address raw).length ≤ (Snapshot.cells entries).length := by
  cases entries with
  | nil => cases h
  | cons e es =>
    have hpiece : Snapshot.entry address raw
        ∈ (e :: es).map fun e => Snapshot.entry e.1 e.2 :=
      List.mem_map.mpr ⟨(address, raw), h, rfl⟩
    have hjoined := length_le_length_intercalate ",\n".toList hpiece
    have hobject : Snapshot.cells (e :: es) = "\x7b\n".toList
        ++ List.intercalate ",\n".toList ((e :: es).map fun e => Snapshot.entry e.1 e.2)
        ++ "\n  \x7d".toList := rfl
    rw [hobject, List.length_append, List.length_append]
    omega

/-- The file of a store is longer than any text in it. -/
theorem length_lt_utf8ByteSize_text (h : s.get? a = some raw) :
    raw.length < (Snapshot.text s.snapshot).utf8ByteSize := by
  have hwritten : (a.text, raw) ∈ Snapshot.written s.snapshot := by
    rw [Store.written_snapshot]
    exact Store.mem_toList_snapshot.mpr ⟨a, rfl, h⟩
  have hchars : (Snapshot.cells (Snapshot.written s.snapshot)).length
      ≤ (Snapshot.chars s.snapshot).length := by
    rw [Snapshot.chars_eq, List.length_append, List.length_append]
    omega
  calc raw.length < (Snapshot.entry a.text raw).length := length_lt_length_entry _ _
    _ ≤ (Snapshot.cells (Snapshot.written s.snapshot)).length :=
      length_entry_le_length_cells hwritten
    _ ≤ (Snapshot.chars s.snapshot).length := hchars
    _ ≤ (Snapshot.text s.snapshot).utf8ByteSize := length_le_utf8ByteSize_ofList _

end Size

namespace Document

/-! ## Documents whose cells can be read -/

section Reading

variable {W : Type} [Files (StateM W)] {grid : Grid} {d : Document} {events : List Event}
  {event : Event}

/-- What the cells of a document hold stays readable: an edit writes into the grid, and a load reads
its keys. -/
theorem Change.readable (hrows : d.sheet.grid.rows < Address.rowLimit)
    (hd : d.sheet.store.Readable) (hchange : Change d event) :
    event.document.sheet.store.Readable := by
  cases hchange with
  | refused => exact hd
  | wrote _ hinside => exact hd.set (Address.readable_of_contains hrows hinside) _
  | recalculated => exact hd
  | loaded path s => exact Store.readable_ofEntries s.toList
  | saved => exact hd
  | exported => exact hd

theorem History.readable (hrows : grid.rows < Address.rowLimit) (h : History W grid d events) :
    d.sheet.store.Readable := by
  refine (h.invariant (P := fun d _ => Current grid d ∧ d.sheet.store.Readable)
    ⟨.new grid, Store.readable_empty⟩ (fun _ => ⟨⟨rfl, rfl⟩, Store.readable_empty⟩) ?_).2
  rintro d events event ⟨hcurrent, hd⟩ hchange
  rw [← hcurrent.grid_eq] at hrows
  exact ⟨hcurrent.change hchange, hchange.readable hrows hd⟩

end Reading

/-! ## Loading what was saved -/

section Saving

variable {W : Type} [Files (StateM W)] {grid : Grid} {d saved : Document} {events : List Event}
  {w w' : W} {path text : String}

/-- A write that is kept: if it succeeds, then the one who reads the path next gets the text. -/
def Keeps (w : W) (path text : String) : Prop :=
  ∀ w', writing w path text = (.ok (), w') →
    ∃ w₁ w₂, sizing w' path = (.ok text.toUTF8.size, w₁) ∧
      fetching w₁ path = (.ok text.toUTF8, w₂)

/-- To write to a tree is to put the new tree in its place, if the path allows it. -/
theorem writing_tree (t : Files.Tree) (path text : String) :
    writing t path text = match t.write path text.toUTF8 with
      | .error e => (.error e, t)
      | .ok t' => (.ok (), t') := by
  change (match t.write path text.toUTF8 with
    | .error e => (pure (.error e) : StateM Files.Tree (Except FileError Unit))
    | .ok t' => do
      set t'
      return .ok ()) t = _
  cases t.write path text.toUTF8 with
  | error e => rfl
  | ok t' => rfl

/-- A tree of files keeps every write. -/
theorem keeps_tree (t : Files.Tree) (path text : String) : Keeps t path text := by
  intro t' hwriting
  have hwrite : t.write path text.toUTF8 = .ok t' := by
    cases hresult : t.write path text.toUTF8 with
    | error e =>
      rw [writing_tree, hresult] at hwriting
      cases hwriting
    | ok t'' =>
      rw [writing_tree, hresult] at hwriting
      obtain rfl : t'' = t' := congrArg Prod.snd hwriting
      rfl
  have hsize : sizing t' path = (t'.size path, t') := rfl
  have hfetch : fetching t' path = (t'.read path, t') := rfl
  rw [Files.Tree.size_of_write hwrite] at hsize
  rw [Files.Tree.read_of_write hwrite] at hfetch
  exact ⟨t', t', hsize, hfetch⟩

theorem fromUTF8?_toUTF8 (text : String) : String.fromUTF8? text.toUTF8 = some text :=
  dif_pos text.isValidUTF8

/-- A document that has been saved has written its file. -/
theorem writing_of_attempt_saveAs (h : attempt d w (saveAs path) = ((.ok (), saved), w')) :
    writing w path (Snapshot.text d.sheet.store.snapshot) = (.ok (), w') := by
  rcases writing_cases w path (Snapshot.text d.sheet.store.snapshot) with
    ⟨w'', hwrite⟩ | ⟨e, w'', hwrite⟩
  · rw [attempt_saveAs_of_ok hwrite, Prod.mk.injEq] at h
    rw [hwrite, h.2]
  · rw [attempt_saveAs_of_error hwrite] at h
    cases h

/-- The file that a store was written to is read as the snapshot of the store, if it is not too
large. -/
theorem reading_of_writing {s : Store} (hkeeps : Keeps w path (Snapshot.text s.snapshot))
    (hwrite : writing w path (Snapshot.text s.snapshot) = (.ok (), w')) :
    ((Snapshot.text s.snapshot).utf8ByteSize ≤ Snapshot.sizeLimit →
      ∃ w'', reading w' path = (.ok s.snapshot, w'')) ∧
    (Snapshot.sizeLimit < (Snapshot.text s.snapshot).utf8ByteSize →
      ∃ w'', reading w' path = (.error (.size path (Snapshot.text s.snapshot).utf8ByteSize
        Snapshot.sizeLimit), w'')) := by
  obtain ⟨w₁, w₂, hsize, hfetch⟩ := hkeeps w' hwrite
  constructor
  · intro hlimit
    refine ⟨w₂, ?_⟩
    rw [reading_of_text hsize (Nat.not_lt.mpr hlimit) hfetch (fromUTF8?_toUTF8 _),
      s.ofText?_text_snapshot, Option.elim_some]
  · intro hlimit
    exact ⟨w₁, reading_of_oversized hsize hlimit⟩

/-- **What was saved can be loaded, within the limit.** A document with the same grid loads the file
that a document has saved, and has its texts and its display, with nothing unsaved and the path of
the file. A file beyond the limit is saved just so, and the attempt to load it fails and changes
nothing. -/
theorem saved_is_loaded_within_limit (d' : Document)
    (hkeeps : Keeps w path (Snapshot.text d.sheet.store.snapshot))
    (hrows : grid.rows < Address.rowLimit) (h : History W grid d events)
    (hgrid : d'.sheet.grid = grid)
    (hsave : attempt d w (saveAs path) = ((.ok (), saved), w')) :
    ((Snapshot.text d.sheet.store.snapshot).utf8ByteSize ≤ Snapshot.sizeLimit →
      ∃ loaded w'', attempt d' w' (load path)
          = ((.ok (warnings path [] d.sheet.store grid), loaded), w'') ∧
        (∀ a, loaded.raw? a = d.raw? a) ∧ loaded.display = d.display ∧
        loaded.modified = false ∧ loaded.path = some path) ∧
    (Snapshot.sizeLimit < (Snapshot.text d.sheet.store.snapshot).utf8ByteSize →
      ∃ w'', attempt d' w' (load path)
        = ((.error (.size path (Snapshot.text d.sheet.store.snapshot).utf8ByteSize
            Snapshot.sizeLimit), d'), w'')) := by
  obtain ⟨hwithin, hbeyond⟩ := reading_of_writing hkeeps (writing_of_attempt_saveAs hsave)
  constructor
  · intro hlimit
    obtain ⟨w'', hread⟩ := hwithin hlimit
    have hstore : Store.ofEntries d.sheet.store.snapshot.toList = (d.sheet.store, []) :=
      Store.ofEntries_snapshot (h.readable hrows) (.refl _)
    have hload := attempt_load_of_ok (d := d') hread
    rw [hstore, hgrid] at hload
    refine ⟨d'.replace path d.sheet.store, w'', hload, fun _ => rfl, ?_, rfl, rfl⟩
    rw [h.current.display_eq_recompute, ← hgrid]
    rfl
  · intro hlimit
    obtain ⟨w'', hread⟩ := hbeyond hlimit
    exact ⟨w'', attempt_load_of_error hread⟩

end Saving

/-- A document is saved, and a second one, with other texts in it, loads the file. -/
theorem saved_is_loaded_within_limit_elsewhere :
    let w := Files.Tree.new ["home"]
    let d := (perform (new ⟨2⟩) w (.applyEdit "B1=say \"=A1\"")).document
    let other := (perform (new ⟨2⟩) w (.setCell ⟨1, 0⟩ "5")).document
    ∃ w' loaded w'', attempt d w (saveAs "sheet.json") = ((.ok (), d.saved "sheet.json"), w') ∧
      attempt other w' (load "sheet.json") = ((.ok [], loaded), w'') ∧
      loaded.raw? ⟨0, 1⟩ = some "say \"=A1\"" ∧ loaded.raw? ⟨1, 0⟩ = none ∧
      loaded.display = d.display ∧ loaded.modified = false ∧ loaded.path = some "sheet.json" := by
  intro w d other
  have hhistory : History Files.Tree ⟨2⟩ d _ := History.new.step w _
  obtain ⟨w', hsave⟩ :
      ∃ w', attempt d w (saveAs "sheet.json") = ((.ok (), d.saved "sheet.json"), w') := ⟨_, rfl⟩
  have hlimit : (Snapshot.text d.sheet.store.snapshot).utf8ByteSize ≤ Snapshot.sizeLimit := by
    decide +kernel
  have hwarnings : warnings "sheet.json" [] d.sheet.store ⟨2⟩ = [] := by decide +kernel
  obtain ⟨hload, -⟩ := saved_is_loaded_within_limit other (keeps_tree _ _ _) (by decide) hhistory
    rfl hsave
  obtain ⟨loaded, w'', hattempt, hraw, hdisplay, hmodified, hpath⟩ := hload hlimit
  have hwritten : d.raw? ⟨0, 1⟩ = some "say \"=A1\"" := by decide +kernel
  have hempty : d.raw? ⟨1, 0⟩ = none := by decide +kernel
  rw [hwarnings] at hattempt
  exact ⟨w', loaded, w'', hsave, hattempt, (hraw _).trans hwritten, (hraw _).trans hempty,
    hdisplay, hmodified, hpath⟩

/-- A document with a text that is as long as a file may be is saved, and the file is of no use to
anybody. -/
theorem attempt_load_of_long_text {W : Type} [Files (StateM W)] {d saved : Document} {w w' : W}
    {path raw : String} {a : Address} (d' : Document)
    (hkeeps : Keeps w path (Snapshot.text d.sheet.store.snapshot))
    (hraw : d.raw? a = some raw) (hlong : Snapshot.sizeLimit ≤ raw.length)
    (hsave : attempt d w (saveAs path) = ((.ok (), saved), w')) :
    ∃ size w'', attempt d' w' (load path)
      = ((.error (.size path size Snapshot.sizeLimit), d'), w'') := by
  have hlimit : Snapshot.sizeLimit < (Snapshot.text d.sheet.store.snapshot).utf8ByteSize :=
    Nat.lt_of_le_of_lt hlong (length_lt_utf8ByteSize_text hraw)
  obtain ⟨w'', hread⟩ :=
    (reading_of_writing hkeeps (writing_of_attempt_saveAs hsave)).2 hlimit
  exact ⟨_, w'', attempt_load_of_error hread⟩

/-- A text of 64 MiB is written into a cell. The document is saved, and cannot load its own file. -/
theorem saved_is_not_loaded :
    let w := Files.Tree.new ["home"]
    let d := (perform (new ⟨2⟩) w
      (.setCell ⟨0, 0⟩ (String.ofList (List.replicate Snapshot.sizeLimit 'x')))).document
    ∃ events w' size w'', History Files.Tree ⟨2⟩ d events ∧
      attempt d w (saveAs "big.json") = ((.ok (), d.saved "big.json"), w') ∧
      attempt (d.saved "big.json") w' (load "big.json")
        = ((.error (.size "big.json" size Snapshot.sizeLimit), d.saved "big.json"), w'') := by
  have hlong : Snapshot.sizeLimit
      ≤ (String.ofList (List.replicate Snapshot.sizeLimit 'x')).length :=
    Nat.le_of_eq (by rw [String.length_ofList, List.length_replicate])
  -- the text is forgotten but for its length, so that nobody writes it out
  generalize String.ofList (List.replicate Snapshot.sizeLimit 'x') = raw at hlong
  intro w d
  have hhistory : History Files.Tree ⟨2⟩ d _ := History.new.step w _
  have hwrite : ∀ text, ∃ w', writing w "big.json" text = (.ok (), w') := fun text => ⟨_, rfl⟩
  obtain ⟨w', hwrite⟩ := hwrite (Snapshot.text d.sheet.store.snapshot)
  have hsave : attempt d w (saveAs "big.json") = ((.ok (), d.saved "big.json"), w') :=
    attempt_saveAs_of_ok hwrite
  have hraw : d.raw? ⟨0, 0⟩ = some raw := by
    have hne : raw ≠ "" := by
      rintro rfl
      exact absurd hlong (by decide)
    have hwritten : d.raw? ⟨0, 0⟩ = (Store.empty.set ⟨0, 0⟩ raw).get? ⟨0, 0⟩ := rfl
    rw [hwritten, Store.get?_set, if_pos rfl, if_neg hne]
  obtain ⟨size, w'', hload⟩ :=
    attempt_load_of_long_text (d.saved "big.json") (keeps_tree _ _ _) hraw hlong hsave
  exact ⟨_, w', size, w'', hhistory, hsave, hload⟩

end Document

end FormulaSheet
