/-
What an operation can do to a document.

There are ten operations, and each of them is a step that may fail in the middle
of what it does. The files are not part of the document and may be anything: a
world is a type of which nothing is known but that the four ways to get at files
can be gone in it, with whatever answers and whatever changes. So what is said
here is said of every system of files, of one that refuses a write halfway and
of one in which somebody else is at work.

First each operation is carried out once, from the monad down to the document
that is left and the result that is given, for every answer the files may give.
From then on nobody looks into an operation: what it can have done is one of six
things (`Change`), one of which is nothing, and that is what a failure does.
-/
import FormulaSheet.Document.Storage

set_option autoImplicit false

namespace FormulaSheet.Document

/-! ## Steps in a world -/

section Steps

variable {W α β : Type} {d d' : Document} {w w' : W} {e : Problem}

/-- What a step gives and what document it leaves, whether or not it fails, and the world
afterwards. -/
def attempt (d : Document) (w : W) (step : Editing (StateM W) α) :
    (Except Problem α × Document) × W :=
  (step.run.run d).run w

theorem attempt_pure (v : α) :
    attempt d w (pure v : Editing (StateM W) α) = ((.ok v, d), w) :=
  rfl

theorem attempt_throw : attempt d w (throw e : Editing (StateM W) α) = ((.error e, d), w) :=
  rfl

theorem attempt_get : attempt d w (get : Editing (StateM W) Document) = ((.ok d, d), w) :=
  rfl

theorem attempt_set : attempt d w (set d' : Editing (StateM W) PUnit) = ((.ok ⟨⟩, d'), w) :=
  rfl

theorem attempt_modify (f : Document → Document) :
    attempt d w (modify f : Editing (StateM W) PUnit) = ((.ok ⟨⟩, f d), w) :=
  rfl

/-- What does not touch the document gives what it gives without one. -/
theorem attempt_beside (action : ExceptT Problem (StateM W) α) :
    attempt d w (beside action) = (((action.run.run w).1, d), (action.run.run w).2) :=
  rfl

theorem attempt_bind_of_ok {step : Editing (StateM W) α} {next : α → Editing (StateM W) β} {v : α}
    (h : attempt d w step = ((.ok v, d'), w')) :
    attempt d w (step >>= next) = attempt d' w' (next v) := by
  unfold attempt at h ⊢
  rw [ExceptT.run_bind, StateT.run_bind, StateT.run_bind, h]
  rfl

/-- After a failure nothing more is done. -/
theorem attempt_bind_of_error {step : Editing (StateM W) α} {next : α → Editing (StateM W) β}
    (h : attempt d w step = ((.error e, d'), w')) :
    attempt d w (step >>= next) = ((.error e, d'), w') := by
  unfold attempt at h ⊢
  rw [ExceptT.run_bind, StateT.run_bind, StateT.run_bind, h]
  rfl

/-- If something is returned after a step, the step has succeeded, and its document is left. -/
theorem exists_of_attempt_bind_pure {step : Editing (StateM W) α} {f : α → β} {v : β}
    (h : attempt d w (do let x ← step; return f x) = ((.ok v, d'), w')) :
    ∃ x, attempt d w step = ((.ok x, d'), w') := by
  obtain ⟨⟨⟨result, d₁⟩, w₁⟩, hstep⟩ : ∃ r, attempt d w step = r := ⟨_, rfl⟩
  cases result with
  | ok x =>
    rw [attempt_bind_of_ok hstep, attempt_pure, Prod.mk.injEq, Prod.mk.injEq] at h
    obtain ⟨⟨-, rfl⟩, rfl⟩ := h
    exact ⟨x, hstep⟩
  | error e =>
    rw [attempt_bind_of_error hstep] at h
    cases h

end Steps

/-! ## Edits -/

section Edits

variable {W : Type}

section Cells

variable {d : Document} {w : W} {a : Address}

theorem attempt_setCell_of_contains (h : d.sheet.grid.contains a = true) (raw : String) :
    attempt d w (setCell a raw) = ((.ok (), d.write a raw), w) := by
  unfold setCell
  rw [attempt_bind_of_ok attempt_get, if_pos h, attempt_set]

theorem attempt_setCell_of_not_contains (h : ¬ d.sheet.grid.contains a = true) (raw : String) :
    attempt d w (setCell a raw) = ((.error (.outside a d.sheet.grid.rows), d), w) := by
  unfold setCell
  rw [attempt_bind_of_ok attempt_get, if_neg h, attempt_throw]

end Cells

/-- A text is written into a cell of the grid, and into no other cell. -/
theorem attempt_setCell_cases (d : Document) (w : W) (a : Address) (raw : String) :
    (d.sheet.grid.contains a = true ∧
        attempt d w (setCell a raw) = ((.ok (), d.write a raw), w)) ∨
      attempt d w (setCell a raw) = ((.error (.outside a d.sheet.grid.rows), d), w) := by
  by_cases h : d.sheet.grid.contains a = true
  · exact .inl ⟨h, attempt_setCell_of_contains h raw⟩
  · exact .inr (attempt_setCell_of_not_contains h raw)

theorem attempt_setCellAt_cases (d : Document) (w : W) (address : List Char) (raw : String) :
    (∃ a, Address.ofChars? (Text.trim address) = some a ∧ d.sheet.grid.contains a = true ∧
        attempt d w (setCellAt address raw) = ((.ok a, d.write a raw), w)) ∨
      ∃ e, attempt d w (setCellAt address raw) = ((.error e, d), w) := by
  cases haddress : Address.ofChars? (Text.trim address) with
  | none =>
    simp only [setCellAt, haddress]
    exact .inr ⟨_, attempt_throw⟩
  | some a =>
    simp only [setCellAt, haddress]
    rcases attempt_setCell_cases d w a raw with ⟨hinside, hset⟩ | hset
    · rw [attempt_bind_of_ok hset, attempt_pure]
      exact .inl ⟨a, rfl, hinside, rfl⟩
    · rw [attempt_bind_of_error hset]
      exact .inr ⟨_, rfl⟩

/-- What comes before the first sign of equality of a text. -/
theorem takeWhile_append_of_not_mem {cs : List Char} (h : '=' ∉ cs) (rest : List Char) :
    (cs ++ rest).takeWhile (· != '=') = cs ++ rest.takeWhile (· != '=') := by
  apply List.takeWhile_append_of_pos
  intro c hc
  rw [bne_iff_ne]
  rintro rfl
  exact h hc

/-- An edit is cut at its first sign of equality. -/
theorem applyEdit_of_split {edit : String} {address raw : List Char}
    (hedit : edit.toList = address ++ '=' :: raw) (haddress : '=' ∉ address) :
    (applyEdit edit : Editing (StateM W) Address) =
      if (Text.trim address).isEmpty then throw (.edit edit)
      else setCellAt address (String.ofList raw) := by
  have htake : edit.toList.takeWhile (· != '=') = address := by
    rw [hedit, takeWhile_append_of_not_mem haddress]
    simp
  have hdrop : edit.toList.drop address.length = '=' :: raw := by
    rw [hedit, List.drop_left]
  simp only [applyEdit, htake, hdrop]

theorem applyEdit_of_not_mem {edit : String} (h : '=' ∉ edit.toList) :
    (applyEdit edit : Editing (StateM W) Address) = throw (.edit edit) := by
  have htake : edit.toList.takeWhile (· != '=') = edit.toList := by
    simpa using takeWhile_append_of_not_mem h []
  simp only [applyEdit, htake, List.drop_length]

theorem attempt_applyEdit_cases (d : Document) (w : W) (edit : String) :
    (∃ address raw a, edit.toList = address ++ '=' :: raw ∧ '=' ∉ address ∧
        Address.ofChars? (Text.trim address) = some a ∧ d.sheet.grid.contains a = true ∧
        attempt d w (applyEdit edit) = ((.ok a, d.write a (String.ofList raw)), w)) ∨
      ∃ e, attempt d w (applyEdit edit) = ((.error e, d), w) := by
  by_cases hsign : '=' ∈ edit.toList
  · obtain ⟨address, raw, hedit, haddress⟩ := List.eq_append_cons_of_mem hsign
    rw [applyEdit_of_split hedit haddress]
    by_cases hblank : (Text.trim address).isEmpty = true
    · rw [if_pos hblank]
      exact .inr ⟨_, attempt_throw⟩
    · rw [if_neg hblank]
      rcases attempt_setCellAt_cases d w address (String.ofList raw) with
        ⟨a, ha, hinside, hset⟩ | hset
      · exact .inl ⟨address, raw, a, hedit, haddress, ha, hinside, hset⟩
      · exact .inr hset
  · rw [applyEdit_of_not_mem hsign]
    exact .inr ⟨_, attempt_throw⟩

theorem attempt_recalculate (d : Document) (w : W) :
    attempt d w recalculate = ((.ok (), { d with display := d.sheet.recompute }), w) :=
  attempt_modify _

end Edits

/-! ## Files -/

section Files

variable {W : Type} [Files (StateM W)] {d : Document} {w w' : W} {path text : String}

/-- What comes of reading a snapshot file, and the world afterwards. -/
def reading (w : W) (path : String) : Except Problem Snapshot × W :=
  (Snapshot.load path : ExceptT Problem (StateM W) Snapshot).run.run w

/-- What comes of writing a file, and the world afterwards. -/
def writing (w : W) (path text : String) : Except FileError Unit × W :=
  (Files.write path text.toUTF8 : StateM W (Except FileError Unit)).run w

theorem reading_cases (w : W) (path : String) :
    (∃ s w', reading w path = (.ok s, w')) ∨ ∃ e w', reading w path = (.error e, w') := by
  obtain ⟨⟨result, w'⟩, hread⟩ : ∃ r, reading w path = r := ⟨_, rfl⟩
  cases result with
  | ok s => exact .inl ⟨s, w', hread⟩
  | error e => exact .inr ⟨e, w', hread⟩

theorem writing_cases (w : W) (path text : String) :
    (∃ w', writing w path text = (.ok (), w')) ∨ ∃ e w', writing w path text = (.error e, w') := by
  obtain ⟨⟨result, w'⟩, hwrite⟩ : ∃ r, writing w path text = r := ⟨_, rfl⟩
  cases result with
  | ok _ => exact .inl ⟨w', hwrite⟩
  | error e => exact .inr ⟨e, w', hwrite⟩

/-- Nothing of the document changes before the file has been understood. -/
theorem attempt_load_of_error {e : Problem} (h : reading w path = (.error e, w')) :
    attempt d w (load path) = ((.error e, d), w') := by
  have hread : attempt d w (beside (Snapshot.load path)) = ((.error e, d), w') := by
    rw [attempt_beside, ← reading, h]
  exact attempt_bind_of_error hread

theorem attempt_load_of_ok {s : Snapshot} (h : reading w path = (.ok s, w')) :
    attempt d w (load path)
      = ((.ok (warnings path (Store.ofEntries s.toList).2 (Store.ofEntries s.toList).1
            d.sheet.grid),
          d.replace path (Store.ofEntries s.toList).1), w') := by
  have hread : attempt d w (beside (Snapshot.load path)) = ((.ok s, d), w') := by
    rw [attempt_beside, ← reading, h]
  unfold load
  rw [attempt_bind_of_ok hread]
  exact (attempt_bind_of_ok attempt_get).trans
    ((attempt_bind_of_ok attempt_set).trans (attempt_pure _))

/-- To write a file touches nothing of the document. -/
theorem attempt_write (d : Document) (w : W) (path text : String) :
    attempt d w (beside ((Files.writeText path text).adapt Problem.file))
      = (((writing w path text).1.mapError Problem.file, d), (writing w path text).2) :=
  rfl

theorem attempt_saveAs_of_error {e : FileError}
    (h : writing w path (Snapshot.text d.sheet.store.snapshot) = (.error e, w')) :
    attempt d w (saveAs path) = ((.error (.file e), d), w') := by
  unfold saveAs
  rw [attempt_bind_of_ok attempt_get]
  apply attempt_bind_of_error
  rw [attempt_write, h]
  rfl

theorem attempt_saveAs_of_ok
    (h : writing w path (Snapshot.text d.sheet.store.snapshot) = (.ok (), w')) :
    attempt d w (saveAs path) = ((.ok (), d.saved path), w') := by
  unfold saveAs
  rw [attempt_bind_of_ok attempt_get, attempt_bind_of_ok (by rw [attempt_write, h]; rfl),
    attempt_set]

theorem attempt_writeCsv (d : Document) (w : W) (path : String) :
    attempt d w (writeCsv path)
      = (((writing w path (Csv.text d.display)).1.mapError Problem.file, d),
          (writing w path (Csv.text d.display)).2) := by
  unfold writeCsv
  rw [attempt_bind_of_ok attempt_get, attempt_write]

theorem attempt_writeMarkdown (d : Document) (w : W) (path : String) :
    attempt d w (writeMarkdown path)
      = (((writing w path (Markdown.text d.display)).1.mapError Problem.file, d),
          (writing w path (Markdown.text d.display)).2) := by
  unfold writeMarkdown
  rw [attempt_bind_of_ok attempt_get, attempt_write]

theorem attempt_save_of_none (hpath : d.path = none) :
    attempt d w (save : Editing (StateM W) String) = ((.error .noFile, d), w) := by
  unfold save
  rw [attempt_bind_of_ok attempt_get]
  simp only [hpath]
  exact attempt_throw

/-- To save is to save to the file of the document. -/
theorem attempt_save_of_some (hpath : d.path = some path) :
    attempt d w (save : Editing (StateM W) String)
      = attempt d w (do saveAs path; return path) := by
  unfold save
  rw [attempt_bind_of_ok attempt_get]
  simp only [hpath]

end Files

/-! ## Operations -/

/-- What can be asked of a document. -/
inductive Operation where
  | setCell (a : Address) (raw : String)
  | setCellAt (address : List Char) (raw : String)
  | applyEdit (edit : String)
  | clearCell (a : Address)
  | recalculate
  | load (path : String)
  | save
  | saveAs (path : String)
  | writeCsv (path : String)
  | writeMarkdown (path : String)

namespace Operation

/-- The step that an operation is. An edit gives the cell that it wrote into. -/
def step {m : Type → Type} [Monad m] [Files m] : Operation → Editing m (Option Address)
  | setCell a raw => do
    Document.setCell a raw
    return some a
  | setCellAt address raw => return some (← Document.setCellAt address raw)
  | applyEdit edit => return some (← Document.applyEdit edit)
  | clearCell a => do
    Document.clearCell a
    return some a
  | recalculate => do
    Document.recalculate
    return none
  | load path => do
    let _ ← Document.load path
    return none
  | save => do
    let _ ← Document.save
    return none
  | saveAs path => do
    Document.saveAs path
    return none
  | writeCsv path => do
    Document.writeCsv path
    return none
  | writeMarkdown path => do
    Document.writeMarkdown path
    return none

/-- An operation that, if it is accepted, writes a text into a cell. -/
def Writes : Operation → Address → String → Prop
  | setCell a raw, b, text => a = b ∧ raw = text
  | setCellAt address raw, b, text => Address.ofChars? (Text.trim address) = some b ∧ raw = text
  | applyEdit edit, b, text => ∃ address,
    edit.toList = address ++ '=' :: text.toList ∧ '=' ∉ address ∧
      Address.ofChars? (Text.trim address) = some b
  | clearCell a, b, text => a = b ∧ text = ""
  | _, _, _ => False

end Operation

/-- What came of an operation: the result that it gave, and the document that it left. -/
structure Event where
  operation : Operation
  result : Except Problem (Option Address)
  document : Document

/-- What comes of an operation in a world. -/
def perform {W : Type} [Files (StateM W)] (d : Document) (w : W) (op : Operation) : Event where
  operation := op
  result := (attempt d w op.step).1.1
  document := (attempt d w op.step).1.2

/-- What may have come of an operation on a document. -/
inductive Change (d : Document) : Event → Prop
  /-- It failed, and the document is what it was. -/
  | refused (op : Operation) (e : Problem) : Change d ⟨op, .error e, d⟩
  /-- It wrote a text into a cell of the grid. -/
  | wrote {op : Operation} {a : Address} {raw : String} (hwrites : op.Writes a raw)
      (hinside : d.sheet.grid.contains a = true) : Change d ⟨op, .ok (some a), d.write a raw⟩
  | recalculated :
      Change d ⟨.recalculate, .ok none, { d with display := d.sheet.recompute }⟩
  /-- It replaced all texts by those of a snapshot. -/
  | loaded (path : String) (s : Snapshot) :
      Change d ⟨.load path, .ok none, d.replace path (Store.ofEntries s.toList).1⟩
  | saved {op : Operation} {path : String}
      (hop : op = .saveAs path ∨ op = .save ∧ d.path = some path) :
      Change d ⟨op, .ok none, d.saved path⟩
  /-- It wrote an export. -/
  | exported {op : Operation} {path : String}
      (hop : op = .writeCsv path ∨ op = .writeMarkdown path) : Change d ⟨op, .ok none, d⟩

/-! ## What comes of an operation -/

section Outcomes

variable {W : Type} [Files (StateM W)] {d : Document} {w w' : W} {path : String} {e : Problem}

theorem change_setCell (d : Document) (w : W) (a : Address) (raw : String) :
    Change d (perform d w (.setCell a raw)) := by
  rcases attempt_setCell_cases d w a raw with ⟨hinside, hset⟩ | hset
  · rw [perform, Operation.step, attempt_bind_of_ok hset, attempt_pure]
    exact .wrote ⟨rfl, rfl⟩ hinside
  · rw [perform, Operation.step, attempt_bind_of_error hset]
    exact .refused _ _

theorem change_setCellAt (d : Document) (w : W) (address : List Char) (raw : String) :
    Change d (perform d w (.setCellAt address raw)) := by
  rcases attempt_setCellAt_cases d w address raw with ⟨a, ha, hinside, hset⟩ | ⟨e, hset⟩
  · rw [perform, Operation.step, attempt_bind_of_ok hset, attempt_pure]
    exact .wrote ⟨ha, rfl⟩ hinside
  · rw [perform, Operation.step, attempt_bind_of_error hset]
    exact .refused _ _

theorem change_applyEdit (d : Document) (w : W) (edit : String) :
    Change d (perform d w (.applyEdit edit)) := by
  rcases attempt_applyEdit_cases d w edit with
    ⟨address, raw, a, hedit, haddress, ha, hinside, hset⟩ | ⟨e, hset⟩
  · rw [perform, Operation.step, attempt_bind_of_ok hset, attempt_pure]
    exact .wrote ⟨address, by rw [hedit, String.toList_ofList], haddress, ha⟩ hinside
  · rw [perform, Operation.step, attempt_bind_of_error hset]
    exact .refused _ _

theorem change_clearCell (d : Document) (w : W) (a : Address) :
    Change d (perform d w (.clearCell a)) := by
  rcases attempt_setCell_cases d w a "" with ⟨hinside, hset⟩ | hset
  · have hclear : attempt d w (clearCell a) = ((.ok (), d.write a ""), w) := hset
    rw [perform, Operation.step, attempt_bind_of_ok hclear, attempt_pure]
    exact .wrote ⟨rfl, rfl⟩ hinside
  · have hclear : attempt d w (clearCell a) = ((.error _, d), w) := hset
    rw [perform, Operation.step, attempt_bind_of_error hclear]
    exact .refused _ _

theorem perform_load_of_ok {s : Snapshot} (h : reading w path = (.ok s, w')) :
    perform d w (.load path)
      = ⟨.load path, .ok none, d.replace path (Store.ofEntries s.toList).1⟩ := by
  rw [perform, Operation.step, attempt_bind_of_ok (attempt_load_of_ok h), attempt_pure]

theorem perform_load_of_error (h : reading w path = (.error e, w')) :
    perform d w (.load path) = ⟨.load path, .error e, d⟩ := by
  rw [perform, Operation.step, attempt_bind_of_error (attempt_load_of_error h)]

theorem change_load (d : Document) (w : W) (path : String) :
    Change d (perform d w (.load path)) := by
  rcases reading_cases w path with ⟨s, w', hread⟩ | ⟨e, w', hread⟩
  · rw [perform_load_of_ok hread]
    exact .loaded path s
  · rw [perform_load_of_error hread]
    exact .refused _ _

theorem perform_saveAs_of_ok
    (h : writing w path (Snapshot.text d.sheet.store.snapshot) = (.ok (), w')) :
    perform d w (.saveAs path) = ⟨.saveAs path, .ok none, d.saved path⟩ := by
  rw [perform, Operation.step, attempt_bind_of_ok (attempt_saveAs_of_ok h), attempt_pure]

theorem perform_saveAs_of_error {cause : FileError}
    (h : writing w path (Snapshot.text d.sheet.store.snapshot) = (.error cause, w')) :
    perform d w (.saveAs path) = ⟨.saveAs path, .error (.file cause), d⟩ := by
  rw [perform, Operation.step, attempt_bind_of_error (attempt_saveAs_of_error h)]

theorem change_saveAs (d : Document) (w : W) (path : String) :
    Change d (perform d w (.saveAs path)) := by
  rcases writing_cases w path (Snapshot.text d.sheet.store.snapshot) with
    ⟨w', hwrite⟩ | ⟨e, w', hwrite⟩
  · rw [perform_saveAs_of_ok hwrite]
    exact .saved (.inl rfl)
  · rw [perform_saveAs_of_error hwrite]
    exact .refused _ _

theorem perform_save_of_none (hpath : d.path = none) :
    perform d w .save = ⟨.save, .error .noFile, d⟩ := by
  rw [perform, Operation.step, attempt_bind_of_error (attempt_save_of_none hpath)]

/-- To save gives and leaves what it does to save to the file of the document. -/
theorem perform_save_of_some (hpath : d.path = some path) :
    perform d w .save = { perform d w (.saveAs path) with operation := .save } := by
  have hsave := attempt_save_of_some (w := w) hpath
  rcases writing_cases w path (Snapshot.text d.sheet.store.snapshot) with
    ⟨w', hwrite⟩ | ⟨e, w', hwrite⟩
  · rw [attempt_bind_of_ok (attempt_saveAs_of_ok hwrite), attempt_pure] at hsave
    rw [perform_saveAs_of_ok hwrite, perform, Operation.step, attempt_bind_of_ok hsave,
      attempt_pure]
  · rw [attempt_bind_of_error (attempt_saveAs_of_error hwrite)] at hsave
    rw [perform_saveAs_of_error hwrite, perform, Operation.step, attempt_bind_of_error hsave]

theorem change_save (d : Document) (w : W) : Change d (perform d w .save) := by
  cases hpath : d.path with
  | none =>
    rw [perform_save_of_none hpath]
    exact .refused _ _
  | some path =>
    rw [perform_save_of_some hpath]
    rcases writing_cases w path (Snapshot.text d.sheet.store.snapshot) with
      ⟨w', hwrite⟩ | ⟨e, w', hwrite⟩
    · rw [perform_saveAs_of_ok hwrite]
      exact .saved (.inr ⟨rfl, hpath⟩)
    · rw [perform_saveAs_of_error hwrite]
      exact .refused _ _

/-- An export leaves the document as it is, whether or not its file can be written. -/
theorem change_export {op : Operation} {path text : String} {write : Editing (StateM W) Unit}
    (hop : op = .writeCsv path ∨ op = .writeMarkdown path)
    (hstep : op.step = do write; return none)
    (hexport : attempt d w write = (((writing w path text).1.mapError Problem.file, d),
      (writing w path text).2)) : Change d (perform d w op) := by
  rw [perform, hstep]
  rcases writing_cases w path text with ⟨w', hwrite⟩ | ⟨e, w', hwrite⟩
  · rw [hwrite] at hexport
    rw [attempt_bind_of_ok hexport, attempt_pure]
    exact .exported hop
  · rw [hwrite] at hexport
    rw [attempt_bind_of_error hexport]
    exact .refused _ _

/-- **The outcome of every operation** is one of the six, in every world. -/
theorem change_perform (d : Document) (w : W) (op : Operation) : Change d (perform d w op) := by
  cases op with
  | setCell a raw => exact change_setCell d w a raw
  | setCellAt address raw => exact change_setCellAt d w address raw
  | applyEdit edit => exact change_applyEdit d w edit
  | clearCell a => exact change_clearCell d w a
  | recalculate =>
    rw [perform, Operation.step, attempt_bind_of_ok (attempt_recalculate d w), attempt_pure]
    exact .recalculated
  | load path => exact change_load d w path
  | save => exact change_save d w
  | saveAs path => exact change_saveAs d w path
  | writeCsv path => exact change_export (.inl rfl) rfl (attempt_writeCsv d w path)
  | writeMarkdown path => exact change_export (.inr rfl) rfl (attempt_writeMarkdown d w path)

end Outcomes

end FormulaSheet.Document
