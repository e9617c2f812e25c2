/-
What the mark `modified` tells.

The mark is one bit, and it stands for a comparison of the texts with those that
were last loaded or saved, which the document does not remember. Here they are
remembered: a history has all events, and the latest load or save among those
that succeeded says what the texts were. A document without the mark holds
exactly these.

An edit compares before it writes, in a way of its own: what the cell held, the
empty text for nothing, against the new text. That this is the comparison of the
cell before the edit with the cell after it rests on the store, in which no cell
holds the empty text.
-/
import FormulaSheet.Proofs.Document.History

set_option autoImplicit false

namespace FormulaSheet.Document

/-! ## Writing what is there already -/

section Writing

variable {d : Document} {a : Address} {raw : String}

/-- A cell holds a text; to hold the empty text is to hold nothing. -/
def Holds (d : Document) (a : Address) (raw : String) : Prop :=
  d.raw? a = some raw ∨ d.raw? a = none ∧ raw = ""

/-- The comparison that an edit makes. -/
theorem holds_iff : d.Holds a raw ↔ (d.raw? a).getD "" = raw := by
  cases hraw : d.raw? a with
  | none => simp [Holds, hraw, eq_comm]
  | some held => simp [Holds, hraw]

theorem raw?_write (d : Document) (a : Address) (raw : String) :
    (d.write a raw).raw? a = if raw = "" then none else some raw := by
  simp [raw?, write, Sheet.set, Store.get?_set]

theorem raw?_write_of_ne (d : Document) {b : Address} (raw : String) (h : b ≠ a) :
    (d.write a raw).raw? b = d.raw? b := by
  simp [raw?, write, Sheet.set, Store.get?_set, h.symm]

/-- What has been written is held. -/
theorem holds_write (d : Document) (a : Address) (raw : String) : (d.write a raw).Holds a raw := by
  unfold Holds
  rw [raw?_write]
  by_cases hraw : raw = ""
  · rw [if_pos hraw]
    exact .inr ⟨rfl, hraw⟩
  · rw [if_neg hraw]
    exact .inl rfl

/-- To write a text into a cell changes the cell unless it holds the text already. -/
theorem raw?_write_eq_iff : (d.write a raw).raw? a = d.raw? a ↔ d.Holds a raw := by
  have hne : d.raw? a ≠ some "" := d.sheet.store.get?_ne_some_empty a
  rw [raw?_write, Holds]
  by_cases hraw : raw = ""
  · subst hraw
    simp [hne, eq_comm]
  · simp [hraw, eq_comm]

theorem modified_write_iff :
    (d.write a raw).modified = true ↔
      d.modified = true ∨ (d.write a raw).raw? a ≠ d.raw? a := by
  rw [Ne, raw?_write_eq_iff, holds_iff]
  simp [write]

/-- To write a text that is held leaves the store as it is. -/
theorem store_write_of_holds (h : d.Holds a raw) : (d.write a raw).sheet.store = d.sheet.store := by
  apply Store.ext
  intro b
  by_cases hb : a = b
  · subst hb
    exact raw?_write_eq_iff.2 h
  · simp [write, Sheet.set, Store.get?_set, hb]

end Writing

/-! ## What was loaded or saved last -/

section Keeping

variable {d : Document} {events : List Event} {event : Event}

/-- An operation after which a document and its file hold the same, if it succeeds. -/
def Operation.keeps : Operation → Bool
  | load _ | save | saveAs _ => true
  | _ => false

/-- A load or a save that succeeded. -/
def Event.keeps (event : Event) : Bool :=
  event.operation.keeps && event.result.isOk

@[simp] theorem Event.keeps_error (op : Operation) (e : Problem) (d : Document) :
    (Event.mk op (.error e) d).keeps = false :=
  Bool.and_false _

@[simp] theorem Event.keeps_ok (op : Operation) (v : Option Address) (d : Document) :
    (Event.mk op (.ok v) d).keeps = op.keeps :=
  Bool.and_true _

/-- What the cells held after the latest load or save that succeeded, and nothing if there was
none. -/
def kept (events : List Event) : Store :=
  (events.find? Event.keeps).elim Store.empty (·.document.sheet.store)

theorem kept_cons_of_keeps (h : event.keeps = true) :
    kept (event :: events) = event.document.sheet.store := by
  rw [kept, List.find?_cons_of_pos h, Option.elim]

theorem kept_cons_of_not_keeps (h : event.keeps = false) :
    kept (event :: events) = kept events := by
  rw [kept, List.find?_cons_of_neg (by rw [h]; decide), ← kept]

end Keeping

/-! ## What an edit writes -/

section Edits

variable {op : Operation} {a b : Address} {raw text : String} {d : Document} {event : Event}

/-- Edits do not count, however they end. -/
theorem Operation.not_keeps_of_writes (h : op.Writes a raw) : op.keeps = false := by
  cases op with
  | setCell | setCellAt | applyEdit | clearCell => rfl
  | recalculate | load | save | saveAs | writeCsv | writeMarkdown => exact h.elim

/-- A text is cut at its first sign of equality in one way. -/
theorem eq_of_append_eq_append {cs cs' rest rest' : List Char} (h : '=' ∉ cs) (h' : '=' ∉ cs')
    (heq : cs ++ '=' :: rest = cs' ++ '=' :: rest') : cs = cs' ∧ rest = rest' := by
  have htake := congrArg (List.takeWhile (· != '=')) heq
  rw [takeWhile_append_of_not_mem h, takeWhile_append_of_not_mem h'] at htake
  obtain rfl : cs = cs' := by simpa using htake
  exact ⟨rfl, by simpa using heq⟩

/-- What an edit writes, and where, is settled by the edit. -/
theorem Operation.Writes.unique (h : op.Writes a raw) (h' : op.Writes b text) :
    a = b ∧ raw = text := by
  cases op with
  | setCell | clearCell =>
    obtain ⟨rfl, rfl⟩ := h
    obtain ⟨rfl, rfl⟩ := h'
    exact ⟨rfl, rfl⟩
  | setCellAt =>
    obtain ⟨ha, rfl⟩ := h
    obtain ⟨hb, rfl⟩ := h'
    exact ⟨Option.some.inj (ha.symm.trans hb), rfl⟩
  | applyEdit =>
    obtain ⟨address, hedit, hsign, ha⟩ := h
    obtain ⟨address', hedit', hsign', hb⟩ := h'
    obtain ⟨rfl, hraw⟩ := eq_of_append_eq_append hsign hsign' (hedit.symm.trans hedit')
    exact ⟨Option.some.inj (ha.symm.trans hb), String.toList_injective hraw⟩
  | recalculate | load | save | saveAs | writeCsv | writeMarkdown => exact h.elim

/-- An edit is refused, or writes its text into its cell. -/
theorem Change.of_writes (hwrites : event.operation.Writes a raw) (hchange : Change d event) :
    (∃ e, event.result = .error e) ∧ event.document = d ∨
      event.result = .ok (some a) ∧ event.document = d.write a raw := by
  cases hchange with
  | refused op e => exact .inl ⟨⟨e, rfl⟩, rfl⟩
  | wrote hwrites' =>
    obtain ⟨rfl, rfl⟩ := hwrites.unique hwrites'
    exact .inr ⟨rfl, rfl⟩
  | recalculated => exact hwrites.elim
  | loaded => exact hwrites.elim
  | saved hop =>
    obtain rfl | ⟨rfl, -⟩ := hop
    · exact hwrites.elim
    · exact hwrites.elim
  | exported hop =>
    obtain rfl | rfl := hop
    · exact hwrites.elim
    · exact hwrites.elim

end Edits

/-! ## The mark -/

section Marks

variable {W : Type} [Files (StateM W)] {grid : Grid} {d : Document} {events : List Event}
  {event : Event}

/-- The mark is reset by a load or a save that succeeds, and by nothing else; it is set by an edit
that changes its cell, and by nothing else. -/
theorem Change.modified_iff (hchange : Change d event) :
    event.document.modified = true ↔ event.keeps = false ∧
      (d.modified = true ∨
        ∃ a, event.result = .ok (some a) ∧ event.document.raw? a ≠ d.raw? a) := by
  cases hchange with
  | refused => simp
  | wrote hwrites => simp [modified_write_iff, Operation.not_keeps_of_writes hwrites]
  | recalculated => simp [Operation.keeps]
  | loaded => simp [Operation.keeps, replace]
  | saved hop =>
    obtain rfl | ⟨rfl, -⟩ := hop
    · simp [Operation.keeps, Document.saved]
    · simp [Operation.keeps, Document.saved]
  | exported hop =>
    obtain rfl | rfl := hop
    · simp [Operation.keeps]
    · simp [Operation.keeps]

/-- What is neither a load nor a save and leaves no mark, leaves the texts as they were. -/
theorem Change.store_eq (hchange : Change d event) (hkeeps : event.keeps = false)
    (hmark : event.document.modified = false) : event.document.sheet.store = d.sheet.store := by
  cases hchange with
  | refused => rfl
  | @wrote op a raw =>
    apply store_write_of_holds
    rw [← raw?_write_eq_iff]
    by_cases hsame : (d.write a raw).raw? a = d.raw? a
    · exact hsame
    · rw [modified_write_iff.2 (.inr hsame)] at hmark
      cases hmark
  | recalculated => rfl
  | loaded => cases hkeeps
  | saved => rfl
  | exported => rfl

/-- A document without the mark holds what was loaded or saved last. -/
theorem History.store_eq_kept (h : History W grid d events) (hmark : d.modified = false) :
    d.sheet.store = kept events := by
  refine h.invariant (P := fun d events => d.modified = false → d.sheet.store = kept events)
    (fun _ => rfl) (fun _ _ => rfl) ?_ hmark
  intro d events event ih hchange hmark
  cases hkeeps : event.keeps with
  | true => rw [kept_cons_of_keeps hkeeps]
  | false =>
    -- the mark cannot have been there before, for only a load or a save takes it away
    have hbefore : d.modified = false := by
      cases hmarked : d.modified with
      | false => rfl
      | true =>
        rw [hchange.modified_iff.2 ⟨hkeeps, .inl hmarked⟩] at hmark
        cases hmark
    calc event.document.sheet.store = d.sheet.store := hchange.store_eq hkeeps hmark
      _ = kept events := ih hbefore
      _ = kept (event :: events) := (kept_cons_of_not_keeps hkeeps).symm

/-- **The mark misses no change.** A document without the mark holds exactly what it held after the
latest load or save that succeeded, or nothing if there was none. After an operation the mark is
set if and only if the operation was no load or save that succeeded, and either the mark was set
before or the operation was an edit that changed what its cell holds. So an edit that writes what
its cell holds already, the empty text into an empty cell among them, leaves the mark as it is. -/
theorem mark_misses_no_change (d : Document) :
    (∀ grid events, History W grid d events → d.modified = false →
      d.sheet.store = kept events) ∧
    ∀ (w : W) (op : Operation),
      ((perform d w op).document.modified = true ↔ (perform d w op).keeps = false ∧
        (d.modified = true ∨ ∃ a, (perform d w op).result = .ok (some a) ∧
          (perform d w op).document.raw? a ≠ d.raw? a)) ∧
      ∀ a raw, op.Writes a raw →
        (∀ v, (perform d w op).result = .ok v →
          v = some a ∧ (perform d w op).document.Holds a raw) ∧
        (d.Holds a raw → (perform d w op).document.modified = d.modified) := by
  refine ⟨fun grid events h hmark => h.store_eq_kept hmark, fun w op => ?_⟩
  have hchange : Change d (perform d w op) := change_perform d w op
  refine ⟨hchange.modified_iff, fun a raw hwrites => ?_⟩
  obtain ⟨⟨e, hresult⟩, hdocument⟩ | ⟨hresult, hdocument⟩ := hchange.of_writes hwrites
  · rw [hresult, hdocument]
    exact ⟨fun v hv => (by cases hv), fun _ => rfl⟩
  · rw [hresult, hdocument]
    refine ⟨fun v hv => ?_, fun hholds => ?_⟩
    · obtain rfl : some a = v := Except.ok.inj hv
      exact ⟨rfl, holds_write d a raw⟩
    · rw [Bool.eq_iff_iff, modified_write_iff, raw?_write_eq_iff.2 hholds]
      simp

end Marks

/-- A text that is saved and then written once more into its cell. -/
theorem mark_misses_no_change_rewritten :
    let w := Files.Tree.new ["home"]
    let edit := perform (new ⟨2⟩) w (.applyEdit "A1=7")
    let save := perform edit.document w (.saveAs "sheet.json")
    let again := perform save.document w (.setCell ⟨0, 0⟩ "7")
    edit.document.modified = true ∧ save.document.modified = false ∧
      save.document.sheet.store = kept [save, edit] ∧
      again.result = .ok (some ⟨0, 0⟩) ∧ again.document.Holds ⟨0, 0⟩ "7" ∧
      again.document.modified = false := by
  intro w edit save again
  have hhistory : History Files.Tree ⟨2⟩ save.document [save, edit] :=
    (History.new.step w _).step w _
  have hsaved : save.document.modified = false := rfl
  have hholds : save.document.Holds ⟨0, 0⟩ "7" := .inl rfl
  have hwrote : edit.document.raw? ⟨0, 0⟩ ≠ (new ⟨2⟩).raw? ⟨0, 0⟩ := by
    decide +kernel
  obtain ⟨-, hedit⟩ := mark_misses_no_change (W := Files.Tree) (new ⟨2⟩)
  obtain ⟨hkept, hagain⟩ := mark_misses_no_change (W := Files.Tree) save.document
  obtain ⟨-, hwrites⟩ := hagain w (.setCell ⟨0, 0⟩ "7")
  obtain ⟨haccepted, hunchanged⟩ := hwrites ⟨0, 0⟩ "7" ⟨rfl, rfl⟩
  refine ⟨?_, hsaved, hkept _ _ hhistory hsaved, rfl, (haccepted _ rfl).2, ?_⟩
  · exact (hedit w _).1.2 ⟨rfl, .inr ⟨_, rfl, hwrote⟩⟩
  · exact (hunchanged hholds).trans hsaved

end FormulaSheet.Document
