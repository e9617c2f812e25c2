/-
One edit, one cell.

An edit is a text of three parts: an address, which may have blanks around it, the
first sign of equality, and what is to be written. Each part says what it is without
the reader: the cut is at the first sign because none stands before it (`Cut`), and
the address is one of its spellings between blanks (`Names`). That trimming and
reading find just these is `names_iff`.

Every edit is accepted or refused, and for one reason (`accepts_or_refuses`). To
carry out an accepted one is to write into the cell that is named, with nothing
lost on the way (`applyEdit_of_names`). So it is enough to know what an accepted
edit does and what a refused one does; that nothing else is accepted follows from
there being no third kind.
-/
import FormulaSheet.Proofs.Address.Spelling
import FormulaSheet.Proofs.Document.Modified
import Mathlib.Data.List.TakeWhile

set_option autoImplicit false

namespace FormulaSheet

/-! ## Blanks at the two ends -/

namespace Text

variable {before core after cs : List Char}

theorem dropBlanks_append_of_blank (h : ∀ c ∈ before, isBlank c = true) (cs : List Char) :
    dropBlanks (before ++ cs) = dropBlanks cs :=
  List.dropWhile_append_of_pos h

theorem dropBlanks_of_not_blank (h : ∀ c ∈ core, isBlank c = false) : dropBlanks core = core := by
  cases core with
  | nil => rfl
  | cons c core => exact dropBlanks_cons_of_not (h c List.mem_cons_self)

theorem exists_append_dropBlanks (cs : List Char) :
    ∃ before, cs = before ++ dropBlanks cs ∧ ∀ c ∈ before, isBlank c = true :=
  ⟨cs.takeWhile isBlank, List.takeWhile_append_dropWhile.symm,
    fun _ hc => List.mem_takeWhile_imp hc⟩

/-- What is trimmed away are blanks. -/
theorem exists_append_trim (cs : List Char) :
    ∃ before after, cs = before ++ trim cs ++ after ∧ ∀ c ∈ before ++ after, isBlank c = true := by
  obtain ⟨before, hbefore, hblank⟩ := exists_append_dropBlanks cs
  obtain ⟨after, hafter, hblank'⟩ := exists_append_dropBlanks (dropBlanks cs).reverse
  refine ⟨before, after.reverse, ?_, ?_⟩
  · have hcore : dropBlanks cs = trim cs ++ after.reverse := by
      rw [trim, ← List.reverse_append, ← hafter, List.reverse_reverse]
    rw [List.append_assoc, ← hcore]
    exact hbefore
  · intro c hc
    rcases List.mem_append.mp hc with hc | hc
    · exact hblank c hc
    · exact hblank' c (List.mem_reverse.mp hc)

/-- A text in which there are no blanks is found between blanks. -/
theorem trim_append_of_blank (hne : core ≠ []) (hcore : ∀ c ∈ core, isBlank c = false)
    (h : ∀ c ∈ before ++ after, isBlank c = true) : trim (before ++ core ++ after) = core := by
  -- the first cut stops at the first character of the core, the second at its last
  have hleft : dropBlanks (before ++ core ++ after) = core ++ after := by
    rw [List.append_assoc,
      dropBlanks_append_of_blank (fun c hc => h c (List.mem_append_left after hc))]
    obtain ⟨c, tail, rfl⟩ := List.exists_cons_of_ne_nil hne
    exact dropBlanks_cons_of_not (hcore c List.mem_cons_self)
  have hright : dropBlanks (core ++ after).reverse = core.reverse := by
    rw [List.reverse_append, dropBlanks_append_of_blank (fun c hc =>
      h c (List.mem_append_right before (List.mem_reverse.mp hc)))]
    exact dropBlanks_of_not_blank fun c hc => hcore c (List.mem_reverse.mp hc)
  rw [trim, hleft, hright, List.reverse_reverse]

theorem trim_eq_nil_iff : trim cs = [] ↔ ∀ c ∈ cs, isBlank c = true := by
  constructor
  · intro h
    obtain ⟨before, after, hsplit, hblank⟩ := exists_append_trim cs
    rw [h, List.append_nil] at hsplit
    rwa [hsplit]
  · intro h
    have hdrop : dropBlanks cs = [] := List.dropWhile_eq_nil_iff.mpr h
    rw [trim, hdrop]
    rfl

end Text

/-! ## Addresses between blanks -/

namespace Address

/-- No character of a spelling is a blank or a sign of equality. -/
theorem Spelling.plain_of_mem (w : Spelling) {c : Char} (h : c ∈ w.chars) :
    Text.isBlank c = false ∧ c ≠ '=' := by
  have halphanum : c.isAlphanum = true := by
    rw [Char.isAlphanum, Bool.or_eq_true]
    obtain rfl | hdigit := List.mem_cons.mp h
    · exact .inl w.isAlpha_letter
    · exact .inr (w.isDigit_of_mem c hdigit)
  have hcode : c.toNat < 123 := by
    rcases Bool.or_eq_true_iff.mp halphanum with halpha | hdigit
    · exact Column.code_lt_of_isAlpha halpha
    · have hbounds := (Char.isDigit_iff_toNat.mp hdigit).2
      exact Nat.lt_of_le_of_lt hbounds (by decide)
  exact forall_char_of_forall_code
    (P := fun c => c.isAlphanum = true → Text.isBlank c = false ∧ c ≠ '=') (by decide) hcode
    halphanum

end Address

namespace Document

open Address (Spelling)

/-! ## The parts of an edit -/

/-- An edit is cut at its first sign of equality. -/
structure Cut (edit : String) (part : List Char) (raw : String) : Prop where
  toList_eq : edit.toList = part ++ '=' :: raw.toList
  not_mem : '=' ∉ part

/-- A text is a spelling of an address with blanks around it. -/
def Names (part : List Char) (a : Address) : Prop :=
  ∃ (before after : List Char) (w : Spelling), part = before ++ w.chars ++ after ∧
    (∀ c ∈ before ++ after, Text.isBlank c = true) ∧ w.address = a

/-- An edit that writes a text into a cell of a sheet with a number of rows. -/
def Accepts (rows : Nat) (edit : String) (a : Address) (raw : String) : Prop :=
  ∃ part, Cut edit part raw ∧ Names part a ∧ a.row < rows

/-- Why an edit is refused. -/
inductive Refuses (rows : Nat) (edit : String) : Problem → Prop
  | noSign (hsign : '=' ∉ edit.toList) : Refuses rows edit (.edit edit)
  | blank {part : List Char} {raw : String} (hcut : Cut edit part raw)
      (hblank : ∀ c ∈ part, Text.isBlank c = true) : Refuses rows edit (.edit edit)
  | noAddress {part : List Char} {raw : String} (hcut : Cut edit part raw)
      (hfilled : ¬ ∀ c ∈ part, Text.isBlank c = true) (hnone : ∀ a, ¬ Names part a) :
      Refuses rows edit (.address (String.ofList (Text.trim part)))
  | outside {part : List Char} {raw : String} {a : Address} (hcut : Cut edit part raw)
      (hnames : Names part a) (hrow : rows ≤ a.row) : Refuses rows edit (.outside a rows)

section Parts

variable {edit raw : String} {part : List Char} {a : Address} {rows : Nat}

/-- To trim and to read finds the address. -/
theorem names_iff : Names part a ↔ Address.ofChars? (Text.trim part) = some a := by
  constructor
  · rintro ⟨before, after, w, rfl, hblank, rfl⟩
    have htrim : Text.trim (before ++ w.chars ++ after) = w.chars :=
      Text.trim_append_of_blank (List.cons_ne_nil _ _) (fun c hc => (w.plain_of_mem hc).1) hblank
    rw [htrim, Address.ofChars?_chars_spelling]
  · intro h
    obtain ⟨w, hw, ha⟩ := Address.exists_spelling_of_ofChars? h
    obtain ⟨before, after, hsplit, hblank⟩ := Text.exists_append_trim part
    rw [hw] at hsplit
    exact ⟨before, after, w, hsplit, hblank, ha⟩

/-- An address is more than blanks. -/
theorem Names.not_blank (h : Names part a) : ¬ ∀ c ∈ part, Text.isBlank c = true := by
  intro hblank
  rw [names_iff, Text.trim_eq_nil_iff.mpr hblank] at h
  cases h

/-- A cell whose row can be read is named by its text. -/
theorem names_chars (h : a.Readable) : Names a.chars a := by
  obtain ⟨w, hw, ha⟩ := Address.exists_spelling_of_ofChars? (Address.ofChars?_chars h)
  exact ⟨[], [], w, by rw [hw, List.nil_append, List.append_nil],
    fun c hc => absurd hc List.not_mem_nil, ha⟩

/-- An accepted edit names a cell whose row can be read. -/
theorem Accepts.readable (h : Accepts rows edit a raw) : a.Readable := by
  obtain ⟨_, -, hnames, -⟩ := h
  exact Address.readable_of_ofChars? (names_iff.mp hnames)

theorem cut_text_append (h : a.Readable) (raw : String) :
    Cut (a.text ++ "=" ++ raw) a.chars raw := by
  obtain ⟨w, hw, -⟩ := Address.exists_spelling_of_ofChars? (Address.ofChars?_chars h)
  refine ⟨by simp [Address.text], fun hmem => ?_⟩
  rw [hw] at hmem
  exact (w.plain_of_mem hmem).2 rfl

/-- **An edit is accepted or refused.** -/
theorem accepts_or_refuses (rows : Nat) (edit : String) :
    (∃ a raw, Accepts rows edit a raw) ∨ ∃ e, Refuses rows edit e := by
  -- the questions are asked in the order in which the problems are reported
  by_cases hsign : '=' ∈ edit.toList
  · obtain ⟨part, raw, hedit, hnot⟩ := List.eq_append_cons_of_mem hsign
    have hcut : Cut edit part (String.ofList raw) := ⟨by rw [hedit, String.toList_ofList], hnot⟩
    by_cases hblank : ∀ c ∈ part, Text.isBlank c = true
    · exact .inr ⟨_, .blank hcut hblank⟩
    · by_cases hnames : ∃ a, Names part a
      · obtain ⟨a, ha⟩ := hnames
        by_cases hrow : a.row < rows
        · exact .inl ⟨a, _, part, hcut, ha, hrow⟩
        · exact .inr ⟨_, .outside hcut ha (Nat.le_of_not_lt hrow)⟩
      · exact .inr ⟨_, .noAddress hcut hblank (not_exists.mp hnames)⟩
  · exact .inr ⟨_, .noSign hsign⟩

end Parts

/-! ## What comes of an edit -/

section Outcomes

variable {W : Type} {d : Document} {w : W} {edit raw : String} {part : List Char} {a : Address}
  {e : Problem}

/-- To carry out an edit that names a cell is to write into the cell. -/
theorem applyEdit_of_names (hcut : Cut edit part raw) (hnames : Names part a) :
    (applyEdit edit : Editing (StateM W) Address) = (do setCell a raw; return a) := by
  have hfilled : ¬ (Text.trim part).isEmpty = true := by
    rw [List.isEmpty_iff, Text.trim_eq_nil_iff]
    exact hnames.not_blank
  rw [applyEdit_of_split hcut.toList_eq hcut.not_mem, if_neg hfilled, String.ofList_toList]
  simp only [setCellAt, names_iff.mp hnames]

theorem attempt_applyEdit_of_accepts (h : Accepts d.sheet.grid.rows edit a raw) :
    attempt d w (applyEdit edit) = ((.ok a, d.write a raw), w) := by
  obtain ⟨part, hcut, hnames, hrow⟩ := h
  rw [applyEdit_of_names hcut hnames,
    attempt_bind_of_ok (attempt_setCell_of_contains (decide_eq_true hrow) raw), attempt_pure]

theorem attempt_applyEdit_of_refuses (h : Refuses d.sheet.grid.rows edit e) :
    attempt d w (applyEdit edit) = ((.error e, d), w) := by
  cases h with
  | noSign hsign => rw [applyEdit_of_not_mem hsign, attempt_throw]
  | blank hcut hblank =>
    rw [applyEdit_of_split hcut.toList_eq hcut.not_mem,
      if_pos (List.isEmpty_iff.mpr (Text.trim_eq_nil_iff.mpr hblank)), attempt_throw]
  | @noAddress part raw hcut hfilled hnone =>
    have hread : Address.ofChars? (Text.trim part) = none := by
      cases hread : Address.ofChars? (Text.trim part) with
      | none => rfl
      | some a => exact absurd (names_iff.mpr hread) (hnone a)
    rw [applyEdit_of_split hcut.toList_eq hcut.not_mem,
      if_neg (by rw [List.isEmpty_iff, Text.trim_eq_nil_iff]; exact hfilled)]
    simp only [setCellAt, hread]
    rw [attempt_throw]
  | @outside part raw a hcut hnames hrow =>
    have hcontains : ¬ d.sheet.grid.contains a = true := by
      rw [Grid.contains, decide_eq_true_eq]
      exact Nat.not_lt.mpr hrow
    rw [applyEdit_of_names hcut hnames,
      attempt_bind_of_error (attempt_setCell_of_not_contains hcontains raw)]

/-- What is accepted is not refused, and there is no third kind. -/
theorem result_eq_ok_iff : (attempt d w (applyEdit edit)).1.1 = .ok a ↔
    ∃ raw, Accepts d.sheet.grid.rows edit a raw := by
  constructor
  · intro hresult
    rcases accepts_or_refuses d.sheet.grid.rows edit with ⟨b, raw, h⟩ | ⟨e, h⟩
    · rw [attempt_applyEdit_of_accepts h] at hresult
      obtain rfl := Except.ok.inj hresult
      exact ⟨raw, h⟩
    · rw [attempt_applyEdit_of_refuses h] at hresult
      cases hresult
  · rintro ⟨raw, h⟩
    rw [attempt_applyEdit_of_accepts h]

theorem result_eq_error_iff : (attempt d w (applyEdit edit)).1.1 = .error e ↔
    Refuses d.sheet.grid.rows edit e := by
  constructor
  · intro hresult
    rcases accepts_or_refuses d.sheet.grid.rows edit with ⟨b, raw, h⟩ | ⟨e', h⟩
    · rw [attempt_applyEdit_of_accepts h] at hresult
      cases hresult
    · rw [attempt_applyEdit_of_refuses h] at hresult
      obtain rfl := Except.error.inj hresult
      exact h
  · intro h
    rw [attempt_applyEdit_of_refuses h]

end Outcomes

/-- **An edit writes into one cell, and any text.** It is accepted exactly if an address of a row of
the sheet stands before its first sign of equality, with blanks around it or without. Then all that
stands behind the sign is in that cell, which is empty if that is nothing, and no other cell has
changed. So every text can be brought into every cell of the sheet, as if it were written there
directly. An edit is refused because it has no sign or nothing but blanks before it, else because
what stands there is no address, and else because the address lies outside; then nothing has
changed. -/
theorem edit_writes_one_cell {W : Type} (d : Document) (w : W) :
    (∀ edit a, (attempt d w (applyEdit edit)).1.1 = .ok a ↔
      ∃ raw, Accepts d.sheet.grid.rows edit a raw) ∧
    (∀ edit a raw, Accepts d.sheet.grid.rows edit a raw → ∃ d',
      attempt d w (applyEdit edit) = ((.ok a, d'), w) ∧
        d'.raw? a = (if raw = "" then none else some raw) ∧ ∀ b, b ≠ a → d'.raw? b = d.raw? b) ∧
    (d.sheet.grid.rows < Address.rowLimit → ∀ a raw, a.row < d.sheet.grid.rows →
      attempt d w (applyEdit (a.text ++ "=" ++ raw))
        = attempt d w (do setCell a raw; return a)) ∧
    ∀ edit e, ((attempt d w (applyEdit edit)).1.1 = .error e ↔
        Refuses d.sheet.grid.rows edit e) ∧
      (Refuses d.sheet.grid.rows edit e → attempt d w (applyEdit edit) = ((.error e, d), w)) := by
  refine ⟨fun edit a => result_eq_ok_iff, fun edit a raw h => ?_, fun hrows a raw hrow => ?_,
    fun edit e => ⟨result_eq_error_iff, attempt_applyEdit_of_refuses⟩⟩
  · exact ⟨_, attempt_applyEdit_of_accepts h, raw?_write d a raw,
      fun b hb => raw?_write_of_ne d raw hb⟩
  · have hreadable : a.Readable := Nat.lt_of_le_of_lt hrow hrows
    rw [applyEdit_of_names (cut_text_append hreadable raw) (names_chars hreadable)]

/-- A small letter, a zero and blanks in the address, signs of equality and a new line in the text;
the same cell emptied; and the row below the last one. -/
theorem edit_writes_one_cell_spelt :
    (∃ d', attempt (new ⟨5⟩) () (applyEdit " b02 ==1 = 2\n") = ((.ok ⟨1, 1⟩, d'), ()) ∧
      d'.raw? ⟨1, 1⟩ = some "=1 = 2\n" ∧
      ∀ b, b ≠ ⟨1, 1⟩ → d'.raw? b = (new ⟨5⟩).raw? b) ∧
    attempt (new ⟨5⟩) () (applyEdit (Address.text ⟨1, 1⟩ ++ "=" ++ ""))
      = attempt (new ⟨5⟩) () (do setCell ⟨1, 1⟩ ""; return ⟨1, 1⟩) ∧
    (attempt (new ⟨5⟩) () (applyEdit "A6=1")).1.1 = .error (.outside ⟨5, 0⟩ 5) := by
  obtain ⟨-, haccepted, hdirect, hrefused⟩ := edit_writes_one_cell (new ⟨5⟩) ()
  let b02 : Spelling := ⟨'b', ['0', '2'], by decide, by decide,
    List.all_eq_true.mp (by decide), by decide, by decide⟩
  let a6 : Spelling := ⟨'A', ['6'], by decide, by decide,
    List.all_eq_true.mp (by decide), by decide, by decide⟩
  have hcut : Cut " b02 ==1 = 2\n" [' ', 'b', '0', '2', ' '] "=1 = 2\n" := ⟨rfl, by decide⟩
  have hcol : Column.ofAlpha 'b' (by decide) = 1 := by decide
  have hnames : Names [' ', 'b', '0', '2', ' '] ⟨1, 1⟩ :=
    ⟨[' '], [' '], b02, rfl, List.all_eq_true.mp (by decide), congrArg (Address.mk 1) hcol⟩
  have hcut' : Cut "A6=1" ['A', '6'] "1" := ⟨rfl, by decide⟩
  have hnames' : Names ['A', '6'] ⟨5, 0⟩ := ⟨[], [], a6, rfl, List.all_eq_true.mp rfl, rfl⟩
  have hwrites : Accepts 5 " b02 ==1 = 2\n" ⟨1, 1⟩ "=1 = 2\n" := ⟨_, hcut, hnames, by decide⟩
  exact ⟨haccepted _ _ _ hwrites, hdirect (by decide) _ _ (by decide),
    (hrefused _ _).1.mpr (.outside hcut' hnames' (by decide))⟩

end Document

end FormulaSheet
