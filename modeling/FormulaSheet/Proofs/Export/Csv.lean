/-
Comma-separated values lose nothing.

The decoder is the grammar of RFC 4180 read character by character, with a line
feed for the end of a record. A field is plain or stands between quotes; a plain
field holds no comma, no quote and no end of line, and a quoted one holds
anything, its quotes doubled. Whatever else it meets it refuses: a quote inside a
plain field, a character after the closing quote, a quote that is not closed.

What is written is one step of the decoder after another: a field takes it to
where its text is the field that it is in the middle of (`run_field`), a comma or
a line feed puts the field down, and so a record is one record (`run_record`) and
the file the list of its records (`records?_flatMap_record`). The texts are not
looked at except for the four special characters.
-/
import FormulaSheet.Export.Csv
import FormulaSheet.Proofs.Export.Box

set_option autoImplicit false

namespace FormulaSheet.Csv

/-! ## Decoding -/

/-- Where in a field a decoder is. -/
inductive Position where
  /-- Nothing of the field has been read. -/
  | start
  | plain
  /-- Between quotes. -/
  | quoted
  /-- After a quote between quotes, which ends the field unless another one follows. -/
  | quote
deriving DecidableEq

/-- What a decoder has read: records, fields of the record that it is in the middle of, characters
of the field that it is in the middle of, all of them from the end on. -/
structure Reading where
  records : List (List (List Char))
  fields : List (List Char)
  field : List Char
  position : Position
deriving DecidableEq

namespace Reading

/-- At the beginning of a field. -/
def begin (records : List (List (List Char))) (fields : List (List Char)) : Reading :=
  ⟨records, fields, [], .start⟩

def endField (r : Reading) : Reading :=
  begin r.records (r.field.reverse :: r.fields)

def endRecord (r : Reading) : Reading :=
  begin ((r.field.reverse :: r.fields).reverse :: r.records) []

/-- Takes a character that ends a field; there are two. -/
def separate (r : Reading) (c : Char) : Option Reading :=
  if c = ',' then some r.endField
  else if c = '\n' then some r.endRecord
  else none

/-- Takes a character into the field. -/
def push (r : Reading) (c : Char) (position : Position) : Reading :=
  { r with field := c :: r.field, position }

/-- Whether a character may stand in a field without quotes. -/
def isPlain (c : Char) : Bool :=
  c ≠ ',' && c ≠ '"' && c ≠ '\n' && c ≠ '\r'

def step (r : Reading) (c : Char) : Option Reading :=
  match r.position with
  | .start =>
    if c = '"' then some { r with position := .quoted }
    else if isPlain c then some (r.push c .plain)
    else r.separate c
  | .plain => if isPlain c then some (r.push c .plain) else r.separate c
  | .quoted => some (if c = '"' then { r with position := .quote } else r.push c .quoted)
  | .quote => if c = '"' then some (r.push c .quoted) else r.separate c

def run (r : Reading) (cs : List Char) : Option Reading :=
  cs.foldlM step r

/-- The records at the end of a text. The last one may lack its line feed; a quoted field may not
lack its closing quote. -/
def finish (r : Reading) : Option (List (List (List Char))) :=
  match r.position with
  | .quoted => none
  | .start => some (if r.fields = [] then r.records.reverse else r.endRecord.records.reverse)
  | .plain => some r.endRecord.records.reverse
  | .quote => some r.endRecord.records.reverse

end Reading

/-- The records of a text, each with its fields. -/
def records? (cs : List Char) : Option (List (List (List Char))) :=
  ((Reading.begin [] []).run cs).bind Reading.finish

example : records? "a,\"b,\"\"\n\"\n\nc".toList
    = some [["a".toList, "b,\"\n".toList], [[]], ["c".toList]] := by decide

example : records? "a\"b\"\n".toList = none := by decide

/-! ## Reading what was written -/

section Fields

variable {records : List (List (List Char))} {fields : List (List Char)} {done cs : List Char}
  {position : Position} {r : Reading} {c : Char}

namespace Reading

theorem run_append (r : Reading) (cs ds : List Char) :
    r.run (cs ++ ds) = (r.run cs).bind fun r' => r'.run ds :=
  List.foldlM_append

theorem run_cons (r : Reading) (c : Char) (cs : List Char) :
    r.run (c :: cs) = (r.step c).bind fun r' => r'.run cs :=
  List.foldlM_cons

end Reading

theorem isPlain_of_not_isSpecial (h : isSpecial c = false) : Reading.isPlain c = true := by
  simpa [isSpecial, Reading.isPlain, and_assoc] using h

/-- Plain characters are the field that they make. -/
theorem run_plain (hcs : ∀ c ∈ cs, isSpecial c = false)
    (hposition : position = .start ∨ position = .plain) :
    (Reading.mk records fields done position).run cs
      = some ⟨records, fields, cs.reverse ++ done, if cs = [] then position else .plain⟩ := by
  induction cs generalizing done position with
  | nil => rfl
  | cons c cs ih =>
    rw [List.forall_mem_cons] at hcs
    have hplain : Reading.isPlain c = true := isPlain_of_not_isSpecial hcs.1
    have hquote : c ≠ '"' := by
      rintro rfl
      exact absurd hcs.1 (by decide)
    have hstep : (Reading.mk records fields done position).step c
        = some ⟨records, fields, c :: done, .plain⟩ := by
      rcases hposition with rfl | rfl
      · simp only [Reading.step, if_neg hquote, if_pos hplain, Reading.push]
      · simp only [Reading.step, if_pos hplain, Reading.push]
    rw [Reading.run_cons, hstep, Option.bind_some, ih hcs.2 (.inr rfl)]
    simp

/-- Between quotes any character is read as itself, a doubled quote as one. -/
theorem run_double (cs : List Char) :
    (Reading.mk records fields done .quoted).run (cs.flatMap double)
      = some ⟨records, fields, cs.reverse ++ done, .quoted⟩ := by
  induction cs generalizing done with
  | nil => rfl
  | cons c cs ih =>
    have hstep : (Reading.mk records fields done .quoted).run (double c)
        = some ⟨records, fields, c :: done, .quoted⟩ := by
      by_cases hquote : c = '"'
      · subst hquote
        rfl
      · simp [double, hquote, Reading.run, Reading.step, Reading.push]
    rw [List.flatMap_cons, Reading.run_append, hstep, Option.bind_some, ih]
    simp

/-- **One field.** A written field leaves the decoder with its text, and not between quotes. -/
theorem run_field (records : List (List (List Char))) (fields : List (List Char))
    (cs : List Char) :
    ∃ position, position ≠ .quoted ∧
      (Reading.begin records fields).run (field cs)
        = some ⟨records, fields, cs.reverse, position⟩ := by
  unfold field
  by_cases hspecial : cs.any isSpecial = true
  · refine ⟨.quote, by decide, ?_⟩
    have hopen : (Reading.begin records fields).step '"'
        = some ⟨records, fields, [], .quoted⟩ := rfl
    have hclose : (Reading.mk records fields cs.reverse .quoted).run ['"']
        = some ⟨records, fields, cs.reverse, .quote⟩ := rfl
    rw [if_pos hspecial, List.cons_append, Reading.run_cons, hopen, Option.bind_some,
      Reading.run_append, run_double, Option.bind_some, List.append_nil, hclose]
  · have hcs : ∀ c ∈ cs, isSpecial c = false := by simpa using hspecial
    refine ⟨if cs = [] then .start else .plain, by split <;> decide, ?_⟩
    rw [if_neg hspecial, Reading.begin, run_plain hcs (.inl rfl), List.append_nil]

/-- Outside of quotes a comma or a line feed ends the field. -/
theorem step_eq_separate (hposition : r.position ≠ .quoted) (hc : c = ',' ∨ c = '\n') :
    r.step c = r.separate c := by
  obtain ⟨records, fields, done, position⟩ := r
  rcases hc with rfl | rfl
  all_goals
    cases position with
    | quoted => exact absurd rfl hposition
    | start | plain | quote => rfl

theorem run_field_comma (cs rest : List Char) :
    (Reading.begin records fields).run (field cs ++ ',' :: rest)
      = (Reading.begin records (cs :: fields)).run rest := by
  obtain ⟨position, hposition, hfield⟩ := run_field records fields cs
  rw [Reading.run_append, hfield, Option.bind_some, Reading.run_cons,
    step_eq_separate hposition (.inl rfl), Reading.separate, if_pos rfl, Option.bind_some,
    Reading.endField, List.reverse_reverse]

theorem run_field_lineFeed (cs rest : List Char) :
    (Reading.begin records fields).run (field cs ++ '\n' :: rest)
      = (Reading.begin ((cs :: fields).reverse :: records) []).run rest := by
  obtain ⟨position, hposition, hfield⟩ := run_field records fields cs
  rw [Reading.run_append, hfield, Option.bind_some, Reading.run_cons,
    step_eq_separate hposition (.inr rfl), Reading.separate, if_neg (by decide), if_pos rfl,
    Option.bind_some, Reading.endRecord, List.reverse_reverse]

/-- **One record.** The fields that are written are put behind those that were there. -/
theorem run_record {texts : List (List Char)} (hne : texts ≠ []) (rest : List Char) :
    (Reading.begin records fields).run (record texts ++ rest)
      = (Reading.begin ((fields.reverse ++ texts) :: records) []).run rest := by
  unfold record
  induction texts generalizing fields with
  | nil => exact absurd rfl hne
  | cons text texts ih =>
    cases texts with
    | nil =>
      have hlast : List.intercalate [','] ([text].map field) ++ ['\n'] ++ rest
          = field text ++ '\n' :: rest := by simp
      rw [hlast, run_field_lineFeed, List.reverse_cons]
    | cons text' texts =>
      have hnext : List.intercalate [','] ((text :: text' :: texts).map field) ++ ['\n'] ++ rest
          = field text ++ ',' ::
            (List.intercalate [','] ((text' :: texts).map field) ++ ['\n'] ++ rest) := by
        simp [List.map_cons, List.intercalate_cons_cons]
      rw [hnext, run_field_comma, ih (List.cons_ne_nil _ _), List.reverse_cons, List.append_assoc,
        List.singleton_append]

theorem run_flatMap_record {rows : List (List (List Char))} (hne : ∀ row ∈ rows, row ≠ []) :
    (Reading.begin records []).run (rows.flatMap record)
      = some (Reading.begin (rows.reverse ++ records) []) := by
  induction rows generalizing records with
  | nil => rfl
  | cons row rows ih =>
    rw [List.forall_mem_cons] at hne
    rw [List.flatMap_cons, run_record hne.1, List.reverse_nil, List.nil_append, ih hne.2,
      List.reverse_cons, List.append_assoc, List.singleton_append]

/-- **A file of records** is read as these records, provided that each has a field. -/
theorem records?_flatMap_record {rows : List (List (List Char))} (hne : ∀ row ∈ rows, row ≠ []) :
    records? (rows.flatMap record) = some rows := by
  rw [records?, run_flatMap_record hne, Option.bind_some, List.append_nil]
  simp [Reading.finish, Reading.begin]

end Fields

/-! ## The file of a display -/

section Displays

variable {d : Display}

/-- The columns from the first one to a given one. -/
theorem length_columns (last : Column) :
    ((List.finRange 26).filter (· ≤ last)).length = last.val + 1 := by
  revert last
  decide

theorem getElem?_columns {col last : Column} (h : col ≤ last) :
    ((List.finRange 26).filter (· ≤ last))[col.val]? = some col := by
  revert col last
  decide

theorem length_rowTexts (d : Display) (last : Column) (row : Nat) :
    (rowTexts d last row).length = last.val + 1 := by
  rw [rowTexts, List.length_map, length_columns]

theorem getElem?_rowTexts (d : Display) {col last : Column} (h : col ≤ last) (row : Nat) :
    (rowTexts d last row)[col.val]? = some (d.text ⟨row, col⟩).toList := by
  rw [rowTexts, List.getElem?_map, getElem?_columns h, Option.map_some]

/-- The records of the file are the rows down to the bottom of the box. -/
theorem records?_chars {box : Range} (hbox : d.box? = some box) :
    records? (chars d) = some ((List.range (box.bottom + 1)).map (rowTexts d box.right)) := by
  have hrows : chars d
      = ((List.range (box.bottom + 1)).map (rowTexts d box.right)).flatMap record := by
    simp only [chars, hbox, List.flatMap_map]
  rw [hrows]
  apply records?_flatMap_record
  intro row hrow
  obtain ⟨n, -, rfl⟩ := List.mem_map.mp hrow
  rw [← List.length_pos_iff, length_rowTexts]
  exact Nat.succ_pos _

/-- **Nothing is lost.** Where nothing is populated the file has no records. Otherwise it has a
record for each row down to the last that has a populated cell, each with a field for each column up
to the last that has one, and the field of a cell is the text that is shown for the cell, whatever
its characters are. -/
theorem records?_text (d : Display) :
    ((∀ a, ¬ d.Populated a) → records? (text d).toList = some []) ∧
    ((∃ a, d.Populated a) → ∃ (bottom : Nat) (right : Column),
      IsGreatest {row | ∃ a, d.Populated a ∧ a.row = row} bottom ∧
      IsGreatest {col | ∃ a, d.Populated a ∧ a.col = col} right ∧
      ∃ records, records? (text d).toList = some records ∧ records.length = bottom + 1 ∧
        ∀ row fields, records[row]? = some fields →
          fields.length = right.val + 1 ∧
          ∀ col ≤ right, fields[col.val]? = some (d.text ⟨row, col⟩).toList) := by
  rw [text, String.toList_ofList]
  constructor
  · intro hnone
    have hchars : chars d = [] := by simp only [chars, Display.box?_eq_none_iff.mpr hnone]
    rw [hchars]
    rfl
  · rintro ⟨a, ha⟩
    cases hbox : d.box? with
    | none => exact absurd ha (Display.box?_eq_none_iff.mp hbox a)
    | some box =>
      have hencloses := Display.encloses_of_box? hbox
      refine ⟨box.bottom, box.right, hencloses.isGreatest_bottom, hencloses.isGreatest_right,
        _, records?_chars hbox, by rw [List.length_map, List.length_range], ?_⟩
      intro row fields hrow
      rw [List.getElem?_map, Option.map_eq_some_iff] at hrow
      obtain ⟨n, hn, rfl⟩ := hrow
      obtain rfl : row = n := by
        obtain ⟨hlt, hget⟩ := List.getElem?_eq_some_iff.mp hn
        rwa [List.getElem_range] at hget
      exact ⟨length_rowTexts _ _ _, fun col hcol => getElem?_rowTexts d hcol row⟩

/-- A display whose last row and last column are those of different cells, and whose texts have all
of the special characters in them. -/
theorem records?_text_special :
    let d := Display.ofList [(⟨0, 2⟩, .text " \"a\",\r\n"), (⟨2, 1⟩, .text "b"), (⟨3, 3⟩, .text "")]
    ∃ records, records? (text d).toList = some records ∧ records.length = 3 ∧
      ∀ row fields, records[row]? = some fields →
        fields.length = 3 ∧ ∀ col ≤ 2, fields[col.val]? = some (d.text ⟨row, col⟩).toList := by
  intro d
  have hpopulated : d.Populated ⟨0, 2⟩ := ⟨.text " \"a\",\r\n", by decide +kernel, by decide⟩
  have hbox : d.box? = some ⟨0, 2, 1, 2, by decide, by decide⟩ := by decide +kernel
  have hencloses := Display.encloses_of_box? hbox
  obtain ⟨bottom, right, hbottom, hright, hrecords⟩ := (records?_text d).2 ⟨_, hpopulated⟩
  obtain rfl : bottom = 2 := hbottom.unique hencloses.isGreatest_bottom
  obtain rfl : right = 2 :=
    Fin.le_antisymm (hencloses.isGreatest_right.2 hright.1) (hright.2 hencloses.right)
  exact hrecords

end Displays

end FormulaSheet.Csv
