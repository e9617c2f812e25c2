/-
Snapshots written and read back.

What the writer gives is read as the object with the one field `cells`, whose
fields are the addresses in order, each with the object that holds the text
(`tokens?_chars`, `isValue_cellsTokens`). From this object the reader takes exactly
the entries that were written, and a map is the map of its entries. So nothing
of a snapshot is lost but its empty entries, whatever the addresses and texts
are, and to write what has been read gives the file again.
-/
import FormulaSheet.Proofs.Json.Pieces
import FormulaSheet.Snapshot

set_option autoImplicit false

namespace FormulaSheet.Snapshot

open Json (Splits IsValue fieldTokens objectTokens)

/-! ## The entries of a file -/

/-- The entries that are written. -/
def written (s : Snapshot) : List (String × String) :=
  s.toList.filter fun e => !e.2.isEmpty

theorem written_eq_toList_filter (s : Snapshot) :
    written s = (s.filter fun _ raw => !raw.isEmpty).toList := by
  rw [written, Std.ExtTreeMap.toList_filter]

theorem chars_eq (s : Snapshot) :
    chars s = "\x7b\n  \"cells\": ".toList ++ cells (written s) ++ "\n\x7d\n".toList :=
  rfl

/-- A map is the map of its entries. -/
theorem ofList_toList (s : Snapshot) : Std.ExtTreeMap.ofList s.toList = s := by
  refine Std.ExtTreeMap.ext_getElem? fun a => ?_
  cases h : s[a]? with
  | none =>
    refine Std.ExtTreeMap.getElem?_ofList_of_contains_eq_false ?_
    rw [Std.ExtTreeMap.map_fst_toList_eq_keys]
    simpa using h
  | some raw =>
    exact Std.ExtTreeMap.getElem?_ofList_of_mem Std.ReflCmp.compare_self
      Std.ExtTreeMap.distinct_keys_toList
      (Std.ExtTreeMap.mem_toList_iff_getElem?_eq_some.mpr h)

/-! ## The tokens of a file -/

/-- The tokens of an object with one field. -/
def recordTokens (name : String) (ts : List Json.Token) : List Json.Token :=
  objectTokens [fieldTokens (some name.toList) ts]

theorem recordTokens_eq (name : String) (ts : List Json.Token) :
    recordTokens name ts
      = [.openBrace] ++ [.string (some name.toList)] ++ [.colon] ++ ts ++ [.closeBrace] := by
  simp [recordTokens, objectTokens, fieldTokens, List.intercalate]

/-- The tokens of the object that holds a text. -/
def cellTokens (raw : String) : List Json.Token :=
  recordTokens "value" [.string (some raw.toList)]

/-- The tokens of the object of the cells. -/
def cellsTokens (entries : List (String × String)) : List Json.Token :=
  objectTokens (entries.map fun e => fieldTokens (some e.1.toList) (cellTokens e.2))

theorem splits_entry (e : String × String) :
    Splits (entry e.1 e.2) (fieldTokens (some e.1.toList) (cellTokens e.2)) := by
  -- around the two strings stand blanks and marks, and one string that is always the same
  have hfield : ": \x7b\n      \"value\": ".toList
      = ": \x7b\n      ".toList ++ Json.quote "value".toList ++ ": ".toList := by decide
  have hindent : Splits "    ".toList [] := Json.splits_separators (by decide) (by decide)
  have hopen : Splits ": \x7b\n      ".toList [.colon, .openBrace] :=
    Json.splits_separators (by decide) (by decide)
  have hcolon : Splits ": ".toList [.colon] := Json.splits_separators (by decide) (by decide)
  have hclose : Splits "\n    \x7d".toList [.closeBrace] :=
    Json.splits_separators (by decide) (by decide)
  have hvalue := (hopen.append (Json.splits_quote "value".toList)).append hcolon
  have hall := (((hindent.append (Json.splits_quote e.1.toList)).append hvalue).append
    (Json.splits_quote e.2.toList)).append hclose
  rw [← hfield] at hall
  have htokens : fieldTokens (some e.1.toList) (cellTokens e.2)
      = [] ++ [.string (some e.1.toList)] ++ ([.colon, .openBrace]
        ++ [.string (some "value".toList)] ++ [.colon]) ++ [.string (some e.2.toList)]
        ++ [.closeBrace] := by
    simp only [fieldTokens, cellTokens, recordTokens_eq, List.nil_append, List.cons_append]
  exact htokens ▸ hall

theorem splits_cells (entries : List (String × String)) :
    Splits (cells entries) (cellsTokens entries) := by
  have hopen : Splits "\x7b\n".toList [.openBrace] :=
    Json.splits_separators (by decide) (by decide)
  have hcomma : Splits ",\n".toList [.comma] := Json.splits_separators (by decide) (by decide)
  have hclose : Splits "\n  \x7d".toList [.closeBrace] :=
    Json.splits_separators (by decide) (by decide)
  cases entries with
  | nil => exact Json.splits_separators (by decide) rfl
  | cons e es => exact (hopen.append (hcomma.intercalate splits_entry (e :: es))).append hclose

/-- **The tokens of a file.** The writer's text is the record of the cells that hold something. -/
theorem tokens?_chars (s : Snapshot) :
    Json.tokens? (chars s) = some (recordTokens "cells" (cellsTokens (written s))) := by
  have hfield : "\x7b\n  \"cells\": ".toList
      = "\x7b\n  ".toList ++ Json.quote "cells".toList ++ ": ".toList := by decide
  have hopen : Splits "\x7b\n  ".toList [.openBrace] :=
    Json.splits_separators (by decide) (by decide)
  have hcolon : Splits ": ".toList [.colon] := Json.splits_separators (by decide) (by decide)
  have hclose : Splits "\n\x7d\n".toList [.closeBrace] :=
    Json.splits_separators (by decide) (by decide)
  have hname := (hopen.append (Json.splits_quote "cells".toList)).append hcolon
  rw [chars_eq, hfield, recordTokens_eq]
  exact ((hname.append (splits_cells (written s))).append hclose).tokens?

/-! ## The value of a file -/

/-- The value that an object with one field is. -/
def record (name : String) (v : Json) : Json :=
  .object [(some name.toList, v)]

/-- The object of the cells. -/
def cellsValue (entries : List (String × String)) : Json :=
  .object (entries.map fun e => (some e.1.toList, record "value" (.string (some e.2.toList))))

theorem isValue_recordTokens (name : String) {ts : List Json.Token} {v : Json}
    (h : IsValue ts v) : IsValue (recordTokens name ts) (record name v) :=
  Json.isValue_object (fun _ : Unit => some name.toList) (fun _ => h) [()]

theorem isValue_cellsTokens (entries : List (String × String)) :
    IsValue (cellsTokens entries) (cellsValue entries) :=
  Json.isValue_object _ (fun _ => isValue_recordTokens "value" (Json.isValue_string _)) entries

/-! ## What is taken from it -/

theorem soleField?_record (name : String) (v : Json) :
    soleField? name (record name v) = some (some v) := by
  simp [soleField?, record]

theorem entry?_record (e : String × String) :
    entry? (some e.1.toList, record "value" (.string (some e.2.toList))) = some e := by
  simp [ entry?, rawOfCell?, soleField?_record, rawOfJson?]

theorem ofCells?_cellsValue (entries : List (String × String)) :
    ofCells? (cellsValue entries) = some (Std.ExtTreeMap.ofList entries) := by
  have hentries : (entries.map fun e =>
      (some e.1.toList, record "value" (.string (some e.2.toList)))).mapM entry?
        = some entries := by
    induction entries with
    | nil => rfl
    | cons e es ih => simp [entry?_record, ih]
  simp only [ofCells?, cellsValue, hentries, Option.map_some]

/-- A file is read as the map of the entries that were written. -/
theorem ofText?_text (s : Snapshot) :
    ofText? (text s) = some (Std.ExtTreeMap.ofList (written s)) := by
  have hvalue := (isValue_recordTokens "cells" (isValue_cellsTokens (written s))).ofTokens?
  rw [ofText?, text, String.toList_ofList, ofChars?, Json.ofChars?, tokens?_chars]
  simp only [Option.bind_some, hvalue, ofJson?, soleField?_record, ofCells?_cellsValue]

/-! ## Round trips -/

/-- **Writing and reading.** The file of a snapshot is read as the snapshot without its empty
entries, and that has the same file. -/
theorem round_trip (s : Snapshot) :
    ofText? (text s) = some (s.filter fun _ raw => !raw.isEmpty) ∧
      text (s.filter fun _ raw => !raw.isEmpty) = text s := by
  constructor
  · rw [ofText?_text, written_eq_toList_filter, ofList_toList]
  · have hsame : written (s.filter fun _ raw => !raw.isEmpty) = written s := by
      rw [written, ← written_eq_toList_filter, written, List.filter_filter]
      simp only [Bool.and_self]
    rw [text, text, chars_eq, chars_eq, hsame]

end FormulaSheet.Snapshot
