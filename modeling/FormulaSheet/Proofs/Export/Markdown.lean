/-
A table in Markdown is a table, whatever stands in its cells.

The reader is that of the dialect with tables: a line ends with a line feed, and
it is cut at the pipes that no backslash stands directly before; no text may
stand before the first of them or after the last. What is written is cut where
it was put together because a cut can fall neither inside a cell, where each pipe
has its backslash, nor short of its end, where the last character is never a
backslash (`IsCell`). The space after a text is what keeps a text that ends in a
backslash from taking the pipe behind it along.

Undoing the backslashes gives the text on one line. For that no pipe may come up
that was not written as one, which is why nothing escaped begins with a pipe.
-/
import FormulaSheet.Export.Markdown
import FormulaSheet.Proofs.Export.Box

set_option autoImplicit false

namespace FormulaSheet.Markdown

/-! ## Decoding -/

/-- The lines of a text that begins within a line, of which the characters before it are given, the
last one first. A text whose last line has no line feed is refused. -/
def linesOnto (before : List Char) : List Char → Option (List (List Char))
  | [] => if before = [] then some [] else none
  | c :: cs =>
    if c = '\n' then (linesOnto [] cs).map (before.reverse :: ·) else linesOnto (c :: before) cs

def lines? (cs : List Char) : Option (List (List Char)) :=
  linesOnto [] cs

/-- The pieces of a line between the pipes that no backslash stands directly before, from within a
piece on. -/
def cutOnto (before : List Char) : List Char → List (List Char)
  | [] => [before.reverse]
  | c :: cs =>
    if c = '|' ∧ before.head? ≠ some '\\' then before.reverse :: cutOnto [] cs
    else cutOnto (c :: before) cs

def cut (line : List Char) : List (List Char) :=
  cutOnto [] line

/-- The cells of a line; nothing may stand outside of them. -/
def cells? (line : List Char) : Option (List (List Char)) :=
  match cut line with
  | [] :: pieces => if pieces.getLast? = some [] then some pieces.dropLast else none
  | _ => none

/-- The cells of a table, line by line. -/
def table? (cs : List Char) : Option (List (List (List Char))) :=
  (lines? cs).bind (List.mapM cells?)

/-- A text without the backslashes that stand directly before a pipe. -/
def unescape : List Char → List Char
  | [] => []
  | c :: cs => if c = '\\' ∧ cs.head? = some '|' then unescape cs else c :: unescape cs

/-- What a cell shows: its text between two spaces, without the backslashes before pipes. -/
def shown? : List Char → Option (List Char)
  | ' ' :: cs => if cs.getLast? = some ' ' then some (unescape cs.dropLast) else none
  | _ => none

/-- A text on one line: a line feed is a space, and a carriage return nothing. -/
def oneLine (cs : List Char) : List Char :=
  (cs.filter (· ≠ '\r')).map fun c => if c = '\n' then ' ' else c

example : table? "| a\\|b |  |\n|c||\n".toList
    = some [[" a\\|b ".toList, "  ".toList], ["c".toList, []]] := by decide

example : shown? " a\\|\\b ".toList = some "a|\\b".toList := by decide

/-! ## Cells -/

section Cells

variable {before cs ds rest : List Char} {cells : List (List Char)} {c : Char}

/-- A text that no cut goes through, wherever it stands. -/
def Whole (cs : List Char) : Prop :=
  ∀ before rest, cutOnto before (cs ++ rest) = cutOnto (cs.reverse ++ before) rest

theorem Whole.append (hcs : Whole cs) (hds : Whole ds) : Whole (cs ++ ds) := by
  intro before rest
  rw [List.append_assoc, hcs, hds, List.reverse_append, List.append_assoc]

theorem whole_of_not_mem (h : '|' ∉ cs) : Whole cs := by
  intro before rest
  induction cs generalizing before with
  | nil => rfl
  | cons c cs ih =>
    rw [List.mem_cons, not_or] at h
    rw [List.cons_append, cutOnto, if_neg fun hcut => h.1 hcut.1.symm, ih h.2, List.reverse_cons,
      List.append_assoc, List.singleton_append]

/-- The four ways of a character. -/
theorem escape_cases (c : Char) :
    (c = '|' ∧ escape c = ['\\', '|']) ∨ (c = '\n' ∧ escape c = [' ']) ∨
    (c = '\r' ∧ escape c = []) ∨ (c ≠ '|' ∧ c ≠ '\n' ∧ c ≠ '\r' ∧ escape c = [c]) := by
  by_cases hpipe : c = '|'
  · exact .inl ⟨hpipe, if_pos hpipe⟩
  by_cases hlineFeed : c = '\n'
  · exact .inr (.inl ⟨hlineFeed, (if_neg hpipe).trans (if_pos hlineFeed)⟩)
  by_cases hreturn : c = '\r'
  · exact .inr (.inr (.inl ⟨hreturn,
      (if_neg hpipe).trans ((if_neg hlineFeed).trans (if_pos hreturn))⟩))
  · exact .inr (.inr (.inr ⟨hpipe, hlineFeed, hreturn,
      (if_neg hpipe).trans ((if_neg hlineFeed).trans (if_neg hreturn))⟩))

theorem whole_escape (c : Char) : Whole (escape c) := by
  rcases escape_cases c with ⟨-, h⟩ | ⟨-, h⟩ | ⟨-, h⟩ | ⟨hpipe, -, -, h⟩
  all_goals rw [h]
  · exact fun before rest => rfl
  · exact whole_of_not_mem (by decide)
  · exact whole_of_not_mem List.not_mem_nil
  · exact whole_of_not_mem (by simpa using Ne.symm hpipe)

theorem whole_flatMap_escape (cs : List Char) : Whole (cs.flatMap escape) := by
  induction cs with
  | nil => exact whole_of_not_mem List.not_mem_nil
  | cons c cs ih => exact (whole_escape c).append ih

theorem lineFeed_not_mem_flatMap_escape (cs : List Char) : '\n' ∉ cs.flatMap escape := by
  rw [List.mem_flatMap]
  rintro ⟨c, -, hc⟩
  rcases escape_cases c with ⟨-, h⟩ | ⟨-, h⟩ | ⟨-, h⟩ | ⟨-, hlineFeed, -, h⟩
  all_goals rw [h] at hc
  · exact absurd hc (by decide)
  · exact absurd hc (by decide)
  · exact absurd hc List.not_mem_nil
  · exact hlineFeed (List.mem_singleton.mp hc).symm

/-- What can stand between two pipes of a line. -/
structure IsCell (cs : List Char) : Prop where
  whole : Whole cs
  getLast?_ne : cs.getLast? ≠ some '\\'
  lineFeed_not_mem : '\n' ∉ cs

/-- A text with a space on either side. -/
def padded (cs : List Char) : List Char :=
  ' ' :: cs ++ [' ']

theorem isCell_padded (hwhole : Whole cs) (hlineFeed : '\n' ∉ cs) : IsCell (padded cs) where
  whole := ((whole_of_not_mem (by decide) : Whole [' ']).append hwhole).append
    (whole_of_not_mem (by decide))
  getLast?_ne := by
    rw [padded, List.getLast?_concat]
    decide
  lineFeed_not_mem := by simpa [padded] using hlineFeed

theorem isCell_padded_of_not_mem (hpipe : '|' ∉ cs) (hlineFeed : '\n' ∉ cs) : IsCell (padded cs) :=
  isCell_padded (whole_of_not_mem hpipe) hlineFeed

theorem isCell_padded_escape (cs : List Char) : IsCell (padded (cs.flatMap escape)) :=
  isCell_padded (whole_flatMap_escape cs) (lineFeed_not_mem_flatMap_escape cs)

theorem shown?_padded (cs : List Char) : shown? (padded cs) = some (unescape cs) := by
  simp [padded, shown?]

theorem unescape_of_not_mem (h : '|' ∉ cs) : unescape cs = cs := by
  induction cs with
  | nil => rfl
  | cons c cs ih =>
    rw [List.mem_cons, not_or] at h
    have hhead : cs.head? ≠ some '|' := fun hhead => h.2 (List.mem_of_mem_head? hhead)
    rw [unescape, if_neg fun hc => hhead hc.2, ih h.2]

/-- A pipe has its backslash before it, so it never comes first. -/
theorem head?_flatMap_escape_ne (cs : List Char) : (cs.flatMap escape).head? ≠ some '|' := by
  induction cs with
  | nil => exact nofun
  | cons c cs ih =>
    rw [List.flatMap_cons]
    rcases escape_cases c with ⟨-, h⟩ | ⟨-, h⟩ | ⟨-, h⟩ | ⟨hpipe, -, -, h⟩
    all_goals rw [h]
    · simp
    · simp
    · exact ih
    · simpa using hpipe

/-- What is escaped is the text on one line. -/
theorem unescape_flatMap_escape (cs : List Char) : unescape (cs.flatMap escape) = oneLine cs := by
  induction cs with
  | nil => rfl
  | cons c cs ih =>
    -- a backslash of the text is kept, since what follows it does not begin with a pipe
    have hkept (b : Char) : unescape (b :: cs.flatMap escape) = b :: oneLine cs := by
      rw [unescape, if_neg fun hb => head?_flatMap_escape_ne cs hb.2, ih]
    rw [List.flatMap_cons]
    rcases escape_cases c with ⟨hc, h⟩ | ⟨hc, h⟩ | ⟨hc, h⟩ | ⟨-, hlineFeed, hreturn, h⟩
    all_goals rw [h]
    · rw [List.cons_append, List.singleton_append, unescape, if_pos ⟨rfl, rfl⟩, hkept, hc]
      rfl
    · rw [List.singleton_append, hkept, hc]
      rfl
    · rw [List.nil_append, ih, hc]
      rfl
    · rw [List.singleton_append, hkept]
      simp [oneLine, hlineFeed, hreturn]

/-! ## Lines -/

/-- The line of some cells. -/
def piped (cells : List (List Char)) : List Char :=
  '|' :: cells.flatMap (· ++ ['|'])

theorem cutOnto_cell (h : IsCell cs) (rest : List Char) :
    cutOnto [] (cs ++ '|' :: rest) = cs :: cutOnto [] rest := by
  have hhead : cs.reverse.head? ≠ some '\\' := by
    rw [List.head?_reverse]
    exact h.getLast?_ne
  rw [h.whole, List.append_nil, cutOnto, if_pos ⟨rfl, hhead⟩, List.reverse_reverse]

theorem cutOnto_flatMap (hcells : ∀ cs ∈ cells, IsCell cs) :
    cutOnto [] (cells.flatMap (· ++ ['|'])) = cells ++ [[]] := by
  induction cells with
  | nil => rfl
  | cons cs cells ih =>
    rw [List.forall_mem_cons] at hcells
    rw [List.flatMap_cons, List.append_assoc, List.singleton_append, cutOnto_cell hcells.1,
      ih hcells.2, List.cons_append]

/-- **One line** is cut into the cells that it was put together from. -/
theorem cells?_piped (hcells : ∀ cs ∈ cells, IsCell cs) : cells? (piped cells) = some cells := by
  have hcut : cut (piped cells) = [] :: (cells ++ [[]]) := by
    rw [cut, piped, cutOnto, if_pos ⟨rfl, nofun⟩, cutOnto_flatMap hcells]
    rfl
  rw [cells?, hcut]
  simp

theorem lineFeed_not_mem_piped (hcells : ∀ cs ∈ cells, IsCell cs) : '\n' ∉ piped cells := by
  rw [piped, List.mem_cons, List.mem_flatMap]
  rintro (h | ⟨cs, hcs, h⟩)
  · exact absurd h (by decide)
  · rcases List.mem_append.mp h with h | h
    · exact (hcells cs hcs).lineFeed_not_mem h
    · exact absurd h (by decide)

theorem linesOnto_append (h : '\n' ∉ cs) (rest : List Char) :
    linesOnto before (cs ++ '\n' :: rest)
      = (lines? rest).map ((before.reverse ++ cs) :: ·) := by
  induction cs generalizing before with
  | nil => rw [List.nil_append, linesOnto, if_pos rfl, List.append_nil, lines?]
  | cons c cs ih =>
    rw [List.mem_cons, not_or] at h
    rw [List.cons_append, linesOnto, if_neg (Ne.symm h.1), ih h.2, List.reverse_cons,
      List.append_assoc, List.singleton_append]

/-- **A table** is read as the cells that it was put together from, line by line. -/
theorem table?_flatMap {table : List (List (List Char))}
    (hcells : ∀ cells ∈ table, ∀ cs ∈ cells, IsCell cs) :
    table? (table.flatMap fun cells => piped cells ++ ['\n']) = some table := by
  have hlines : lines? (table.flatMap fun cells => piped cells ++ ['\n'])
      = some (table.map piped) := by
    induction table with
    | nil => rfl
    | cons cells table ih =>
      rw [List.forall_mem_cons] at hcells
      rw [List.flatMap_cons, List.append_assoc, List.singleton_append, lines?,
        linesOnto_append (lineFeed_not_mem_piped hcells.1), ih hcells.2]
      rfl
  rw [table?, hlines, Option.bind_some]
  clear hlines
  induction table with
  | nil => rfl
  | cons cells table ih =>
    rw [List.forall_mem_cons] at hcells
    rw [List.map_cons, List.mapM_cons, cells?_piped hcells.1, ih hcells.2]
    rfl

end Cells

/-! ## The table of a display -/

section Displays

variable {d : Display} {box : Range} {cells : List (List Char)} {cs : List Char}

def headerCells (box : Range) : List (List Char) :=
  padded [' '] :: box.columns.map fun col => padded [col.letter]

def alignmentCells (d : Display) (box : Range) : List (List Char) :=
  "---".toList ::
    box.columns.map fun col => (if isNumeric d box col then "---:" else "---").toList

def rowCells (d : Display) (box : Range) (row : Nat) : List (List Char) :=
  padded (Nat.toDigits 10 (row + 1)) ::
    box.columns.map fun col => padded ((d.text ⟨row, col⟩).toList.flatMap escape)

theorem line_eq (first : List Char) (cells : List (List Char)) :
    line first cells = piped (first :: cells.map padded) ++ ['\n'] := by
  simp [line, piped, padded, List.flatMap_map]

theorem header_eq (box : Range) : header box = piped (headerCells box) ++ ['\n'] := by
  rw [header, line_eq, List.map_map]
  rfl

theorem alignment_eq (d : Display) (box : Range) :
    alignment d box = piped (alignmentCells d box) ++ ['\n'] := by
  have hmark (right : Bool) : (if right then "---:|" else "---|").toList
      = (if right then "---:" else "---").toList ++ ['|'] := by
    cases right <;> rfl
  have halignment : alignment d box = "|---|".toList
      ++ box.columns.flatMap (fun col => (if isNumeric d box col then "---:|" else "---|").toList)
      ++ ['\n'] := rfl
  simp only [halignment, piped, alignmentCells, hmark, List.flatMap_cons, List.flatMap_map]
  rfl

theorem rowLine_eq (d : Display) (box : Range) (row : Nat) :
    rowLine d box row = piped (rowCells d box row) ++ ['\n'] := by
  rw [rowLine, line_eq, List.map_map]
  rfl

theorem not_mem_letter : ∀ col : Column, '|' ∉ [col.letter] ∧ '\n' ∉ [col.letter] := by
  decide

theorem isCell_of_mem_headerCells (h : cs ∈ headerCells box) : IsCell cs := by
  rcases List.mem_cons.mp h with rfl | h
  · exact isCell_padded_of_not_mem (by decide) (by decide)
  · obtain ⟨col, -, rfl⟩ := List.mem_map.mp h
    exact isCell_padded_of_not_mem (not_mem_letter col).1 (not_mem_letter col).2

theorem isCell_of_mem_alignmentCells (h : cs ∈ alignmentCells d box) : IsCell cs := by
  have hmark (right : Bool) : IsCell (if right then "---:" else "---").toList := by
    cases right with
    | false => exact ⟨whole_of_not_mem (by decide), by decide, by decide⟩
    | true => exact ⟨whole_of_not_mem (by decide), by decide, by decide⟩
  rcases List.mem_cons.mp h with rfl | h
  · exact hmark false
  · obtain ⟨col, -, rfl⟩ := List.mem_map.mp h
    exact hmark _

theorem not_mem_toDigits {c : Char} (hc : c.isDigit = false) (n : Nat) : c ∉ Nat.toDigits 10 n :=
  fun hmem => by simp [Nat.isDigit_of_mem_toDigits (by decide) (by decide) hmem] at hc

theorem isCell_of_mem_rowCells {row : Nat} (h : cs ∈ rowCells d box row) : IsCell cs := by
  rcases List.mem_cons.mp h with rfl | h
  · exact isCell_padded_of_not_mem (not_mem_toDigits (by decide) _) (not_mem_toDigits (by decide) _)
  · obtain ⟨col, -, rfl⟩ := List.mem_map.mp h
    exact isCell_padded_escape _

/-- The cells of the table, line by line. -/
def tableCells (d : Display) (box : Range) : List (List (List Char)) :=
  headerCells box :: alignmentCells d box ::
    (List.range' box.top (box.bottom - box.top + 1)).map (rowCells d box)

/-- What is so for each of the three kinds of line is so for all lines. -/
theorem forall_mem_tableCells {P : List (List Char) → Prop} (hheader : P (headerCells box))
    (halignment : P (alignmentCells d box)) (hrow : ∀ row, P (rowCells d box row)) :
    ∀ cells ∈ tableCells d box, P cells := by
  rw [tableCells, List.forall_mem_cons, List.forall_mem_cons]
  refine ⟨hheader, halignment, fun cells hcells => ?_⟩
  obtain ⟨row, -, rfl⟩ := List.mem_map.mp hcells
  exact hrow row

theorem length_of_mem_tableCells :
    ∀ cells ∈ tableCells d box, cells.length = 1 + (box.right.val - box.left.val + 1) := by
  have hlength (first : List Char) (f : Column → List Char) :
      (first :: box.columns.map f).length = 1 + (box.right.val - box.left.val + 1) := by
    rw [List.length_cons, List.length_map, Range.length_columns, Nat.add_comm]
  exact forall_mem_tableCells (hlength _ _) (hlength _ _) fun _ => hlength _ _

theorem table?_table (d : Display) (box : Range) :
    table? (table d box) = some (tableCells d box) := by
  have hrows : rowLine d box = fun row => piped (rowCells d box row) ++ ['\n'] :=
    funext (rowLine_eq d box)
  have htable : table d box = (tableCells d box).flatMap fun cells => piped cells ++ ['\n'] := by
    simp only [table, tableCells, header_eq, alignment_eq, hrows, List.flatMap_cons,
      List.flatMap_map, List.append_assoc]
  rw [htable, table?_flatMap]
  exact forall_mem_tableCells (fun _ => isCell_of_mem_headerCells)
    (fun _ => isCell_of_mem_alignmentCells) fun _ _ => isCell_of_mem_rowCells

theorem toList_text (hbox : d.box? = some box) : (text d).toList = heading ++ table d box := by
  rw [text, String.toList_ofList, chars, hbox]

theorem map_shown?_headerCells (box : Range) :
    (headerCells box).tail.map shown? = box.columns.map fun col => some [col.letter] := by
  rw [headerCells, List.tail_cons, List.map_map]
  apply List.map_congr_left
  intro col _
  rw [Function.comp_apply, shown?_padded, unescape_of_not_mem (not_mem_letter col).1]

theorem map_shown?_rowCells (d : Display) (box : Range) (row : Nat) :
    (rowCells d box row).map shown? = some (Nat.toDigits 10 (row + 1)) ::
      box.columns.map fun col => some (oneLine (d.text ⟨row, col⟩).toList) := by
  have hrow : shown? (padded (Nat.toDigits 10 (row + 1))) = some (Nat.toDigits 10 (row + 1)) := by
    rw [shown?_padded, unescape_of_not_mem (not_mem_toDigits (by decide) _)]
  rw [rowCells, List.map_cons, List.map_map, hrow]
  congr 1
  apply List.map_congr_left
  intro col _
  rw [Function.comp_apply, shown?_padded, unescape_flatMap_escape]

theorem isNumeric_iff {col : Column} :
    isNumeric d box col = true ↔
      ∃ row x, (box.top ≤ row ∧ row ≤ box.bottom) ∧ d.get? ⟨row, col⟩ = some (.number x) := by
  have hbox := box.top_le_bottom
  have hmem (row : Nat) : row ∈ List.range' box.top (box.bottom - box.top + 1) ↔
      box.top ≤ row ∧ row ≤ box.bottom := by
    rw [List.mem_range'_1]
    omega
  simp only [isNumeric, List.any_eq_true, hmem, Display.isNumber_iff, exists_and_left]

/-- **A faithful table.** Where anything is populated, a table follows the heading, for the smallest
range that holds all that is: a line of column letters, a line of marks and one line for each row,
each with one cell for each column after a first one. A data row begins with its number, counted
from one, and a cell shows the text of its address on one line. The columns marked to be aligned to
the right are those with a number in the range. -/
theorem table?_text (d : Display) (hd : ∃ a, d.Populated a) :
    ∃ (box : Range) (cs : List Char) (header marks : List (List Char))
      (rows : List (List (List Char))),
      box.IsSmallest d.Populated ∧
      (text d).toList = "# Sheet\n\n".toList ++ cs ∧
      table? cs = some (header :: marks :: rows) ∧
      rows.length = box.bottom - box.top + 1 ∧
      (∀ cells ∈ header :: marks :: rows,
        cells.length = 1 + (box.right.val - box.left.val + 1)) ∧
      header.tail.map shown? = box.columns.map (fun col => some [col.letter]) ∧
      marks.tail = box.columns.map (fun col =>
        (if isNumeric d box col then "---:" else "---").toList) ∧
      (∀ col, isNumeric d box col = true ↔
        ∃ row x, (box.top ≤ row ∧ row ≤ box.bottom) ∧ d.get? ⟨row, col⟩ = some (.number x)) ∧
      rows.map (List.map shown?)
        = (List.range' box.top (box.bottom - box.top + 1)).map fun row =>
            some (Nat.toDigits 10 (row + 1)) ::
              box.columns.map fun col => some (oneLine (d.text ⟨row, col⟩).toList) := by
  cases hbox : d.box? with
  | none =>
    obtain ⟨a, ha⟩ := hd
    exact absurd ha (Display.box?_eq_none_iff.mp hbox a)
  | some box =>
    refine ⟨box, table d box, _, _, _, (Display.encloses_of_box? hbox).isSmallest,
      toList_text hbox, table?_table d box, ?_, length_of_mem_tableCells,
      map_shown?_headerCells box, rfl, fun _ => isNumeric_iff, ?_⟩
    · rw [List.length_map, List.length_range']
    · rw [List.map_map]
      exact List.map_congr_left fun row _ => map_shown?_rowCells d box row

/-- A text with both kinds of pipe, both ends of line and a backslash at its end, and a number. -/
theorem table?_text_escaped :
    let d := Display.ofList [(⟨1, 1⟩, .text "a\\|b|\r\nc\\"), (⟨2, 2⟩, .number 4)]
    ∃ cs header marks rows, (text d).toList = "# Sheet\n\n".toList ++ cs ∧
      table? cs = some (header :: marks :: rows) ∧
      header.tail.map shown? = [some ['B'], some ['C']] ∧
      marks.tail = ["---".toList, "---:".toList] ∧
      rows.map (List.map shown?)
        = [[some ['2'], some "a\\|b| c\\".toList, some []], [some ['3'], some [], some ['4']]] := by
  intro d
  have hpopulated : d.Populated ⟨1, 1⟩ :=
    ⟨.text "a\\|b|\r\nc\\", by decide +kernel, by decide⟩
  have hbox : d.box? = some ⟨1, 2, 1, 2, by decide, by decide⟩ := by decide +kernel
  obtain ⟨box, cs, header, marks, rows, hsmallest, htext, htable, -, -, hheader, hmarks, -,
    hrows⟩ := table?_text d ⟨_, hpopulated⟩
  obtain rfl := hsmallest.unique (Display.encloses_of_box? hbox).isSmallest
  refine ⟨cs, header, marks, rows, htext, htable, hheader.trans ?_, hmarks.trans ?_, hrows.trans ?_⟩
  all_goals decide +kernel

end Displays

end FormulaSheet.Markdown
