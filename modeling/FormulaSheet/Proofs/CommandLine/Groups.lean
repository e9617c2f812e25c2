/-
Arguments in groups, and the order of the groups.

Arguments fall into groups: an option with its value, an option that has none, the
name of the file. What stands after an option that takes a value is its value, even
if it looks like an option, so it takes a reading from the left to find the groups.
But they are found in one way only (`Grouped.unique`), and a list of arguments is
accepted exactly if it falls into groups, of which at most one names a file and one
does if the edits are to be saved (`read_eq_ok_iff`).

What comes of the groups is told for each option from its own groups alone
(`Options.ofGroups`). That is where the order is lost: one more group changes the
options as it changes what its own option has been given
(`ofGroups_append_singleton`). So groups of different options can trade places.
-/
import FormulaSheet.CommandLine.Options
import Mathlib.Data.List.Induction

set_option autoImplicit false

namespace FormulaSheet.CommandLine

/-! ## The names of options -/

namespace Switch

variable {argument : String} {s s' : Switch}

/-- The ways to write an option. -/
def names : Switch → List String
  | help => ["-h", "--help"]
  | write => ["-w", "--write"]
  | verbose => ["-v", "--verbose"]
  | valued .set => ["-s", "--set"]
  | valued .command => ["-c", "--command"]
  | valued .output => ["-o", "--output"]
  | valued .csv => ["--csv"]
  | valued .config => ["--config"]

/-- An argument is an option exactly if it is one of its names. -/
theorem ofArgument?_eq_some_iff : ofArgument? argument = some s ↔ argument ∈ s.names := by
  constructor
  · intro h
    unfold ofArgument? at h
    split at h <;> cases h <;> decide
  · have hnames : ∀ name ∈ s.names, ofArgument? name = some s := by
      match s with
      | help | write | verbose | valued .set | valued .command | valued .output | valued .csv
      | valued .config => decide
    exact hnames argument

theorem eq_of_mem_names (h : argument ∈ s.names) (h' : argument ∈ s'.names) : s = s' :=
  Option.some.inj ((ofArgument?_eq_some_iff.mpr h).symm.trans (ofArgument?_eq_some_iff.mpr h'))

/-- What does not begin with a dash is no option. -/
theorem head?_of_mem_names (h : argument ∈ s.names) : argument.toList.head? = some '-' := by
  by_contra hdash
  have hnone := ofArgument?_of_head? hdash
  rw [ofArgument?_eq_some_iff.mpr h] at hnone
  cases hnone

end Switch

/-! ## Groups -/

/-- Arguments that belong together. -/
inductive OptionGroup where
  | valued (v : Valued) (value : String)
  | write
  | verbose
  | file (name : String)
deriving DecidableEq

namespace OptionGroup

/-- The option of a group, and none for the name of the file. -/
def switch? : OptionGroup → Option Switch
  | valued v _ => some (.valued v)
  | write => some .write
  | verbose => some .verbose
  | file _ => none

/-- The text that a group brings with it. -/
def text? : OptionGroup → Option String
  | valued _ value => some value
  | file name => some name
  | write => none
  | verbose => none

end OptionGroup

/-- The groups that arguments fall into. Help is not among them. -/
inductive Grouped : List String → List OptionGroup → Prop
  | nil : Grouped [] []
  | valued {v : Valued} {option value : String} {rest : List String} {gs : List OptionGroup}
      (hoption : option ∈ (Switch.valued v).names) (hrest : Grouped rest gs) :
      Grouped (option :: value :: rest) (.valued v value :: gs)
  | write {option : String} {rest : List String} {gs : List OptionGroup}
      (hoption : option ∈ Switch.write.names) (hrest : Grouped rest gs) :
      Grouped (option :: rest) (.write :: gs)
  | verbose {option : String} {rest : List String} {gs : List OptionGroup}
      (hoption : option ∈ Switch.verbose.names) (hrest : Grouped rest gs) :
      Grouped (option :: rest) (.verbose :: gs)
  | file {name : String} {rest : List String} {gs : List OptionGroup}
      (hname : name.toList.head? ≠ some '-') (hrest : Grouped rest gs) :
      Grouped (name :: rest) (.file name :: gs)

/-- Arguments fall into groups in one way only. -/
theorem Grouped.unique {arguments : List String} {gs gs' : List OptionGroup}
    (h : Grouped arguments gs) (h' : Grouped arguments gs') : gs = gs' := by
  -- the first argument settles what the first group is, for no two options share a name
  induction h generalizing gs' with
  | nil => cases h'; rfl
  | valued hoption _ ih =>
    cases h' with
    | valued hoption' hrest' =>
      cases Switch.eq_of_mem_names hoption hoption'
      rw [ih hrest']
    | write hoption' _ | verbose hoption' _ => cases Switch.eq_of_mem_names hoption hoption'
    | file hname' _ => exact absurd (Switch.head?_of_mem_names hoption) hname'
  | write hoption _ ih =>
    cases h' with
    | write _ hrest' => rw [ih hrest']
    | valued hoption' _ | verbose hoption' _ => cases Switch.eq_of_mem_names hoption hoption'
    | file hname' _ => exact absurd (Switch.head?_of_mem_names hoption) hname'
  | verbose hoption _ ih =>
    cases h' with
    | verbose _ hrest' => rw [ih hrest']
    | valued hoption' _ | write hoption' _ => cases Switch.eq_of_mem_names hoption hoption'
    | file hname' _ => exact absurd (Switch.head?_of_mem_names hoption) hname'
  | file hname _ ih =>
    cases h' with
    | file _ hrest' => rw [ih hrest']
    | valued hoption' _ | write hoption' _ | verbose hoption' _ =>
      exact absurd (Switch.head?_of_mem_names hoption') hname

/-- Groups can be written as arguments unless one of them names a file by what looks like an
option. -/
theorem exists_grouped_iff {gs : List OptionGroup} :
    (∃ arguments, Grouped arguments gs)
      ↔ ∀ name, .file name ∈ gs → name.toList.head? ≠ some '-' := by
  constructor
  · rintro ⟨arguments, h⟩ name hname
    induction h with
    | nil => cases hname
    | valued _ _ ih | write _ _ ih | verbose _ _ ih =>
      cases hname with
      | tail _ hname => exact ih hname
    | file hfirst _ ih =>
      cases hname with
      | head => exact hfirst
      | tail _ hname => exact ih hname
  · intro h
    induction gs with
    | nil => exact ⟨[], .nil⟩
    | cons g gs ih =>
      obtain ⟨arguments, hgs⟩ := ih fun name hname => h name (List.mem_cons_of_mem g hname)
      cases g with
      | valued v value =>
        have hlong : v.name ∈ (Switch.valued v).names := by cases v <;> decide
        exact ⟨_, .valued hlong hgs⟩
      | write => exact ⟨"-w" :: arguments, .write (by decide) hgs⟩
      | verbose => exact ⟨"-v" :: arguments, .verbose (by decide) hgs⟩
      | file name => exact ⟨name :: arguments, .file (h name List.mem_cons_self) hgs⟩

/-! ## What groups amount to -/

section Amount

variable {s : Option Switch} {gs gs' : List OptionGroup} {name : String}

namespace OptionGroup

/-- The groups of one option, or those that name a file, in their order. -/
def only (s : Option Switch) (gs : List OptionGroup) : List OptionGroup :=
  gs.filter fun g => g.switch? = s

/-- The texts that one option has been given, or those given for a file. -/
def texts (s : Option Switch) (gs : List OptionGroup) : List String :=
  (only s gs).filterMap text?

theorem mem_only {g : OptionGroup} : g ∈ only g.switch? gs ↔ g ∈ gs := by
  rw [only, List.mem_filter, decide_eq_true_eq, and_iff_left rfl]

theorem count_only (g : OptionGroup) (gs : List OptionGroup) :
    (only g.switch? gs).count g = gs.count g :=
  List.count_filter (decide_eq_true rfl)

theorem only_append (s : Option Switch) (gs gs' : List OptionGroup) :
    only s (gs ++ gs') = only s gs ++ only s gs' :=
  List.filter_append gs gs'

theorem texts_append (s : Option Switch) (gs gs' : List OptionGroup) :
    texts s (gs ++ gs') = texts s gs ++ texts s gs' := by
  rw [texts, only_append, List.filterMap_append, texts, texts]

/-- Where there is no option, there is a file. -/
theorem only_none (gs : List OptionGroup) : only none gs = (texts none gs).map file := by
  induction gs with
  | nil => rfl
  | cons g gs ih =>
    cases g with
    | file name => exact congrArg (file name :: ·) ih
    | valued v value => exact ih
    | write => exact ih
    | verbose => exact ih

theorem mem_texts_none : name ∈ texts none gs ↔ file name ∈ gs := by
  have hmap : file name ∈ only none gs ↔ name ∈ texts none gs := by
    simp only [only_none, List.mem_map, file.injEq, exists_eq_right]
  exact hmap.symm.trans mem_only

end OptionGroup

namespace Options

open OptionGroup (only texts mem_only count_only texts_append mem_texts_none switch? text?)

/-- The options that groups amount to. All edits count, and of anything else that has been given
more than once, the last. -/
def ofGroups (gs : List OptionGroup) : Options where
  file := (texts none gs).getLast?
  edits := texts (some (.valued .set)) gs
  command := (texts (some (.valued .command)) gs).getLast?
  output := (texts (some (.valued .output)) gs).getLast?
  csv := (texts (some (.valued .csv)) gs).getLast?
  config := (texts (some (.valued .config)) gs).getLast?
  write := decide (.write ∈ gs)
  verbosity := min (gs.count .verbose) 255

/-- They depend on nothing but the groups of each option in their own order. -/
theorem ofGroups_congr (h : ∀ s, only s gs' = only s gs) : ofGroups gs' = ofGroups gs := by
  have hwrite : .write ∈ gs' ↔ .write ∈ gs := by rw [← mem_only, h, mem_only]
  have hverbose : gs'.count .verbose = gs.count .verbose := by
    rw [← count_only, h, count_only]
  simp only [ofGroups, texts, h, hwrite, hverbose]

theorem file_ofGroups : (ofGroups gs).file = none ↔ ∀ name, .file name ∉ gs := by
  rw [ofGroups, List.getLast?_eq_none_iff, List.eq_nil_iff_forall_not_mem]
  simp only [mem_texts_none]

/-- Takes in a group. -/
def withGroup (o : Options) : OptionGroup → Options
  | .valued v value => o.withValue v value
  | .write => { o with write := true }
  | .verbose => o.louder
  | .file name => { o with file := some name }

/-- One more group changes what its own option has been given, and nothing else. -/
theorem ofGroups_append_singleton (gs : List OptionGroup) (g : OptionGroup) :
    ofGroups (gs ++ [g]) = (ofGroups gs).withGroup g := by
  simp only [ofGroups, texts_append, List.count_append, List.mem_append]
  cases g with
  | valued v value =>
    cases v <;> simp [withGroup, withValue, texts, only, switch?, text?]
  | file name => simp [withGroup, texts, only, switch?, text?]
  | write => simp [withGroup, texts, only, switch?]
  | verbose =>
    -- the highest level is the same whether it cuts each step or only the last one
    have hlevel : min (gs.count .verbose + 1) 255 = min (min (gs.count .verbose) 255 + 1) 255 := by
      omega
    simpa [withGroup, louder, texts, only, switch?] using hlevel

theorem foldl_withGroup (gs : List OptionGroup) : gs.foldl withGroup {} = ofGroups gs := by
  induction gs using List.reverseRecOn with
  | nil => rfl
  | append_singleton gs g ih =>
    rw [List.foldl_append, ih, ofGroups_append_singleton]
    rfl

end Options

end Amount

/-! ## Reading groups -/

section Reading

variable {arguments arguments' rest : List String} {option name value : String} {v : Valued}
  {gs gs' : List OptionGroup} {o o' : Options}

namespace Options

open OptionGroup (only texts only_none)

theorem readFrom_valued (h : option ∈ (Switch.valued v).names) :
    readFrom o (option :: value :: rest) = readFrom (o.withValue v value) rest := by
  simp only [readFrom, Switch.ofArgument?_eq_some_iff.mpr h]

theorem readFrom_write (h : option ∈ Switch.write.names) :
    readFrom o (option :: rest) = readFrom { o with write := true } rest := by
  simp only [readFrom, Switch.ofArgument?_eq_some_iff.mpr h]

theorem readFrom_verbose (h : option ∈ Switch.verbose.names) :
    readFrom o (option :: rest) = readFrom o.louder rest := by
  simp only [readFrom, Switch.ofArgument?_eq_some_iff.mpr h]

/-- The first file is taken in. -/
theorem readFrom_file (h : name.toList.head? ≠ some '-') (hfile : o.file = none) :
    readFrom o (name :: rest) = readFrom { o with file := some name } rest := by
  have hwith : o.withFile name = .ok { o with file := some name } := by
    rw [withFile, if_neg (by simpa using h), if_neg (by simp [hfile])]
  simp only [readFrom, ofArgument?_of_head? h, hwith]

/-- And no second one. -/
theorem readFrom_second_file (h : name.toList.head? ≠ some '-') (hfile : o.file ≠ none) :
    readFrom o (name :: rest) = .error (.unexpected name) := by
  have hwith : o.withFile name = .error (.unexpected name) := by
    rw [withFile, if_neg (by simpa using h), if_pos (Option.isSome_iff_ne_none.mpr hfile)]
  simp only [readFrom, ofArgument?_of_head? h, hwith]

theorem file_withValue (o : Options) (v : Valued) (value : String) :
    (o.withValue v value).file = o.file := by
  cases v <;> rfl

/-- Arguments that fall into groups are taken in group by group, up to a second file. -/
theorem readFrom_of_grouped (h : Grouped arguments gs) (o : Options) :
    readFrom o arguments = match (o.file.toList ++ texts none gs)[1]? with
      | some name => .error (.unexpected name)
      | none => (gs.foldl withGroup o).finish.map some := by
  -- the files that have been named and those still to come are the same all the way
  induction h generalizing o with
  | nil => cases hfile : o.file <;> rfl
  | valued hoption _ ih =>
    rw [readFrom_valued hoption, ih, file_withValue]
    rfl
  | write hoption _ ih =>
    rw [readFrom_write hoption, ih]
    rfl
  | verbose hoption _ ih =>
    rw [readFrom_verbose hoption, ih]
    rfl
  | file hname _ ih =>
    cases hfile : o.file with
    | none =>
      rw [readFrom_file hname hfile, ih]
      rfl
    | some first =>
      rw [readFrom_second_file hname (by simp [hfile])]
      rfl

theorem read_of_grouped (h : Grouped arguments gs) :
    read arguments = match (texts none gs)[1]? with
      | some name => .error (.unexpected name)
      | none => (ofGroups gs).finish.map some := by
  rw [read, readFrom_of_grouped h, foldl_withGroup]
  rfl

/-- What has been read falls into groups. -/
theorem exists_grouped_of_readFrom (h : readFrom o arguments = .ok (some o')) :
    ∃ gs, Grouped arguments gs := by
  -- help and the three errors give no options; what is left is one case for each kind of group
  fun_induction readFrom o arguments with
  | case1 => exact ⟨[], .nil⟩
  | case2 => cases h
  | case3 o option rest hoption ih =>
    obtain ⟨gs, hgs⟩ := ih h
    exact ⟨_, .write (Switch.ofArgument?_eq_some_iff.mp hoption) hgs⟩
  | case4 o option rest hoption ih =>
    obtain ⟨gs, hgs⟩ := ih h
    exact ⟨_, .verbose (Switch.ofArgument?_eq_some_iff.mp hoption) hgs⟩
  | case5 => cases h
  | case6 o option v hoption value rest ih =>
    obtain ⟨gs, hgs⟩ := ih h
    exact ⟨_, .valued (Switch.ofArgument?_eq_some_iff.mp hoption) hgs⟩
  | case7 => cases h
  | case8 o name rest hoption o₁ hwith ih =>
    obtain ⟨gs, hgs⟩ := ih h
    have hname : name.toList.head? ≠ some '-' := by
      intro hdash
      rw [withFile, if_pos (by simpa using hdash)] at hwith
      cases hwith
    exact ⟨_, .file hname hgs⟩

theorem finish_eq_error (hwrite : o.write = true) (hfile : o.file = none) :
    o.finish = .error .nothingToWrite := by
  rw [finish, hwrite, hfile]
  rfl

theorem finish_eq_ok (h : o.write = true → o.file ≠ none) : o.finish = .ok o := by
  rw [finish, if_neg]
  rw [Bool.and_eq_true, Option.isNone_iff_eq_none]
  exact fun hboth => h hboth.1 hboth.2

/-- Edits cannot be saved without a file. -/
theorem read_of_no_file (h : Grouped arguments gs) (hwrite : .write ∈ gs)
    (hfile : ∀ name, .file name ∉ gs) : read arguments = .error .nothingToWrite := by
  have hnone : (ofGroups gs).file = none := file_ofGroups.mpr hfile
  have htexts : texts none gs = [] := List.getLast?_eq_none_iff.mp hnone
  rw [read_of_grouped h, htexts, List.getElem?_nil,
    finish_eq_error (decide_eq_true hwrite) hnone]
  rfl

/-- If there is one, or nothing is to be saved, the options are what the groups amount to. -/
theorem read_of_one_file (h : Grouped arguments gs) (hone : (only none gs).length ≤ 1)
    (hfile : .write ∈ gs → ∃ name, .file name ∈ gs) :
    read arguments = .ok (some (ofGroups gs)) := by
  have hsecond : (texts none gs)[1]? = none := by
    rw [only_none, List.length_map] at hone
    exact List.getElem?_eq_none hone
  have hfinish : (ofGroups gs).finish = .ok (ofGroups gs) := by
    refine finish_eq_ok fun hwrite hnone => ?_
    obtain ⟨name, hname⟩ := hfile (of_decide_eq_true hwrite)
    exact file_ofGroups.mp hnone name hname
  rw [read_of_grouped h, hsecond, hfinish]
  rfl

/-- Arguments are accepted exactly if they fall into groups, of which one at most names a file,
and one does if the edits are to be saved. -/
theorem read_eq_ok_iff : read arguments = .ok (some o) ↔ ∃ gs, Grouped arguments gs ∧
    (only none gs).length ≤ 1 ∧ (.write ∈ gs → ∃ name, .file name ∈ gs) ∧ o = ofGroups gs := by
  constructor
  · intro hread
    obtain ⟨gs, hgs⟩ := exists_grouped_of_readFrom hread
    have hone : (only none gs).length ≤ 1 := by
      by_contra htwo
      rw [only_none, List.length_map, Nat.not_le] at htwo
      rw [read_of_grouped hgs, List.getElem?_eq_getElem htwo] at hread
      cases hread
    have hfile : .write ∈ gs → ∃ name, .file name ∈ gs := by
      intro hwrite
      by_contra hnone
      rw [read_of_no_file hgs hwrite (not_exists.mp hnone)] at hread
      cases hread
    rw [read_of_one_file hgs hone hfile] at hread
    cases hread
    exact ⟨gs, hgs, hone, hfile, rfl⟩
  · rintro ⟨gs, hgs, hone, hfile, rfl⟩
    exact read_of_one_file hgs hone hfile

/-- Groups of different options can trade places. -/
theorem read_congr (h : Grouped arguments gs) (h' : Grouped arguments' gs')
    (hsame : ∀ s, only s gs' = only s gs) : read arguments' = read arguments := by
  rw [read_of_grouped h, read_of_grouped h', ofGroups_congr hsame, texts, hsame none, texts]

end Options

/-- Arguments that fall into groups, one of which at most names a file, are accepted unless edits
are to be saved and there is no file. The options are what each option's own groups amount to, and
in whatever way these are mixed with the groups of other options, the result is the same. -/
theorem order_across_options_is_free (h : Grouped arguments gs)
    (hone : (OptionGroup.only none gs).length ≤ 1) :
    (.write ∈ gs → (∀ name, .file name ∉ gs) → Options.read arguments = .error .nothingToWrite) ∧
    ((.write ∈ gs → ∃ name, .file name ∈ gs) →
      Options.read arguments = .ok (some (Options.ofGroups gs))) ∧
    ∀ gs', (∀ s, OptionGroup.only s gs' = OptionGroup.only s gs) →
      (∃ arguments', Grouped arguments' gs') ∧
      ∀ arguments', Grouped arguments' gs' → Options.read arguments' = Options.read arguments := by
  refine ⟨Options.read_of_no_file h, Options.read_of_one_file h hone, fun gs' hsame => ⟨?_, ?_⟩⟩
  · -- the names of files have not changed, and nothing else could keep groups from being written
    refine exists_grouped_iff.mpr fun name hname => ?_
    rw [← OptionGroup.mem_only, hsame, OptionGroup.mem_only] at hname
    exact exists_grouped_iff.mp ⟨_, h⟩ name hname
  · exact fun arguments' h' => Options.read_congr h h' hsame

/-- Values that look like options stay with their options, wherever these are moved. -/
theorem values_like_options_are_moved :
    Options.read
        ["-w", "-s", "-h", "book.json", "--output", "-w", "-o", "--csv", "-v", "-s", "B2=1"]
      = .ok (some
          { file := some "book.json", edits := ["-h", "B2=1"], output := some "--csv",
            write := true, verbosity := 1 }) ∧
    Options.read
        ["-o", "-w", "-s", "-h", "-v", "--set", "B2=1", "-o", "--csv", "book.json", "--write"]
      = Options.read
          ["-w", "-s", "-h", "book.json", "--output", "-w", "-o", "--csv", "-v", "-s", "B2=1"] ∧
    Options.read ["--write", "-c", "book.json"] = .error .nothingToWrite := by
  have hgrouped : Grouped
      ["-w", "-s", "-h", "book.json", "--output", "-w", "-o", "--csv", "-v", "-s", "B2=1"]
      [.write, .valued .set "-h", .file "book.json", .valued .output "-w", .valued .output "--csv",
        .verbose, .valued .set "B2=1"] :=
    .write (by decide) (.valued (by decide) (.file (by decide) (.valued (by decide)
      (.valued (by decide) (.verbose (by decide) (.valued (by decide) .nil))))))
  have hmoved : Grouped
      ["-o", "-w", "-s", "-h", "-v", "--set", "B2=1", "-o", "--csv", "book.json", "--write"]
      [.valued .output "-w", .valued .set "-h", .verbose, .valued .set "B2=1",
        .valued .output "--csv", .file "book.json", .write] :=
    .valued (by decide) (.valued (by decide) (.verbose (by decide) (.valued (by decide)
      (.valued (by decide) (.file (by decide) (.write (by decide) .nil))))))
  have hnofile : Grouped ["--write", "-c", "book.json"] [.write, .valued .command "book.json"] :=
    .write (by decide) (.valued (by decide) .nil)
  obtain ⟨-, haccepted, hfree⟩ := order_across_options_is_free hgrouped (by decide)
  refine ⟨haccepted fun _ => ⟨"book.json", by decide⟩, (hfree _ fun s => ?_).2 _ hmoved,
    (order_across_options_is_free hnofile (by decide)).1 (by decide) (by simp)⟩
  match s with
  | none | some .help | some .write | some .verbose | some (.valued .set)
  | some (.valued .command) | some (.valued .output) | some (.valued .csv)
  | some (.valued .config) => rfl

end Reading

end FormulaSheet.CommandLine
