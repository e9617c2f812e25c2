/-
Writing edits back to the file they were made in.

A run with edits that saves, and after it a run without any: the second lists
what the first would have listed. Nothing of the first run is left but the file,
so the file has to hold all that counts, and that is more than is shown: cells
below the last row are kept, and cells that were cleared are gone.

The world is a tree of files. A file that can be read in it can be replaced, and
then every path leads where it led before; so the second run finds the same
configuration, which cannot have been the file itself (`ofText_ne_ok_of_snapshot`).
What the file holds is followed as a text for each address: the last one of its
entries, and after that the last one of the edits (`finalText`).
-/
import FormulaSheet.Proofs.CommandLine.Effects
import FormulaSheet.Proofs.CommandLine.Groups
import FormulaSheet.Proofs.Config.Apart
import FormulaSheet.Proofs.Document.Edits

set_option autoImplicit false

namespace FormulaSheet.CommandLine

open Document (attempt finding sizing fetching reading writing)

/-! ## Arguments -/

section Arguments

/-- The arguments for edits of a file, with or without saving it, and with a configuration or
without one. -/
def invocation (file : String) (edits : List String) (write : Bool) (requested : Option String) :
    List String :=
  file :: (edits.flatMap (fun edit => ["-s", edit]) ++ ((if write then ["-w"] else [])
    ++ requested.toList.flatMap fun path => ["--config", path]))

theorem readFrom_edits (o : Options) (edits rest : List String) :
    Options.readFrom o (edits.flatMap (fun edit => ["-s", edit]) ++ rest)
      = Options.readFrom { o with edits := o.edits ++ edits } rest := by
  induction edits generalizing o with
  | nil => rw [List.append_nil]; rfl
  | cons edit edits ih =>
    have hstep : Options.readFrom o ("-s" :: edit :: (edits.flatMap (fun e => ["-s", e]) ++ rest))
        = Options.readFrom (o.withValue .set edit) (edits.flatMap (fun e => ["-s", e]) ++ rest) :=
      Options.readFrom_valued (by decide)
    rw [List.flatMap_cons, List.append_assoc]
    refine hstep.trans ((ih _).trans ?_)
    rw [Options.withValue, List.append_assoc]
    rfl

/-- The arguments are read as they are meant. -/
theorem read_invocation {file : String} (h : file.toList.head? ≠ some '-') (edits : List String)
    (write : Bool) (requested : Option String) :
    Options.read (invocation file edits write requested)
      = .ok (some { file := some file, edits, config := requested, write }) := by
  rw [Options.read, invocation, Options.readFrom_file h rfl, readFrom_edits]
  cases write <;> cases requested <;> rfl

end Arguments

/-! ## Accepted edits -/

section Edits

variable {W : Type} {d : Document} {w : W} {rows : Nat} {edits : List String}
  {entries : List (String × String)} {writes : List (Address × String)}

/-- The document after texts have been written into cells. -/
def written (d : Document) (writes : List (Address × String)) : Document :=
  writes.foldl (fun d e => d.write e.1 e.2) d

theorem grid_written (d : Document) (writes : List (Address × String)) :
    (written d writes).sheet.grid = d.sheet.grid := by
  induction writes generalizing d with
  | nil => rfl
  | cons e writes ih => exact ih (d.write e.1 e.2)

theorem path_written (d : Document) (writes : List (Address × String)) :
    (written d writes).path = d.path := by
  induction writes generalizing d with
  | nil => rfl
  | cons e writes ih => exact ih (d.write e.1 e.2)

theorem display_written (h : d.display = d.sheet.recompute) (writes : List (Address × String)) :
    (written d writes).display = (written d writes).sheet.recompute := by
  induction writes generalizing d with
  | nil => exact h
  | cons e writes ih => exact ih (d := d.write e.1 e.2) rfl

/-- Accepted edits lead to the document in which all of them are written. -/
theorem edited_of_accepts
    (h : List.Forall₂ (fun edit e => Document.Accepts d.sheet.grid.rows edit e.1 e.2) edits writes) :
    Edited w d edits (written d writes) := by
  induction edits generalizing d writes with
  | nil =>
    cases h
    exact .nil d
  | cons edit edits ih =>
    cases h with
    | cons hedit hrest =>
      exact .cons (congrArg Prod.fst (Document.attempt_applyEdit_of_accepts hedit)) (ih hrest)

/-- The text of the last write to a cell, or else of the last entry that names it, and the empty
text if there is neither. -/
def finalText (entries : List (String × String)) (writes : List (Address × String))
    (a : Address) : String :=
  (writes.reverse.find? fun e => e.1 == a).elim (Store.lastText entries a) Prod.snd

/-- The store that entries make has, after some writes, the final texts. -/
theorem get?_written (hstore : d.sheet.store = (Store.ofEntries entries).1) (a : Address) :
    (written d writes).sheet.store.get? a = Store.held? (finalText entries writes a) := by
  induction writes using List.reverseRecOn with
  | nil =>
    rw [written, List.foldl_nil, hstore, Store.get?_ofEntries]
    rfl
  | append_singleton writes e ih =>
    have hlast : written d (writes ++ [e]) = (written d writes).write e.1 e.2 := by
      rw [written, List.foldl_append]
      rfl
    rw [hlast, finalText, List.reverse_concat, List.find?_cons]
    simp only [Document.write, Sheet.set, Store.get?_set]
    by_cases he : e.1 = a
    · simp [he, Store.held?]
    · have hne : (e.1 == a) = false := beq_eq_false_iff_ne.mpr he
      rw [if_neg he, ih, finalText, hne]

theorem readable_of_accepts
    (h : List.Forall₂ (fun edit e => Document.Accepts rows edit e.1 e.2) edits writes) :
    ∀ e ∈ writes, e.1.Readable := by
  induction h with
  | nil => exact fun e he => by cases he
  | cons hedit _ ih =>
    rintro e (_ | ⟨_, he⟩)
    · exact hedit.readable
    · exact ih e he

theorem readable_written (hd : d.sheet.store.Readable) (hwrites : ∀ e ∈ writes, e.1.Readable) :
    (written d writes).sheet.store.Readable := by
  induction writes generalizing d with
  | nil => exact hd
  | cons e writes ih =>
    have he := hwrites e List.mem_cons_self
    exact ih (d := d.write e.1 e.2) (hd.set he e.2)
      fun e' he' => hwrites e' (List.mem_cons_of_mem e he')

end Edits

/-! ## Files that were read -/

section Reading

variable {W : Type} [Files (StateM W)] {w w₁ w₂ : W} {path text : String} {n : Nat}
  {bytes : ByteArray} {s : Snapshot} {config : Config}

/-- What comes of loading a configuration file, and the world afterwards. -/
def loading (w : W) (path : String) : Except Problem Config × W :=
  (Config.load path : ExceptT Problem (StateM W) Config).run.run w

/-- A snapshot that has been loaded is what the text of the file says. -/
theorem exists_text_of_reading (h : (reading w path).1 = .ok s) :
    ∃ n w₁ bytes w₂ text, sizing w path = (.ok n, w₁) ∧ ¬ Snapshot.sizeLimit < n ∧
      fetching w₁ path = (.ok bytes, w₂) ∧ String.fromUTF8? bytes = some text ∧
      Snapshot.ofText? text = some s := by
  obtain ⟨⟨size, w₁⟩, hsize⟩ : ∃ r, sizing w path = r := ⟨_, rfl⟩
  cases size with
  | error e =>
    rw [Document.reading_of_unsized hsize] at h
    cases h
  | ok n =>
    by_cases hlimit : Snapshot.sizeLimit < n
    · rw [Document.reading_of_oversized hsize hlimit] at h
      cases h
    · obtain ⟨⟨result, w₂⟩, hfetch⟩ : ∃ r, fetching w₁ path = r := ⟨_, rfl⟩
      cases result with
      | error e =>
        rw [Document.reading_of_unread hsize hlimit hfetch] at h
        cases h
      | ok bytes =>
        cases htext : String.fromUTF8? bytes with
        | none =>
          rw [Document.reading_of_notText hsize hlimit hfetch htext] at h
          cases h
        | some text =>
          rw [Document.reading_of_text hsize hlimit hfetch htext] at h
          cases hsnapshot : Snapshot.ofText? text with
          | none =>
            rw [hsnapshot] at h
            cases h
          | some s' =>
            rw [hsnapshot] at h
            cases h
            exact ⟨n, w₁, bytes, w₂, text, hsize, hlimit, hfetch, htext, hsnapshot⟩

theorem loading_of_text (hsize : sizing w path = (.ok n, w₁)) (hlimit : ¬ Config.sizeLimit < n)
    (hfetch : fetching w₁ path = (.ok bytes, w₂)) (htext : String.fromUTF8? bytes = some text) :
    loading w path = ((Config.ofText text).mapError (.config path), w₂) := by
  have hdone := Document.run_text_of_read hfetch
  rw [Files.decode, htext] at hdone
  unfold loading Config.load
  rw [Document.run_bind_of_ok (Document.run_size hsize), if_neg hlimit]
  exact Document.run_bind_of_ok hdone

/-- A configuration that has been loaded is what the text of the file says. -/
theorem exists_text_of_loading (h : (loading w path).1 = .ok config) :
    ∃ n w₁ bytes w₂ text, sizing w path = (.ok n, w₁) ∧ ¬ Config.sizeLimit < n ∧
      fetching w₁ path = (.ok bytes, w₂) ∧ String.fromUTF8? bytes = some text ∧
      Config.ofText text = .ok config := by
  obtain ⟨⟨size, w₁⟩, hsize⟩ : ∃ r, sizing w path = r := ⟨_, rfl⟩
  have hsized := Document.run_size hsize
  cases size with
  | error e =>
    unfold loading Config.load at h
    rw [Document.run_bind_of_error hsized] at h
    cases h
  | ok n =>
    by_cases hlimit : Config.sizeLimit < n
    · unfold loading Config.load at h
      rw [Document.run_bind_of_ok hsized, if_pos hlimit] at h
      cases h
    · obtain ⟨⟨result, w₂⟩, hfetch⟩ : ∃ r, fetching w₁ path = r := ⟨_, rfl⟩
      cases result with
      | error e =>
        unfold loading Config.load at h
        rw [Document.run_bind_of_ok hsized, if_neg hlimit,
          Document.run_bind_of_error (Document.run_text_of_unread hfetch)] at h
        cases h
      | ok bytes =>
        cases htext : String.fromUTF8? bytes with
        | none =>
          have hdone := Document.run_text_of_read hfetch
          rw [Files.decode, htext] at hdone
          unfold loading Config.load at h
          rw [Document.run_bind_of_ok hsized, if_neg hlimit,
            Document.run_bind_of_error hdone] at h
          cases h
        | some text =>
          rw [loading_of_text hsize hlimit hfetch htext] at h
          cases hconfig : Config.ofText text with
          | error e =>
            rw [hconfig] at h
            cases h
          | ok config' =>
            rw [hconfig] at h
            cases h
            exact ⟨n, w₁, bytes, w₂, text, hsize, hlimit, hfetch, htext, hconfig⟩

end Reading

/-! ## Trees in which a file has been replaced -/

section Trees

variable {t : Files.Tree} {site : List String} {old : ByteArray} {text : String} {s : Snapshot}
  {path : String} {requested user : Option String} {config : Config}

/-- A configuration is loaded from a tree as before when a snapshot file has been replaced. -/
theorem loading_replace (hsite : t.entries[site]? = some (.file old))
    (htext : String.fromUTF8? old = some text) (hsnapshot : Snapshot.ofText? text = some s)
    (new : ByteArray) (h : (loading t path).1 = .ok config) :
    loading (t.insert site (.file new)) path = (.ok config, t.insert site (.file new)) := by
  obtain ⟨n, t₁, bytes, t₂, text', hsize, hlimit, hfetch, htext', hconfig⟩ :=
    exists_text_of_loading h
  have hsized : (t.size path, t) = (.ok n, t₁) := hsize
  obtain ⟨hn, rfl⟩ := Prod.mk.inj hsized
  have hfetched : (t.read path, t) = (.ok bytes, t₂) := hfetch
  obtain ⟨hread, -⟩ := Prod.mk.inj hfetched
  obtain ⟨names, hlocate⟩ := Files.Tree.exists_of_read hread
  have hentry := (Files.Tree.destination_of_locate_file hlocate).1
  have hne : names ≠ site := by
    rintro rfl
    obtain rfl : bytes = old := by
      rw [hentry] at hsite
      exact Files.Entry.file.inj (Option.some.inj hsite)
    obtain rfl : text' = text := Option.some.inj (htext'.symm.trans htext)
    exact Config.ofText_ne_ok_of_snapshot hsnapshot config hconfig
  obtain ⟨hread', hsize'⟩ := Files.Tree.read_size_replace_of_ne hsite new hlocate hne
  have hsizing : sizing (t.insert site (.file new)) path = (.ok n, t.insert site (.file new)) :=
    Prod.ext (hsize'.trans hn) rfl
  have hfetching : fetching (t.insert site (.file new)) path
      = (.ok bytes, t.insert site (.file new)) := Prod.ext (hread'.trans hread) rfl
  rw [loading_of_text hsizing hlimit hfetching htext', hconfig]
  rfl

/-- The user's own configuration counts if it is there. -/
theorem configuring_none (t : Files.Tree) (path : String) :
    configuring t none (some path) = if t.found path then loading t path else (.ok default, t) := by
  have hfound : (ExceptT.lift (Files.found path) : ExceptT Problem (StateM Files.Tree) Bool).run.run t
      = (.ok (t.found path), t) := rfl
  unfold configuring Config.find
  refine (Document.run_bind_of_ok hfound).trans ?_
  cases t.found path <;> rfl

/-- The configuration is the same when a snapshot file has been replaced. -/
theorem configuring_replace (hsite : t.entries[site]? = some (.file old))
    (htext : String.fromUTF8? old = some text) (hsnapshot : Snapshot.ofText? text = some s)
    (new : ByteArray) (h : (configuring t requested user).1 = .ok config) :
    configuring (t.insert site (.file new)) requested user
      = (.ok config, t.insert site (.file new)) := by
  cases requested with
  | some path => exact loading_replace hsite htext hsnapshot new h
  | none =>
    cases user with
    | none =>
      obtain rfl : default = config := Except.ok.inj h
      rfl
    | some path =>
      rw [configuring_none] at h ⊢
      rw [Files.Tree.found_replace hsite]
      by_cases hfound : t.found path = true
      · rw [if_pos hfound] at h ⊢
        exact loading_replace hsite htext hsnapshot new h
      · rw [if_neg hfound] at h ⊢
        obtain rfl : default = config := Except.ok.inj h
        rfl

end Trees

/-! ## Runs -/

section Runs

variable {W : Type} [Files (StateM W)] {d d₁ d₂ d₃ : Document} {w w₁ w₂ : W} {o : Options}
  {warnings : List Warning}

/-- Without a formula and without exports, a run whose steps succeed ends with the list. -/
theorem play_steps_of_list (hcommand : o.command = none) (houtput : o.output = none)
    (hcsv : o.csv = none)
    (hopen : attempt d w (Document.openFile o.file) = ((.ok warnings, d₁), w₁))
    (hedits : Edited w₁ d₁ o.edits d₂)
    (hsave : ∀ p, play d₂ p w₁ (saving o.write) = (((.ok (), p), d₃), w₂)) :
    ∃ errors, play d {} w (steps o)
      = (((.ok 0, ⟨listing d₃.display.populated, errors⟩), d₃), w₂) := by
  have hreport (p : Printed) : play d₃ p w₂ (reporting o)
      = (((.ok 0, { p with output := p.output ++ listing d₃.display.populated }), d₃), w₂) := by
    have hexport : (exporting none none : Session (StateM W) Unit) = pure () := by
      simp only [exporting, Option.toList_none, each_nil, pure_bind]
    simp only [reporting, hcommand, houtput, hcsv, hexport, pure_bind]
    exact play_bind_of_ok (play_list d₃ p w₂)
  refine ⟨(Printed.warned {} warnings).errors, ?_⟩
  rw [steps_eq, play_bind_of_ok (play_opening_of_ok hopen), play_bind_of_ok hedits.play_editing,
    play_bind_of_ok (hsave _), hreport, Printed.output_warned, String.empty_append]

variable {t t' : Files.Tree} {file : String} {requested user : Option String} {config : Config}
  {s : Snapshot} {edits : List String} {writes : List (Address × String)}

/-- The document after the snapshot of a file has been loaded and texts have been written. -/
def edited (config : Config) (file : String) (s : Snapshot) (writes : List (Address × String)) :
    Document :=
  written ((Document.new config.grid).replace file (Store.ofEntries s.toList).1) writes

theorem attempt_openFile_of_reading (hfound : t.found file = true)
    (hload : reading t file = (.ok s, t)) :
    ∃ warnings, attempt d t (Document.openFile (some file))
      = ((.ok warnings, d.replace file (Store.ofEntries s.toList).1), t) := by
  have hfinding : finding t file = (true, t) := Prod.ext hfound rfl
  rw [Document.attempt_openFile_of_found hfinding]
  exact ⟨_, Document.attempt_load_of_ok hload⟩

/-- A run with edits that are all accepted lists the edited document, whether or not it saves. -/
theorem running_invocation (write : Bool) (hfile : file.toList.head? ≠ some '-')
    (hconfig : configuring t requested user = (.ok config, t)) (hfound : t.found file = true)
    (hload : reading t file = (.ok s, t))
    (haccepts :
      List.Forall₂ (fun edit e => Document.Accepts config.grid.rows edit e.1 e.2) edits writes)
    (hsave : ∀ p, play (edited config file s writes) p t (saving write)
      = (((.ok (), p), d₃), t')) (hdisplay : d₃.display = (edited config file s writes).display) :
    ∃ errors, running t (invocation file edits write requested) user
      = (⟨0, listing (edited config file s writes).display.populated, errors⟩, t') := by
  obtain ⟨warnings, hopen⟩ := attempt_openFile_of_reading (d := Document.new config.grid)
    hfound hload
  have hedits : Edited t ((Document.new config.grid).replace file (Store.ofEntries s.toList).1)
      edits (edited config file s writes) := edited_of_accepts haccepts
  obtain ⟨errors, hsteps⟩ := play_steps_of_list
    (o := { file := some file, edits, config := requested, write }) rfl rfl rfl hopen hedits hsave
  rw [hdisplay] at hsteps
  exact ⟨errors, running_of_success (read_invocation hfile edits write requested) hconfig hsteps⟩

/-- A document whose file can be written is saved, and keeps its texts and its display. -/
theorem play_saving_of_writing {d : Document} (hpath : d.path = some file)
    (hwrite : writing t file (Snapshot.text d.sheet.store.snapshot) = (.ok (), t'))
    (p : Printed) : play d p t (saving true) = (((.ok (), p), d.saved file), t') := by
  have hsave : attempt d t Document.save = ((.ok file, d.saved file), t') := by
    rw [Document.attempt_save_of_some hpath,
      Document.attempt_bind_of_ok (Document.attempt_saveAs_of_ok hwrite), Document.attempt_pure]
  exact play_discard_of_ok (play_edit_of_ok hsave)

theorem edited_sheet (config : Config) (file : String) (s : Snapshot)
    (writes : List (Address × String)) :
    (edited config file s writes).sheet.grid = config.grid ∧
      (edited config file s writes).display = (edited config file s writes).sheet.recompute :=
  ⟨grid_written _ writes, display_written rfl writes⟩

theorem get?_edited (config : Config) (file : String) (s : Snapshot)
    (writes : List (Address × String)) (a : Address) :
    (edited config file s writes).sheet.store.get? a
      = Store.held? (finalText s.toList writes a) :=
  get?_written rfl a

/-- The edited document has the store that its own snapshot is loaded as. -/
theorem ofEntries_edited (hreadable : ∀ e ∈ writes, e.1.Readable) :
    (Store.ofEntries (edited config file s writes).sheet.store.snapshot.toList).1
      = (edited config file s writes).sheet.store := by
  have hstore : (edited config file s writes).sheet.store.Readable :=
    readable_written (Store.readable_ofEntries s.toList) hreadable
  rw [Store.ofEntries_snapshot hstore (.refl _)]

/-- A file that can be read in a tree can be written, and what changes is that file. -/
theorem exists_write_of_reading (h : (reading t file).1 = .ok s) :
    t.found file = true ∧ ∃ names old text, t.entries[names]? = some (.file old) ∧
      String.fromUTF8? old = some text ∧ Snapshot.ofText? text = some s ∧
      ∀ new, t.write file new = .ok (t.insert names (.file new)) := by
  obtain ⟨n, t₁, bytes, t₂, text, hsize, -, hfetch, htext, hsnapshot⟩ := exists_text_of_reading h
  obtain rfl : t = t₁ := (Prod.mk.inj (show (t.size file, t) = (.ok n, t₁) from hsize)).2
  have hread : t.read file = .ok bytes :=
    (Prod.mk.inj (show (t.read file, t) = (.ok bytes, t₂) from hfetch)).1
  obtain ⟨names, hlocate⟩ := Files.Tree.exists_of_read hread
  obtain ⟨hentry, hdestination⟩ := Files.Tree.destination_of_locate_file hlocate
  refine ⟨?_, names, bytes, text, hentry, htext, hsnapshot, fun new => ?_⟩
  · simp only [Files.Tree.found, hlocate]
  · rw [Files.Tree.write, hdestination]
    rfl

/-- **What is written back.** A file that can be loaded is edited by a list of edits that are all
accepted, and saved. Then it holds the texts that the entries of the file and after them the edits
give to the cells, each under the canonical text of its address, those below the last row among
them, and no others. And if it is not too large to be read, a run without edits lists what the run
with the edits lists when it does not save. -/
theorem edits_are_written_back (hfile : file.toList.head? ≠ some '-')
    (hconfig : (configuring t requested user).1 = .ok config)
    (hload : (reading t file).1 = .ok s)
    (haccepts :
      List.Forall₂ (fun edit e => Document.Accepts config.grid.rows edit e.1 e.2) edits writes) :
    ∃ (t' : Files.Tree) (text : String) (m : Snapshot) (output : String),
      (∃ errors, running t (invocation file edits true requested) user
        = (⟨0, output, errors⟩, t')) ∧
      t'.read file = .ok text.toUTF8 ∧ Snapshot.ofText? text = some m ∧
      (∀ key raw, m[key]? = some raw ↔
        ∃ a, key = a.text ∧ finalText s.toList writes a = raw ∧ raw ≠ "") ∧
      (∃ errors, running t (invocation file edits false requested) user
        = (⟨0, output, errors⟩, t)) ∧
      (text.utf8ByteSize ≤ Snapshot.sizeLimit →
        ∃ errors, running t' (invocation file [] false requested) user
          = (⟨0, output, errors⟩, t')) := by
  let d := edited config file s writes
  let text := Snapshot.text d.sheet.store.snapshot
  -- nothing is written before the file is saved
  have hconfig' : configuring t requested user = (.ok config, t) :=
    Prod.ext hconfig (Files.Tree.eq_of_reaches_nil (reaches_configuring t requested user))
  have hload' : reading t file = (.ok s, t) :=
    Prod.ext hload (Files.Tree.eq_of_reaches_nil (reaches_reading t file))
  obtain ⟨hfound, names, old, oldText, hentry, hold, hsnapshot, hwritable⟩ :=
    exists_write_of_reading hload
  let t' := t.insert names (.file text.toUTF8)
  have hwrite : t.write file text.toUTF8 = .ok t' := hwritable text.toUTF8
  have hwriting : writing t file text = (.ok (), t') := by
    rw [Document.writing_tree, hwrite]
  have hpath : d.path = some file := path_written _ writes
  refine ⟨t', text, d.sheet.store.snapshot, listing d.display.populated, ?_, ?_,
    Store.ofText?_text_snapshot _, fun key raw => ?_, ?_, fun hlimit => ?_⟩
  · exact running_invocation true hfile hconfig' hfound hload' haccepts
      (play_saving_of_writing hpath hwriting) rfl
  · exact Files.Tree.read_of_write hwrite
  · rw [Store.getElem?_snapshot]
    refine exists_congr fun a => and_congr_right fun _ => ?_
    rw [get?_edited config file s writes a, Store.held?_eq_some_iff]
  · exact running_invocation false hfile hconfig' hfound hload' haccepts (fun p => rfl) rfl
  · have hconfig'' : configuring t' requested user = (.ok config, t') :=
      configuring_replace hentry hold hsnapshot _ hconfig
    have hfound' : t'.found file = true := (Files.Tree.found_replace hentry _ file).trans hfound
    obtain ⟨w'', hreading⟩ :=
      (Document.reading_of_writing (Document.keeps_tree _ _ _) hwriting).1 hlimit
    obtain rfl : w'' = t' := by
      have hreach := reaches_reading t' file
      rw [hreading] at hreach
      exact Files.Tree.eq_of_reaches_nil hreach
    -- the file is loaded as the texts that it was written from, and these decide what is listed
    have hsheet : (edited config file d.sheet.store.snapshot []).sheet = d.sheet :=
      calc (edited config file d.sheet.store.snapshot []).sheet
        _ = ⟨(Store.ofEntries d.sheet.store.snapshot.toList).1, config.grid⟩ := rfl
        _ = ⟨d.sheet.store, config.grid⟩ := by
          rw [ofEntries_edited (readable_of_accepts haccepts)]
        _ = d.sheet := by
          rw [← (edited_sheet config file s writes).1]
    have hdisplay : (edited config file d.sheet.store.snapshot []).display = d.display := by
      rw [(edited_sheet config file _ []).2, hsheet]
      exact (edited_sheet config file s writes).2.symm
    have hrun := running_invocation false hfile hconfig'' hfound' hreading .nil
      (fun p => rfl) rfl
    rwa [hdisplay] at hrun

end Runs

/-- A file with a cell below the last row and an address in another spelling, and three edits, of
which the last takes back the first. -/
theorem edits_are_written_back_below :
    let text := "\x7b\"cells\":\x7b\"a01\":\x7b\"value\":7\x7d,\"B200\":[\"low\"]\x7d\x7d"
    let t := (Files.Tree.new ["home"]).place "sheet.json" (.file text.toUTF8)
    let edits := ["A1=8", " b1 ==B200", "A1="]
    ∃ (t' : Files.Tree) (text' : String) (m : Snapshot),
      (running t (invocation "sheet.json" edits true none) none).2 = t' ∧
      t'.read "sheet.json" = .ok text'.toUTF8 ∧ Snapshot.ofText? text' = some m ∧
      m["B1"]? = some "=B200" ∧ m["B200"]? = some "low" ∧ m["A1"]? = none := by
  intro text t edits
  have hentries : (Snapshot.ofText? text).map Std.ExtTreeMap.toList
      = some [("B200", "low"), ("a01", "7")] := by decide +kernel
  obtain ⟨s, hs, hlist⟩ := Option.map_eq_some_iff.mp hentries
  have hsize : sizing t "sheet.json" = (.ok text.toUTF8.size, t) := rfl
  have hfetch : fetching t "sheet.json" = (.ok text.toUTF8, t) := rfl
  have hload : (reading t "sheet.json").1 = .ok s := by
    rw [Document.reading_of_text hsize (by decide +kernel) hfetch (Document.fromUTF8?_toUTF8 text),
      hs]
    rfl
  have hnamesA1 : Document.Names "A1".toList ⟨0, 0⟩ := Document.names_iff.mpr (by decide)
  have hnamesB1 : Document.Names " b1 ".toList ⟨0, 1⟩ := Document.names_iff.mpr (by decide)
  have haccepts : List.Forall₂
      (fun edit e => Document.Accepts (default : Config).grid.rows edit e.1 e.2) edits
      [(⟨0, 0⟩, "8"), (⟨0, 1⟩, "=B200"), (⟨0, 0⟩, "")] :=
    .cons ⟨_, ⟨rfl, by decide⟩, hnamesA1, by decide⟩
      (.cons ⟨_, ⟨rfl, by decide⟩, hnamesB1, by decide⟩
        (.cons ⟨_, ⟨rfl, by decide⟩, hnamesA1, by decide⟩ .nil))
  obtain ⟨t', text', m, output, ⟨errors, hrun⟩, hread, hm, hkeys, -, -⟩ :=
    edits_are_written_back (by decide) (show (configuring t none none).1 = .ok default from rfl)
      hload haccepts
  refine ⟨t', text', m, by rw [hrun], hread, hm, (hkeys _ _).mpr ⟨⟨0, 1⟩, by decide, ?_, by decide⟩,
    (hkeys _ _).mpr ⟨⟨199, 1⟩, by decide, ?_, by decide⟩, ?_⟩
  · rw [hlist]
    decide +kernel
  · rw [hlist]
    decide +kernel
  · cases hkey : m["A1"]? with
    | none => rfl
    | some raw =>
      obtain ⟨a, ha, hfinal, hne⟩ := (hkeys _ _).mp hkey
      obtain rfl : ⟨0, 0⟩ = a := Address.eq_of_text_eq ha
      rw [hlist] at hfinal
      exact absurd hfinal.symm hne

end FormulaSheet.CommandLine
