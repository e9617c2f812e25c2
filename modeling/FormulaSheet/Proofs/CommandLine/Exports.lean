/-
Exports, and the runs that make none.

A run that is to write exports, and has no formula to work out, writes each of them
or fails: there is no way to the exit code zero past an export. What is in the files
then are the tables of the edited document, whether or not it was saved before. The
second export can only spoil the first by being written to the same place.

A run that has a formula to work out makes no export. It is the run without the
exports (`running_of_command`), and the files to which they should have been written
are not touched, although the exit code may be zero.
-/
import FormulaSheet.Proofs.CommandLine.Effects
import FormulaSheet.Proofs.Document.Saving

set_option autoImplicit false

namespace FormulaSheet.CommandLine

open Document (attempt reading writing)
open Files (Tree Reaches)

/-! ## The edited document -/

section Prepared

variable {t : Tree} {o : Options} {user : Option String} {d d' : Document} {config : Config}
  {arguments : List String} {warnings : List Warning}

/-- The document of a run when all its edits have been accepted, and nothing has been saved or
reported yet. -/
inductive Prepared (t : Tree) (o : Options) (user : Option String) (d : Document) : Prop
  | intro {config : Config} {warnings : List Warning} {opened : Document}
      (hconfig : configuring t o.config user = (.ok config, t))
      (hopen : attempt (Document.new config.grid) t (Document.openFile o.file)
        = ((.ok warnings, opened), t))
      (hedits : Edited t opened o.edits d)

/-- A run fails before it saves anything, or gets to the edited document. -/
theorem stopsEarly_or_prepared (hread : Options.read arguments = .ok (some o)) :
    StopsEarly arguments user t ∨ ∃ d, Prepared t o user d := by
  obtain ⟨⟨result, t₁⟩, hconfig⟩ : ∃ r, configuring t o.config user = r := ⟨_, rfl⟩
  cases result with
  | error e => exact .inl (.config hread hconfig)
  | ok config =>
    obtain ⟨⟨⟨result, opened⟩, t₂⟩, hopen⟩ :
        ∃ r, attempt (Document.new config.grid) t₁ (Document.openFile o.file) = r := ⟨_, rfl⟩
    cases result with
    | error e => exact .inl (.opening hread hconfig hopen)
    | ok warnings =>
      rcases edited_or_refused opened t₂ o.edits with
        ⟨d, hedits⟩ | ⟨before, edit, after, d, e, hsplit, hbefore, hrefused⟩
      · -- until here the tree has only been looked at
        obtain rfl : t₁ = t := by
          have hlooks := reaches_configuring t o.config user
          rw [hconfig] at hlooks
          exact Tree.eq_of_reaches_nil hlooks
        obtain rfl : t₂ = t₁ := by
          have hlooks := (attempt_openFile (d := Document.new config.grid) rfl t₁ o.file).1
          rw [hopen] at hlooks
          exact Tree.eq_of_reaches_nil hlooks
        exact .inr ⟨d, .intro hconfig hopen hedits⟩
      · exact .inl (.edit hread hconfig hopen hsplit hbefore hrefused)

/-- A document that has just been opened shows its texts. -/
theorem display_of_openFile {grid : Grid} {file : Option String} {t' : Tree}
    (h : attempt (Document.new grid) t (Document.openFile file) = ((.ok warnings, d), t')) :
    d.display = d.sheet.recompute := by
  cases file with
  | none =>
    obtain rfl : Document.new grid = d := (Prod.mk.inj (Prod.mk.inj h).1).2
    rfl
  | some path =>
    obtain ⟨⟨found, t₁⟩, hfound⟩ : ∃ r, Document.finding t path = r := ⟨_, rfl⟩
    cases found with
    | true =>
      obtain ⟨s, -, rfl⟩ := Document.exists_reading_of_openFile hfound h
      rfl
    | false =>
      rw [Document.attempt_openFile_of_not_found hfound] at h
      obtain rfl := (Prod.mk.inj (Prod.mk.inj h).1).2
      rfl

/-- The display of the edited document is the one of its texts. -/
theorem Prepared.display_eq (h : Prepared t o user d) : d.display = d.sheet.recompute := by
  obtain ⟨-, hopen, hedits⟩ := h
  exact hedits.display_eq (display_of_openFile hopen)

/-- From the edited document on, a run saves and reports. -/
theorem Prepared.running_eq (h : Prepared t o user d)
    (hread : Options.read arguments = .ok (some o)) :
    ∃ p : Printed, running t arguments user
      = (outcome (play d p t (do saving o.write; reporting o)).1.1,
          (play d p t (do saving o.write; reporting o)).2) := by
  obtain @⟨config, warnings, opened, hconfig, hopen, hedits⟩ := h
  refine ⟨Printed.warned {} warnings, ?_⟩
  rw [running_of_config hread hconfig, steps_eq, play_bind_of_ok (play_opening_of_ok hopen),
    play_bind_of_ok hedits.play_editing]

end Prepared

/-! ## Saving -/

section Saving

variable {t : Tree} {d : Document} {write : Bool}

/-- To save takes no path to another place, and keeps what is shown. -/
theorem play_saving_cases (d : Document) (p : Printed) (t : Tree) (write : Bool) :
    (∃ f d' t', play d p t (saving write) = (((.error f, p), d'), t')) ∨
      ∃ d' t', play d p t (saving write) = (((.ok (), p), d'), t') ∧ d'.display = d.display ∧
        ∀ path site, t'.destination path = .ok site ↔ t.destination path = .ok site := by
  cases write with
  | false => exact .inr ⟨d, t, rfl, rfl, fun _ _ => Iff.rfl⟩
  | true =>
    cases hpath : d.path with
    | none =>
      exact .inl ⟨_, _, _, play_discard_of_error (play_edit_of_error
        (Document.attempt_save_of_none hpath))⟩
    | some path =>
      have hwriting := Document.writing_tree t path (Snapshot.text d.sheet.store.snapshot)
      have hsave : attempt d t Document.save = attempt d t (do Document.saveAs path; return path) :=
        Document.attempt_save_of_some hpath
      cases hwrite : t.write path (Snapshot.text d.sheet.store.snapshot).toUTF8 with
      | error e =>
        rw [hwrite] at hwriting
        rw [Document.attempt_bind_of_error (Document.attempt_saveAs_of_error hwriting)] at hsave
        exact .inl ⟨_, _, _, play_discard_of_error (play_edit_of_error hsave)⟩
      | ok t' =>
        rw [hwrite] at hwriting
        rw [Document.attempt_bind_of_ok (Document.attempt_saveAs_of_ok hwriting),
          Document.attempt_pure] at hsave
        exact .inr ⟨_, t', play_discard_of_ok (play_edit_of_ok hsave), rfl,
          fun _ _ => Tree.destination_write_iff hwrite⟩

end Saving

/-! ## Exports -/

section Exports

variable {t t' : Tree} {d : Document} {p : Printed} {target : Option String} {path other text : String}
  {step : String → Editing (StateM Tree) Unit} {old : ByteArray} {site : List String}

/-- A text has been written to a path, or there was none to write to. -/
inductive Exported (text : String) (t : Tree) : Option String → Tree → Prop
  | nothing : Exported text t none t
  | file {path : String} {t' : Tree} (hwrite : t.write path text.toUTF8 = .ok t') :
      Exported text t (some path) t'

namespace Exported

theorem read (h : Exported text t target t') (hpath : path ∈ target) :
    t'.read path = .ok text.toUTF8 := by
  cases h with
  | nothing => cases hpath
  | file hwrite =>
    obtain rfl := Option.some.inj hpath
    exact Tree.read_of_write hwrite

theorem read_elsewhere (h : Exported text t target t') (hread : t.read other = .ok old)
    (helsewhere : ∀ path ∈ target, ¬ t.SamePlace other path) : t'.read other = .ok old := by
  cases h with
  | nothing => exact hread
  | file hwrite => exact Tree.read_of_write_elsewhere hwrite (helsewhere _ rfl) hread

theorem destination_iff (h : Exported text t target t') :
    t'.destination path = .ok site ↔ t.destination path = .ok site := by
  cases h with
  | nothing => exact Iff.rfl
  | file hwrite => exact Tree.destination_write_iff hwrite

end Exported

/-- An export is written, or the run fails. -/
theorem play_export_cases (d : Document) (p : Printed) (t : Tree) (target : Option String)
    (hstep : ∀ path, attempt d t (step path)
      = (((writing t path text).1.mapError Problem.file, d), (writing t path text).2)) :
    (∃ f p', play d p t (each target.toList fun path => runExport path step)
        = (((.error f, p'), d), t)) ∨
      ∃ t' p', play d p t (each target.toList fun path => runExport path step)
        = (((.ok (), p'), d), t') ∧ Exported text t target t' := by
  cases target with
  | none =>
    refine .inr ⟨t, p, ?_, .nothing⟩
    rw [Option.toList_none, each_nil, play_pure]
  | some path =>
    rw [Option.toList_some, each_cons, each_nil]
    cases hwrite : t.write path text.toUTF8 with
    | error e =>
      have hattempt : attempt d t (step path) = ((.error (.file e), d), t) := by
        rw [hstep, Document.writing_tree, hwrite]
        rfl
      exact .inl ⟨_, _, play_bind_of_error (play_bind_of_error (play_edit_of_error hattempt))⟩
    | ok t' =>
      have hattempt : attempt d t (step path) = ((.ok (), d), t') := by
        rw [hstep, Document.writing_tree, hwrite]
        rfl
      have hexport : play d p t (runExport path step)
          = (((.ok (), { p with output := p.output ++ ("Exported to " ++ path) ++ "\n" }), d), t') :=
        (play_bind_of_ok (play_edit_of_ok hattempt)).trans (play_print _)
      exact .inr ⟨t', _, (play_bind_of_ok hexport).trans (play_pure ()), .file hwrite⟩

/-- Without a formula, a run ends with both exports, or fails. -/
theorem play_reporting_cases {o : Options} (d : Document) (p : Printed) (t : Tree)
    (hcommand : o.command = none) :
    (∃ f p' t', play d p t (reporting o) = (((.error f, p'), d), t')) ∨
      ∃ t₁ t₂ p', play d p t (reporting o) = (((.ok 0, p'), d), t₂) ∧
        Exported (Markdown.text d.display) t o.output t₁ ∧
        Exported (Csv.text d.display) t₁ o.csv t₂ := by
  simp only [reporting, hcommand, exporting, bind_assoc]
  rcases play_export_cases d p t o.output (Document.attempt_writeMarkdown d t) with
    ⟨f, p', hplay⟩ | ⟨t₁, p₁, hplay, hmarkdown⟩
  · exact .inl ⟨f, p', t, play_bind_of_error hplay⟩
  rw [play_bind_of_ok hplay]
  rcases play_export_cases d p₁ t₁ o.csv (Document.attempt_writeCsv d t₁) with
    ⟨f, p', hplay⟩ | ⟨t₂, p₂, hplay, hcsv⟩
  · exact .inl ⟨f, p', t₁, play_bind_of_error hplay⟩
  rw [play_bind_of_ok hplay]
  refine .inr ⟨t₁, t₂, ?_⟩
  by_cases hlist : (o.output.isNone && o.csv.isNone) = true
  · rw [if_pos hlist, play_bind_of_ok (play_list d p₂ t₂), play_pure]
    exact ⟨_, rfl, hmarkdown, hcsv⟩
  · rw [if_neg hlist]
    exact ⟨_, rfl, hmarkdown, hcsv⟩

end Exports

/-! ## Runs -/

section Runs

variable {t : Tree} {arguments : List String} {user : Option String} {o : Options}

/-- With a formula to work out, the options for exports are not looked at. -/
theorem steps_of_command {m : Type → Type} [Monad m] [LawfulMonad m] [Files m] {command : String}
    (h : o.command = some command) :
    (steps o : Session m Nat) = steps { o with output := none, csv := none } := by
  rw [steps_eq, steps_eq]
  simp only [reporting, h]

/-- **A run with a formula to work out** is the run without the exports. -/
theorem running_of_command {command : String} (hread : Options.read arguments = .ok (some o))
    (h : o.command = some command) :
    running t arguments user
      = (runOptions { o with output := none, csv := none } user : StateM Tree Outcome).run t := by
  have hsteps : (steps o : Session (StateM Tree) Nat) = steps { o with output := none, csv := none } :=
    steps_of_command h
  rw [running_of_options hread]
  simp only [runOptions, hsteps]

/-- It changes at most the file of the document, and that only to save. -/
theorem changed_of_command {command : String} {names : List String}
    (hread : Options.read arguments = .ok (some o)) (h : o.command = some command)
    (hchanged : (running t arguments user).2.entries[names]? ≠ t.entries[names]?) :
    o.write = true ∧ ∃ file ∈ o.file, t.destination file = .ok names := by
  rw [running_of_command hread h] at hchanged
  have hreach : Reaches (if o.write then o.file.toList else []) t
      ((runOptions { o with output := none, csv := none } user : StateM Tree Outcome).run t).2 := by
    refine reaches_runOptions t user (fun hwrite file hfile => ?_) nofun nofun
    have hwrite : o.write = true := hwrite
    rw [if_pos hwrite]
    exact Option.mem_toList.mpr hfile
  obtain ⟨-, file, hfile, hdestination⟩ := (Tree.changed_of_reaches hreach).2 names hchanged
  by_cases hwrite : o.write = true
  · rw [if_pos hwrite] at hfile
    exact ⟨hwrite, file, Option.mem_toList.mp hfile, hdestination⟩
  · rw [if_neg hwrite] at hfile
    cases hfile

/-- A run without a formula that ends with the exit code zero has written its exports from the
edited document. -/
theorem exports_of_success (hread : Options.read arguments = .ok (some o))
    (hcommand : o.command = none) (hexit : (running t arguments user).1.exit = 0) :
    ∃ d t₀ t₁, Prepared t o user d ∧
      (∀ path site, t₀.destination path = .ok site ↔ t.destination path = .ok site) ∧
      Exported (Markdown.text d.sheet.recompute) t₀ o.output t₁ ∧
      Exported (Csv.text d.sheet.recompute) t₁ o.csv (running t arguments user).2 := by
  rcases stopsEarly_or_prepared hread with hearly | ⟨d, hprepared⟩
  · obtain ⟨errors, t', hrun, -⟩ := hearly.run_eq
    rw [hrun] at hexit
    cases hexit
  obtain ⟨p, hrun⟩ := hprepared.running_eq hread
  rw [hrun] at hexit ⊢
  rcases play_saving_cases d p t o.write with
    ⟨f, d', t', hplay⟩ | ⟨d', t₀, hplay, hdisplay, hplaces⟩
  · rw [play_bind_of_error hplay] at hexit
    cases hexit
  rw [play_bind_of_ok hplay] at hexit ⊢
  rcases play_reporting_cases d' p t₀ hcommand with
    ⟨f, p', t', hplay'⟩ | ⟨t₁, t₂, p', hplay', hmarkdown, hcsv⟩
  · rw [hplay'] at hexit
    cases hexit
  -- what is exported is what is shown, and that is kept by saving
  rw [hdisplay, hprepared.display_eq] at hmarkdown hcsv
  rw [hplay']
  exact ⟨d, t₀, t₁, hprepared, hplaces, hmarkdown, hcsv⟩

/-- **Exports are written unless there is a formula to work out.** If a run is to work out no
formula and ends with the exit code zero, the file for comma-separated values holds those of the
edited and recomputed sheet, and the file for Markdown holds its table, unless the two paths lead
to one place; whether the run saves or not, and whatever else it is to do. But a run that is to work
out a formula is the same run as without the exports: it changes at most the file of the document,
and that only to save. -/
theorem exports_unless_command (hread : Options.read arguments = .ok (some o)) :
    (o.command = none → (running t arguments user).1.exit = 0 →
      ∃ d, Prepared t o user d ∧
        (∀ path ∈ o.csv, (running t arguments user).2.read path
          = .ok (Csv.text d.sheet.recompute).toUTF8) ∧
        ∀ path ∈ o.output, (∀ other ∈ o.csv, ¬ t.SamePlace path other) →
          (running t arguments user).2.read path
            = .ok (Markdown.text d.sheet.recompute).toUTF8) ∧
    ∀ command, o.command = some command →
      running t arguments user
        = (runOptions { o with output := none, csv := none } user : StateM Tree Outcome).run t ∧
      ∀ names, (running t arguments user).2.entries[names]? ≠ t.entries[names]? →
        o.write = true ∧ ∃ file ∈ o.file, t.destination file = .ok names := by
  refine ⟨fun hcommand hexit => ?_, fun command hcommand =>
    ⟨running_of_command hread hcommand, fun names => changed_of_command hread hcommand⟩⟩
  obtain ⟨d, t₀, t₁, hprepared, hplaces, hmarkdown, hcsv⟩ :=
    exports_of_success hread hcommand hexit
  refine ⟨d, hprepared, fun path hpath => hcsv.read hpath, fun path hpath hapart => ?_⟩
  refine hcsv.read_elsewhere (hmarkdown.read hpath) fun other hother hsame => ?_
  -- neither saving nor the first export takes a path to another place
  obtain ⟨site, hsite, hsite'⟩ := hsame
  exact hapart other hother ⟨site, (hplaces _ _).mp (hmarkdown.destination_iff.mp hsite),
    (hplaces _ _).mp (hmarkdown.destination_iff.mp hsite')⟩

end Runs

/-- Both exports of an edited sheet that is saved as well. -/
theorem exports_unless_command_saved :
    let arguments := ["-w", "sheet.json", "-s", "A1=1|2", "-o", "./sheet.md", "--csv", "sheet.csv"]
    let t := Tree.new ["home"]
    (running t arguments none).1.exit = 0 ∧
      ∃ d, (running t arguments none).2.read "./sheet.md"
          = .ok (Markdown.text d).toUTF8 ∧
        (running t arguments none).2.read "sheet.csv" = .ok (Csv.text d).toUTF8 := by
  intro arguments t
  let o : Options := {
    file := some "sheet.json"
    edits := ["A1=1|2"]
    output := some "./sheet.md"
    csv := some "sheet.csv"
    write := true }
  have hread : Options.read arguments = .ok (some o) := by
    decide +kernel
  have hexit : (running t arguments none).1.exit = 0 := by
    decide +kernel
  obtain ⟨d, -, hcsv, hmarkdown⟩ := (@exports_unless_command t arguments none o hread).1 rfl hexit
  refine ⟨hexit, d.sheet.recompute, hmarkdown _ rfl fun other hother => ?_, hcsv _ rfl⟩
  obtain rfl := Option.some.inj hother
  rintro ⟨site, hsite, hsite'⟩
  have hplace : t.destination "./sheet.md" = .ok ["home", "sheet.md"] := rfl
  have hplace' : t.destination "sheet.csv" = .ok ["home", "sheet.csv"] := rfl
  obtain rfl := Except.ok.inj (hplace.symm.trans hsite)
  exact absurd (Except.ok.inj (hplace'.symm.trans hsite')) (by decide)

/-- An export that was asked for and is not there after a run that ends with the exit code zero. -/
theorem export_skipped :
    let arguments := ["-s", "A1=1", "-c", "A1", "-o", "out.md"]
    let t := Tree.new ["home"]
    (∃ o, Options.read arguments = .ok (some o) ∧ o.output = some "out.md" ∧ o.csv = none) ∧
      (running t arguments none).1 = ⟨0, "1\n", ""⟩ ∧
      (running t arguments none).2.found "out.md" = false := by
  intro arguments t
  exact ⟨⟨_, rfl, rfl, rfl⟩, by decide +kernel, by decide +kernel⟩

end FormulaSheet.CommandLine
