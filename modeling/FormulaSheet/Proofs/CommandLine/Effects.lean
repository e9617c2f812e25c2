/-
What a run does to files.

A run writes at most to three kinds of paths: to the file of the document, if it
is to be saved, and to the files of the two exports. Until the edits have been
made it writes to none at all; so a run that fails by then, however many edits
it has made, leaves every file as it was, and it has printed nothing but what
was odd about the file.

What is followed through the steps is twofold: which accesses lead from the
world before a step to the one after it, and which file the document has when
the step succeeds (`Confined`). The second is needed because saving goes to the
file of the document, and that this still is the one on the command line is a
matter of the steps in between.
-/
import FormulaSheet.Proofs.CommandLine.Session
import FormulaSheet.Proofs.Files.Access

set_option autoImplicit false

namespace FormulaSheet.CommandLine

open Document (attempt finding reading writing)
open Files (Reaches Looks Access)

/-! ## Steps that write to given paths -/

section Confined

variable {W α β : Type} [Files (StateM W)] {targets : List String}
  {before between after : Option String}

/-- A step in a document whose file is `before` writes to the given paths alone; and if it succeeds,
the file of the document is `after`. -/
def Confined (targets : List String) (before after : Option String)
    (step : Session (StateM W) α) : Prop :=
  ∀ d p w, d.path = before → Reaches targets w (play d p w step).2 ∧
    ∀ v, (play d p w step).1.1.1 = .ok v → (play d p w step).1.2.path = after

theorem confined_pure (v : α) :
    Confined targets before before (pure v : Session (StateM W) α) :=
  fun _ _ w hpath => ⟨.refl targets w, fun _ _ => hpath⟩

theorem Confined.bind {step : Session (StateM W) α} {next : α → Session (StateM W) β}
    (h : Confined targets before between step)
    (hnext : ∀ v, Confined targets between after (next v)) :
    Confined targets before after (step >>= next) := by
  intro d p w hpath
  obtain ⟨⟨⟨⟨result, p'⟩, d'⟩, w'⟩, hplay⟩ : ∃ r, play d p w step = r := ⟨_, rfl⟩
  obtain ⟨hreach, hafter⟩ := h d p w hpath
  rw [hplay] at hreach hafter
  cases result with
  | error f =>
    rw [play_bind_of_error hplay]
    exact ⟨hreach, nofun⟩
  | ok v =>
    obtain ⟨hreach', hafter'⟩ := hnext v d' p' w' (hafter v rfl)
    rw [play_bind_of_ok hplay]
    exact ⟨hreach.trans hreach', hafter'⟩

theorem Confined.discard {step : Session (StateM W) α} (h : Confined targets before after step) :
    Confined targets before after (discard step) := by
  rw [discard_eq_bind]
  exact h.bind fun _ => confined_pure _

theorem confined_each {step : α → Session (StateM W) Unit} {xs : List α}
    (h : ∀ x ∈ xs, Confined targets before before (step x)) :
    Confined targets before before (each xs step) := by
  induction xs with
  | nil =>
    rw [each_nil]
    exact confined_pure _
  | cons x xs ih =>
    rw [each_cons]
    exact (h x List.mem_cons_self).bind fun _ =>
      ih fun y hy => h y (List.mem_cons_of_mem x hy)

theorem confined_print (line : String) :
    Confined targets before before (Session.print line : Session (StateM W) Unit) :=
  fun _ _ w hpath => ⟨.refl targets w, fun _ _ => hpath⟩

theorem confined_printError (line : String) :
    Confined targets before before (Session.printError line : Session (StateM W) Unit) :=
  fun _ _ w hpath => ⟨.refl targets w, fun _ _ => hpath⟩

theorem confined_getThe :
    Confined targets before before (getThe Document : Session (StateM W) Document) :=
  fun _ _ w hpath => ⟨.refl targets w, fun _ _ => hpath⟩

/-- What a step of editing does, it does in a session. -/
theorem confined_edit {step : Editing (StateM W) α} (during : Option String)
    (h : ∀ d w, d.path = before → Reaches targets w (attempt d w step).2 ∧
      ∀ v, (attempt d w step).1.1 = .ok v → (attempt d w step).1.2.path = after) :
    Confined targets before after (Session.edit during step) := by
  intro d p w hpath
  obtain ⟨hreach, hafter⟩ := h d w hpath
  rw [play_edit]
  refine ⟨hreach, fun v hv => ?_⟩
  cases hresult : (attempt d w step).1.1 with
  | ok u => exact hafter u hresult
  | error e =>
    rw [hresult] at hv
    cases hv

end Confined

/-! ## The parts of a run -/

section Parts

variable {W : Type} [Files (StateM W)] {targets : List String} {d d' : Document} {w w' : W}
  {path : String} {file : Option String}

theorem reaches_reading (w : W) (path : String) : Reaches [] w (reading w path).2 :=
  Files.looks_loadSnapshot path w

theorem reaches_configuring (w : W) (requested user : Option String) :
    Reaches [] w (configuring w requested user).2 :=
  Files.looks_findConfig requested user w

/-- To take a file for a document without one writes nothing, and the file is the document's. -/
theorem attempt_openFile (hpath : d.path = none) (w : W) (file : Option String) :
    Reaches [] w (attempt d w (Document.openFile file)).2 ∧
      ∀ v, (attempt d w (Document.openFile file)).1.1 = .ok v →
        (attempt d w (Document.openFile file)).1.2.path = file := by
  cases file with
  | none => exact ⟨.refl [] w, fun _ _ => hpath⟩
  | some path =>
    obtain ⟨⟨found, w₁⟩, hfound⟩ : ∃ r, finding w path = r := ⟨_, rfl⟩
    have hreach : Reaches [] w w₁ := by
      have haccess : Access [] w (finding w path).2 := .found path
      rw [hfound] at haccess
      exact haccess.reaches
    cases found with
    | false =>
      rw [Document.attempt_openFile_of_not_found hfound]
      exact ⟨hreach, fun _ _ => rfl⟩
    | true =>
      obtain ⟨⟨result, w₂⟩, hread⟩ : ∃ r, reading w₁ path = r := ⟨_, rfl⟩
      have hreach' : Reaches [] w w₂ := by
        have hlooks := reaches_reading w₁ path
        rw [hread] at hlooks
        exact hreach.trans hlooks
      rw [Document.attempt_openFile_of_found hfound]
      cases result with
      | error e =>
        rw [Document.attempt_load_of_error hread]
        exact ⟨hreach', nofun⟩
      | ok s =>
        rw [Document.attempt_load_of_ok hread]
        exact ⟨hreach', fun _ _ => rfl⟩

theorem confined_opening (file : Option String) :
    Confined (W := W) targets none file (opening file) :=
  (confined_edit none fun _ w hpath =>
    have hopen := attempt_openFile hpath w file
    ⟨hopen.1.of_nil, hopen.2⟩).bind fun _ => confined_each fun _ _ => confined_printError _

theorem confined_editing (file : Option String) (edits : List String) :
    Confined (W := W) targets file file (editing edits) := by
  refine confined_each fun edit _ => (confined_edit none fun d w hpath => ?_).discard
  rcases Document.attempt_applyEdit_cases d w edit with
    ⟨_, raw, a, _, _, _, _, haccepted⟩ | ⟨e, hrefused⟩
  · rw [haccepted]
    exact ⟨.refl targets w, fun _ _ => hpath⟩
  · rw [hrefused]
    exact ⟨.refl targets w, nofun⟩

/-- To save writes to the file of the document, if it has one. -/
theorem attempt_save (hpath : d.path = file) (w : W) (h : ∀ path ∈ file, path ∈ targets) :
    Reaches targets w (attempt d w Document.save).2 ∧
      ∀ v, (attempt d w Document.save).1.1 = .ok v →
        (attempt d w Document.save).1.2.path = file := by
  cases file with
  | none =>
    rw [Document.attempt_save_of_none hpath]
    exact ⟨.refl targets w, nofun⟩
  | some path =>
    obtain ⟨⟨result, w'⟩, hwrite⟩ :
        ∃ r, writing w path (Snapshot.text d.sheet.store.snapshot) = r := ⟨_, rfl⟩
    have hreach : Reaches targets w w' := by
      have haccess := (Access.write (w := w) (Snapshot.text d.sheet.store.snapshot)
        (h path rfl)).reaches
      rwa [hwrite] at haccess
    rw [Document.attempt_save_of_some hpath]
    cases result with
    | error e =>
      rw [Document.attempt_bind_of_error (Document.attempt_saveAs_of_error hwrite)]
      exact ⟨hreach, nofun⟩
    | ok _ =>
      rw [Document.attempt_bind_of_ok (Document.attempt_saveAs_of_ok hwrite)]
      exact ⟨hreach, fun _ _ => rfl⟩

theorem confined_saving {write : Bool} (h : write = true → ∀ path ∈ file, path ∈ targets) :
    Confined (W := W) targets file file (saving write) := by
  unfold saving
  cases write with
  | false => exact confined_pure _
  | true => exact (confined_edit none fun d w hpath => attempt_save hpath w (h rfl)).discard

/-- An export writes to its path, and says so. -/
theorem confined_runExport {step : String → Editing (StateM W) Unit} {text : Document → String}
    (hstep : ∀ d w, attempt d w (step path) = (((writing w path (text d)).1.mapError Problem.file, d),
      (writing w path (text d)).2)) (h : path ∈ targets) :
    Confined targets file file (runExport path step) := by
  refine (confined_edit _ fun d w hpath => ?_).bind fun _ => confined_print _
  rw [hstep]
  exact ⟨(Access.write (text d) h).reaches, fun _ _ => hpath⟩

theorem confined_exporting {output csv : Option String} (houtput : ∀ path ∈ output, path ∈ targets)
    (hcsv : ∀ path ∈ csv, path ∈ targets) :
    Confined (W := W) targets file file (exporting output csv) := by
  unfold exporting
  refine (confined_each fun path hpath => ?_).bind fun _ => confined_each fun path hpath => ?_
  · exact confined_runExport (fun d w => Document.attempt_writeMarkdown d w path)
      (houtput path (Option.mem_toList.mp hpath))
  · exact confined_runExport (fun d w => Document.attempt_writeCsv d w path)
      (hcsv path (Option.mem_toList.mp hpath))

theorem confined_list : Confined (W := W) targets file file list := by
  rw [list_eq]
  exact confined_getThe.bind fun _ => confined_each fun _ _ => confined_print _

theorem confined_reporting {o : Options} (houtput : ∀ path ∈ o.output, path ∈ targets)
    (hcsv : ∀ path ∈ o.csv, path ∈ targets) :
    Confined (W := W) targets file file (reporting o) := by
  unfold reporting
  cases o.command with
  | some command =>
    exact confined_getThe.bind fun _ => (confined_print _).bind fun _ => confined_pure _
  | none =>
    refine (confined_exporting houtput hcsv).bind fun _ => ?_
    by_cases hlist : (o.output.isNone && o.csv.isNone) = true
    · rw [if_pos hlist]
      exact confined_list.bind fun _ => confined_pure _
    · rw [if_neg hlist]
      exact confined_pure _

theorem confined_steps {o : Options} (hfile : o.write = true → ∀ path ∈ o.file, path ∈ targets)
    (houtput : ∀ path ∈ o.output, path ∈ targets) (hcsv : ∀ path ∈ o.csv, path ∈ targets) :
    Confined (W := W) targets none o.file (steps o) := by
  rw [steps_eq]
  exact (confined_opening o.file).bind fun _ => (confined_editing o.file o.edits).bind fun _ =>
    (confined_saving hfile).bind fun _ => confined_reporting houtput hcsv

end Parts

/-! ## Runs -/

/-- The paths that a run may write to: the file if it is to be saved, and the files of the
exports. -/
def targets (arguments : List String) : List String :=
  match Options.read arguments with
  | .ok (some o) => (if o.write then o.file.toList else []) ++ o.output.toList ++ o.csv.toList
  | _ => []

section Runs

variable {W : Type} [Files (StateM W)] {arguments : List String} {user : Option String} {w : W}

/-- Why a run fails before anything is saved. -/
inductive StopsEarly (arguments : List String) (user : Option String) (w : W) : Prop
  /-- The arguments cannot be understood. -/
  | arguments {e : UsageError} (hread : Options.read arguments = .error e)
  /-- There is no configuration to be had. -/
  | config {o : Options} {e : Problem} {w₁ : W} (hread : Options.read arguments = .ok (some o))
      (hconfig : configuring w o.config user = (.error e, w₁))
  /-- The file cannot be opened. -/
  | opening {o : Options} {config : Config} {e : Problem} {w₁ w₂ : W} {d : Document}
      (hread : Options.read arguments = .ok (some o))
      (hconfig : configuring w o.config user = (.ok config, w₁))
      (hopen : attempt (Document.new config.grid) w₁ (Document.openFile o.file)
        = ((.error e, d), w₂))
  /-- An edit is refused after others were accepted. -/
  | edit {o : Options} {config : Config} {warnings : List Warning} {before after : List String}
      {edit : String} {e : Problem} {w₁ w₂ : W} {d d' : Document}
      (hread : Options.read arguments = .ok (some o))
      (hconfig : configuring w o.config user = (.ok config, w₁))
      (hopen : attempt (Document.new config.grid) w₁ (Document.openFile o.file)
        = ((.ok warnings, d), w₂))
      (hedits : o.edits = before ++ edit :: after) (haccepted : Edited w₂ d before d')
      (hrefused : (attempt d' w₂ (Document.applyEdit edit)).1.1 = .error e)

/-- Until the file is open nothing has been written. -/
theorem reaches_opening {o : Options} {config : Config} {w₁ w₂ : W}
    {opened : Except Problem (List Warning) × Document}
    (hconfig : configuring w o.config user = (.ok config, w₁))
    (hopen : attempt (Document.new config.grid) w₁ (Document.openFile o.file) = (opened, w₂)) :
    Reaches [] w w₂ := by
  have hlooks := reaches_configuring w o.config user
  have hopened := (attempt_openFile (d := Document.new config.grid) rfl w₁ o.file).1
  rw [hconfig] at hlooks
  rw [hopen] at hopened
  exact hlooks.trans hopened

theorem StopsEarly.run_eq (h : StopsEarly arguments user w) :
    ∃ errors w', running w arguments user = (⟨1, "", errors⟩, w') ∧
      Reaches [] w w' := by
  cases h with
  | arguments hread => exact ⟨_, _, running_of_usageError hread, .refl [] w⟩
  | @config o e w₁ hread hconfig =>
    have hlooks := reaches_configuring w o.config user
    rw [hconfig] at hlooks
    exact ⟨_, _, running_of_config_error hread hconfig, hlooks⟩
  | @opening o config e w₁ w₂ d hread hconfig hopen =>
    have hsteps : play (Document.new config.grid) {} w₁ (steps o)
        = (((.error ⟨none, e⟩, {}), d), w₂) := by
      rw [steps_eq]
      exact play_bind_of_error (play_opening_of_error hopen)
    exact ⟨_, _, running_of_failure hread hconfig hsteps, reaches_opening hconfig hopen⟩
  | @edit o config warnings before after edit e w₁ w₂ d d' hread hconfig hopen hedits haccepted
      hrefused =>
    have hsteps : play (Document.new config.grid) {} w₁ (steps o)
        = (((.error ⟨none, e⟩, Printed.warned {} warnings), d'), w₂) := by
      rw [steps_eq, play_bind_of_ok (play_opening_of_ok hopen), hedits]
      exact play_bind_of_error (haccepted.play_editing_of_refused hrefused)
    have hrun := running_of_failure hread hconfig hsteps
    rw [Printed.output_warned] at hrun
    exact ⟨_, _, hrun, reaches_opening hconfig hopen⟩

/-- What is done for some options writes to their paths at most. -/
theorem reaches_runOptions {targets : List String} {o : Options} (w : W) (user : Option String)
    (hfile : o.write = true → ∀ path ∈ o.file, path ∈ targets)
    (houtput : ∀ path ∈ o.output, path ∈ targets) (hcsv : ∀ path ∈ o.csv, path ∈ targets) :
    Reaches targets w ((runOptions o user : StateM W Outcome).run w).2 := by
  obtain ⟨⟨result, w₁⟩, hconfig⟩ : ∃ r, configuring w o.config user = r := ⟨_, rfl⟩
  have hlooks := reaches_configuring w o.config user
  rw [hconfig] at hlooks
  cases result with
  | error e =>
    rw [runOptions_of_config_error hconfig]
    exact hlooks.of_nil
  | ok config =>
    rw [runOptions_of_config hconfig]
    exact hlooks.of_nil.trans (confined_steps hfile houtput hcsv _ {} w₁ rfl).1

/-- Every run writes to its targets at most. -/
theorem reaches_running (w : W) (arguments : List String) (user : Option String) :
    Reaches (targets arguments) w (running w arguments user).2 := by
  cases hread : Options.read arguments with
  | error e =>
    rw [running_of_usageError hread]
    exact .refl _ w
  | ok o =>
    cases o with
    | none =>
      rw [running_of_help hread]
      exact .refl _ w
    | some o =>
      have htargets : targets arguments
          = (if o.write then o.file.toList else []) ++ o.output.toList ++ o.csv.toList := by
        rw [targets, hread]
      rw [running_of_options hread]
      apply reaches_runOptions
      · intro hwrite path hpath
        rw [htargets, hwrite]
        simp [Option.mem_def.mp hpath]
      · intro path hpath
        rw [htargets]
        simp [Option.mem_def.mp hpath]
      · intro path hpath
        rw [htargets]
        simp [Option.mem_def.mp hpath]

/-- **Nothing is written but what was asked for, and nothing at all before the edits are made.** A
run that fails by then has the exit code one, has printed nothing on the output, and has only looked
at files. Every run, whether or not it fails, writes at most to the file if it is to be saved and
to the files of the exports. In a tree of files the former leaves the tree as it is, and an entry
that the latter changes is a file at the end of one of these paths. -/
theorem nothing_else_is_written (arguments : List String) (user : Option String) (w : W) :
    (StopsEarly arguments user w → ∃ errors w',
      running w arguments user = (⟨1, "", errors⟩, w') ∧ Reaches [] w w') ∧
    Reaches (targets arguments) w (running w arguments user).2 ∧
    ∀ t : Files.Tree,
      (StopsEarly arguments user t → ∃ errors,
        running t arguments user = (⟨1, "", errors⟩, t)) ∧
      ∀ names, (running t arguments user).2.entries[names]? ≠ t.entries[names]? →
        (∃ content, (running t arguments user).2.entries[names]? = some (.file content)) ∧
          ∃ path ∈ targets arguments, t.destination path = .ok names := by
  refine ⟨StopsEarly.run_eq, reaches_running w arguments user, fun t => ⟨fun h => ?_, ?_⟩⟩
  · obtain ⟨errors, t', hrun, hreach⟩ := h.run_eq
    rw [Files.Tree.eq_of_reaches_nil hreach] at hrun
    exact ⟨errors, hrun⟩
  · exact (Files.Tree.changed_of_reaches (reaches_running t arguments user)).2

end Runs

/-- An edit below the last row, after one that was accepted, in a run that was to save. -/
theorem nothing_else_is_written_below :
    let arguments := ["-w", "sheet.json", "-s", "A1=1", "-s", "A101=2", "--csv", "sheet.csv"]
    let t := Files.Tree.new ["home"]
    targets arguments = ["sheet.json", "sheet.csv"] ∧
      ∃ errors, running t arguments none = (⟨1, "", errors⟩, t) := by
  intro arguments t
  let o : Options := {
    file := some "sheet.json"
    edits := ["A1=1"] ++ "A101=2" :: []
    csv := some "sheet.csv"
    write := true }
  have hread : Options.read arguments = .ok (some o) := by
    decide +kernel
  have hconfig : configuring t o.config none = (.ok default, t) := rfl
  have hopen := Document.attempt_openFile_of_not_found (d := Document.new (default : Config).grid)
    (show finding t "sheet.json" = (false, t) from rfl)
  have hstops : StopsEarly arguments none t :=
    .edit hread hconfig hopen rfl (.cons rfl (.nil _)) rfl
  exact ⟨by decide +kernel, ((nothing_else_is_written arguments none t).2.2 t).1 hstops⟩

end FormulaSheet.CommandLine
