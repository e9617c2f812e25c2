/-
What the steps of a run do.

A run is a session: its steps print, change the document and may fail, and each
of them has the world of files to act on. Here a session is carried out for a
document, in a world, with something printed already (`play`). What a step of
editing does is known (`attempt`), and a session adds nothing to it but the
name of what was being done when it failed.

The steps of a run are cut at the joints: opening, edits, saving, and what is
reported at the end (`steps_eq`). The parts are played one by one. Edits need an
induction, because each is made in the document that the one before it left;
those that have been accepted are a relation between two documents (`Edited`),
and the first one that is refused ends the run where it stands.
-/
import FormulaSheet.CommandLine.Run
import FormulaSheet.Proofs.Document.History

set_option autoImplicit false

namespace FormulaSheet.CommandLine

open Document (attempt)

/-! ## Steps in a world -/

section Steps

variable {W α β : Type} {d d' : Document} {p p' : Printed} {w w' : W} {f : Failure}

/-- What a step of a session gives and what has been printed, the document that is left, and the
world afterwards. -/
def play (d : Document) (p : Printed) (w : W) (step : Session (StateM W) α) :
    ((Except Failure α × Printed) × Document) × W :=
  ((step.run.run p).run d).run w

theorem play_pure (v : α) : play d p w (pure v : Session (StateM W) α) = (((.ok v, p), d), w) :=
  rfl

theorem play_getThe :
    play d p w (getThe Document : Session (StateM W) Document) = (((.ok d, p), d), w) :=
  rfl

theorem play_print (line : String) :
    play d p w (Session.print line : Session (StateM W) Unit)
      = (((.ok (), { p with output := p.output ++ line ++ "\n" }), d), w) :=
  rfl

theorem play_printError (line : String) :
    play d p w (Session.printError line : Session (StateM W) Unit)
      = (((.ok (), { p with errors := p.errors ++ line ++ "\n" }), d), w) :=
  rfl

theorem play_bind_of_ok {step : Session (StateM W) α} {next : α → Session (StateM W) β} {v : α}
    (h : play d p w step = (((.ok v, p'), d'), w')) :
    play d p w (step >>= next) = play d' p' w' (next v) := by
  unfold play at h ⊢
  rw [ExceptT.run_bind, StateT.run_bind, StateT.run_bind, StateT.run_bind, h]
  rfl

/-- After a failure nothing more is done, and what was printed stays printed. -/
theorem play_bind_of_error {step : Session (StateM W) α} {next : α → Session (StateM W) β}
    (h : play d p w step = (((.error f, p'), d'), w')) :
    play d p w (step >>= next) = (((.error f, p'), d'), w') := by
  unfold play at h ⊢
  rw [ExceptT.run_bind, StateT.run_bind, StateT.run_bind, StateT.run_bind, h]
  rfl

/-- A step of editing prints nothing. -/
theorem play_edit (d : Document) (p : Printed) (w : W) (during : Option String)
    (step : Editing (StateM W) α) :
    play d p w (Session.edit during step)
      = ((((attempt d w step).1.1.mapError fun e => ⟨during, e⟩, p), (attempt d w step).1.2),
          (attempt d w step).2) :=
  rfl

theorem play_edit_of_ok {during : Option String} {step : Editing (StateM W) α} {v : α}
    (h : attempt d w step = ((.ok v, d'), w')) :
    play d p w (Session.edit during step) = (((.ok v, p), d'), w') := by
  rw [play_edit, h]
  rfl

theorem play_edit_of_error {during : Option String} {step : Editing (StateM W) α} {e : Problem}
    (h : attempt d w step = ((.error e, d'), w')) :
    play d p w (Session.edit during step) = (((.error ⟨during, e⟩, p), d'), w') := by
  rw [play_edit, h]
  rfl

end Steps

/-! ## The parts of a run -/

section Parts

variable {m : Type → Type} [Monad m] {α : Type}

theorem discard_eq_bind [LawfulMonad m] (step : m α) :
    discard step = step >>= fun _ => pure ⟨⟩ := by
  rw [discard, LawfulFunctor.map_const, Function.comp_apply, map_eq_pure_bind]

/-- Does a step with one thing after another. -/
def each (xs : List α) (step : α → Session m Unit) : Session m Unit := do
  for x in xs do
    step x

theorem each_nil [LawfulMonad m] (step : α → Session m Unit) : each [] step = pure () := by
  simp [each]

theorem each_cons [LawfulMonad m] (x : α) (xs : List α) (step : α → Session m Unit) :
    each (x :: xs) step = (do step x; each xs step) := by
  simp [each]

/-- What is listed for a cell. -/
def listed (a : Address) (v : Value) : String :=
  a.text ++ "\t" ++ v.display

theorem list_eq [LawfulMonad m] [Files m] : (list : Session m Unit) = (do
    let d : Document ← getThe Document
    each d.display.populated fun e => Session.print (listed e.1 e.2)) := by
  simp [list, each, listed]

variable [Files m]

/-- Opens a file for the document, and says what is odd about it. -/
def opening (file : Option String) : Session m Unit := do
  let warnings ← Session.edit none (Document.openFile file)
  each warnings fun w => Session.printError w.line

def editing (edits : List String) : Session m Unit :=
  each edits fun e => discard (Session.edit none (Document.applyEdit e))

def saving (write : Bool) : Session m Unit :=
  if write then discard (Session.edit none Document.save) else pure ()

def exporting (output csv : Option String) : Session m Unit := do
  each output.toList fun path => runExport path Document.writeMarkdown
  each csv.toList fun path => runExport path Document.writeCsv

/-- Prints the value of a formula, or else writes the exports, or else lists the cells. -/
def reporting (o : Options) : Session m Nat :=
  match o.command with
  | some command => runCommand command
  | none => do
    exporting o.output o.csv
    if o.output.isNone && o.csv.isNone then list
    return 0

/-- A run has four parts. -/
theorem steps_eq [LawfulMonad m] (o : Options) : (steps o : Session m Nat) = (do
    opening o.file
    editing o.edits
    saving o.write
    reporting o) := by
  unfold steps opening editing saving reporting exporting each
  simp only [bind_assoc, pure_bind]
  -- the parts differ from the whole only in where the branches meet again
  cases o.command <;> cases o.output <;> cases o.csv <;> cases o.write <;> simp [pure_bind]

end Parts

/-! ## Printing -/

section Printing

variable {W α : Type} {d d' : Document} {p p' : Printed} {w w' : W}

/-- A step that only prints, done with one thing after another. -/
theorem play_each {step : α → Session (StateM W) Unit} {print : Printed → α → Printed}
    (h : ∀ x p, play d p w (step x) = (((.ok (), print p x), d), w)) (xs : List α) (p : Printed) :
    play d p w (each xs step) = (((.ok (), xs.foldl print p), d), w) := by
  induction xs generalizing p with
  | nil =>
    rw [each_nil, play_pure]
    rfl
  | cons x xs ih => rw [each_cons, play_bind_of_ok (h x p), ih, List.foldl_cons]

/-- What is printed after some warnings. -/
def Printed.warned (p : Printed) (warnings : List Warning) : Printed :=
  warnings.foldl (fun p w => { p with errors := p.errors ++ w.line ++ "\n" }) p

@[simp] theorem Printed.output_warned (p : Printed) (warnings : List Warning) :
    (p.warned warnings).output = p.output := by
  unfold warned
  induction warnings generalizing p with
  | nil => rfl
  | cons w ws ih => exact ih _

/-- What the list of the populated cells says. -/
def listing (values : List (Address × Value)) : String :=
  String.join (values.map fun e => listed e.1 e.2 ++ "\n")

/-- **The list** has a line for each populated cell. -/
theorem play_list [Files (StateM W)] (d : Document) (p : Printed) (w : W) :
    play d p w list
      = (((.ok (), { p with output := p.output ++ listing d.display.populated }), d), w) := by
  have hprint (e : Address × Value) (p : Printed) :
      play d p w (Session.print (listed e.1 e.2) : Session (StateM W) Unit)
        = (((.ok (), { p with output := p.output ++ listed e.1 e.2 ++ "\n" }), d), w) :=
    play_print (listed e.1 e.2)
  rw [list_eq, play_bind_of_ok play_getThe, play_each hprint]
  generalize d.display.populated = values
  congr 4
  induction values generalizing p with
  | nil =>
    rw [listing, List.map_nil, String.join_nil, String.append_empty]
    rfl
  | cons e rest ih =>
    rw [List.foldl_cons, ih]
    simp only [listing, List.map_cons, String.join_cons, String.append_assoc]

end Printing

/-! ## The parts, played -/

section Play

variable {W α : Type} {d d' : Document} {p p' : Printed} {w w' : W} {f : Failure}

theorem play_discard_of_ok {step : Session (StateM W) α} {v : α}
    (h : play d p w step = (((.ok v, p'), d'), w')) :
    play d p w (discard step) = (((.ok (), p'), d'), w') := by
  rw [discard_eq_bind, play_bind_of_ok h, play_pure]

theorem play_discard_of_error {step : Session (StateM W) α}
    (h : play d p w step = (((.error f, p'), d'), w')) :
    play d p w (discard step) = (((.error f, p'), d'), w') := by
  rw [discard_eq_bind, play_bind_of_error h]

variable [Files (StateM W)] {file : Option String} {warnings : List Warning} {e : Problem}

theorem play_opening_of_ok (h : attempt d w (Document.openFile file) = ((.ok warnings, d'), w')) :
    play d p w (opening file) = (((.ok (), p.warned warnings), d'), w') := by
  have hwarn (x : Warning) (p : Printed) :
      play d' p w' (Session.printError x.line : Session (StateM W) Unit)
        = (((.ok (), { p with errors := p.errors ++ x.line ++ "\n" }), d'), w') :=
    play_printError x.line
  unfold opening
  rw [play_bind_of_ok (play_edit_of_ok h), play_each hwarn]
  rfl

theorem play_opening_of_error (h : attempt d w (Document.openFile file) = ((.error e, d'), w')) :
    play d p w (opening file) = (((.error ⟨none, e⟩, p), d'), w') := by
  unfold opening
  exact play_bind_of_error (play_edit_of_error h)

end Play

/-! ## Edits -/

section Edits

variable {W : Type} {d d' : Document} {p : Printed} {w : W} {e : Problem}
  {edit : String} {edits before after : List String}

/-- Edits that were all accepted, one after another, and the document that they led to. -/
inductive Edited (w : W) : Document → List String → Document → Prop
  | nil (d : Document) : Edited w d [] d
  | cons {d d₁ d' : Document} {edit : String} {edits : List String} {a : Address}
      (haccepted : (attempt d w (Document.applyEdit edit)).1 = (.ok a, d₁))
      (hrest : Edited w d₁ edits d') : Edited w d (edit :: edits) d'

/-- An edit leaves the world as it is, and also the document if it is refused. -/
theorem attempt_applyEdit_of_error
    (h : (attempt d w (Document.applyEdit edit)).1.1 = .error e) :
    attempt d w (Document.applyEdit edit) = ((.error e, d), w) := by
  rcases Document.attempt_applyEdit_cases d w edit with
    ⟨_, _, a, _, _, _, _, haccepted⟩ | ⟨e', hrefused⟩
  · rw [haccepted] at h
    cases h
  · rw [hrefused] at h ⊢
    rw [Except.error.inj h]

theorem attempt_applyEdit_of_ok {a : Address}
    (h : (attempt d w (Document.applyEdit edit)).1 = (.ok a, d')) :
    attempt d w (Document.applyEdit edit) = ((.ok a, d'), w) := by
  rcases Document.attempt_applyEdit_cases d w edit with
    ⟨_, _, a, _, _, _, _, haccepted⟩ | ⟨e', hrefused⟩
  · rw [haccepted] at h
    exact haccepted.trans (Prod.ext h rfl)
  · rw [hrefused] at h
    cases h

/-- An edit that is accepted writes a text and nothing else. -/
theorem exists_write_of_accepted {a : Address}
    (h : (attempt d w (Document.applyEdit edit)).1 = (.ok a, d')) :
    ∃ b raw, d' = d.write b raw := by
  rcases Document.attempt_applyEdit_cases d w edit with
    ⟨_, raw, b, _, _, _, _, haccepted⟩ | ⟨e', hrefused⟩
  · rw [haccepted, Prod.mk.injEq] at h
    exact ⟨b, _, h.2.symm⟩
  · rw [hrefused] at h
    cases h

/-- Edits keep the display up to date. -/
theorem Edited.display_eq (h : Edited w d edits d') (hd : d.display = d.sheet.recompute) :
    d'.display = d'.sheet.recompute := by
  induction h with
  | nil => exact hd
  | cons haccepted _ ih =>
    obtain ⟨b, raw, rfl⟩ := exists_write_of_accepted haccepted
    exact ih rfl

theorem play_edit_applyEdit_of_ok [Files (StateM W)] {a : Address}
    (h : (attempt d w (Document.applyEdit edit)).1 = (.ok a, d')) :
    play d p w (discard (Session.edit none (Document.applyEdit edit)))
      = (((.ok (), p), d'), w) :=
  play_discard_of_ok (play_edit_of_ok (attempt_applyEdit_of_ok h))

/-- Accepted edits are made one after another, and print nothing. -/
theorem Edited.play_editing [Files (StateM W)] (h : Edited w d edits d') :
    play d p w (editing edits) = (((.ok (), p), d'), w) := by
  unfold editing
  induction h with
  | nil =>
    rw [each_nil]
    rfl
  | cons haccepted _ ih => rw [each_cons, play_bind_of_ok (play_edit_applyEdit_of_ok haccepted), ih]

/-- The first edit that is refused is the last one that is looked at. -/
theorem Edited.play_editing_of_refused [Files (StateM W)] (h : Edited w d before d')
    (hrefused : (attempt d' w (Document.applyEdit edit)).1.1 = .error e) :
    play d p w (editing (before ++ edit :: after)) = (((.error ⟨none, e⟩, p), d'), w) := by
  unfold editing
  induction h with
  | nil =>
    rw [List.nil_append, each_cons]
    exact play_bind_of_error
      (play_discard_of_error (play_edit_of_error (attempt_applyEdit_of_error hrefused)))
  | cons haccepted _ ih =>
    rw [List.cons_append, each_cons, play_bind_of_ok (play_edit_applyEdit_of_ok haccepted),
      ih hrefused]

/-- Either all edits are accepted, or one is refused after others were accepted. -/
theorem edited_or_refused (d : Document) (w : W) (edits : List String) :
    (∃ d', Edited w d edits d') ∨
      ∃ before edit after d' e, edits = before ++ edit :: after ∧ Edited w d before d' ∧
        (attempt d' w (Document.applyEdit edit)).1.1 = .error e := by
  induction edits generalizing d with
  | nil => exact .inl ⟨d, .nil d⟩
  | cons edit edits ih =>
    obtain ⟨⟨⟨result, d₁⟩, w₁⟩, hresult⟩ :
        ∃ r, attempt d w (Document.applyEdit edit) = r := ⟨_, rfl⟩
    cases result with
    | error e => exact .inr ⟨[], edit, edits, d, e, rfl, .nil d, by rw [hresult]⟩
    | ok a =>
      have haccepted : (attempt d w (Document.applyEdit edit)).1 = (.ok a, d₁) := by rw [hresult]
      rcases ih d₁ with ⟨d', hrest⟩ | ⟨before, edit', after, d', e, rfl, hbefore, hrefused⟩
      · exact .inl ⟨d', .cons haccepted hrest⟩
      · exact .inr ⟨edit :: before, edit', after, d', e, rfl, .cons haccepted hbefore, hrefused⟩

end Edits

/-! ## Runs -/

section Runs

variable {W : Type} [Files (StateM W)] {w w₁ w₂ : W} {arguments : List String} {o : Options}
  {user : Option String} {config : Config} {e : Problem} {d : Document}

/-- What comes of looking for the configuration, and the world afterwards. -/
def configuring (w : W) (requested user : Option String) : Except Problem Config × W :=
  (Config.find requested user : ExceptT Problem (StateM W) Config).run.run w

/-- What a run leaves behind, and the world afterwards. -/
def running (w : W) (arguments : List String) (user : Option String) : Outcome × W :=
  (run arguments user : StateM W Outcome).run w

theorem running_of_usageError {e : UsageError} (h : Options.read arguments = .error e) :
    running w arguments user
      = (⟨1, "", "Error: " ++ e.message ++ "\n" ++ usage⟩, w) := by
  rw [running, run, h]
  rfl

theorem running_of_help (h : Options.read arguments = .ok none) :
    running w arguments user = (⟨0, "", usage⟩, w) := by
  rw [running, run, h]
  rfl

theorem running_of_options (h : Options.read arguments = .ok (some o)) :
    running w arguments user = (runOptions o user : StateM W Outcome).run w := by
  rw [running, run, h]

theorem runOptions_of_config_error (hconfig : configuring w o.config user = (.error e, w₁)) :
    (runOptions o user : StateM W Outcome).run w
      = (outcome (.error ⟨some "Failed to load configuration", e⟩, {}), w₁) := by
  rw [configuring] at hconfig
  simp only [runOptions]
  rw [StateT.run_bind, hconfig]
  rfl

/-- Once there is a configuration, a run is its steps in a new document. -/
theorem runOptions_of_config (hconfig : configuring w o.config user = (.ok config, w₁)) :
    (runOptions o user : StateM W Outcome).run w
      = (outcome (play (Document.new config.grid) {} w₁ (steps o)).1.1,
          (play (Document.new config.grid) {} w₁ (steps o)).2) := by
  rw [configuring] at hconfig
  simp only [runOptions]
  rw [StateT.run_bind, hconfig]
  rfl

theorem running_of_config_error (h : Options.read arguments = .ok (some o))
    (hconfig : configuring w o.config user = (.error e, w₁)) :
    running w arguments user
      = (outcome (.error ⟨some "Failed to load configuration", e⟩, {}), w₁) :=
  (running_of_options h).trans (runOptions_of_config_error hconfig)

theorem running_of_config (h : Options.read arguments = .ok (some o))
    (hconfig : configuring w o.config user = (.ok config, w₁)) :
    running w arguments user
      = (outcome (play (Document.new config.grid) {} w₁ (steps o)).1.1,
          (play (Document.new config.grid) {} w₁ (steps o)).2) :=
  (running_of_options h).trans (runOptions_of_config hconfig)

theorem running_of_failure {f : Failure} {p : Printed} (h : Options.read arguments = .ok (some o))
    (hconfig : configuring w o.config user = (.ok config, w₁))
    (hsteps : play (Document.new config.grid) {} w₁ (steps o) = (((.error f, p), d), w₂)) :
    running w arguments user
      = (⟨1, p.output, p.errors ++ "Error: " ++ f.report ++ "\n"⟩, w₂) := by
  rw [running_of_config h hconfig, hsteps]
  rfl

theorem running_of_success {exit : Nat} {p : Printed} (h : Options.read arguments = .ok (some o))
    (hconfig : configuring w o.config user = (.ok config, w₁))
    (hsteps : play (Document.new config.grid) {} w₁ (steps o) = (((.ok exit, p), d), w₂)) :
    running w arguments user = (⟨exit, p.output, p.errors⟩, w₂) := by
  rw [running_of_config h hconfig, hsteps]
  rfl

end Runs

end FormulaSheet.CommandLine
