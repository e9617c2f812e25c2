/-
Failures leave no trace in the document.

A step may fail at many places: an address may be malformed or outside of the
grid, a file may be missing, too large, no text or no snapshot, a write may be
refused, and there may be no file to save to. The monad of the steps would let a
document be changed before any of these. None of the operations does so, and the
document that is left after a failure is the one from before, in all its parts.

That would be worth little if failures were rare by mistake, so the second half
says when a load and a save do fail: a load exactly for one of the five reasons
of `Unreadable`, and a save exactly when its file cannot be written, or when
there is none.
-/
import FormulaSheet.Files.Tree
import FormulaSheet.Proofs.Document.Operation

set_option autoImplicit false

namespace FormulaSheet.Document

/-! ## Actions on files -/

section Actions

variable {W ε ε' α β : Type} {w w' : W} {e : ε}

theorem run_bind_of_ok {action : ExceptT ε (StateM W) α} {next : α → ExceptT ε (StateM W) β} {v : α}
    (h : action.run.run w = (.ok v, w')) :
    (action >>= next).run.run w = (next v).run.run w' := by
  rw [ExceptT.run_bind, StateT.run_bind, h]
  rfl

theorem run_bind_of_error {action : ExceptT ε (StateM W) α} {next : α → ExceptT ε (StateM W) β}
    (h : action.run.run w = (.error e, w')) :
    (action >>= next).run.run w = (.error e, w') := by
  rw [ExceptT.run_bind, StateT.run_bind, h]
  rfl

theorem run_adapt (action : ExceptT ε (StateM W) α) (f : ε → ε') (w : W) :
    (action.adapt f).run.run w = ((action.run.run w).1.mapError f, (action.run.run w).2) :=
  rfl

end Actions

/-! ## Why a file cannot be loaded -/

section Reading

variable {W : Type} [Files (StateM W)] {w w₁ w₂ : W} {path : String} {n : Nat}

/-- What comes of asking for the size of a file, and the world afterwards. -/
def sizing (w : W) (path : String) : Except FileError Nat × W :=
  (Files.size path : StateM W (Except FileError Nat)).run w

/-- What comes of asking for the bytes of a file, and the world afterwards. -/
def fetching (w : W) (path : String) : Except FileError ByteArray × W :=
  (Files.read path : StateM W (Except FileError ByteArray)).run w

/-- Why a file cannot be loaded. -/
inductive Unreadable (w : W) (path : String) : Problem → Prop
  /-- Its size is not to be had, as when it is missing. -/
  | unsized {e : FileError} {w₁ : W} (hsize : sizing w path = (.error e, w₁)) :
      Unreadable w path (.file e)
  | oversized {n : Nat} {w₁ : W} (hsize : sizing w path = (.ok n, w₁))
      (hlimit : Snapshot.sizeLimit < n) : Unreadable w path (.size path n Snapshot.sizeLimit)
  /-- Its bytes are not to be had. -/
  | unread {n : Nat} {e : FileError} {w₁ w₂ : W} (hsize : sizing w path = (.ok n, w₁))
      (hlimit : ¬ Snapshot.sizeLimit < n) (hread : fetching w₁ path = (.error e, w₂)) :
      Unreadable w path (.file e)
  /-- Its bytes are no text. -/
  | notText {n : Nat} {bytes : ByteArray} {w₁ w₂ : W} (hsize : sizing w path = (.ok n, w₁))
      (hlimit : ¬ Snapshot.sizeLimit < n) (hread : fetching w₁ path = (.ok bytes, w₂))
      (htext : String.fromUTF8? bytes = none) : Unreadable w path (.file .notText)
  /-- Its text is no snapshot. -/
  | malformed {n : Nat} {bytes : ByteArray} {text : String} {w₁ w₂ : W}
      (hsize : sizing w path = (.ok n, w₁)) (hlimit : ¬ Snapshot.sizeLimit < n)
      (hread : fetching w₁ path = (.ok bytes, w₂)) (htext : String.fromUTF8? bytes = some text)
      (hsnapshot : Snapshot.ofText? text = none) : Unreadable w path .snapshot

variable {bytes : ByteArray} {text : String}

theorem run_size {result : Except FileError Nat} (h : sizing w path = (result, w₁)) :
    ((ExceptT.mk (Files.size path : StateM W _)).adapt Problem.file).run.run w
      = (result.mapError Problem.file, w₁) := by
  have hsize : (ExceptT.mk (Files.size path : StateM W _)).run.run w = (result, w₁) := h
  rw [run_adapt, hsize]

theorem run_text_of_unread {e : FileError} (h : fetching w path = (.error e, w₁)) :
    ((Files.readText path : ExceptT _ (StateM W) _).adapt Problem.file).run.run w
      = (.error (.file e), w₁) := by
  have hread : (Files.readText path : ExceptT _ (StateM W) _).run.run w = (.error e, w₁) :=
    run_bind_of_error h
  rw [run_adapt, hread]
  rfl

/-- To read a file as text is to take its bytes and to decode them. -/
theorem run_text_of_read (h : fetching w path = (.ok bytes, w₁)) :
    ((Files.readText path : ExceptT _ (StateM W) _).adapt Problem.file).run.run w
      = ((Files.decode bytes).mapError Problem.file, w₁) := by
  have hread : (Files.readText path : ExceptT _ (StateM W) _).run.run w
      = (Files.decode bytes, w₁) := run_bind_of_ok h
  rw [run_adapt, hread]

theorem reading_of_unsized {e : FileError} (hsize : sizing w path = (.error e, w₁)) :
    reading w path = (.error (.file e), w₁) :=
  run_bind_of_error (run_size hsize)

theorem reading_of_oversized (hsize : sizing w path = (.ok n, w₁))
    (hlimit : Snapshot.sizeLimit < n) :
    reading w path = (.error (.size path n Snapshot.sizeLimit), w₁) := by
  unfold reading Snapshot.load
  rw [run_bind_of_ok (run_size hsize), if_pos hlimit]
  rfl

theorem reading_of_unread {e : FileError} (hsize : sizing w path = (.ok n, w₁))
    (hlimit : ¬ Snapshot.sizeLimit < n) (hread : fetching w₁ path = (.error e, w₂)) :
    reading w path = (.error (.file e), w₂) := by
  unfold reading Snapshot.load
  rw [run_bind_of_ok (run_size hsize), if_neg hlimit]
  exact run_bind_of_error (run_text_of_unread hread)

theorem reading_of_notText (hsize : sizing w path = (.ok n, w₁))
    (hlimit : ¬ Snapshot.sizeLimit < n) (hread : fetching w₁ path = (.ok bytes, w₂))
    (htext : String.fromUTF8? bytes = none) :
    reading w path = (.error (.file .notText), w₂) := by
  have hdecode : Files.decode bytes = .error .notText := by
    rw [Files.decode, htext]
  have hfailed := run_text_of_read hread
  rw [hdecode] at hfailed
  unfold reading Snapshot.load
  rw [run_bind_of_ok (run_size hsize), if_neg hlimit]
  exact run_bind_of_error hfailed

/-- Once the text of a file is known, all depends on whether it is a snapshot. -/
theorem reading_of_text (hsize : sizing w path = (.ok n, w₁))
    (hlimit : ¬ Snapshot.sizeLimit < n) (hread : fetching w₁ path = (.ok bytes, w₂))
    (htext : String.fromUTF8? bytes = some text) :
    reading w path = ((Snapshot.ofText? text).elim (.error .snapshot) .ok, w₂) := by
  have hdecode : Files.decode bytes = .ok text := by
    rw [Files.decode, htext]
  have hdone := run_text_of_read hread
  rw [hdecode] at hdone
  unfold reading Snapshot.load
  rw [run_bind_of_ok (run_size hsize), if_neg hlimit]
  refine (run_bind_of_ok hdone).trans ?_
  cases Snapshot.ofText? text with
  | none => rfl
  | some s => rfl

/-- Each of the reasons keeps a file from being loaded. -/
theorem Unreadable.reading_eq {e : Problem} (h : Unreadable w path e) :
    (reading w path).1 = .error e := by
  cases h with
  | unsized hsize => rw [reading_of_unsized hsize]
  | oversized hsize hlimit => rw [reading_of_oversized hsize hlimit]
  | unread hsize hlimit hread => rw [reading_of_unread hsize hlimit hread]
  | notText hsize hlimit hread htext => rw [reading_of_notText hsize hlimit hread htext]
  | malformed hsize hlimit hread htext hsnapshot =>
    rw [reading_of_text hsize hlimit hread htext, hsnapshot, Option.elim_none]

/-- There are no others. -/
theorem unreadable_of_reading_eq {e : Problem} (h : (reading w path).1 = .error e) :
    Unreadable w path e := by
  obtain ⟨⟨size, w₁⟩, hsize⟩ : ∃ r, sizing w path = r := ⟨_, rfl⟩
  cases size with
  | error cause =>
    rw [reading_of_unsized hsize, Except.error.injEq] at h
    subst h
    exact .unsized hsize
  | ok n =>
    by_cases hlimit : Snapshot.sizeLimit < n
    · rw [reading_of_oversized hsize hlimit, Except.error.injEq] at h
      subst h
      exact .oversized hsize hlimit
    · obtain ⟨⟨result, w₂⟩, hread⟩ : ∃ r, fetching w₁ path = r := ⟨_, rfl⟩
      cases result with
      | error cause =>
        rw [reading_of_unread hsize hlimit hread, Except.error.injEq] at h
        subst h
        exact .unread hsize hlimit hread
      | ok bytes =>
        cases htext : String.fromUTF8? bytes with
        | none =>
          rw [reading_of_notText hsize hlimit hread htext, Except.error.injEq] at h
          subst h
          exact .notText hsize hlimit hread htext
        | some text =>
          rw [reading_of_text hsize hlimit hread htext] at h
          cases hsnapshot : Snapshot.ofText? text with
          | none =>
            rw [hsnapshot, Option.elim_none, Except.error.injEq] at h
            subst h
            exact .malformed hsize hlimit hread htext hsnapshot
          | some s =>
            rw [hsnapshot, Option.elim_some] at h
            cases h

end Reading

/-! ## Failures -/

section Failures

variable {W : Type} [Files (StateM W)] {d : Document} {w : W} {path : String} {e : Problem}

/-- Why a document cannot be saved to a file. -/
def Unwritable (d : Document) (w : W) (path : String) (e : Problem) : Prop :=
  ∃ cause, (writing w path (Snapshot.text d.sheet.store.snapshot)).1 = .error cause ∧
    e = .file cause

/-- Of the six things that an operation can have done, a failure is the one that is nothing. -/
theorem Change.eq_of_error {event : Event} (hchange : Change d event)
    (herror : event.result = .error e) : event.document = d := by
  cases hchange with
  | refused => rfl
  | wrote => cases herror
  | recalculated => cases herror
  | loaded => cases herror
  | saved => cases herror
  | exported => cases herror

/-- A load that fails, fails because its file cannot be loaded. -/
theorem perform_load_eq_iff :
    perform d w (.load path) = ⟨.load path, .error e, d⟩ ↔ Unreadable w path e := by
  constructor
  · intro h
    apply unreadable_of_reading_eq
    rcases reading_cases w path with ⟨s, w', hread⟩ | ⟨cause, w', hread⟩
    · rw [perform_load_of_ok hread] at h
      cases h
    · rw [perform_load_of_error hread, Event.mk.injEq, Except.error.injEq] at h
      rw [hread, h.2.1]
  · intro h
    obtain ⟨w', hread⟩ : ∃ w', reading w path = (.error e, w') :=
      ⟨_, Prod.ext h.reading_eq rfl⟩
    exact perform_load_of_error hread

theorem perform_saveAs_eq_iff :
    perform d w (.saveAs path) = ⟨.saveAs path, .error e, d⟩ ↔ Unwritable d w path e := by
  unfold Unwritable
  rcases writing_cases w path (Snapshot.text d.sheet.store.snapshot) with
    ⟨w', hwrite⟩ | ⟨cause, w', hwrite⟩
  · simp [perform_saveAs_of_ok hwrite, hwrite]
  · simp [perform_saveAs_of_error hwrite, hwrite, eq_comm]

/-- To save fails for want of a file, or because the file of the document cannot be written. -/
theorem perform_save_eq_iff :
    perform d w .save = ⟨.save, .error e, d⟩ ↔
      d.path = none ∧ e = .noFile ∨ ∃ path, d.path = some path ∧ Unwritable d w path e := by
  cases hpath : d.path with
  | none => simp [perform_save_of_none hpath, eq_comm]
  | some path =>
    have hsave : perform d w .save = ⟨.save, .error e, d⟩ ↔
        perform d w (.saveAs path) = ⟨.saveAs path, .error e, d⟩ := by
      rw [perform_save_of_some hpath, perform]
      simp
    rw [hsave, perform_saveAs_eq_iff]
    simp

/-- **Failures leave no trace.** Whatever the document and the world, an operation that fails
leaves the document as it was. A load fails, and does so, exactly when its file is missing, too
large, no text or no snapshot; to save fails exactly when the file cannot be written, or when there
is none. -/
theorem failure_changes_nothing (d : Document) (w : W) :
    (∀ op e, (perform d w op).result = .error e → (perform d w op).document = d) ∧
    (∀ path e, perform d w (.load path) = ⟨.load path, .error e, d⟩ ↔ Unreadable w path e) ∧
    (∀ path e, perform d w (.saveAs path) = ⟨.saveAs path, .error e, d⟩ ↔
      Unwritable d w path e) ∧
    ∀ e, perform d w .save = ⟨.save, .error e, d⟩ ↔
      d.path = none ∧ e = .noFile ∨ ∃ path, d.path = some path ∧ Unwritable d w path e := by
  refine ⟨fun op e herror => ?_, fun _ _ => perform_load_eq_iff,
    fun _ _ => perform_saveAs_eq_iff, fun _ => perform_save_eq_iff⟩
  exact (change_perform d w op).eq_of_error herror

end Failures

/-- An edit that has not been saved, beside a broken file: that the file is broken is found out
only after it has been read. -/
theorem failure_changes_nothing_malformed :
    let d := (Document.new ⟨2⟩).write ⟨0, 0⟩ "keep"
    let w := (Files.Tree.new ["home"]).place "broken.json" (.file "\x7b nope".toUTF8)
    (perform d w (.load "broken.json")).result = .error .snapshot ∧
      (perform d w (.load "broken.json")).document = d := by
  intro d w
  obtain ⟨hfailure, hload, -⟩ := failure_changes_nothing d w
  have htext : String.fromUTF8? "\x7b nope".toUTF8 = some "\x7b nope" := by decide +kernel
  have hsnapshot : Snapshot.ofText? "\x7b nope" = none := by decide +kernel
  have hmalformed : Unreadable w "broken.json" .snapshot :=
    .malformed rfl (by decide) rfl htext hsnapshot
  have herror : (perform d w (.load "broken.json")).result = .error .snapshot := by
    rw [(hload _ _).2 hmalformed]
  exact ⟨herror, hfailure _ _ herror⟩

end FormulaSheet.Document
