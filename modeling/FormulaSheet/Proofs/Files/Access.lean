/-
What can happen to files between two worlds.

A program gets at files in four ways, and only one of them is meant to change
anything. So what a program can do to a system of files, whatever that may be,
is told by the accesses that lead from the world before to the world after, and
by the paths that are written to among them (`Reaches`).

For a tree of files this says which entries can have changed. A write puts a
file at the end of its path, where there was a file or nothing, and leads no
other path astray: where a path was to be written before, there it is to be
written after. So an entry that has changed is a file at the end of one of the
paths, followed in the tree as it was at the beginning.
-/
import FormulaSheet.Config.Basic
import FormulaSheet.Proofs.Document.Saving
import Mathlib.Logic.Relation

set_option autoImplicit false

namespace FormulaSheet.Files

open Document (finding sizing fetching writing)

/-! ## Accesses -/

section Accesses

variable {W : Type} [Files (StateM W)] {targets : List String} {w w' w'' : W}

/-- The world after one access to files, when it writes at most to the given paths. -/
inductive Access (targets : List String) (w : W) : W → Prop
  | found (path : String) : Access targets w (finding w path).2
  | size (path : String) : Access targets w (sizing w path).2
  | read (path : String) : Access targets w (fetching w path).2
  | write {path : String} (text : String) (h : path ∈ targets) :
      Access targets w (writing w path text).2

/-- Accesses lead from a world to another, and write at most to the given paths. -/
def Reaches (targets : List String) : W → W → Prop :=
  Relation.ReflTransGen (Access targets)

theorem Reaches.refl (targets : List String) (w : W) : Reaches targets w w :=
  Relation.ReflTransGen.refl

theorem Reaches.trans (h : Reaches targets w w') (h' : Reaches targets w' w'') :
    Reaches targets w w'' :=
  Relation.ReflTransGen.trans h h'

theorem Access.reaches (h : Access targets w w') : Reaches targets w w' :=
  Relation.ReflTransGen.single h

/-- What writes nowhere writes at most to given paths. -/
theorem Reaches.of_nil (h : Reaches [] w w') : Reaches targets w w' := by
  refine Relation.ReflTransGen.mono (fun w w' haccess => ?_) _ _ h
  cases haccess with
  | found path => exact .found path
  | size path => exact .size path
  | read path => exact .read path
  | write _ hnot => cases hnot

end Accesses

/-! ## Actions that write nothing -/

section Actions

variable {W ε ε' α β : Type} [Files (StateM W)]

/-- An action that writes to no file, whatever it gives. -/
def Looks (action : ExceptT ε (StateM W) α) : Prop :=
  ∀ w, Reaches [] w (action.run.run w).2

variable {action : ExceptT ε (StateM W) α} {next : α → ExceptT ε (StateM W) β}

theorem looks_pure (v : α) : Looks (pure v : ExceptT ε (StateM W) α) :=
  fun w => .refl [] w

theorem looks_mk_pure (r : Except ε α) : Looks (ExceptT.mk (pure r) : ExceptT ε (StateM W) α) :=
  fun w => .refl [] w

theorem looks_throw (e : ε) : Looks (throw e : ExceptT ε (StateM W) α) :=
  fun w => .refl [] w

theorem looks_found (path : String) :
    Looks (ExceptT.lift (Files.found path) : ExceptT ε (StateM W) Bool) :=
  fun _ => (Access.found path).reaches

theorem looks_size (path : String) : Looks (ExceptT.mk (Files.size path) : ExceptT _ (StateM W) _) :=
  fun _ => (Access.size path).reaches

theorem looks_read (path : String) : Looks (ExceptT.mk (Files.read path) : ExceptT _ (StateM W) _) :=
  fun _ => (Access.read path).reaches

theorem Looks.adapt (h : Looks action) (f : ε → ε') : Looks (action.adapt f) :=
  h

theorem Looks.bind (h : Looks action) (hnext : ∀ v, Looks (next v)) : Looks (action >>= next) := by
  intro w
  obtain ⟨⟨result, w'⟩, hresult⟩ : ∃ r, action.run.run w = r := ⟨_, rfl⟩
  have hfirst : Reaches [] w w' := by
    have hw := h w
    rwa [hresult] at hw
  cases result with
  | error e =>
    rw [Document.run_bind_of_error hresult]
    exact hfirst
  | ok v =>
    rw [Document.run_bind_of_ok hresult]
    exact hfirst.trans (hnext v w')

theorem looks_readText (path : String) : Looks (readText path : ExceptT _ (StateM W) _) :=
  (looks_read path).bind fun bytes => looks_mk_pure (decode bytes)

/-- To load a snapshot writes nothing. -/
theorem looks_loadSnapshot (path : String) :
    Looks (Snapshot.load path : ExceptT _ (StateM W) _) := by
  unfold Snapshot.load
  refine ((looks_size path).adapt _).bind fun size => ?_
  by_cases hlimit : Snapshot.sizeLimit < size
  · rw [if_pos hlimit]
    exact looks_throw _
  · rw [if_neg hlimit]
    refine ((looks_readText path).adapt _).bind fun text => ?_
    cases Snapshot.ofText? text with
    | none => exact looks_throw _
    | some s => exact looks_pure s

theorem looks_loadConfig (path : String) : Looks (Config.load path : ExceptT _ (StateM W) _) := by
  unfold Config.load
  refine ((looks_size path).adapt _).bind fun size => ?_
  by_cases hlimit : Config.sizeLimit < size
  · rw [if_pos hlimit]
    exact looks_throw _
  · rw [if_neg hlimit]
    exact ((looks_readText path).adapt _).bind fun text => looks_mk_pure _

/-- To look for the configuration writes nothing. -/
theorem looks_findConfig (requested user : Option String) :
    Looks (Config.find requested user : ExceptT _ (StateM W) _) := by
  unfold Config.find
  cases requested with
  | some path => exact looks_loadConfig path
  | none =>
    cases user with
    | none => exact looks_pure _
    | some path =>
      refine (looks_found path).bind fun found => ?_
      cases found with
      | false => exact looks_pure _
      | true => exact looks_loadConfig path

end Actions

/-! ## Trees -/

namespace Tree

variable {targets : List String} {t t' : Tree}

/-- An access to a tree changes nothing, or puts a file at the end of one of the paths. -/
theorem cases_access (h : Access targets t t') :
    t' = t ∨ ∃ path ∈ targets, ∃ names content, t.destination path = .ok names ∧
      t' = t.insert names (.file content) := by
  cases h with
  | found path => exact .inl rfl
  | size path => exact .inl rfl
  | read path => exact .inl rfl
  | @write path text hpath =>
    rw [Document.writing_tree, write]
    cases hdestination : t.destination path with
    | error e => exact .inl rfl
    | ok names => exact .inr ⟨path, hpath, names, _, hdestination, rfl⟩

theorem eq_of_reaches_nil (h : Reaches [] t t') : t' = t := by
  induction h with
  | refl => rfl
  | tail _ haccess ih =>
    rcases cases_access haccess with hsame | ⟨path, hpath, -⟩
    · rw [hsame, ih]
    · cases hpath

/-- What has changed is a file at the end of one of the paths. -/
theorem changed_of_reaches (h : Reaches targets t t') :
    (∀ path names, t'.destination path = .ok names ↔ t.destination path = .ok names) ∧
      ∀ names, t'.entries[names]? ≠ t.entries[names]? →
        (∃ content, t'.entries[names]? = some (.file content)) ∧
          ∃ path ∈ targets, t.destination path = .ok names := by
  induction h with
  | refl => exact ⟨fun _ _ => Iff.rfl, fun _ hne => absurd rfl hne⟩
  | @tail t₁ t₂ _ haccess ih =>
    obtain ⟨hsame, hchanged⟩ := ih
    rcases cases_access haccess with rfl | ⟨path, hpath, site, content, hsite, rfl⟩
    · exact ⟨hsame, hchanged⟩
    · have hfolder := entries_ne_folder_of_destination hsite
      refine ⟨fun path names => (destination_insert_iff hfolder).trans (hsame path names), ?_⟩
      intro names hne
      rw [getElem?_insert] at hne ⊢
      by_cases hnames : site = names
      · subst hnames
        exact ⟨⟨content, if_pos rfl⟩, path, hpath, (hsame path site).mp hsite⟩
      · rw [if_neg hnames] at hne ⊢
        exact hchanged names hne

end Tree

end FormulaSheet.Files
