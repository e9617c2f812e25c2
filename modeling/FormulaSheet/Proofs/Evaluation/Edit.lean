/-
What an edit reaches.

To write into a cell may change the values of the cells that depend on it, the
circles on which it lies, and the way in which a sum searches for its members,
which goes by the number of stored cells. It reaches no other cell. The cells
that do not depend on the edited one are a set that holds whatever its cells
mention, and on that set the store is what it was, so nothing more is needed
than `evaluate_eq_of_agree`.

The same set shows what a text is worth that stands in no cell. Write it into a
cell that nobody mentions: all other cells keep their values, and the text is
worked out by the walk, with its own cell on the path, and no longer by looking
up what it reads and stopping at the first circular member. It comes to the same
(`evaluateRaw_eq_evaluate_set`).

A sum with a corner that is no address mentions nothing, not even its other
corner, for it is zero whatever is stored.
-/
import FormulaSheet.Proofs.Evaluation.Dependence
import FormulaSheet.Proofs.Evaluation.Sharing

set_option autoImplicit false

namespace FormulaSheet.Store

open Relation (TransGen)

variable {s t : Store} {a b c d : Address}

/-! ## Dependence -/

/-- A cell depends on another one when a chain of mentions leads there. -/
def DependsOn (s : Store) (a b : Address) : Prop :=
  TransGen s.Mentions a b

/-- What a cell mentions is a matter of what it holds. -/
theorem Mentions.congr (h : s.get? a = t.get? a) (hab : s.Mentions a b) : t.Mentions a b := by
  obtain ⟨body, hbody, hb⟩ := hab
  refine ⟨body, ?_, hb⟩
  rw [body?, ← h]
  exact hbody

/-- Chains that end in a cell do not change with what the cell holds: they are there as soon as
they come to it for the first time. -/
theorem DependsOn.congr (hst : ∀ a, a ≠ c → s.get? a = t.get? a) (hne : d ≠ c)
    (h : s.DependsOn d c) : t.DependsOn d c := by
  induction h using TransGen.head_induction_on with
  | single hdc => exact .single (hdc.congr (hst _ hne))
  | @head d e hde _ ih =>
    have hstep : t.Mentions d e := hde.congr (hst d hne)
    by_cases hec : e = c
    · exact .single (hec ▸ hstep)
    · exact .head hstep (ih hec)

/-- Nothing in a set that holds whatever its cells mention depends on anything outside. -/
theorem not_dependsOn_of_shut (shut : Address → Prop)
    (hshut : ∀ a b, shut a → s.Mentions a b → shut b) (ha : shut a) (hb : ¬ shut b) :
    ¬ s.DependsOn a b := by
  intro hab
  have hin : ∀ c, s.DependsOn a c → shut c := by
    intro c hac
    induction hac with
    | single h => exact hshut _ _ ha h
    | tail _ h ih => exact hshut _ _ ih h
  exact hb (hin b hab)

/-! ## Edits -/

theorem get?_set_self (s : Store) (c : Address) {raw : String} (h : raw ≠ "") :
    (s.set c raw).get? c = some raw := by
  rw [get?_set, if_pos rfl, if_neg h]

theorem get?_set_of_ne (s : Store) {a c : Address} (raw : String) (h : a ≠ c) :
    (s.set c raw).get? a = s.get? a := by
  rw [get?_set, if_neg (Ne.symm h)]

/-- An edit leaves the store as it was on every set that holds whatever its cells mention and does
not hold the edited cell. -/
theorem agree_set {shut : Address → Prop} (raw : String) (hc : ∀ a, shut a → a ≠ c)
    (hshut : ∀ a b, shut a → s.Mentions a b → shut b) : Agree s (s.set c raw) shut where
  get? a ha := (s.get?_set_of_ne raw (hc a ha)).symm
  mentions := hshut

/-- **An edit reaches dependents only.** Whatever is written into a cell, every other cell depends
on it afterwards exactly if it did before, and keeps its value if it does not. -/
theorem evaluate_set_of_not_dependsOn (s : Store) {c d : Address} (raw : String) (hne : d ≠ c) :
    ((s.set c raw).DependsOn d c ↔ s.DependsOn d c) ∧
      (¬ s.DependsOn d c → (s.set c raw).evaluate d = s.evaluate d) := by
  have hset : ∀ a, a ≠ c → (s.set c raw).get? a = s.get? a := fun a => s.get?_set_of_ne raw
  refine ⟨⟨?_, ?_⟩, fun h => ?_⟩
  · exact DependsOn.congr hset hne
  · exact DependsOn.congr (fun a ha => (hset a ha).symm) hne
  · have hagree : Agree s (s.set c raw) fun a => a ≠ c ∧ ¬ s.DependsOn a c := by
      refine agree_set raw (fun a ha => ha.1) ?_
      rintro a b ⟨-, ha⟩ hab
      -- a mention of the edited cell, or of a cell that depends on it, makes the cell dependent
      exact ⟨fun hbc => ha (hbc ▸ .single hab), fun hbc => ha (.head hab hbc)⟩
    exact (evaluate_eq_of_agree hagree ⟨hne, h⟩).symm

/-- A circle is cleared outside of a rectangle. With it goes one of four stored cells, so that the
sum searches the rectangle before and the store afterwards. -/
theorem evaluate_set_of_not_dependsOn_circle :
    let s := (((empty.set ⟨0, 1⟩ "=B1").set ⟨0, 3⟩ "=sum(d2:e3)").set ⟨1, 3⟩ "4").set ⟨2, 4⟩ "=D2*2"
    (⟨0, 3⟩ : Address) ≠ ⟨0, 1⟩ ∧ ¬ s.DependsOn ⟨0, 3⟩ ⟨0, 1⟩ ∧
      (s.set ⟨0, 1⟩ "").evaluate ⟨0, 3⟩ = s.evaluate ⟨0, 3⟩ := by
  intro s
  have hne : (⟨0, 3⟩ : Address) ≠ ⟨0, 1⟩ := by decide
  let cells : List Address := [⟨0, 3⟩, ⟨1, 3⟩, ⟨1, 4⟩, ⟨2, 3⟩, ⟨2, 4⟩]
  have hmentioned : ∀ a ∈ cells, ∀ body ∈ s.body? a, ∀ b ∈ Formula.mentioned body, b ∈ cells := by
    decide +kernel
  have hfree : ¬ s.DependsOn ⟨0, 3⟩ ⟨0, 1⟩ := by
    refine not_dependsOn_of_shut (· ∈ cells) ?_ (by decide) (by decide)
    rintro a b ha ⟨body, hbody, hb⟩
    exact hmentioned a ha body hbody b hb
  exact ⟨hne, hfree, (evaluate_set_of_not_dependsOn s "" hne).2 hfree⟩

/-! ## Texts that stand in no cell -/

/-- **A text is worth what it is worth in a cell**, namely in one that neither the text nor any
stored formula mentions, whether or not the cell held something before. To ask for its value leaves
nothing behind: whatever is asked of the store in the same pass afterwards gets the answer it would
have got without. -/
theorem evaluateRaw_eq_evaluate_set (s : Store) {c : Address} {raw : String}
    (hraw : ∀ body, raw.toList = '=' :: body → c ∉ Formula.mentioned body)
    (hstored : ∀ a, ¬ s.Mentions a c) :
    s.evaluateRaw raw = (s.set c raw).evaluate c ∧
      ∀ requests, (Pass.initial.evaluateRaw s raw).2.answers s requests
        = Pass.initial.answers s requests := by
  have hinitial := Pass.Underway.refl s Pass.initial
  constructor
  · cases hformula : Formula.ofRaw? raw with
    | none =>
      rw [evaluateRaw_of_literal s hformula]
      by_cases hclear : raw = ""
      · have hnone : (s.set c raw).get? c = none := by rw [get?_set, if_pos rfl, if_pos hclear]
        rw [evaluate_of_get?_eq_none hnone, hclear]
        rfl
      · rw [evaluate_of_literal (s.get?_set_self c hclear) hformula]
    | some f =>
      obtain ⟨body, hbody⟩ := exists_body_of_ofRaw? hformula
      have hne : raw ≠ "" := by
        rintro rfl
        cases hbody
      have hcell : (s.set c raw).body? c = some body := by
        simp only [body?, s.get?_set_self c hne, Option.map_some, hbody]
      -- nobody mentions the cell, so the others neither gain nor lose anything by what it holds
      have hagree : Agree s (s.set c raw) (· ≠ c) :=
        agree_set raw (fun a ha => ha) fun a b _ hab hbc => hstored a (hbc ▸ hab)
      rw [evaluateRaw_of_body hbody, evaluate_of_body? hcell]
      exact applied_eq_of_agree hagree fun b hb hbc => hraw body hbody (hbc ▸ hb)
  · intro requests
    rw [(hinitial.evaluateRaw raw).2.answers, hinitial.answers]

/-- A sum that comes upon a circle and stops there. In a cell the walk goes on to the formula after
it. -/
theorem evaluateRaw_eq_evaluate_set_circle :
    let s := ((empty.set ⟨0, 0⟩ "=B1").set ⟨0, 1⟩ "=2*A1").set ⟨1, 1⟩ "=SUM(C1:C9)"
    let c : Address := ⟨8, 3⟩
    let raw := "=Sum(B2:A1)"
    (∀ body, raw.toList = '=' :: body → c ∉ Formula.mentioned body) ∧
      (∀ a, ¬ s.Mentions a c) ∧ s.evaluateRaw raw = (s.set c raw).evaluate c := by
  intro s c raw
  have hraw : ∀ body, raw.toList = '=' :: body → c ∉ Formula.mentioned body := by
    intro body hbody
    have hlist : raw.toList = '=' :: "Sum(B2:A1)".toList := by decide
    rw [hlist, List.cons.injEq] at hbody
    rw [← hbody.2]
    decide +kernel
  have hstored : ∀ a, ¬ s.Mentions a c := by
    have hbodies : ∀ a ∈ s.addresses, ∀ body ∈ s.body? a, c ∉ Formula.mentioned body := by
      decide +kernel
    rintro a ⟨body, hbody, hc⟩
    exact hbodies a (mem_addresses_of_body? hbody) body hbody hc
  exact ⟨hraw, hstored, (evaluateRaw_eq_evaluate_set s hraw hstored).1⟩

end FormulaSheet.Store
