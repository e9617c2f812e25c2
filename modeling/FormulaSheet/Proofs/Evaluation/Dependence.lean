/-
What the value of a cell depends on.

A cell reads the cells that its body looks up, and a sum looks up only the
stored cells of its rectangle. So to read is no stable notion: writing into an
empty cell of the rectangle adds a read. A body *mentions* more, namely every
address of its rectangle, and then nothing that happens elsewhere adds to it.

A set of addresses that holds with each cell all that the cell mentions is shut
off from the rest of the sheet. Two stores that agree on such a set have the
same formulas, reads and circles there, and so the same values
(`evaluate_eq_of_agree`), whatever they hold outside, and however many cells.
-/
import FormulaSheet.Proofs.Evaluation.Solution

set_option autoImplicit false

namespace FormulaSheet

open Relation (ReflTransGen TransGen)

/-! ## Mentions -/

/-- The addresses that a body mentions, stored or not: those of the rectangle of a sum, or those
that the references of any other body denote. -/
def Formula.mentioned (body : List Char) : List Address :=
  match sumCorners? body with
  | some (first, last) =>
    match Address.ofChars? first, Address.ofChars? last with
    | some a, some b => a.rectangle b
    | _, _ => []
  | none => (lexemes body).filterMap Lexeme.target?

/-- A formula uses the store only to find the cells that it reads. -/
theorem Formula.value_congr_store {s t : Store} {f : Formula} {values : Address → Value}
    (h : f.reads s = f.reads t) : f.value s values = f.value t values := by
  simp only [value, h]

namespace Store

variable {s t : Store} {a b : Address} {shut : Address → Prop}

/-- A cell mentions what its body mentions. -/
def Mentions (s : Store) (a b : Address) : Prop :=
  ∃ body, s.body? a = some body ∧ b ∈ Formula.mentioned body

/-- What a body mentions it looks up, of a sum only what is stored. -/
theorem lookups_eq_or (body : List Char) :
    (∀ s : Store, s.lookups body = Formula.mentioned body) ∨
      ∀ s : Store, s.lookups body = (Formula.mentioned body).filter s.contains := by
  cases hsum : Formula.sumCorners? body with
  | none => exact .inl fun s => by simp only [lookups, Formula.mentioned, hsum]
  | some corners =>
    obtain ⟨first, last⟩ := corners
    refine .inr fun s => ?_
    simp only [lookups, Formula.mentioned, hsum]
    cases Address.ofChars? first with
    | none => rfl
    | some a => cases Address.ofChars? last <;> rfl

/-- What a body looks up depends on the store only in what the body mentions. -/
theorem lookups_congr {body : List Char}
    (h : ∀ b ∈ Formula.mentioned body, s.contains b = t.contains b) :
    s.lookups body = t.lookups body := by
  rcases lookups_eq_or body with hall | hstored
  · rw [hall, hall]
  · rw [hstored, hstored, List.filter_congr h]

/-- What a body looks up it mentions. -/
theorem mem_mentioned_of_mem_lookups {body : List Char} (h : b ∈ s.lookups body) :
    b ∈ Formula.mentioned body := by
  rcases lookups_eq_or body with hall | hstored
  · rwa [hall] at h
  · rw [hstored] at h
    exact List.mem_of_mem_filter h

/-! ## Stores that agree on a shut set -/

/-- Two stores agree on a set of addresses that holds whatever its cells mention. -/
structure Agree (s t : Store) (shut : Address → Prop) : Prop where
  get? : ∀ a, shut a → s.get? a = t.get? a
  mentions : ∀ a b, shut a → s.Mentions a b → shut b

namespace Agree

theorem body?_eq (h : Agree s t shut) (ha : shut a) : s.body? a = t.body? a := by
  rw [body?, body?, h.get? a ha]

/-- The bodies in the set look up the same cells in both stores. -/
theorem lookups_eq (h : Agree s t shut) (ha : shut a) {body : List Char}
    (hbody : s.body? a = some body) : s.lookups body = t.lookups body := by
  apply lookups_congr
  intro b hb
  rw [contains_eq_isSome, contains_eq_isSome, h.get? b (h.mentions a b ha ⟨body, hbody, hb⟩)]

theorem reads (h : Agree s t shut) (ha : shut a) (hab : s.Reads a b) : t.Reads a b ∧ shut b := by
  obtain ⟨body, hbody, hb⟩ := hab
  refine ⟨⟨body, h.body?_eq ha ▸ hbody, h.lookups_eq ha hbody ▸ hb⟩, ?_⟩
  exact h.mentions a b ha ⟨body, hbody, mem_mentioned_of_mem_lookups hb⟩

/-- No way leads out of the set, and each is there in both stores. -/
theorem reflTransGen (h : Agree s t shut) (ha : shut a) (hab : ReflTransGen s.Reads a b) :
    ReflTransGen t.Reads a b ∧ shut b := by
  induction hab with
  | refl => exact ⟨.refl, ha⟩
  | tail _ hbc ih =>
    obtain ⟨hread, hshut⟩ := h.reads ih.2 hbc
    exact ⟨ih.1.tail hread, hshut⟩

theorem transGen (h : Agree s t shut) (ha : shut a) (hab : TransGen s.Reads a b) :
    TransGen t.Reads a b := by
  obtain ⟨c, hac, hcb⟩ := TransGen.tail'_iff.mp hab
  obtain ⟨hway, hshut⟩ := h.reflTransGen ha hac
  exact TransGen.tail' hway (h.reads hshut hcb).1

theorem circular (h : Agree s t shut) (ha : shut a) (hcircular : Pass.initial.Circular s a) :
    Pass.initial.Circular t a := by
  rw [Pass.circular_initial_iff] at hcircular ⊢
  obtain ⟨b, hab, hcycle⟩ := hcircular
  obtain ⟨hway, hshut⟩ := h.reflTransGen ha hab
  exact ⟨b, hway, h.transGen hshut hcycle⟩

/-- What a cell of the set means in the one store it means in the other. -/
theorem means (h : Agree s t shut) {v : Value} (hv : Pass.initial.Means s a v) :
    shut a → Pass.initial.Means t a v := by
  induction hv with
  | @settled a hsettled =>
    intro ha
    have hsettled' : Pass.initial.pending? t a = none := by
      rw [Pass.pending?_initial] at hsettled ⊢
      rw [← h.body?_eq ha, hsettled]
    have hlook : Pass.initial.look s a = Pass.initial.look t a := by
      rw [Pass.look_initial, Pass.look_initial, h.get? a ha]
    exact hlook ▸ .settled hsettled'
  | @circular a f hf hcircular =>
    intro ha
    rw [Pass.pending?_initial, h.body?_eq ha, ← Pass.pending?_initial] at hf
    -- the circle and the way to it lie in the set, so the other store has them too
    exact .circular hf (h.circular ha hcircular)
  | @formula a f values hf _ _ ih =>
    intro ha
    have hf' := hf
    rw [Pass.pending?_initial, h.body?_eq ha, ← Pass.pending?_initial] at hf'
    -- the formula reads the same cells in both stores, and all of them are in the set
    rw [Pass.pending?_initial, Option.map_eq_some_iff] at hf
    obtain ⟨body, hbody, rfl⟩ := hf
    have hreads : (Formula.ofChars body).reads s = (Formula.ofChars body).reads t := by
      rw [Formula.reads_ofChars, Formula.reads_ofChars, h.lookups_eq ha hbody]
    rw [Formula.value_congr_store hreads]
    refine .of_reads hf' fun b hb => ?_
    rw [← hreads] at hb
    refine ih b hb (h.reads ha ⟨body, hbody, ?_⟩).2
    rwa [← Formula.reads_ofChars]

end Agree

/-- **Only what is mentioned counts.** Stores that agree on a set of addresses that holds whatever
its cells mention give the cells of the set the same values. -/
theorem evaluate_eq_of_agree (h : Agree s t shut) (ha : shut a) : s.evaluate a = t.evaluate a :=
  Pass.means_iff.mp (h.means (Pass.means_iff.mpr rfl) ha)

/-- A body that mentions only addresses of the set is worth the same in both stores. -/
theorem applied_eq_of_agree (h : Agree s t shut) {body : List Char}
    (hbody : ∀ b ∈ Formula.mentioned body, shut b) :
    s.applied s.evaluate body = t.applied t.evaluate body := by
  have hlookups : s.lookups body = t.lookups body := by
    apply lookups_congr
    intro b hb
    rw [contains_eq_isSome, contains_eq_isSome, h.get? b (hbody b hb)]
  have hreads : (Formula.ofChars body).reads s = (Formula.ofChars body).reads t := by
    rw [Formula.reads_ofChars, Formula.reads_ofChars, hlookups]
  rw [← Formula.value_ofChars, ← Formula.value_ofChars, ← Formula.value_congr_store hreads]
  apply Formula.value_congr
  intro b hb
  rw [Formula.reads_ofChars] at hb
  exact evaluate_eq_of_agree h (hbody b (mem_mentioned_of_mem_lookups hb))

end Store

end FormulaSheet
