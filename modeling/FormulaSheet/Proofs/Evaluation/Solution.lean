/-
The sheet as a system of equations.

In a pass of its own a cell is evaluated with nothing known and nothing on the
path, so every formula is pending, and what a cell means can be said by the
store alone. Two things follow, for all stores and whatever circles they hold.

A cell is circular exactly when its formula leads to a circle of formulas, in
one read or in many. Nothing else in a body has a say in that: no unknown
character, no broken expression and no sum hides a circle, and none feigns one.

And the values solve the sheet. Apply each body once to the values of all cells,
and each cell gets the value it has. It is not plain from the walk that it should
be so, since the walk applies a body while some of the cells it reads are still
on the path, and of these it says that they are circular before it has worked
them out.
-/
import FormulaSheet.Proofs.Evaluation.Value
import FormulaSheet.Proofs.Formula.Body

set_option autoImplicit false

namespace FormulaSheet

open Relation (ReflTransGen TransGen)

namespace Store

variable {s : Store} {a b : Address}

/-- The body of the formula that a cell holds, if it holds one. -/
def body? (s : Store) (a : Address) : Option (List Char) :=
  match (s.get? a).map String.toList with
  | some ('=' :: body) => some body
  | _ => none

/-- The cells that hold a formula, row by row. -/
def formulas (s : Store) : List Address :=
  s.addresses.filter fun a => (s.body? a).isSome

/-- A cell reads the cells that its body looks up. -/
def Reads (s : Store) (a b : Address) : Prop :=
  ∃ body, s.body? a = some body ∧ b ∈ s.lookups body

/-- One round over the sheet: the value each cell has when the cells that it reads have the given
values. -/
def round (s : Store) (values : Address → Value) (a : Address) : Value :=
  match s.body? a with
  | some body => s.applied values body
  | none => match s.get? a with
    | some raw => .text raw
    | none => .empty

end Store

namespace Pass

variable {s : Store} {a b : Address}

/-! ## The pass in which nothing is known -/

/-- At the beginning exactly the formulas are pending. -/
theorem pending?_initial (s : Store) (a : Address) :
    initial.pending? s a = (s.body? a).map Formula.ofChars := by
  have hknown : ¬ (initial.memo.contains a || initial.path.contains a) = true := by
    simp [initial]
  rw [pending?, if_neg hknown, Store.body?]
  cases s.get? a with
  | none => rfl
  | some raw =>
    simp only [Option.bind_some, Option.map_some, Formula.ofRaw?]
    split
    · next body hraw => rw [hraw]; rfl
    · next hraw =>
      split
      · next body hbody =>
        rw [Option.some.injEq] at hbody
        exact absurd hbody (hraw body)
      · rfl

theorem look_initial (s : Store) (a : Address) :
    initial.look s a = match s.get? a with
      | some raw => .text raw
      | none => .empty := by
  cases h : s.get? a <;> simp [look, initial, h]

theorem look_initial_ne_circular (s : Store) (a : Address) :
    initial.look s a ≠ .error .circular := by
  rw [look_initial]
  cases s.get? a with
  | some raw => nofun
  | none => nofun

/-- At the beginning a cell reads what its body looks up. -/
theorem reads_initial (s : Store) : initial.Reads s = s.Reads := by
  funext a b
  rw [eq_iff_iff, Reads, Store.Reads]
  simp only [pending?_initial, Option.map_eq_some_iff]
  constructor
  · rintro ⟨f, ⟨body, hbody, rfl⟩, hb⟩
    exact ⟨body, hbody, by rwa [← Formula.reads_ofChars]⟩
  · rintro ⟨body, hbody, hb⟩
    exact ⟨_, ⟨body, hbody, rfl⟩, by rwa [Formula.reads_ofChars]⟩

/-- At the beginning a circular cell is one that leads to a circle. -/
theorem circular_initial_iff :
    initial.Circular s a ↔ ∃ b, ReflTransGen s.Reads a b ∧ TransGen s.Reads b b := by
  rw [Circular, reads_initial]
  constructor
  · -- no cell is circular at a leaf, so a circle is all that there can be
    rintro ⟨b, hab, hcycle | ⟨-, hlook⟩⟩
    · exact ⟨b, hab, hcycle⟩
    · exact absurd hlook (look_initial_ne_circular s b)
  · rintro ⟨b, hab, hcycle⟩
    exact ⟨b, hab, .inl hcycle⟩

theorem circular_initial_iff_exists_reads :
    initial.Circular s a ↔ ∃ b, s.Reads a b ∧ initial.Circular s b := by
  rw [← reads_initial]
  constructor
  · intro h
    cases hf : initial.pending? s a with
    | none =>
      rw [circular_iff_of_settled hf] at h
      exact absurd h (look_initial_ne_circular s a)
    | some f =>
      obtain ⟨b, hb, hcircular⟩ := h.exists_mem_reads hf
      exact ⟨b, ⟨f, hf, hb⟩, hcircular⟩
  · rintro ⟨b, hab, hb⟩
    exact hb.of_reads hab

/-- A pending cell holds the body of its formula. -/
theorem exists_body_of_pending {p : Pass} {f : Formula} (h : p.pending? s a = some f) :
    ∃ body, s.body? a = some body ∧ Formula.ofChars body = f := by
  have hformula : (s.get? a).bind Formula.ofRaw? = some f := by
    unfold pending? at h
    split at h
    · cases h
    · exact h
  have hinitial : initial.pending? s a = (s.get? a).bind Formula.ofRaw? := by
    simp [pending?, initial]
  rw [← hinitial, pending?_initial, Option.map_eq_some_iff] at hformula
  exact hformula

/-- Whatever is pending holds a formula. -/
theorem pendingCount_le (s : Store) (p : Pass) : p.pendingCount s ≤ s.formulas.length := by
  rw [Store.formulas, ← List.countP_eq_length_filter]
  refine List.countP_mono_left fun a _ ha => ?_
  obtain ⟨f, hf⟩ := Option.isSome_iff_exists.mp ha
  obtain ⟨body, hbody, -⟩ := exists_body_of_pending hf
  rw [hbody]
  rfl

end Pass

namespace Store

/-! ## Circles -/

/-- **The circular mark is exact.** A cell is circular exactly when a circle of reads can be reached
from it; and that is so exactly when it reads a circular cell, wherever that stands in its body and
whatever else the body holds. -/
theorem evaluate_circular_exact (s : Store) (a : Address) :
    (s.evaluate a = .error .circular ↔
      ∃ b, ReflTransGen s.Reads a b ∧ TransGen s.Reads b b) ∧
    (s.evaluate a = .error .circular ↔
      ∃ b, s.Reads a b ∧ s.evaluate b = .error .circular) := by
  have hcircular : ∀ c, s.evaluate c = .error .circular ↔ Pass.initial.Circular s c :=
    fun c => Pass.evaluate_eq_circular_iff
  simp only [hcircular]
  exact ⟨Pass.circular_initial_iff, Pass.circular_initial_iff_exists_reads⟩

/-! ## The values solve the sheet -/

/-- **The values are a fixed point.** One round over the sheet, begun with the values of all cells,
gives every cell the value it has. -/
theorem round_evaluate (s : Store) : s.round s.evaluate = s.evaluate := by
  funext a
  have hpending := Pass.pending?_initial s a
  unfold round
  cases hbody : s.body? a with
  | some body =>
    rw [hbody] at hpending
    have hvalue : s.evaluate a = (Formula.ofChars body).value s s.evaluate :=
      Pass.evaluate_of_pending hpending
    rw [hvalue, Formula.value_ofChars]
  | none =>
    rw [hbody] at hpending
    have hvalue : s.evaluate a = Pass.initial.look s a := Pass.evaluate_of_settled hpending
    rw [hvalue, Pass.look_initial]

/-! ## One body at a time -/

variable {s : Store} {a : Address}

/-- A cell that holds a formula has its body. -/
theorem body?_of_get? {raw : String} {body : List Char} (h : s.get? a = some raw)
    (hraw : raw.toList = '=' :: body) : s.body? a = some body := by
  simp only [body?, h, Option.map_some, hraw]

/-- Only a stored cell has a body. -/
theorem mem_addresses_of_body? {body : List Char} (h : s.body? a = some body) :
    a ∈ s.addresses := by
  rw [mem_addresses]
  cases hget : s.get? a with
  | some raw => rfl
  | none =>
    rw [body?, hget] at h
    cases h

/-- The formulas of a store are its cells with a body. -/
theorem mem_formulas {body : List Char} (h : s.body? a = some body) : a ∈ s.formulas :=
  List.mem_filter.mpr ⟨mem_addresses_of_body? h, Option.isSome_of_eq_some h⟩

/-- A cell with a formula is worth what its body is worth when all cells have the values they
have. -/
theorem evaluate_of_body? {body : List Char} (h : s.body? a = some body) :
    s.evaluate a = s.applied s.evaluate body := by
  have hpending := Pass.pending?_initial s a
  rw [h] at hpending
  have hvalue : s.evaluate a = (Formula.ofChars body).value s s.evaluate :=
    Pass.evaluate_of_pending hpending
  rw [hvalue, Formula.value_ofChars]

/-- A formula that stands in no cell is worth the same. -/
theorem evaluateRaw_of_body {raw : String} {body : List Char} (h : raw.toList = '=' :: body) :
    s.evaluateRaw raw = s.applied s.evaluate body := by
  have hvalue := ((Pass.Underway.refl s .initial).evaluateFormula (Formula.ofChars body)).1
  have hformula : Formula.ofRaw? raw = some (Formula.ofChars body) := by
    simp only [Formula.ofRaw?, h]
  rw [evaluateRaw, Pass.evaluateRaw, hformula, ← Formula.value_ofChars]
  exact hvalue

/-- A formula with this body yields a value, in a cell or in none. -/
def Yields (s : Store) (body : List Char) (v : Value) : Prop :=
  (∃ a, s.body? a = some body ∧ s.evaluate a = v) ∨
    ∃ raw : String, raw.toList = '=' :: body ∧ s.evaluateRaw raw = v

theorem Yields.eq_applied {body : List Char} {v : Value} (h : s.Yields body v) :
    v = s.applied s.evaluate body := by
  obtain ⟨a, hbody, rfl⟩ | ⟨raw, hraw, rfl⟩ := h
  · exact evaluate_of_body? hbody
  · exact evaluateRaw_of_body hraw

/-- A text that begins with the sign of equality is the formula that its body is. -/
theorem exists_body_of_ofRaw? {raw : String} {f : Formula} (h : Formula.ofRaw? raw = some f) :
    ∃ body, raw.toList = '=' :: body := by
  unfold Formula.ofRaw? at h
  split at h
  · next body hraw => exact ⟨body, hraw⟩
  · cases h

/-- A literal is worth itself in a cell. -/
theorem evaluate_of_literal {raw : String} (h : s.get? a = some raw)
    (hliteral : Formula.ofRaw? raw = none) : s.evaluate a = .text raw := by
  have hsettled : Pass.initial.pending? s a = none := by
    rw [Pass.pending?_eq_none_iff, h]
    exact .inr (.inr hliteral)
  have hlook : s.evaluate a = Pass.initial.look s a := Pass.evaluate_of_settled hsettled
  rw [hlook, Pass.look_initial, h]

/-- A literal is worth itself where it stands in no cell. -/
theorem evaluateRaw_of_literal (s : Store) {raw : String} (h : Formula.ofRaw? raw = none) :
    s.evaluateRaw raw = .text raw := by
  rw [evaluateRaw, Pass.evaluateRaw, h]

/-- A cell that holds nothing has the empty text for its value. -/
theorem evaluate_of_get?_eq_none (h : s.get? a = none) : s.evaluate a = .empty := by
  have hsettled : Pass.initial.pending? s a = none := by
    rw [Pass.pending?_initial, body?, h]
    rfl
  have hlook : s.evaluate a = Pass.initial.look s a := Pass.evaluate_of_settled hsettled
  rw [hlook, Pass.look_initial, h]

end Store

end FormulaSheet
