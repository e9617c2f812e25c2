/-
A sheet whose references are spelt in other ways.

Two stores with the same literals, whose other cells hold formulas that are read as
the same, cannot be told apart by an evaluation: they have the same formulas pending,
these read the same cells, and so the circles are the same and the values as well
(`SameReading.evaluate_eq`). A body that is respelt is read as the same formula, so a
cell may be overwritten by its formula in another spelling, and no cell changes its
value, the overwritten one included.
-/
import FormulaSheet.Proofs.Evaluation.Edit
import FormulaSheet.Proofs.Formula.Respelling

set_option autoImplicit false

namespace FormulaSheet.Store

open Formula (Respelt OtherSpelling)

/-- Two stores hold the same literals, and formulas that are read as the same. -/
structure SameReading (s t : Store) : Prop where
  pending? : ∀ a, Pass.initial.pending? s a = Pass.initial.pending? t a
  literal : ∀ a, Pass.initial.pending? s a = none → s.get? a = t.get? a

variable {s t : Store} {a b c : Address} {f : Formula}

/-- A cell with a formula holds something. -/
theorem contains_of_pending (h : Pass.initial.pending? s a = some f) : s.contains a = true := by
  obtain ⟨body, hbody, -⟩ := Pass.exists_body_of_pending h
  rw [contains_eq_isSome]
  exact mem_addresses.mp (mem_addresses_of_body? hbody)

namespace SameReading

theorem symm (h : SameReading s t) : SameReading t s where
  pending? a := (h.pending? a).symm
  literal a ha := (h.literal a ((h.pending? a).trans ha)).symm

/-- The same cells hold something. -/
theorem contains (h : SameReading s t) (a : Address) : s.contains a = t.contains a := by
  cases hpending : Pass.initial.pending? s a with
  | none => rw [contains_eq_isSome, contains_eq_isSome, h.literal a hpending]
  | some f =>
    rw [contains_of_pending hpending, contains_of_pending ((h.pending? a).symm.trans hpending)]

/-- A formula reads the same cells. -/
theorem reads_eq (h : SameReading s t) (f : Formula) : f.reads s = f.reads t := by
  have hcontains : s.contains = t.contains := funext h.contains
  cases f with
  | sum range =>
    cases range with
    | none => rfl
    | some r =>
      have hmembers : s.members r = t.members r := by
        rw [members_eq_filter, members_eq_filter, hcontains]
      exact hmembers
  | arithmetic pieces => rfl

theorem circular (h : SameReading s t) (ha : Pass.initial.Circular s a) :
    Pass.initial.Circular t a := by
  have hreads : Pass.initial.Reads s = Pass.initial.Reads t := by
    funext a b
    simp only [Pass.Reads, h.pending?, h.reads_eq]
  rw [Pass.circular_initial_iff, ← Pass.reads_initial] at ha ⊢
  rwa [← hreads]

/-- What a cell means in the one store it means in the other. -/
theorem means (h : SameReading s t) {v : Value} (hv : Pass.initial.Means s a v) :
    Pass.initial.Means t a v := by
  induction hv with
  | @settled a hsettled =>
    have hlook : Pass.initial.look s a = Pass.initial.look t a := by
      rw [Pass.look_initial, Pass.look_initial, h.literal a hsettled]
    exact hlook ▸ .settled ((h.pending? a).symm.trans hsettled)
  | @circular a f hf hcircular =>
    exact .circular ((h.pending? a).symm.trans hf) (h.circular hcircular)
  | @formula a f values hf _ _ ih =>
    rw [Formula.value_congr_store (h.reads_eq f)]
    refine .of_reads ((h.pending? a).symm.trans hf) fun b hb => ih b ?_
    rwa [h.reads_eq f]

/-- **The values are the same in every cell.** -/
theorem evaluate_eq (h : SameReading s t) (a : Address) : s.evaluate a = t.evaluate a :=
  Pass.means_iff.mp (h.means (Pass.means_iff.mpr rfl))

/-- And for texts that are read as the same formula. -/
theorem evaluateRaw_eq (h : SameReading s t) {raw raw' : String} {body body' : List Char}
    (hraw : raw.toList = '=' :: body) (hraw' : raw'.toList = '=' :: body')
    (hbodies : Formula.ofChars body = Formula.ofChars body') :
    s.evaluateRaw raw = t.evaluateRaw raw' := by
  rw [evaluateRaw_of_body hraw, evaluateRaw_of_body hraw', ← Formula.value_ofChars,
    ← Formula.value_ofChars, hbodies, Formula.value_congr_store (h.reads_eq _)]
  exact Formula.value_congr fun a _ => h.evaluate_eq a

/-- A text has the same value in both stores, be it a formula or a literal. -/
theorem evaluateRaw_eq_self (h : SameReading s t) (raw : String) :
    s.evaluateRaw raw = t.evaluateRaw raw := by
  cases hformula : Formula.ofRaw? raw with
  | none => rw [evaluateRaw_of_literal _ hformula, evaluateRaw_of_literal _ hformula]
  | some f =>
    obtain ⟨body, hbody⟩ := exists_body_of_ofRaw? hformula
    exact h.evaluateRaw_eq hbody hbody rfl

end SameReading

theorem sameReading_refl (s : Store) : SameReading s s where
  pending? _ := rfl
  literal _ _ := rfl

/-- A formula is no empty text. -/
theorem ne_empty_of_body {raw : String} {body : List Char} (h : raw.toList = '=' :: body) :
    raw ≠ "" := by
  rintro rfl
  cases h

/-- To overwrite a formula by one that is read as the same keeps the readings. -/
theorem sameReading_set {raw : String} {body body' : List Char} (hc : s.body? c = some body)
    (hraw : raw.toList = '=' :: body') (hbodies : Formula.ofChars body = Formula.ofChars body') :
    SameReading s (s.set c raw) := by
  have hc' : (s.set c raw).body? c = some body' :=
    body?_of_get? (s.get?_set_self c (ne_empty_of_body hraw)) hraw
  have hpending : ∀ a, Pass.initial.pending? s a = Pass.initial.pending? (s.set c raw) a := by
    intro a
    rw [Pass.pending?_initial, Pass.pending?_initial]
    by_cases ha : a = c
    · rw [ha, hc, hc', Option.map_some, Option.map_some, hbodies]
    · rw [body?, body?, s.get?_set_of_ne raw ha]
  refine ⟨hpending, fun a ha => ?_⟩
  rw [s.get?_set_of_ne raw]
  rintro rfl
  rw [Pass.pending?_initial, hc] at ha
  cases ha

/-- **The spelling of references does not matter.** Take a formula and the same one with any of its
references spelt in other ways. Written into a cell that holds the one, the other changes the value
of no cell, that one included, and of no text. And as a text it has the value of the first. -/
theorem respelling_keeps_values (s : Store) {body body' : List Char} {raw raw' : String}
    (h : Respelt body body') (hraw : raw.toList = '=' :: body)
    (hraw' : raw'.toList = '=' :: body') :
    (∀ c, s.get? c = some raw →
      (∀ a, (s.set c raw').evaluate a = s.evaluate a) ∧
      ∀ other, (s.set c raw').evaluateRaw other = s.evaluateRaw other) ∧
    s.evaluateRaw raw' = s.evaluateRaw raw := by
  refine ⟨fun c hc => ?_, ?_⟩
  · have hsame := (sameReading_set (body?_of_get? hc hraw) hraw' h.ofChars_eq).symm
    exact ⟨hsame.evaluate_eq, hsame.evaluateRaw_eq_self⟩
  · exact ((sameReading_refl s).evaluateRaw_eq hraw hraw' h.ofChars_eq).symm

/-- One corner of a sum with zeros before its row and in the other case. -/
theorem respelling_keeps_values_corner :
    let s : Store := ((empty.set ⟨0, 0⟩ "=SUM(B1:b2)").set ⟨0, 1⟩ "2").set ⟨1, 1⟩ "=b01*A0+3"
    Respelt "SUM(B1:b2)".toList "SUM(b001:b2)".toList ∧
      (s.set ⟨0, 0⟩ "=SUM(b001:b2)").evaluate ⟨0, 0⟩ = s.evaluate ⟨0, 0⟩ ∧
      s.evaluateRaw "=SUM(b001:b2)" = s.evaluateRaw "=SUM(B1:b2)" ∧
      s.evaluate ⟨0, 0⟩ = .number 5 := by
  intro s
  have hread : Address.ofChars? "B1".toList = some ⟨0, 1⟩ := by decide +kernel
  have hread' : Address.ofChars? "b001".toList = some ⟨0, 1⟩ := by decide +kernel
  have hspelling : OtherSpelling 'B' ['1'] 'b' ['0', '0', '1'] := .of_ofChars? hread hread'
  have hrespelt : Respelt "SUM(B1:b2)".toList "SUM(b001:b2)".toList :=
    .append_left "SUM(".toList
      (@Respelt.reference _ _ _ _ ":b2)".toList _ hspelling (by rintro c ⟨⟩; rfl) (.refl _))
  have hkeep := @respelling_keeps_values s _ _ "=SUM(B1:b2)" "=SUM(b001:b2)" hrespelt rfl rfl
  have hget : s.get? ⟨0, 0⟩ = some "=SUM(B1:b2)" := by decide +kernel
  exact ⟨hrespelt, (hkeep.1 _ hget).1 _, hkeep.2, by decide +kernel⟩

end FormulaSheet.Store
