/-
Numbers of JSON as numerals.

A number in JSON is written as a numeral is, only more strictly, and so is the
text that it leaves behind. So both are read by the one reader of numerals, to
their ends, and what that finds is the number that they denote
(`denoted?_of_scan?`, `scan?_floatText`). A text is a numeral to its end if it has
digits, then a point and digits or neither, and then an exponent or none
(`scan?_written`).
-/
import FormulaSheet.Json.Number
import FormulaSheet.Proofs.Number.Layout

set_option autoImplicit false

namespace FormulaSheet

namespace Numeral

variable {cs whole fraction tail : List Char} {negative : Bool} {power : Int}

/-! ## What a text denotes -/

/-- A quantity under a sign. -/
def signed (negative : Bool) (v : ℚ) : ℚ :=
  if negative then -v else v

/-- The number that a text denotes if it is a numeral to its end. -/
def denoted? (cs : List Char) : Option ℚ :=
  match scan? cs with
  | some ((negative, d), []) => some (signed negative d.quantity)
  | _ => none

theorem denoted?_eq {d : Decimal} (h : scan? cs = some ((negative, d), [])) :
    denoted? cs = some (signed negative d.quantity) := by
  unfold denoted?
  rw [h]

/-! ## Written numerals -/

/-- A fraction as it is written behind the digits before the point. -/
def pointed (fraction : List Char) : List Char :=
  if fraction.isEmpty then [] else '.' :: fraction

theorem magnitudeForm_pointed (hdigits : ∀ c ∈ whole ++ fraction, Char.isDigit c = true)
    (hne : whole ≠ []) :
    MagnitudeForm (whole ++ pointed fraction) ⟨natural (whole ++ fraction), -fraction.length⟩ := by
  cases fraction with
  | nil =>
    rw [List.append_nil] at hdigits
    simpa [pointed] using MagnitudeForm.whole hne hdigits
  | cons f fraction => exact .pointed (by simp) hdigits

/-- **A written numeral is read.** A minus or none, digits, a point and digits or neither, and an
exponent or none are a numeral to its end. -/
theorem scan?_written (hdigits : ∀ c ∈ whole ++ fraction, Char.isDigit c = true)
    (hne : whole ≠ []) (htail : ExponentForm tail power) :
    scan? ((if negative then ['-'] else []) ++ (whole ++ (pointed fraction ++ tail)))
      = some ((negative, ⟨natural (whole ++ fraction), -fraction.length + power⟩), []) := by
  obtain ⟨s, hsign, hminus⟩ := signForm_minus negative
  have hread := scan?_form (.mk hsign (magnitudeForm_pointed hdigits hne) htail)
  rwa [hminus, List.append_assoc whole] at hread

end Numeral

namespace Json.Literal

open Numeral (natural scan? signed denoted? pointed)

variable {cs text digits rest whole fraction : List Char} {l : Literal}

/-! ## Numbers of JSON -/

/-- The number that is written. -/
def quantity (l : Literal) : ℚ :=
  signed l.negative (natural (l.whole ++ l.fraction) * 10 ^ (l.power - l.fraction.length))

theorem split_of_digits? (h : digits? cs = some (digits, rest)) :
    cs = digits ++ rest ∧ digits ≠ [] ∧ ∀ c ∈ digits, c.isDigit = true := by
  simp only [digits?] at h
  split at h
  · cases h
  · next hne =>
    obtain ⟨rfl, rfl⟩ := Prod.mk.inj (Option.some.inj h)
    refine ⟨List.takeWhile_append_dropWhile.symm, ?_, fun c hc => List.mem_takeWhile_imp hc⟩
    exact fun hnil => hne (by rw [hnil]; rfl)

theorem split_of_whole? (h : whole? cs = some (whole, rest)) :
    cs = whole ++ rest ∧ whole ≠ [] ∧ ∀ c ∈ whole, c.isDigit = true := by
  unfold whole? at h
  split at h
  · obtain ⟨rfl, rfl⟩ := Prod.mk.inj (Option.some.inj h)
    exact ⟨rfl, by simp, by simp⟩
  · exact split_of_digits? h

theorem split_of_fraction? (h : fraction? cs = some (fraction, rest)) :
    cs = pointed fraction ++ rest ∧ ∀ c ∈ fraction, c.isDigit = true := by
  unfold fraction? at h
  split at h
  · obtain ⟨rfl, hne, hdigits⟩ := split_of_digits? h
    refine ⟨?_, hdigits⟩
    rw [pointed, if_neg (by simpa using hne)]
    rfl
  · obtain ⟨rfl, rfl⟩ := Prod.mk.inj (Option.some.inj h)
    exact ⟨rfl, by simp⟩

theorem split_of_power? {power : Bool × List Char} {letter : Char}
    (hletter : letter = 'e' ∨ letter = 'E') (h : power? cs = some (power, rest)) :
    ∃ tail, letter :: cs = tail ++ rest ∧ Numeral.ExponentForm tail
      (if power.1 then -(natural power.2 : Int) else natural power.2) := by
  obtain ⟨x, s, hsplit, hsign, hminus⟩ := Numeral.exists_form_of_sign cs
  simp only [power?] at h
  split at h
  · cases h
  · next digits rest' hdigits =>
    obtain ⟨rfl, rfl⟩ := Prod.mk.inj (Option.some.inj h)
    obtain ⟨hrest, hne, hall⟩ := split_of_digits? hdigits
    have hform := Numeral.ExponentForm.written hletter hsign hne hall
    rw [hminus] at hform
    refine ⟨letter :: (x ++ digits), ?_, hform⟩
    rw [hrest] at hsplit
    rw [hsplit, List.cons_append, List.append_assoc]

theorem split_of_exponent? {exponent : Option (Bool × List Char)}
    (h : exponent? cs = some (exponent, rest)) : ∃ tail, cs = tail ++ rest ∧
      Numeral.ExponentForm tail (power ⟨false, [], [], exponent⟩) := by
  have hpower : ∀ (p : Bool × List Char), power ⟨false, [], [], some p⟩
      = if p.1 then -(natural p.2 : Int) else natural p.2 := by
    rintro ⟨negative, digits⟩
    cases negative <;> rfl
  unfold exponent? at h
  split at h
  · simp only [Option.map_eq_some_iff] at h
    obtain ⟨⟨p, rest'⟩, hp, heq⟩ := h
    obtain ⟨rfl, rfl⟩ := Prod.mk.inj heq
    rw [hpower]
    exact split_of_power? (.inl rfl) hp
  · simp only [Option.map_eq_some_iff] at h
    obtain ⟨⟨p, rest'⟩, hp, heq⟩ := h
    obtain ⟨rfl, rfl⟩ := Prod.mk.inj heq
    rw [hpower]
    exact split_of_power? (.inr rfl) hp
  · obtain ⟨rfl, rfl⟩ := Prod.mk.inj (Option.some.inj h)
    exact ⟨[], rfl, .none⟩

theorem split_of_minus (cs : List Char) :
    cs = (if (minus cs).1 then ['-'] else []) ++ (minus cs).2 := by
  unfold minus
  split
  · rfl
  · rfl

/-- **A number of JSON is a numeral**, and denotes what its parts say. -/
theorem denoted?_of_scan? (h : Literal.scan? (cs ++ rest) = some (l, rest)) :
    denoted? cs = some l.quantity := by
  have hsplit := split_of_minus (cs ++ rest)
  simp only [Literal.scan?] at h
  generalize minus (cs ++ rest) = found at h hsplit
  split at h
  · cases h
  next whole rest₁ hwhole =>
  split at h
  · cases h
  next fraction rest₂ hfraction =>
  split at h
  · cases h
  next exponent rest₃ hexponent =>
  obtain ⟨rfl, rfl⟩ := Prod.mk.inj (Option.some.inj h)
  obtain ⟨hsplit₁, hne, hall₁⟩ := split_of_whole? hwhole
  obtain ⟨hsplit₂, hall₂⟩ := split_of_fraction? hfraction
  obtain ⟨tail, hsplit₃, htail⟩ := split_of_exponent? hexponent
  have hall : ∀ c ∈ whole ++ fraction, c.isDigit = true := fun c hc =>
    (List.mem_append.mp hc).elim (hall₁ c) (hall₂ c)
  have hcs : cs = (if found.1 then ['-'] else []) ++ (whole ++ (pointed fraction ++ tail)) := by
    rw [← List.append_left_inj rest₃, hsplit, hsplit₁, hsplit₂, hsplit₃]
    simp only [List.append_assoc]
  rw [hcs, Numeral.denoted?_eq (Numeral.scan?_written hall hne htail), quantity, Decimal.quantity]
  congr 4
  exact neg_add_eq_sub _ _

end Json.Literal

/-! ## Texts that numbers leave behind -/

namespace Decimal

open Numeral (natural magnitude? scan? pointed)

variable {d : Decimal}

theorem isDigit_wholePart (d : Decimal) : ∀ c ∈ d.wholePart, c.isDigit = true := by
  rw [← List.all_eq_true, wholePart]
  split
  · rfl
  · rw [List.all_append, all_isDigit_zeros, Bool.and_true, List.all_eq_true]
    exact fun c hc => List.all_eq_true.mp (all_isDigit_significant d) c (List.mem_of_mem_take hc)

theorem isDigit_fractionPart (d : Decimal) : ∀ c ∈ d.fractionPart, c.isDigit = true := by
  rw [← List.all_eq_true, fractionPart]
  split
  · rw [List.all_append, all_isDigit_zeros, all_isDigit_significant]
    rfl
  · rw [List.all_eq_true]
    exact fun c hc => List.all_eq_true.mp (all_isDigit_significant d) c (List.mem_of_mem_drop hc)

theorem wholePart_ne_nil (hd : 0 < d.digits) : d.wholePart ≠ [] := by
  unfold wholePart
  split
  · exact List.cons_ne_nil _ _
  · have hne := significant_ne_nil hd
    simp only [ne_eq, List.append_eq_nil_iff, List.take_eq_nil_iff, not_and]
    rintro (h | h)
    · omega
    · exact absurd h hne

theorem isDigit_parts (d : Decimal) : ∀ c ∈ d.wholePart ++ d.fractionPart, c.isDigit = true :=
  fun c hc => (List.mem_append.mp hc).elim (isDigit_wholePart d c) (isDigit_fractionPart d c)

/-- The two parts of a layout make the quantity. -/
theorem quantity_eq_parts (hd : 0 < d.digits) : d.quantity
    = natural (d.wholePart ++ d.fractionPart) * 10 ^ (-(d.fractionPart.length : Int)) := by
  obtain ⟨r, hread, hquantity⟩ := exists_magnitude?_positional hd
  have hlayout : d.positional = d.wholePart ++ pointed d.fractionPart := by
    unfold positional pointed
    split
    · next heq => simp [heq]
    · next hne => simp [show d.fractionPart ≠ [] from hne]
  have hform := Numeral.magnitudeForm_pointed (isDigit_parts d) (wholePart_ne_nil hd)
  rw [hlayout, Numeral.magnitude?_form hform] at hread
  obtain ⟨rfl, -⟩ := Prod.mk.inj (Option.some.inj hread)
  exact hquantity.symm

end Decimal

namespace Numeral

variable {d : Decimal} {n : Nat} {negative : Bool}

/-- The digits of a whole number are a numeral to their end. -/
theorem scan?_toDigits : scan? ((if negative then ['-'] else []) ++ Nat.toDigits 10 n)
    = some ((negative, ⟨n, 0⟩), []) := by
  have hdigits : ∀ c ∈ Nat.toDigits 10 n ++ [], Char.isDigit c = true := fun c hc =>
    Nat.isDigit_of_mem_toDigits (by decide) (by decide) (List.append_nil _ ▸ hc)
  have hne : Nat.toDigits 10 n ≠ [] := List.length_pos_iff.mp Nat.length_toDigits_pos
  have hscan : scan? ((if negative then ['-'] else []) ++ (Nat.toDigits 10 n ++ (pointed [] ++ [])))
      = some ((negative, _), []) := scan?_written hdigits hne .none
  have hvalue : natural (Nat.toDigits 10 n) = n := Nat.ofDigitChars_ten_toDigits
  simpa only [pointed, List.isEmpty_nil, if_pos, List.append_nil, List.length_nil, Nat.cast_zero,
    neg_zero, add_zero, hvalue] using hscan

/-- In positional layout with at least one digit after the point. -/
theorem scan?_point (hd : 0 < d.digits) :
    ∃ r, scan? ((if negative then ['-'] else []) ++ (d.wholePart
        ++ '.' :: (if d.fractionPart.isEmpty then ['0'] else d.fractionPart)))
      = some ((negative, r), []) ∧ r.quantity = d.quantity := by
  have hne := Decimal.wholePart_ne_nil hd
  have hquantity := Decimal.quantity_eq_parts hd
  have hpointed : ∀ f : List Char, f ≠ [] → '.' :: f = pointed f ++ [] := fun f hf => by
    rw [pointed, if_neg (by simpa using hf), List.append_nil]
  by_cases hempty : d.fractionPart = []
  · have hdigits : ∀ c ∈ d.wholePart ++ ['0'], Char.isDigit c = true := by
      intro c hc
      rcases List.mem_append.mp hc with hc | hc
      · exact Decimal.isDigit_wholePart d c hc
      · rw [List.mem_singleton.mp hc]
        rfl
    -- the zero after the point is made up for by the place
    have hzero : natural (d.wholePart ++ ['0']) = natural d.wholePart * 10 :=
      natural_append_zeros d.wholePart 1
    rw [hempty, List.isEmpty_nil, if_pos rfl, hpointed _ (by simp)]
    refine ⟨_, scan?_written hdigits hne .none, ?_⟩
    rw [hquantity, hempty, Decimal.quantity, hzero, List.append_nil, List.length_singleton,
      List.length_nil]
    push_cast
    field_simp
  · have hfilled : ¬ d.fractionPart.isEmpty = true := by simpa using hempty
    rw [if_neg hfilled, hpointed _ hempty]
    refine ⟨_, scan?_written (Decimal.isDigit_parts d) hne .none, ?_⟩
    rw [hquantity, Decimal.quantity, add_zero]

/-- In layout with an exponent. -/
theorem scan?_power (hd : 0 < d.digits) :
    ∃ r, scan? ((if negative then ['-'] else []) ++ (d.significant.take 1
        ++ (pointed (d.significant.drop 1) ++ 'e' :: (if 0 ≤ d.point - 1 then '+' else '-')
          :: Nat.toDigits 10 (d.point - 1).natAbs)))
      = some ((negative, r), []) ∧ r.quantity = d.quantity := by
  obtain ⟨c, cs, hsignificant⟩ := List.exists_cons_of_ne_nil (Decimal.significant_ne_nil hd)
  have hdigits : ∀ c ∈ d.significant.take 1 ++ d.significant.drop 1, Char.isDigit c = true := by
    rw [List.take_append_drop]
    exact List.all_eq_true.mp (Decimal.all_isDigit_significant d)
  have hne : d.significant.take 1 ≠ [] := by
    rw [hsignificant]
    exact List.cons_ne_nil _ _
  have hpower : ExponentForm ('e' :: (if 0 ≤ d.point - 1 then '+' else '-')
      :: Nat.toDigits 10 (d.point - 1).natAbs) (d.point - 1) := by
    have hnumber : natural (Nat.toDigits 10 (d.point - 1).natAbs) = (d.point - 1).natAbs :=
      Nat.ofDigitChars_ten_toDigits
    have hall : ∀ c ∈ Nat.toDigits 10 (d.point - 1).natAbs, Char.isDigit c = true := fun c hc =>
      Nat.isDigit_of_mem_toDigits (by decide) (by decide) hc
    have hsome : Nat.toDigits 10 (d.point - 1).natAbs ≠ [] :=
      List.length_pos_iff.mp Nat.length_toDigits_pos
    split
    · next hnonneg =>
      have hwritten := ExponentForm.written (.inl (rfl : 'e' = 'e')) .plus hsome hall
      rw [hnumber, Number.isMinus, if_neg Bool.false_ne_true, Int.natAbs_of_nonneg hnonneg]
        at hwritten
      exact hwritten
    · next hneg =>
      have hwritten := ExponentForm.written (.inl (rfl : 'e' = 'e')) .minus hsome hall
      have habs : -((d.point - 1).natAbs : Int) = d.point - 1 := by omega
      rw [hnumber, Number.isMinus, if_pos rfl, habs] at hwritten
      exact hwritten
  refine ⟨_, scan?_written hdigits hne hpower, ?_⟩
  rw [Decimal.quantity_eq d, Decimal.quantity, List.take_append_drop]
  congr 2
  rw [hsignificant]
  simp only [List.drop_succ_cons, List.drop_zero, List.length_cons]
  push_cast
  ring

/-- **The text of a float denotes what was to be written**, whichever layout it has. -/
theorem scan?_floatText (hd : 0 < d.digits) :
    ∃ r, scan? ((if negative then ['-'] else []) ++ Json.Literal.floatText d)
      = some ((negative, r), []) ∧ r.quantity = d.quantity := by
  unfold Json.Literal.floatText
  dsimp only
  by_cases hpoint : -5 ≤ d.point - 1 ∧ d.point - 1 ≤ 15
  · rw [if_pos hpoint]
    exact scan?_point hd
  · rw [if_neg hpoint, List.append_assoc]
    exact scan?_power hd

end Numeral

end FormulaSheet
