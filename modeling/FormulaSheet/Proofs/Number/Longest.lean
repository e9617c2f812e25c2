/-
How a text is read as a number.

The longest numeral that a text begins with is one matter, and what becomes of it is
another. Which numeral is taken is said of the grammar (`longest_of_scan?`), and here
only the blanks before it are added. What it means is a decimal under a sign, which
is rounded once, to the nearest float under the sign (`toSigned_eq_toNearest`); that is
said of quantities, so it does not matter how the numeral is written.

A text with no numeral at its beginning is read if it names an infinity, and that is
the only way in which what is no numeral is a number.
-/
import FormulaSheet.Proofs.Number.Grammar
import FormulaSheet.Proofs.Number.Interval
import FormulaSheet.Proofs.Number.Shown

set_option autoImplicit false

namespace FormulaSheet

open Float.Model.UnpackedFloat (Sign)

/-! ## Rounding under a sign -/

namespace Number

variable {v : ℚ}

theorem toNearest_zero (s : Sign) : toNearest s 0 = .ofModel (.pack (.zero s)) := by
  have hunits : nearestWhole (0 / 2 ^ lastPlace 0) = 0 := by
    rw [zero_div]
    exact nearestWhole_natCast 0
  rw [toNearest, nearest]
  exact congrArg (fun u => Float.ofModel (.pack u)) (dif_pos hunits)

/-- A minus before the nearest float makes the nearest float under a minus. -/
theorem neg_toNearest (hv : 0 < v) : -toNearest .positive v = toNearest .negative v := by
  -- the quantity alone decides whether a zero, a float with parts or an infinity is nearest
  rcases unpack_toNearest_cases .positive hv with
    ⟨hzero, hpositive⟩ | ⟨m, q, hparts, hvalue, -⟩ | ⟨hlarge, hpositive⟩
  · rcases unpack_toNearest_cases .negative hv with
      ⟨-, hnegative⟩ | ⟨m, q, hparts, hvalue, -⟩ | ⟨hlarge, -⟩
    · rw [eq_of_unpack_zero hpositive, eq_of_unpack_zero hnegative]
      rfl
    · exact absurd (hvalue.symm.trans hzero) (dyadic_pos hparts.pos).ne'
    · rw [hzero] at hlarge
      exact absurd hlarge (two_zpow_pos _).not_ge
  · rw [toNearest_of_parts _ hv hparts hvalue, toNearest_of_parts _ hv hparts hvalue,
      neg_ofParts hparts]
    rfl
  · rcases unpack_toNearest_cases .negative hv with
      ⟨hzero, -⟩ | ⟨m, q, hparts, hvalue, -⟩ | ⟨-, hnegative⟩
    · rw [hzero] at hlarge
      exact absurd hlarge (two_zpow_pos _).not_ge
    · -- no float is as large as that
      have hle := hparts.dyadic_le
      have hroom : (2 : ℚ) ^ (q + 53) ≤ 2 ^ (1024 : Int) := by
        have := hparts.exponent_le
        exact two_zpow_le (by omega)
      have := two_zpow_pos q
      rw [hvalue] at hlarge
      linarith
    · rw [eq_of_unpack_infinity hpositive, eq_of_unpack_infinity hnegative]
      rfl

/-- **A decimal under a sign is read as the nearest float under the sign.** A zero keeps it. -/
theorem toSigned_eq_toNearest (s : Sign) (d : Decimal) :
    d.toSigned (isMinus s) = toNearest s d.quantity := by
  rcases Nat.eq_zero_or_pos d.digits with hzero | hpos
  · have hquantity : d.quantity = 0 := by
      rw [Decimal.quantity, hzero, Nat.cast_zero, zero_mul]
    rw [hquantity, toNearest_zero, Decimal.toSigned,
      eq_of_unpack_zero (toFloat_of_digits_eq_zero hzero)]
    cases s with
    | negative => rfl
    | positive => rfl
  · rw [Decimal.toSigned, toFloat_eq_toNearest hpos]
    cases s with
    | negative => exact neg_toNearest (quantity_pos hpos)
    | positive => rfl

end Number

namespace Number

/-! ## The longest numeral -/

open Numeral (Form SignForm Begins Longest)
open Text (dropBlanks)

variable {cs p q : List Char} {s : Sign} {d : Decimal} {y : Float}

/-- A text is read by the longest numeral that it begins with. -/
theorem leading?_of_longest (h : Longest (dropBlanks cs) p) (hform : Form p s d) :
    leading? cs = some (toNearest s d.quantity) := by
  obtain ⟨⟨⟨negative, d'⟩, rest⟩, hread⟩ := Numeral.exists_scan?_of_begins h.1
  obtain ⟨q, s', -, hlongest, hform', hminus⟩ := Numeral.longest_of_scan? hread
  obtain rfl := h.unique hlongest
  obtain ⟨rfl, rfl⟩ := hform.unique hform'
  unfold leading?
  simp only [hread]
  rw [← hminus, toSigned_eq_toNearest]

/-- A text that begins with no numeral is read if it names an infinity. -/
theorem leading?_eq_some_iff_of_not_begins (hnone : ∀ p, ¬ Begins (dropBlanks cs) p) :
    leading? cs = some y ↔ ∃ x s rest, SignForm x s ∧
      dropBlanks cs = x ++ (infinityWord ++ rest) ∧ y = infinite (isMinus s) := by
  have hscan : Numeral.scan? (dropBlanks cs) = none := by
    cases hread : Numeral.scan? (dropBlanks cs) with
    | none => rfl
    | some found =>
      obtain ⟨p, s, -, hlongest, -⟩ := Numeral.longest_of_scan? hread
      exact absurd hlongest.1 (hnone p)
  have hword : leading? cs = if infinityWord.isPrefixOf (Numeral.sign (dropBlanks cs)).2 then
      some (infinite (Numeral.sign (dropBlanks cs)).1) else none := by
    unfold leading?
    simp only [hscan]
  rw [hword, Option.ite_none_right_eq_some]
  constructor
  · rintro ⟨hfound, hy⟩
    obtain ⟨x, s, hsplit, hsign, hminus⟩ := Numeral.exists_form_of_sign (dropBlanks cs)
    obtain ⟨rest, hrest⟩ := List.isPrefixOf_iff_prefix.mp hfound
    refine ⟨x, s, rest, hsign, ?_, ?_⟩
    · rw [hrest]
      exact hsplit
    · rw [hminus]
      exact (Option.some.inj hy).symm
  · rintro ⟨x, s, rest, hsign, hsplit, rfl⟩
    have hcut : Numeral.sign (dropBlanks cs) = (isMinus s, infinityWord ++ rest) := by
      rw [hsplit]
      exact Numeral.sign_form_append hsign (by decide) _
    rw [hcut]
    exact ⟨List.isPrefixOf_iff_prefix.mpr (List.prefix_append _ _), rfl⟩

theorem dropBlanks_append_of_begins (h : Begins (dropBlanks cs) p) (more : List Char) :
    dropBlanks (cs ++ more) = dropBlanks cs ++ more := by
  have hne : (dropBlanks cs).isEmpty = false := by
    cases hcs : dropBlanks cs with
    | nil =>
      rw [hcs] at h
      obtain ⟨found, hfound⟩ := Numeral.exists_scan?_of_begins h
      cases hfound
    | cons => rfl
  rw [dropBlanks, List.dropWhile_append, ← dropBlanks, hne, if_neg Bool.false_ne_true]

/-- What is appended is no part of the longest numeral unless it makes that longer. -/
theorem eq_of_longest_append {more : List Char} (h : Longest (dropBlanks cs) p)
    (h' : Longest (dropBlanks (cs ++ more)) q) (hle : q.length ≤ p.length) : q = p := by
  rw [dropBlanks_append_of_begins h.1] at h'
  have hbegins : Begins (dropBlanks cs ++ more) p :=
    ⟨h.1.1.trans (List.prefix_append _ _), h.1.2⟩
  exact h'.unique ⟨hbegins, fun other hother => (h'.2 other hother).trans hle⟩

/-- **The longest numeral is read.** Blanks before it aside, a text that begins with a numeral is
read as the float that is nearest to what its longest one means, infinite where that is too large;
and where a text begins with a numeral there is a longest one. A text that begins with no numeral is
read as an infinity if the word for it stands there, behind a sign or none, and else not at all. So
what is appended to a text that begins with a numeral changes nothing unless it makes the longest
one longer. -/
theorem longest_numeral_is_read (cs : List Char) :
    (∀ p s d, Longest (dropBlanks cs) p → Form p s d →
      leading? cs = some (toNearest s d.quantity)) ∧
    (∀ p, Begins (dropBlanks cs) p → ∃ q, Longest (dropBlanks cs) q) ∧
    ((∀ p, ¬ Begins (dropBlanks cs) p) → ∀ y, leading? cs = some y ↔
      ∃ x s rest, SignForm x s ∧ dropBlanks cs = x ++ ("Infinity".toList ++ rest) ∧
        y = infinite (isMinus s)) ∧
    ∀ p q more, Longest (dropBlanks cs) p → Longest (dropBlanks (cs ++ more)) q →
      q.length ≤ p.length → leading? (cs ++ more) = leading? cs := by
  refine ⟨fun p s d => leading?_of_longest, fun p hbegins => ?_,
    fun hnone y => leading?_eq_some_iff_of_not_begins hnone, fun p q more h h' hle => ?_⟩
  · obtain ⟨⟨⟨negative, d⟩, rest⟩, hread⟩ := Numeral.exists_scan?_of_begins hbegins
    obtain ⟨q, s, -, hlongest, -⟩ := Numeral.longest_of_scan? hread
    exact ⟨q, hlongest⟩
  · obtain rfl := eq_of_longest_append h h' hle
    obtain ⟨s, d, hform⟩ := h.1.2
    rw [leading?_of_longest h hform, leading?_of_longest h' hform]

/-- A fraction with an exponent and the beginnings of another one, which is no part of it whatever
is appended. -/
theorem longest_numeral_is_read_half_written :
    leading? " -12.5e3e+".toList = some (toNearest .negative 12500) ∧
      leading? (" -12.5e3e+".toList ++ "1".toList) = leading? " -12.5e3e+".toList ∧
      leading? "+Infinityx".toList = some (infinite false) := by
  have hread : Numeral.scan? (dropBlanks " -12.5e3e+".toList)
      = some ((true, ⟨125, 2⟩), "e+".toList) := rfl
  have hread' : Numeral.scan? (dropBlanks (" -12.5e3e+".toList ++ "1".toList))
      = some ((true, ⟨125, 2⟩), "e+1".toList) := rfl
  have hscan : Numeral.scan? (dropBlanks "+Infinityx".toList) = none := rfl
  have hnone : ∀ p, ¬ Begins (dropBlanks "+Infinityx".toList) p := by
    intro p hbegins
    obtain ⟨found, hfound⟩ := Numeral.exists_scan?_of_begins hbegins
    rw [hscan] at hfound
    cases hfound
  obtain ⟨p, s, hsplit, hlongest, hform, hminus⟩ := Numeral.longest_of_scan? hread
  obtain ⟨p', s', hsplit', hlongest', -⟩ := Numeral.longest_of_scan? hread'
  obtain ⟨hvalue, -, -, happend⟩ := longest_numeral_is_read " -12.5e3e+".toList
  obtain ⟨-, -, hword, -⟩ := longest_numeral_is_read "+Infinityx".toList
  have hquantity : Decimal.quantity ⟨125, 2⟩ = 12500 := by norm_num [Decimal.quantity]
  obtain rfl : s = .negative := by
    cases s with
    | negative => rfl
    | positive => cases hminus
  have hp : "-12.5e3".toList = p := List.append_cancel_right hsplit
  have hp' : "-12.5e3".toList = p' := List.append_cancel_right hsplit'
  rw [← hp'] at hlongest'
  rw [← hp] at hlongest hform
  have hnearest := hvalue _ _ _ hlongest hform
  rw [hquantity] at hnearest
  exact ⟨hnearest, happend _ _ _ hlongest hlongest' le_rfl,
    (hword hnone _).mpr ⟨_, _, "x".toList, .plus, rfl, rfl⟩⟩

end Number

end FormulaSheet
