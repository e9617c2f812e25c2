/-
Which decimal the search for the shortest one finds.

A neighbour of the exact decimal is its quantity cut down to a place, or one unit
of that place more. The search stops at the first place, from the left, at which a
neighbour is read as the float. Two things are known of it. A decimal of few
digits that is read as the float is found, because its last place is so coarse
that no other decimal of this place is near enough (`quantity_shortest_of_few_digits`).
And 17 digits are always enough, because at that place one of the neighbours is
near enough (`digits_shortest_le`).
-/
import FormulaSheet.Decimal.Shortest
import FormulaSheet.Proofs.Number.Interval
import FormulaSheet.Proofs.Number.ReadBack
import FormulaSheet.Proofs.Number.Reading
import Mathlib.Algebra.Order.Floor.Semifield

set_option autoImplicit false

namespace FormulaSheet

open Number

namespace Decimal

/-! ## Neighbours -/

section Neighbours

variable {exact c : Decimal} {places p : Nat}

/-- What a unit of a decimal without its last places is worth. -/
def unitAt (exact : Decimal) (p : Nat) : ℚ := 10 ^ (exact.exponent + p)

theorem unitAt_pos (exact : Decimal) (p : Nat) : 0 < exact.unitAt p := by
  unfold unitAt
  positivity

theorem unitAt_add (exact : Decimal) (p k : Nat) :
    exact.unitAt (p + k) = (10 ^ k : Nat) * exact.unitAt p := by
  rw [unitAt, unitAt, Nat.cast_add, ← add_assoc, zpow_add₀ (by norm_num), zpow_natCast, mul_comm]
  push_cast
  rfl

theorem quantity_eq_unitAt (exact : Decimal) : exact.quantity = exact.digits * exact.unitAt 0 := by
  rw [quantity, unitAt, Nat.cast_zero, add_zero]

theorem quantity_dropDigits (exact : Decimal) (p : Nat) :
    (exact.dropDigits p).quantity = (exact.dropDigits p).digits * exact.unitAt p :=
  rfl

theorem quantity_next_dropDigits (exact : Decimal) (p : Nat) :
    (exact.dropDigits p).next.quantity
      = ((exact.dropDigits p).digits + 1 : Nat) * exact.unitAt p :=
  rfl

/-- Leaving digits out is cutting the quantity down to a place. -/
theorem digits_dropDigits (exact : Decimal) (p : Nat) :
    (exact.dropDigits p).digits = ⌊exact.quantity / exact.unitAt p⌋₊ := by
  have hunit : exact.unitAt p = (10 ^ p : Nat) * exact.unitAt 0 := by
    rw [← unitAt_add, Nat.zero_add]
  have hscale := (unitAt_pos exact 0).ne'
  rw [quantity_eq_unitAt, hunit, mul_div_mul_right _ _ hscale, Nat.floor_div_eq_div]
  rfl

theorem quantity_dropDigits_le (exact : Decimal) (p : Nat) :
    (exact.dropDigits p).quantity ≤ exact.quantity := by
  have hunit := unitAt_pos exact p
  rw [quantity_dropDigits, digits_dropDigits, ← le_div_iff₀ hunit]
  refine Nat.floor_le (div_nonneg ?_ hunit.le)
  unfold quantity
  positivity

theorem lt_quantity_next_dropDigits (exact : Decimal) (p : Nat) :
    exact.quantity < (exact.dropDigits p).next.quantity := by
  have hunit := unitAt_pos exact p
  rw [quantity_next_dropDigits, digits_dropDigits, ← div_lt_iff₀ hunit, Nat.cast_add, Nat.cast_one]
  exact Nat.lt_floor_add_one _

variable {tie : Tie} {readsBack : Decimal → Bool}

theorem exists_neighbour? (h : readsBack (exact.dropDigits p) = true ∨
    readsBack (exact.dropDigits p).next = true) :
    ∃ c, neighbour? tie readsBack exact p = some c := by
  simp only [neighbour?]
  split
  · next hbelow habove => simp [hbelow, habove] at h
  · exact ⟨_, rfl⟩
  · exact ⟨_, rfl⟩
  · exact ⟨_, rfl⟩

/-- A neighbour is the quantity cut down, or one unit more. -/
theorem eq_of_neighbour? (h : neighbour? tie readsBack exact p = some c) :
    c = exact.dropDigits p ∨ c = (exact.dropDigits p).next := by
  simp only [neighbour?] at h
  split at h
  · cases h
  · exact .inl (Option.some.inj h).symm
  · exact .inr (Option.some.inj h).symm
  · split at h
    · exact .inr (Option.some.inj h).symm
    · exact .inl (Option.some.inj h).symm

/-- The search ends no later than at a place that has a neighbour. -/
theorem exists_eq_shortestWithin (hp : 0 < p) (hle : p ≤ places)
    (h : ∃ c, neighbour? tie readsBack exact p = some c) :
    ∃ k, neighbour? tie readsBack exact (p + k)
      = some (shortestWithin tie readsBack exact places) := by
  induction places with
  | zero => omega
  | succ places ih =>
    rw [shortestWithin]
    cases hn : neighbour? tie readsBack exact (places + 1) with
    | some c => exact ⟨places + 1 - p, by rw [Nat.add_sub_cancel' hle, hn]; rfl⟩
    | none =>
      have hne : p ≠ places + 1 := by
        rintro rfl
        obtain ⟨c, hc⟩ := h
        rw [hn] at hc
        cases hc
      exact ih (by omega)

end Neighbours

/-! ## Digits -/

/-- The number of digits that are written for a number. -/
theorem length_toDigits_bounds {n : Nat} (hn : 0 < n) :
    10 ^ ((Nat.toDigits 10 n).length - 1) ≤ n ∧ n < 10 ^ (Nat.toDigits 10 n).length := by
  have hpos : 0 < (Nat.toDigits 10 n).length := Nat.length_toDigits_pos
  refine ⟨?_, (Nat.length_toDigits_le_iff (by decide) hpos).mp le_rfl⟩
  by_contra hlt
  rcases Nat.eq_zero_or_pos ((Nat.toDigits 10 n).length - 1) with hzero | hpos'
  · rw [hzero] at hlt
    omega
  · have := (Nat.length_toDigits_le_iff (b := 10) (n := n) (by decide) hpos').mpr (not_le.mp hlt)
    omega

end Decimal

namespace Number

open Decimal (shortest ofBinary)

variable {x : Float} {m : Nat} {q : Int} {h : 0 < m} {tie : Decimal.Tie} {exact c d : Decimal}
  {p k j : Nat}

/-! ## What is read as a float -/

theorem abs_quantity_sub_le (hx : x.toModel.unpack = .finite .positive m q h)
    (hd : d.toFloat = x) : |d.quantity - dyadic m q| ≤ 2 ^ q / 2 := by
  obtain ⟨hpos, hrounded⟩ := (toFloat_eq_iff hx d).mp hd
  exact abs_sub_le_of_rounded_eq (isParts_and_ofParts hx).1 (quantity_pos hpos) hrounded

/-- What lies between two decimals that are read as a float is read as it. -/
theorem toFloat_eq_of_between (hx : x.toModel.unpack = .finite .positive m q h)
    (hc : 0 < c.digits) (hd : d.toFloat = x)
    (hbetween : d.quantity ≤ c.quantity ∧ c.quantity ≤ dyadic m q ∨
      dyadic m q ≤ c.quantity ∧ c.quantity ≤ d.quantity) : c.toFloat = x := by
  obtain ⟨hpos, hrounded⟩ := (toFloat_eq_iff hx d).mp hd
  have hself := (isParts_and_ofParts hx).1.rounded_eq
  refine (toFloat_eq_iff hx c).mpr ⟨hc, ?_⟩
  rcases hbetween with ⟨hlow, hhigh⟩ | ⟨hlow, hhigh⟩
  · rw [rounded_eq_of_between (quantity_pos hpos) hlow hhigh (hrounded.trans hself.symm), hrounded]
  · rw [rounded_eq_of_between (dyadic_pos h) hlow hhigh (hself.trans hrounded.symm), hself]

/-- The search ends at a decimal that is read as the float if the exact one is. -/
theorem toFloat_shortest (hexact : exact.toFloat = x) :
    (shortest tie (fun d => d.toFloat = x) exact).toFloat = x := by
  have hread := @Decimal.readsBack_shortest tie (fun d => d.toFloat = x) exact
    (decide_eq_true hexact)
  exact of_decide_eq_true hread

/-! ## Decimals of few digits -/

/-- On a grid that is coarser than the last place of the float at most one decimal is near. -/
theorem eq_of_coarse {u v : ℚ} {i j : Nat} (hu : 2 ^ q < u) (hi : |i * u - v| ≤ 2 ^ q / 2)
    (hj : |j * u - v| ≤ 2 ^ q / 2) : i = j := by
  obtain ⟨hi₁, hi₂⟩ := abs_le.mp hi
  obtain ⟨hj₁, hj₂⟩ := abs_le.mp hj
  have hpos : 0 < u := (two_zpow_pos q).trans hu
  have hapart : ∀ a b : Nat, a < b → (a : ℚ) * u + u ≤ b * u := fun a b hlt => by
    have hle : ((a + 1 : Nat) : ℚ) ≤ b := by exact_mod_cast hlt
    calc (a : ℚ) * u + u = ((a + 1 : Nat) : ℚ) * u := by push_cast; ring
      _ ≤ b * u := mul_le_mul_of_nonneg_right hle hpos.le
  rcases Nat.lt_trichotomy i j with hlt | heq | hgt
  · linarith [hapart i j hlt]
  · exact heq
  · linarith [hapart j i hgt]

/-- A decimal of some place that is read as the float has a neighbour of this place on its side of
the float, and that one is read as the float, too. -/
theorem exists_neighbour?_of_multiple (hx : x.toModel.unpack = .finite .positive m q h)
    (hexact : exact.quantity = dyadic m q) (hd : d.toFloat = x)
    (hplace : d.quantity = j * exact.unitAt p) :
    ∃ c, exact.neighbour? tie (fun d => d.toFloat = x) p = some c := by
  have hunit := exact.unitAt_pos p
  have hj : 0 < j := by
    have hpos := quantity_pos ((toFloat_eq_iff hx d).mp hd).1
    rw [hplace] at hpos
    exact_mod_cast (mul_pos_iff_of_pos_right hunit).mp hpos
  apply Decimal.exists_neighbour?
  simp only [decide_eq_true_eq]
  rcases le_or_gt d.quantity exact.quantity with hle | hlt
  · -- the decimal is not above what is left of the exact one
    have hdigits : j ≤ (exact.dropDigits p).digits := by
      rw [Decimal.digits_dropDigits]
      apply Nat.le_floor
      rwa [le_div_iff₀ hunit, ← hplace]
    refine .inl (toFloat_eq_of_between hx (by omega) hd (.inl ⟨?_, ?_⟩))
    · rw [hplace, Decimal.quantity_dropDigits]
      exact mul_le_mul_of_nonneg_right (by exact_mod_cast hdigits) hunit.le
    · exact hexact ▸ exact.quantity_dropDigits_le p
  · have hdigits : (exact.dropDigits p).digits < j := by
      have hpos : 0 ≤ exact.quantity := hexact ▸ (dyadic_pos h).le
      rw [Decimal.digits_dropDigits, Nat.floor_lt (div_nonneg hpos hunit.le), div_lt_iff₀ hunit,
        ← hplace]
      exact hlt
    refine .inr (toFloat_eq_of_between hx (Nat.succ_pos _) hd (.inr ⟨?_, ?_⟩))
    · exact hexact ▸ (exact.lt_quantity_next_dropDigits p).le
    · rw [hplace, Decimal.quantity_next_dropDigits]
      exact mul_le_mul_of_nonneg_right (by exact_mod_cast hdigits) hunit.le

/-- A neighbour at a place farther left is a number of units of the place. -/
theorem exists_quantity_eq_of_neighbour? {readsBack : Decimal → Bool}
    (hc : exact.neighbour? tie readsBack (p + k) = some c) :
    ∃ i : Nat, c.quantity = i * exact.unitAt p := by
  have hmultiple : ∀ n : Nat, (n : ℚ) * exact.unitAt (p + k)
      = (n * 10 ^ k : Nat) * exact.unitAt p := fun n => by
    rw [Decimal.unitAt_add]
    push_cast
    ring
  rcases Decimal.eq_of_neighbour? hc with rfl | rfl
  · exact ⟨_, hmultiple _⟩
  · exact ⟨_, hmultiple _⟩

/-- If a decimal is a number of units coarser than the last place of the float, it is found. -/
theorem quantity_shortestWithin_of_coarse {places : Nat}
    (hx : x.toModel.unpack = .finite .positive m q h) (hexact : exact.quantity = dyadic m q)
    (hd : d.toFloat = x) (hplace : d.quantity = j * exact.unitAt p) (hp : 0 < p)
    (hle : p ≤ places) (hcoarse : 2 ^ q < exact.unitAt p) :
    (exact.shortestWithin tie (fun d => d.toFloat = x) places).quantity = d.quantity := by
  have hneighbour : ∃ c, exact.neighbour? tie (fun d => d.toFloat = x) p = some c :=
    exists_neighbour?_of_multiple hx hexact hd hplace
  obtain ⟨k, hfound⟩ := Decimal.exists_eq_shortestWithin hp hle hneighbour
  obtain ⟨i, hi⟩ := exists_quantity_eq_of_neighbour? hfound
  have hread := of_decide_eq_true (Decimal.readsBack_of_neighbour? hfound)
  have hnear := abs_quantity_sub_le hx hread
  have hnear' := abs_quantity_sub_le hx hd
  rw [hi] at hnear
  rw [hplace] at hnear'
  rw [hi, hplace, eq_of_coarse hcoarse hnear hnear']

/-- The places that the exact decimal has are not worth more than those of the float. -/
theorem unitAt_ofBinary_zero_le (m : Nat) (q : Int) : (ofBinary m q).unitAt 0 ≤ 2 ^ q := by
  cases q with
  | ofNat k =>
    have hone : (ofBinary m (.ofNat k)).unitAt 0 = 1 := rfl
    rw [hone, Int.ofNat_eq_natCast, zpow_natCast]
    exact one_le_pow₀ one_le_two
  | negSucc k =>
    have hunit : (ofBinary m (.negSucc k)).unitAt 0 = 10 ^ (Int.negSucc k) := by
      rw [Decimal.unitAt, Nat.cast_zero, add_zero]
      rfl
    rw [hunit]
    exact ten_zpow_le_two_zpow (by omega)

/-- **Few digits come back.** A decimal of at most 15 digits is found again if it is read as a float
that fills its mantissa. -/
theorem quantity_shortest_of_few_digits (hx : x.toModel.unpack = .finite .positive m q h)
    (hnormal : 2 ^ 52 ≤ m) (hdigits : d.digits < 10 ^ 15) (hd : d.toFloat = x) :
    (shortest tie (fun d => d.toFloat = x) (ofBinary m q)).quantity = d.quantity := by
  obtain ⟨exact, hdef⟩ : ∃ exact, exact = ofBinary m q := ⟨_, rfl⟩
  have hexact : exact.quantity = dyadic m q := hdef ▸ quantity_ofBinary m q
  have hzero : exact.unitAt 0 ≤ 2 ^ q := hdef ▸ unitAt_ofBinary_zero_le m q
  have hunit := exact.unitAt_pos 0
  have hscale := two_zpow_pos q
  have hfull : (2 ^ 52 : ℚ) * 2 ^ q ≤ exact.quantity := by
    rw [hexact]
    exact mul_le_mul_of_nonneg_right (by exact_mod_cast hnormal) hscale.le
  -- one unit of the decimal is more than four last places of the float
  have hunits : (4 : ℚ) * 2 ^ q < 10 ^ d.exponent := by
    have hten : (0 : ℚ) < 10 ^ d.exponent := by positivity
    have hless : d.quantity < 10 ^ 15 * 10 ^ d.exponent :=
      mul_lt_mul_of_pos_right (by exact_mod_cast hdigits) hten
    have hnear := (abs_le.mp (abs_quantity_sub_le hx hd)).1
    rw [← hexact] at hnear
    linarith
  have hexponent : exact.exponent < d.exponent := by
    have hlt : exact.unitAt 0 < 10 ^ d.exponent := by linarith
    rw [Decimal.unitAt, Nat.cast_zero, add_zero] at hlt
    exact (zpow_lt_zpow_iff_right₀ (by norm_num)).mp hlt
  obtain ⟨r, hr⟩ : ∃ r : Nat, d.exponent = exact.exponent + r :=
    ⟨(d.exponent - exact.exponent).toNat, by omega⟩
  have hquantity : d.quantity = d.digits * exact.unitAt r := by
    rw [Decimal.quantity, Decimal.unitAt, hr]
  have hmany : 2 ^ 52 ≤ exact.digits := by
    have hle : (2 ^ 52 : ℚ) * exact.unitAt 0 ≤ exact.digits * exact.unitAt 0 := by
      rw [← Decimal.quantity_eq_unitAt]
      linarith
    exact_mod_cast le_of_mul_le_mul_right hle hunit
  obtain ⟨places, hplaces⟩ : ∃ places, places = (Nat.toDigits 10 exact.digits).length - 1 :=
    ⟨_, rfl⟩
  obtain ⟨hlow, hhigh⟩ := Decimal.length_toDigits_bounds (n := exact.digits) (by omega)
  have hlength : 0 < (Nat.toDigits 10 exact.digits).length := Nat.length_toDigits_pos
  have hlast : exact.digits < 10 ^ (places + 1) := by rwa [hplaces, Nat.sub_add_cancel hlength]
  rw [← hdef, shortest, ← hplaces]
  by_cases hle : r ≤ places
  · refine quantity_shortestWithin_of_coarse hx hexact hd hquantity (by omega) hle ?_
    rw [Decimal.unitAt, ← hr]
    linarith
  · -- the decimal is a multiple of the first place of the exact one
    obtain ⟨k, rfl⟩ : ∃ k, r = places + k := ⟨r - places, by omega⟩
    have hfirst : d.quantity = (d.digits * 10 ^ k : Nat) * exact.unitAt places := by
      rw [hquantity, Decimal.unitAt_add]
      push_cast
      ring
    have hpositive : 0 < places := by
      rcases Nat.eq_zero_or_pos places with hnone | hpos
      · rw [hnone] at hlast
        omega
      · exact hpos
    refine quantity_shortestWithin_of_coarse hx hexact hd hfirst hpositive le_rfl ?_
    have hless : exact.quantity < 10 * exact.unitAt places := by
      have hshift : 10 * exact.unitAt places = (10 ^ (places + 1) : Nat) * exact.unitAt 0 := by
        have hadd := exact.unitAt_add 0 places
        rw [Nat.zero_add] at hadd
        rw [hadd]
        push_cast
        ring
      rw [hshift, Decimal.quantity_eq_unitAt]
      exact mul_lt_mul_of_pos_right (by exact_mod_cast hlast) hunit
    linarith

/-! ## Seventeen digits -/

theorem digits_le_of_neighbour? {readsBack : Decimal → Bool}
    (hc : exact.neighbour? tie readsBack (p + k) = some c) :
    c.digits ≤ exact.digits / 10 ^ p + 1 := by
  have hdrop : (exact.dropDigits (p + k)).digits ≤ exact.digits / 10 ^ p :=
    Nat.div_le_div_left (Nat.pow_le_pow_right (by decide) (by omega)) (Nat.pow_pos (by decide))
  rcases Decimal.eq_of_neighbour? hc with rfl | rfl
  · omega
  · exact Nat.succ_le_succ hdrop

theorem digits_shortestWithin_le (readsBack : Decimal → Bool) (places : Nat) :
    (exact.shortestWithin tie readsBack places).digits ≤ exact.digits + 1 := by
  induction places with
  | zero => exact Nat.le_succ _
  | succ places ih =>
    rw [Decimal.shortestWithin]
    cases hn : exact.neighbour? tie readsBack (places + 1) with
    | none => exact ih
    | some c =>
      have hle := digits_le_of_neighbour? (p := 0) (by rwa [Nat.zero_add])
      rwa [Nat.pow_zero, Nat.div_one] at hle

/-- At a place that is worth little enough one of the neighbours is read as the float. -/
theorem exists_neighbour?_of_fine (hx : x.toModel.unpack = .finite .positive m q h)
    (hexact : exact.quantity = dyadic m q) (hdigits : 0 < (exact.dropDigits p).digits)
    (hfine : 10 ^ 16 * exact.unitAt p ≤ exact.quantity) :
    ∃ c, exact.neighbour? tie (fun d => d.toFloat = x) p = some c := by
  have hparts := (isParts_and_ofParts hx).1
  have hscale := two_zpow_pos q
  have hunit := exact.unitAt_pos p
  have hbelow := exact.quantity_dropDigits_le p
  have habove := exact.lt_quantity_next_dropDigits p
  have hgap : (exact.dropDigits p).next.quantity
      = (exact.dropDigits p).quantity + exact.unitAt p := by
    rw [Decimal.quantity_next_dropDigits, Decimal.quantity_dropDigits]
    push_cast
    ring
  -- the nearer neighbour is not farther off than half a unit, and that is near enough
  have hnear : ∀ c : Decimal, 0 < c.digits → |c.quantity - dyadic m q| ≤ exact.unitAt p / 2 →
      c.toFloat = x := by
    intro c hc hclose
    have hm : (m : ℚ) < 2 ^ 53 := by exact_mod_cast hparts.mantissa_lt
    have hquantity : exact.quantity = m * 2 ^ q := hexact
    have hless : exact.quantity < 2 ^ 53 * 2 ^ q :=
      hquantity ▸ mul_lt_mul_of_pos_right hm hscale
    refine (toFloat_eq_iff hx c).mpr ⟨hc, rounded_eq_of_near hparts (quantity_pos hc) ?_ ?_⟩
    · linarith
    · rintro rfl
      push_cast at hquantity
      linarith
  apply Decimal.exists_neighbour?
  simp only [decide_eq_true_eq]
  rcases le_or_gt (exact.quantity - (exact.dropDigits p).quantity) (exact.unitAt p / 2)
    with hhalf | hhalf
  · refine .inl (hnear _ hdigits ?_)
    rw [← hexact, abs_sub_comm, abs_of_nonneg (by linarith)]
    exact hhalf
  · refine .inr (hnear _ (Nat.succ_pos _) ?_)
    rw [← hexact, abs_of_pos (by linarith)]
    linarith

/-- **Seventeen digits are enough** for any float. -/
theorem digits_shortest_le (hx : x.toModel.unpack = .finite .positive m q h) :
    (shortest tie (fun d => d.toFloat = x) (ofBinary m q)).digits ≤ 10 ^ 17 := by
  obtain ⟨exact, hdef⟩ : ∃ exact, exact = ofBinary m q := ⟨_, rfl⟩
  have hexact : exact.quantity = dyadic m q := hdef ▸ quantity_ofBinary m q
  have hpos : 0 < exact.digits := hdef ▸ digits_ofBinary_pos h q
  obtain ⟨length, hlength⟩ : ∃ length, length = (Nat.toDigits 10 exact.digits).length := ⟨_, rfl⟩
  obtain ⟨hlow, hhigh⟩ := Decimal.length_toDigits_bounds hpos
  rw [← hlength] at hlow hhigh
  rw [← hdef, shortest, ← hlength]
  by_cases hshort : length ≤ 17
  · have hle : (exact.shortestWithin tie (fun d => d.toFloat = x) (length - 1)).digits
        ≤ exact.digits + 1 := digits_shortestWithin_le _ _
    have : 10 ^ length ≤ 10 ^ 17 := Nat.pow_le_pow_right (by decide) hshort
    omega
  · -- leave out all digits but seventeen
    obtain ⟨p, rfl⟩ : ∃ p, length = p + 17 := ⟨length - 17, by omega⟩
    have hbegin : 10 ^ 16 * 10 ^ p ≤ exact.digits := by
      rw [← Nat.pow_add, Nat.add_comm]
      exact hlow
    have hend : exact.digits < 10 ^ 17 * 10 ^ p := by
      rwa [← Nat.pow_add, Nat.add_comm 17]
    have hdigits : 0 < (exact.dropDigits p).digits := by
      have hle : 10 ^ p ≤ exact.digits := by omega
      exact Nat.div_pos hle (Nat.pow_pos (by decide))
    have hfine : 10 ^ 16 * exact.unitAt p ≤ exact.quantity := by
      have hunit := exact.unitAt_add 0 p
      rw [Nat.zero_add] at hunit
      rw [hunit, ← mul_assoc, Decimal.quantity_eq_unitAt]
      exact mul_le_mul_of_nonneg_right (by exact_mod_cast hbegin) (exact.unitAt_pos 0).le
    have hneighbour : ∃ c, exact.neighbour? tie (fun d => d.toFloat = x) p = some c :=
      exists_neighbour?_of_fine hx hexact hdigits hfine
    have hplaces : p ≤ p + 17 - 1 := by omega
    obtain ⟨k, hfound⟩ := Decimal.exists_eq_shortestWithin (by omega) hplaces hneighbour
    have hle := digits_le_of_neighbour? hfound
    have := Nat.div_lt_of_lt_mul (hend.trans_eq (Nat.mul_comm _ _))
    omega

end Number

end FormulaSheet
