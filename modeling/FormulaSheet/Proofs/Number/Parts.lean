/-
Finite floats and their parts.

A finite float other than zero is a sign and a quantity `m · 2 ^ q`, and of the
ways to write the quantity it has exactly one: either the mantissa fills its 53
bits or the exponent is the smallest there is (`IsParts`). Between these parts
and the float nothing is lost in either direction. The parts of a float are of
this kind and make it again, and parts of this kind are those of the float they
make.
-/
import FormulaSheet.Number
import Mathlib.Tactic.Ring

set_option autoImplicit false

namespace FormulaSheet.Number

open Float.Model (UnpackedFloat Format)
open Float.Model.UnpackedFloat

/-- The mantissa and the exponent of a finite float other than zero. -/
structure IsParts (m : Nat) (q : Int) : Prop where
  pos : 0 < m
  mantissa_lt : m < 2 ^ 53
  le_exponent : -1074 ≤ q
  exponent_le : q ≤ 971
  /-- The mantissa begins with a one unless the exponent cannot be smaller. -/
  normal : 2 ^ 52 ≤ m ∨ q = -1074

/-- The float with the given parts. -/
def ofParts (s : Sign) (m : Nat) (q : Int) (h : 0 < m) : Float :=
  .ofModel (.pack (.finite s m q h))

/-! ## The fields of a word -/

theorem toNat_implicit_append (v : BitVec 52) : (1#1 ++ v).toNat = 2 ^ 52 + v.toNat := by
  rw [BitVec.toNat_append, ← Nat.shiftLeft_add_eq_or_of_lt v.isLt]
  rfl

theorem ofBitVec_toBitVec (s : Sign) : Sign.ofBitVec s.toBitVec = s := by
  cases s <;> rfl

theorem toBitVec_ofBitVec (b : BitVec 1) : (Sign.ofBitVec b).toBitVec = b := by
  have : ∀ b : BitVec 1, (Sign.ofBitVec b).toBitVec = b := by decide
  exact this b

/-- A word with the given fields. -/
abbrev word (s : Sign) (e : BitVec 11) (v : BitVec 52) : BitVec 64 :=
  packComponents Format.binary64 s e v

theorem unpackSign_word (s : Sign) (e : BitVec 11) (v : BitVec 52) :
    @unpackSign Format.binary64 (word s e v) = s.toBitVec := by
  have hfield : @unpackSign Format.binary64 (word s e v)
      = BitVec.extractLsb' 63 1 (s.toBitVec ++ e ++ v) := rfl
  rw [hfield, BitVec.extractLsb'_append_eq_of_le (by decide),
    BitVec.extractLsb'_append_eq_of_le (by decide)]
  cases s <;> rfl

/-- Every word has fields. -/
theorem exists_eq_word (b : BitVec 64) : ∃ s e v, b = word s e v := by
  refine ⟨Sign.ofBitVec (b.extractLsb' 63 1), b.extractLsb' 52 11, b.extractLsb' 0 52, ?_⟩
  have hupper : b.extractLsb' 63 1 ++ b.extractLsb' 52 11 = b.extractLsb' 52 12 :=
    BitVec.extractLsb'_append_extractLsb'_eq_extractLsb' rfl
  have hall : b.extractLsb' 52 12 ++ b.extractLsb' 0 52 = b :=
    (BitVec.extractLsb'_append_extractLsb'_eq_extractLsb' rfl).trans BitVec.extractLsb'_eq_self
  calc b = (Sign.ofBitVec (b.extractLsb' 63 1)).toBitVec ++ b.extractLsb' 52 11
        ++ b.extractLsb' 0 52 := by rw [toBitVec_ofBitVec, hupper, hall]
    _ = word (Sign.ofBitVec (b.extractLsb' 63 1)) (b.extractLsb' 52 11) (b.extractLsb' 0 52) := rfl

theorem toNat_pos_of_ne_zero {v : BitVec 52} (h : v ≠ 0#52) : 0 < v.toNat :=
  Nat.pos_of_ne_zero fun hzero => h (BitVec.eq_of_toNat_eq hzero)

theorem finite_congr {s s' : Sign} {m m' : Nat} {q q' : Int} {h : 0 < m} {h' : 0 < m'}
    (hs : s = s') (hm : m = m') (hq : q = q') :
    UnpackedFloat.finite s m q h = .finite s' m' q' h' := by
  subst hs hm hq
  rfl

/-- What a word denotes, by its fields. -/
theorem unpack_word (s : Sign) (e : BitVec 11) (v : BitVec 52) :
    unpack Format.binary64 (word s e v)
      = if e = -1#11 then (if v = 0#52 then .infinity s else .notANumber)
        else if e = 0#11 then
          if h : v = 0#52 then .zero s else .finite s v.toNat (-1074) (toNat_pos_of_ne_zero h)
        else .finite s (2 ^ 52 + v.toNat) (e.toNat - 1075) (by omega) := by
  have hsign : Sign.ofBitVec (@unpackSign Format.binary64 (word s e v)) = s := by
    rw [unpackSign_word, ofBitVec_toBitVec]
  have hexponent : @unpackExponent Format.binary64 (word s e v) = e :=
    unpackExponent_packComponents
  have hmantissa : @unpackMantissa Format.binary64 (word s e v) = v :=
    unpackMantissa_packComponents
  unfold unpack
  dsimp only
  rw [hexponent]
  -- the exponent decides: all ones, all zeros, or the exponent of a full mantissa
  by_cases hones : e = -1#11
  · rw [if_pos hones, if_pos hones, hmantissa, hsign]
  · rw [if_neg hones, if_neg hones]
    by_cases hzero : e = 0#11
    · rw [if_pos hzero, if_pos hzero]
      by_cases hv : v = 0#52
      · rw [dif_pos (hmantissa.trans hv), dif_pos hv, hsign]
      · rw [dif_neg fun hnone => hv (hmantissa.symm.trans hnone), dif_neg hv]
        exact finite_congr hsign (congrArg BitVec.toNat hmantissa) (by rw [hzero]; rfl)
    · rw [if_neg hzero, if_neg hzero]
      exact finite_congr hsign (by rw [hmantissa, toNat_implicit_append]) rfl

/-! ## Parts and fields -/

theorem log2_eq_of_normal {m : Nat} (hm : 2 ^ 52 ≤ m) (hlt : m < 2 ^ 53) : m.log2 = 52 :=
  (Nat.log2_eq_iff (by omega)).mpr ⟨hm, hlt⟩

theorem log2_lt_of_subnormal {m : Nat} (hpos : 0 < m) (hlt : m < 2 ^ 52) : m.log2 < 52 :=
  (Nat.log2_lt (by omega)).mpr hlt

/-- The word of parts with a full mantissa. -/
theorem pack_normal {s : Sign} {m : Nat} {q : Int} {h : 0 < m} (hparts : IsParts m q)
    (hm : 2 ^ 52 ≤ m) :
    pack Format.binary64 (.finite s m q h)
      = word s (BitVec.ofNat 11 (q + 1075).toNat) (BitVec.ofNat 52 m) := by
  have hbiased : (q + (Format.binary64.exponentBias : Int)
      + (Format.binary64.mantissaBitsWithoutImplicit : Int)).toNat = (q + 1075).toNat := by
    have hbias : (Format.binary64.exponentBias : Int) = 1023 := rfl
    have hbits : (Format.binary64.mantissaBitsWithoutImplicit : Int) = 52 := rfl
    omega
  have hsmall : ¬ 2 ^ Format.binary64.exponentBits ≤ (q + 1075).toNat + 1 := by
    have hlimit : 2 ^ Format.binary64.exponentBits = 2048 := rfl
    have := hparts.exponent_le
    omega
  have hfull : m.log2 + 1 = Format.binary64.mantissaBits := by
    rw [log2_eq_of_normal hm hparts.mantissa_lt]
    rfl
  unfold pack
  simp only [hbiased]
  rw [if_neg hsmall, if_pos hfull]

/-- The word of parts with a mantissa that is not full. -/
theorem pack_subnormal {s : Sign} {m : Nat} {h : 0 < m} (hm : m < 2 ^ 52) :
    pack Format.binary64 (.finite s m (-1074) h) = word s 0#11 (BitVec.ofNat 52 m) := by
  have hshort : ¬ m.log2 + 1 = Format.binary64.mantissaBits := by
    have hbits : Format.binary64.mantissaBits = 53 := rfl
    have := log2_lt_of_subnormal h hm
    omega
  unfold pack
  dsimp only
  rw [if_neg (by decide), if_neg hshort]

/-! ## There and back -/

theorem toNat_ofNat_of_lt {w n : Nat} (h : n < 2 ^ w) : (BitVec.ofNat w n).toNat = n := by
  rw [BitVec.toNat_ofNat, Nat.mod_eq_of_lt h]

/-- **Parts of a float.** The parts that make a float are those of the float. -/
theorem unpack_ofParts {s : Sign} {m : Nat} {q : Int} {h : 0 < m} (hparts : IsParts m q) :
    (ofParts s m q h).toModel.unpack = .finite s m q h := by
  have hunpack : (ofParts s m q h).toModel.unpack
      = unpack Format.binary64 (pack Format.binary64 (.finite s m q h)) := rfl
  obtain ⟨-, hlt, hlow, hhigh, hnormal⟩ := hparts
  rw [hunpack]
  by_cases hm : 2 ^ 52 ≤ m
  -- the first bit of a full mantissa is not stored, and comes back as it is known to be one
  · have hexponent : (BitVec.ofNat 11 (q + 1075).toNat).toNat = (q + 1075).toNat :=
      toNat_ofNat_of_lt (by omega)
    have hzero : BitVec.ofNat 11 (q + 1075).toNat ≠ 0#11 := fun he => by
      have := congrArg BitVec.toNat he
      rw [hexponent] at this
      simp only [BitVec.toNat_zero] at this
      omega
    have hones : BitVec.ofNat 11 (q + 1075).toNat ≠ -1#11 := fun he => by
      have hvalue : (-1#11).toNat = 2047 := rfl
      have := congrArg BitVec.toNat he
      rw [hexponent, hvalue] at this
      omega
    rw [pack_normal ⟨h, hlt, hlow, hhigh, hnormal⟩ hm, unpack_word, if_neg hones, if_neg hzero]
    refine finite_congr rfl ?_ (by omega)
    rw [BitVec.toNat_ofNat]
    omega
  -- without it the exponent is the smallest, stored as zero, and all bits are there
  · obtain rfl : q = -1074 := hnormal.resolve_left hm
    have hmantissa : (BitVec.ofNat 52 m).toNat = m := toNat_ofNat_of_lt (by omega)
    have hzero : BitVec.ofNat 52 m ≠ 0#52 := fun hv => by
      rw [hv] at hmantissa
      simp only [BitVec.toNat_zero] at hmantissa
      omega
    rw [pack_subnormal (by omega), unpack_word, if_neg (by decide), if_pos rfl, dif_neg hzero]
    exact finite_congr rfl hmantissa rfl

/-- The parts that a word denotes are legal, and are packed into the word. -/
theorem isParts_and_pack {b : BitVec 64} {s : Sign} {m : Nat} {q : Int} {h : 0 < m}
    (hb : unpack Format.binary64 b = .finite s m q h) :
    IsParts m q ∧ pack Format.binary64 (.finite s m q h) = b := by
  obtain ⟨s', e, v, rfl⟩ := exists_eq_word b
  have hv := v.isLt
  rw [unpack_word] at hb
  by_cases hones : e = -1#11
  · rw [if_pos hones] at hb
    by_cases hnone : v = 0#52
    · rw [if_pos hnone] at hb
      cases hb
    · rw [if_neg hnone] at hb
      cases hb
  rw [if_neg hones] at hb
  by_cases hzero : e = 0#11
  · rw [if_pos hzero] at hb
    by_cases hnone : v = 0#52
    · rw [dif_pos hnone] at hb
      cases hb
    · rw [dif_neg hnone] at hb
      cases hb
      refine ⟨⟨h, by omega, by omega, by omega, .inr rfl⟩, ?_⟩
      rw [pack_subnormal hv, BitVec.ofNat_toNat, BitVec.setWidth_eq, hzero]
  · rw [if_neg hzero] at hb
    cases hb
    have he := e.isLt
    have hlow : e.toNat ≠ 0 := fun h0 => hzero (BitVec.eq_of_toNat_eq h0)
    have hhigh : e.toNat ≠ 2047 := fun h1 => hones (BitVec.eq_of_toNat_eq h1)
    have hparts : IsParts (2 ^ 52 + v.toNat) (e.toNat - 1075) :=
      ⟨h, by omega, by omega, by omega, .inl (by omega)⟩
    have hexponent : ((e.toNat : Int) - 1075 + 1075).toNat = e.toNat := by omega
    have hmantissa : BitVec.ofNat 52 (2 ^ 52 + v.toNat) = v := by
      apply BitVec.eq_of_toNat_eq
      rw [BitVec.toNat_ofNat]
      omega
    refine ⟨hparts, ?_⟩
    rw [pack_normal hparts (by omega), hexponent, BitVec.ofNat_toNat, BitVec.setWidth_eq, hmantissa]

/-- **A float from its parts.** The parts of a finite float are legal, and make it again. -/
theorem isParts_and_ofParts {x : Float} {s : Sign} {m : Nat} {q : Int} {h : 0 < m}
    (hx : x.toModel.unpack = .finite s m q h) : IsParts m q ∧ ofParts s m q h = x := by
  obtain ⟨hparts, hpack⟩ := isParts_and_pack hx
  refine ⟨hparts, ?_⟩
  obtain ⟨⟨⟨b⟩, hvalid⟩⟩ := x
  obtain rfl : pack Format.binary64 (.finite s m q h) = b := hpack
  rfl

/-! ## Signs -/

/-- A minus before a float changes the sign of its parts. -/
theorem neg_ofParts {s : Sign} {m : Nat} {q : Int} {h : 0 < m} (hparts : IsParts m q) :
    -ofParts s m q h = ofParts (-s) m q h := by
  have hneg : -ofParts s m q h = .ofModel (.pack (ofParts s m q h).toModel.unpack.neg) := rfl
  rw [hneg, unpack_ofParts hparts]
  rfl

end FormulaSheet.Number
