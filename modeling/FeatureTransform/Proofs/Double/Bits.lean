import FeatureTransform.Decimal.Binary
import Mathlib.Tactic.Ring

/-!
# The bits of doubles

A double is its bits, apart from the patterns of NaN, which are all one double. What the library
needs of them is said in terms of the three fields — sign, exponent, fraction:

* **round trip** — the double of the bits of a double is that double, and the bits of the double of
  a pattern that is no NaN are that pattern;
* **negation** turns the sign and keeps the rest;
* **form** — a finite double is its sign, mantissa and exponent: `Binary.ofFloat` reads them off
  the bits, they are in canonical form, and the bits can be computed from them.
-/

namespace FeatureTransform

open Float.Model
open Float.Model.UnpackedFloat (Sign packComponents unpackMantissa unpackExponent unpackSign)

namespace Double

/-! ## Fields -/

/-- The pattern with the given fields. -/
abbrev pattern (s : Sign) (e : BitVec 11) (m : BitVec 52) : BitVec Format.binary64.numBits :=
  packComponents Format.binary64 s e m

/-- The pattern of a double. -/
abbrev patternOf (f : Float) : BitVec Format.binary64.numBits := f.toBits.toBitVec

/-- The pattern is not one of NaN. -/
def IsNumber (e : BitVec 11) (m : BitVec 52) : Prop := e = -1#11 → m = 0#52

/-- As a number, a pattern is its fields one above the other. This turns questions about bits into
linear arithmetic. -/
theorem toNat_pattern (s : Sign) (e : BitVec 11) (m : BitVec 52) :
    (pattern s e m).toNat =
      s.toBitVec.toNat * 0x8000000000000000 + e.toNat * 0x10000000000000 + m.toNat := by
  have he := e.isLt
  have hm := m.isLt
  unfold pattern packComponents
  rw [BitVec.toNat_append, BitVec.toNat_append, ← Nat.shiftLeft_add_eq_or_of_lt hm,
    ← Nat.shiftLeft_add_eq_or_of_lt he, Nat.shiftLeft_eq, Nat.shiftLeft_eq]
  ring

theorem sign_pattern (s : Sign) (e : BitVec 11) (m : BitVec 52) :
    Sign.ofBitVec (unpackSign (pattern s e m)) = s := by
  unfold unpackSign
  simp only [packComponents, BitVec.extractLsb]
  rw [BitVec.extractLsb'_append_eq_of_le (by omega),
    BitVec.extractLsb'_append_eq_of_le (by omega)]
  cases s <;> rfl

/-- Every pattern has fields, so that it is enough to speak of patterns that are given by them. -/
theorem exists_pattern (b : BitVec Format.binary64.numBits) : ∃ s e m, b = pattern s e m := by
  have hb : b.toNat < 2 ^ 64 := b.isLt
  refine ⟨if b.toNat / 0x8000000000000000 = 1 then .negative else .positive,
    BitVec.ofNat 11 (b.toNat / 0x10000000000000), BitVec.ofNat 52 b.toNat, ?_⟩
  rw [← BitVec.toNat_inj, toNat_pattern, BitVec.toNat_ofNat, BitVec.toNat_ofNat]
  split
  · simp only [Sign.toBitVec, BitVec.toNat_ofNat]
    omega
  · simp only [Sign.toBitVec, BitVec.toNat_ofNat]
    omega

theorem log2_eq {m k : Nat} (hlow : 2 ^ k ≤ m) (hhigh : m < 2 ^ (k + 1)) : m.log2 = k := by
  have hm : m ≠ 0 := by
    have := Nat.two_pow_pos k
    omega
  have hk : k ≤ m.log2 := (Nat.le_log2 hm).mpr hlow
  have hk' : m.log2 < k + 1 := (Nat.log2_lt hm).mpr hhigh
  omega

/-- The leading bit of a number stands above the 52 bits of the fraction. -/
theorem toNat_leading (m : BitVec 52) : (1#1 ++ m).toNat = 0x10000000000000 + m.toNat := by
  rw [BitVec.toNat_append, ← Nat.shiftLeft_add_eq_or_of_lt m.isLt]
  rfl

/-- What a pattern stands for: an infinity or NaN with the last exponent, a zero or a number without
a leading bit with the first, a number with a leading bit with all others. -/
theorem unpack_pattern (s : Sign) (e : BitVec 11) (m : BitVec 52) :
    UnpackedFloat.unpack Format.binary64 (pattern s e m) =
      if e = -1#11 then if m = 0#52 then .infinity s else .notANumber
      else if e = 0#11 then
        if h : m = 0#52 then .zero s
        else .finite s m.toNat
          ((e.toNat : Int) - (Format.binary64.exponentBias + (52 : Nat)) + 1)
          (Nat.pos_of_ne_zero fun hzero => h (BitVec.toNat_inj.mp hzero))
      else .finite s (1#1 ++ m).toNat
        ((e.toNat : Int) - (Format.binary64.exponentBias + (52 : Nat)))
        (by rw [toNat_leading]; omega) := by
  have he : unpackExponent (pattern s e m) = e := UnpackedFloat.unpackExponent_packComponents ..
  have hm : unpackMantissa (pattern s e m) = m := UnpackedFloat.unpackMantissa_packComponents ..
  have hs := sign_pattern s e m
  -- the fields are replaced by what they are of the pattern
  generalize pattern s e m = b at he hm hs
  subst he hm hs
  rfl

/-- **Round trip.** Taking a pattern apart and putting it together again changes nothing, NaN
aside. The cases are the three kinds of exponents: the last, the first and those between. -/
theorem pack_unpack {s : Sign} {e : BitVec 11} {m : BitVec 52} (h : IsNumber e m) :
    UnpackedFloat.pack Format.binary64 (UnpackedFloat.unpack Format.binary64 (pattern s e m)) =
      pattern s e m := by
  have hm := m.isLt
  have he := e.isLt
  rw [unpack_pattern]
  by_cases hlast : e = -1#11
  · obtain rfl := h hlast
    subst hlast
    rfl
  rw [if_neg hlast]
  by_cases hfirst : e = 0#11
  · subst hfirst
    rw [if_pos rfl]
    by_cases hzero : m = 0#52
    · subst hzero
      rfl
    · rw [dif_neg hzero]
      -- no leading bit: the mantissa is too short to be packed with one
      have hpos : m.toNat ≠ 0 := fun heq => hzero (BitVec.toNat_inj.mp heq)
      have hlog : m.toNat.log2 < 52 := (Nat.log2_lt hpos).mpr hm
      unfold UnpackedFloat.pack
      simp only
      have hbits : Format.mantissaBits .binary64 = 53 := rfl
      rw [if_neg (by decide), if_neg (by rw [hbits]; omega)]
      simp
  · rw [if_neg hfirst]
    -- the leading bit is put in front and taken away again
    have hbelow : e.toNat ≠ 0x7FF := fun heq => hlast (BitVec.toNat_inj.mp heq)
    have hlog : (1#1 ++ m).toNat.log2 = 52 := by
      rw [toNat_leading]
      exact log2_eq (by omega) (by omega)
    have hbiased : ((e.toNat : Int) - ((Format.exponentBias Format.binary64 : Nat) + (52 : Nat))
        + (Format.exponentBias Format.binary64 : Nat) + (52 : Nat)).toNat = e.toNat := by
      omega
    unfold UnpackedFloat.pack
    simp only
    rw [hbiased, if_neg (by omega), if_pos (by rw [hlog]; rfl)]
    congr 1
    · simp
    · rw [← BitVec.toNat_inj, BitVec.toNat_ofNat, toNat_leading]
      omega

/-! ## Doubles by their fields -/

/-- The double with the given fields. -/
def ofFields (s : Sign) (e : BitVec 11) (m : BitVec 52) : Float :=
  Float.ofBits (UInt64.ofBitVec (pattern s e m))

/-- The double that is no number. -/
def nan : Float := Float.ofBits 0x7FF8000000000000

/-- Doubles with the same bits are the same, since there is one NaN. -/
theorem eq_of_toBits {f g : Float} (h : f.toBits = g.toBits) : f = g := by
  rcases f with ⟨⟨bits, hf⟩⟩
  rcases g with ⟨⟨bits', hg⟩⟩
  obtain rfl : bits = bits' := h
  rfl

/-- The bits of the double of a pattern are that pattern, unless it stands for NaN: of those
patterns only one is kept. -/
theorem toBits_ofFields {s : Sign} {e : BitVec 11} {m : BitVec 52} (h : IsNumber e m) :
    (ofFields s e m).toBits = UInt64.ofBitVec (pattern s e m) :=
  congrArg UInt64.ofBitVec (pack_unpack h)

/-- **Every double** is NaN or has fields. Proofs about all doubles begin with this case
distinction. -/
theorem eq_nan_or_ofFields (f : Float) :
    f = nan ∨ ∃ s e m, IsNumber e m ∧ f = ofFields s e m := by
  obtain ⟨s, e, m, hbits⟩ := exists_pattern (patternOf f)
  by_cases h : IsNumber e m
  · refine .inr ⟨s, e, m, h, eq_of_toBits ?_⟩
    rw [toBits_ofFields h, ← hbits]
  · left
    obtain ⟨hlast, hzero⟩ := Classical.not_imp.mp h
    apply eq_of_toBits
    have hvalid := f.toModel.valid.eq_packedNaN
    have hcanonical : patternOf f = UnpackedFloat.packedNaN Format.binary64 := by
      refine hvalid ?_ ?_
      · change unpackExponent (patternOf f) = _
        rw [hbits, UnpackedFloat.unpackExponent_packComponents, hlast]
      · change unpackMantissa (patternOf f) ≠ _
        rw [hbits, UnpackedFloat.unpackMantissa_packComponents]
        exact hzero
    exact UInt64.toBitVec_inj.mp hcanonical

/-- **Negation** turns the sign and keeps the rest, for zeros and infinities as for all other
numbers. -/
theorem neg_ofFields {s : Sign} {e : BitVec 11} {m : BitVec 52} (h : IsNumber e m) :
    -ofFields s e m = ofFields (-s) e m := by
  -- on what patterns stand for, negation does what it should; the cases are the kinds of exponents
  have hturn : (UnpackedFloat.unpack Format.binary64 (pattern s e m)).neg =
      UnpackedFloat.unpack Format.binary64 (pattern (-s) e m) := by
    rw [unpack_pattern, unpack_pattern]
    by_cases hlast : e = -1#11
    · rw [if_pos hlast, if_pos hlast, if_pos (h hlast), if_pos (h hlast)]
      rfl
    rw [if_neg hlast, if_neg hlast]
    by_cases hfirst : e = 0#11
    · rw [if_pos hfirst, if_pos hfirst]
      by_cases hzero : m = 0#52
      · rw [dif_pos hzero, dif_pos hzero]
        rfl
      · rw [dif_neg hzero, dif_neg hzero]
        rfl
    · rw [if_neg hfirst, if_neg hfirst]
      rfl
  apply eq_of_toBits
  rw [toBits_ofFields h]
  change UInt64.ofBitVec (UnpackedFloat.pack Format.binary64
    (UnpackedFloat.unpack Format.binary64 (patternOf (ofFields s e m))).neg) = _
  rw [patternOf, toBits_ofFields h, hturn, pack_unpack h]

theorem neg_nan : -nan = nan := by decide

theorem neg_neg (f : Float) : - -f = f := by
  rcases eq_nan_or_ofFields f with rfl | ⟨s, e, m, h, rfl⟩
  · rw [neg_nan, neg_nan]
  · rw [neg_ofFields h, neg_ofFields h]
    cases s <;> rfl

/-! ## Kinds of doubles -/

/-- The last exponent belongs to the infinities. -/
theorem unpack_last (s : Sign) :
    UnpackedFloat.unpack Format.binary64 (pattern s (-1#11) 0#52) = .infinity s := by
  cases s <;> rfl

/-- All other exponents belong to finite numbers. -/
theorem isFinite_unpack {s : Sign} {e : BitVec 11} {m : BitVec 52} (h : e ≠ -1#11) :
    (UnpackedFloat.unpack Format.binary64 (pattern s e m)).isFinite = true := by
  rw [unpack_pattern, if_neg h]
  by_cases hfirst : e = 0#11
  · rw [if_pos hfirst]
    by_cases hzero : m = 0#52
    · rw [dif_pos hzero]
      rfl
    · rw [dif_neg hzero]
      rfl
  · rw [if_neg hfirst]
    rfl

/-- The number that exponent and fraction make up is the pattern of a double without a sign.
Carrying from the fraction into the exponent is therefore addition. -/
theorem ofBits_fields (e : BitVec 11) (m : BitVec 52) :
    Float.ofBits (UInt64.ofNat (e.toNat * 0x10000000000000 + m.toNat)) =
      ofFields .positive e m := by
  have hm : m.toNat < 2 ^ 52 := m.isLt
  have he : e.toNat < 2 ^ 11 := e.isLt
  have hpattern := toNat_pattern .positive e m
  simp only [Sign.toBitVec, BitVec.toNat_ofNat] at hpattern
  rw [ofFields]
  congr 1
  rw [← UInt64.toNat_inj, UInt64.toNat_ofNat']
  change _ = (pattern .positive e m).toNat
  omega

/-- A double is finite unless its exponent is the last one. -/
theorem isFinite_ofFields {s : Sign} {e : BitVec 11} {m : BitVec 52} (h : IsNumber e m) :
    (ofFields s e m).isFinite = true ↔ e ≠ -1#11 := by
  change (UnpackedFloat.unpack Format.binary64 (patternOf (ofFields s e m))).isFinite = true ↔ _
  rw [patternOf, toBits_ofFields h]
  constructor
  · rintro hfinite rfl
    obtain rfl := h rfl
    rw [unpack_last] at hfinite
    cases hfinite
  · exact isFinite_unpack

theorem of_isFinite {u : UnpackedFloat} (h : u.isFinite = true) :
    u.isInf = false ∧ u.isNaN = false := by
  cases u with
  | notANumber => cases h
  | infinity s => cases h
  | zero s => exact ⟨rfl, rfl⟩
  | finite s m e hm => exact ⟨rfl, rfl⟩

/-- Of the doubles with fields those with the last exponent are infinite. -/
theorem isInf_ofFields {s : Sign} {e : BitVec 11} {m : BitVec 52} (h : IsNumber e m) :
    (ofFields s e m).isInf = true ↔ e = -1#11 := by
  change (UnpackedFloat.unpack Format.binary64 (patternOf (ofFields s e m))).isInf = true ↔ _
  rw [patternOf, toBits_ofFields h]
  by_cases hlast : e = -1#11
  · subst hlast
    obtain rfl := h rfl
    rw [unpack_last]
    exact iff_of_true rfl rfl
  · rw [(of_isFinite (isFinite_unpack hlast)).1]
    exact iff_of_false (by decide) hlast

theorem isNaN_ofFields {s : Sign} {e : BitVec 11} {m : BitVec 52} (h : IsNumber e m) :
    (ofFields s e m).isNaN = false := by
  change (UnpackedFloat.unpack Format.binary64 (patternOf (ofFields s e m))).isNaN = false
  rw [patternOf, toBits_ofFields h]
  by_cases hlast : e = -1#11
  · subst hlast
    obtain rfl := h rfl
    rw [unpack_last]
    rfl
  · exact (of_isFinite (isFinite_unpack hlast)).2

theorem isNaN_nan : nan.isNaN = true := by decide

theorem isFinite_nan : nan.isFinite = false := by decide

theorem isInf_nan : nan.isInf = false := by decide

/-- **Three kinds.** A double is finite, infinite or NaN, and only one of them. -/
theorem isFinite_iff (f : Float) : f.isFinite = true ↔ f.isInf = false ∧ f.isNaN = false := by
  rcases eq_nan_or_ofFields f with rfl | ⟨s, e, m, h, rfl⟩
  · rw [isFinite_nan, isNaN_nan]
    simp
  · rw [isFinite_ofFields h, isNaN_ofFields h, ← Bool.not_eq_true, isInf_ofFields h]
    simp

/-- The sign has no part in that. -/
theorem isFinite_neg (f : Float) : (-f).isFinite = f.isFinite := by
  rcases eq_nan_or_ofFields f with rfl | ⟨s, e, m, h, rfl⟩
  · rw [neg_nan]
  · rw [neg_ofFields h, Bool.eq_iff_iff, isFinite_ofFields h, isFinite_ofFields h]

/-- The double with or without a minus sign. -/
def signed (negative : Bool) (f : Float) : Float := if negative then -f else f

/-- Putting a sign twice is the same as not putting it at all. -/
theorem signed_signed (negative : Bool) (f : Float) : signed negative (signed negative f) = f := by
  cases negative with
  | false => rfl
  | true => exact neg_neg f

end Double

/-! ## Canonical form -/

namespace Binary

/-- A mantissa of 53 bits, or fewer with the least exponent; that is how doubles have it. -/
structure IsCanonical (b : Binary) : Prop where
  /-- the mantissa has at most 53 bits -/
  digits : b.mantissa < 0x20000000000000
  /-- no bit stands under the last place of the smallest doubles -/
  low : -1074 ≤ b.exponent
  /-- no double is larger -/
  high : b.exponent ≤ 971
  /-- the first bit is set where it is left out of the pattern -/
  leading : 0x10000000000000 ≤ b.mantissa ∨ b.exponent = -1074

/-- The bits of a magnitude. For a mantissa of 53 bits its first one carries into the exponent. -/
def bits (b : Binary) : Nat := (b.exponent + 1074).toNat * 0x10000000000000 + b.mantissa

/-- The bits of zero. It has no first bit to leave out, so it stands with the least exponent, and
its sign is not part of its magnitude. -/
theorem IsCanonical.bits_eq_zero {b : Binary} (hb : b.IsCanonical) (hzero : b.mantissa = 0) :
    b.bits = 0 := by
  have hleast : b.exponent = -1074 := by
    rcases hb.leading with hleading | hleast
    · omega
    · exact hleast
  rw [bits, hzero, hleast]
  rfl

/-- What the fields of a double say about its number: with the first exponent the fraction is all of
the mantissa, with the others there is a leading bit. -/
theorem ofFloat_ofFields {s : Sign} {e : BitVec 11} {m : BitVec 52} (h : Double.IsNumber e m) :
    ofFloat (Double.ofFields s e m) =
      { negative := s == .negative
        mantissa := if e.toNat = 0 then m.toNat else m.toNat + 0x10000000000000
        exponent := if e.toNat = 0 then -1074 else (e.toNat : Int) - 1075 } := by
  have he : e.toNat < 2 ^ 11 := e.isLt
  have hm : m.toNat < 2 ^ 52 := m.isLt
  have hbits : (Double.ofFields s e m).toBits.toNat =
      s.toBitVec.toNat * 0x8000000000000000 + e.toNat * 0x10000000000000 + m.toNat := by
    rw [Double.toBits_ofFields h]
    exact Double.toNat_pattern s e m
  have hsign : s.toBitVec.toNat = if s == .negative then 1 else 0 := by cases s <;> rfl
  have hs : s.toBitVec.toNat < 2 := s.toBitVec.isLt
  have hbiased : (Double.ofFields s e m).toBits.toNat / 0x10000000000000 % 0x800 = e.toNat := by
    omega
  have hfraction : (Double.ofFields s e m).toBits.toNat % 0x10000000000000 = m.toNat := by omega
  have hnegative : (Double.ofFields s e m).toBits.toNat / 0x8000000000000000 =
      s.toBitVec.toNat := by
    omega
  simp only [ofFloat, hbiased, hfraction, hnegative, hsign]
  cases s <;> rfl

/-- The mantissa and the exponent of a finite double are those of its pattern, so they have the form
of which the lemmas below speak. -/
theorem isCanonical_ofFloat {f : Float} (h : f.isFinite = true) : (ofFloat f).IsCanonical := by
  rcases Double.eq_nan_or_ofFields f with rfl | ⟨s, e, m, hnumber, rfl⟩
  · rw [Double.isFinite_nan] at h
    cases h
  · have hm : m.toNat < 2 ^ 52 := m.isLt
    have he : e.toNat < 2 ^ 11 := e.isLt
    have hlast : e.toNat ≠ 0x7FF := fun heq =>
      (Double.isFinite_ofFields hnumber).mp h (BitVec.toNat_inj.mp heq)
    rw [ofFloat_ofFields hnumber]
    by_cases hfirst : e.toNat = 0
    · simp only [hfirst, if_true]
      refine ⟨?_, le_refl _, ?_, .inr rfl⟩ <;> dsimp only <;> omega
    · simp only [hfirst, if_false]
      refine ⟨?_, ?_, ?_, .inl ?_⟩ <;> dsimp only <;> omega

/-- **Bits.** A double is given by its sign and the bits of its magnitude. So it is enough to find
these bits when a double is to be computed. -/
theorem eq_signed_bits {f : Float} (h : f.isNaN = false) :
    f = Double.signed (ofFloat f).negative (Float.ofBits (UInt64.ofNat (ofFloat f).bits)) := by
  rcases Double.eq_nan_or_ofFields f with rfl | ⟨s, e, m, hnumber, rfl⟩
  · rw [Double.isNaN_nan] at h
    cases h
  · have hm : m.toNat < 2 ^ 52 := m.isLt
    have he : e.toNat < 2 ^ 11 := e.isLt
    have hbits : (ofFloat (Double.ofFields s e m)).bits =
        e.toNat * 0x10000000000000 + m.toNat := by
      rw [ofFloat_ofFields hnumber, bits]
      -- with the least exponent there is no leading bit to leave out, with any other there is one
      by_cases hfirst : e.toNat = 0
      · simp only [hfirst, if_true]
        omega
      · simp only [hfirst, if_false]
        omega
    have hmagnitude : Float.ofBits (UInt64.ofNat (ofFloat (Double.ofFields s e m)).bits) =
        Double.ofFields .positive e m := by
      rw [hbits, Double.ofBits_fields]
    rw [hmagnitude, ofFloat_ofFields hnumber]
    cases s with
    | positive => rfl
    | negative =>
      have hneg : -Double.ofFields .positive e m = Double.ofFields .negative e m :=
        Double.neg_ofFields hnumber
      exact hneg.symm

/-- The bits of a canonical magnitude are exponent and fraction of a finite double: they lie below
those of infinity. -/
theorem exists_fields {b : Binary} (hb : b.IsCanonical) : ∃ (e : BitVec 11) (m : BitVec 52),
    Float.ofBits (UInt64.ofNat b.bits) = Double.ofFields .positive e m ∧ e ≠ -1#11 ∧
      e.toNat = b.bits / 0x10000000000000 ∧ m.toNat = b.bits % 0x10000000000000 := by
  have hdigits := hb.digits
  have hlow := hb.low
  have hhigh := hb.high
  have hbits : b.bits < 0x7FF * 0x10000000000000 := by
    rw [bits]
    omega
  have hexponent : (BitVec.ofNat 11 (b.bits / 0x10000000000000)).toNat =
      b.bits / 0x10000000000000 := by
    rw [BitVec.toNat_ofNat]
    omega
  have hfraction : (BitVec.ofNat 52 b.bits).toNat = b.bits % 0x10000000000000 :=
    BitVec.toNat_ofNat ..
  -- larger exponents than those of canonical magnitudes are left for the infinities
  have hlast : BitVec.ofNat 11 (b.bits / 0x10000000000000) ≠ -1#11 := by
    intro heq
    have hones : (-1#11).toNat = 0x7FF := rfl
    rw [heq, hones] at hexponent
    omega
  have hfields := Double.ofBits_fields (BitVec.ofNat 11 (b.bits / 0x10000000000000))
    (BitVec.ofNat 52 b.bits)
  rw [hexponent, hfraction, Nat.div_add_mod'] at hfields
  exact ⟨_, _, hfields, hlast, hexponent, hfraction⟩

theorem isFinite_bits {b : Binary} (hb : b.IsCanonical) :
    (Float.ofBits (UInt64.ofNat b.bits)).isFinite = true := by
  obtain ⟨e, m, hfields, hlast, -, -⟩ := exists_fields hb
  rw [hfields, Double.isFinite_ofFields fun heq => absurd heq hlast]
  exact hlast

/-- **Magnitude.** The double of the bits has the mantissa and the exponent again. With
`eq_signed_bits` this makes canonical magnitudes and finite doubles without a sign the same thing.
-/
theorem ofFloat_bits {b : Binary} (hb : b.IsCanonical) :
    ofFloat (Float.ofBits (UInt64.ofNat b.bits)) = { b with negative := false } := by
  obtain ⟨e, m, hfields, hlast, hexponent, hfraction⟩ := exists_fields hb
  have hdigits := hb.digits
  have hlow := hb.low
  rw [hfields, ofFloat_ofFields fun heq => absurd heq hlast]
  rw [bits] at hexponent hfraction
  rcases hb.leading with hleading | hleast
  · have hnonzero : e.toNat ≠ 0 := by omega
    simp only [hnonzero, if_false, mk.injEq]
    exact ⟨rfl, by omega, by omega⟩
  · by_cases hfirst : e.toNat = 0
    · simp only [hfirst, if_true, mk.injEq]
      exact ⟨rfl, by omega, by omega⟩
    · simp only [hfirst, if_false, mk.injEq]
      exact ⟨rfl, by omega, by omega⟩

/-- Negation turns the sign of a number and keeps its mantissa and its exponent. -/
theorem ofFloat_neg {f : Float} (h : f.isNaN = false) :
    ofFloat (-f) = { ofFloat f with negative := !(ofFloat f).negative } := by
  rcases Double.eq_nan_or_ofFields f with rfl | ⟨s, e, m, hnumber, rfl⟩
  · rw [Double.isNaN_nan] at h
    cases h
  · rw [Double.neg_ofFields hnumber, ofFloat_ofFields hnumber, ofFloat_ofFields hnumber]
    cases s <;> rfl

end Binary

namespace Double

/-- **Infinities.** There are two of them, told apart by their sign. -/
theorem eq_of_isInf {f : Float} (h : f.isInf = true) :
    f = signed (Binary.ofFloat f).negative (1.0 / 0.0) := by
  rcases eq_nan_or_ofFields f with rfl | ⟨s, e, m, hnumber, rfl⟩
  · rw [isInf_nan] at h
    cases h
  · obtain rfl := (isInf_ofFields hnumber).mp h
    obtain rfl := hnumber rfl
    cases s <;> decide

/-- There is one NaN, so that a double is known once it is said to be none of the numbers. -/
theorem eq_nan_of_isNaN {f : Float} (h : f.isNaN = true) : f = nan := by
  rcases eq_nan_or_ofFields f with rfl | ⟨s, e, m, hnumber, rfl⟩
  · rfl
  · rw [isNaN_ofFields hnumber] at h
    cases h

end Double

end FeatureTransform
