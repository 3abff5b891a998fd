import FeatureTransform.Proofs.Double.Nearest

/-!
# The values of doubles

A finite double stands for a rational number. In terms of these numbers, rounding is what it should
be: a double is rounded to the integer nearest to it, and the double that catches a number is none
that another double is nearer to.
-/

namespace FeatureTransform

namespace Binary

/-- The number that a double stands for. -/
def toRat (b : Binary) : ℚ := if b.negative then -b.value else b.value

theorem value_nonneg (b : Binary) : 0 ≤ b.value := by
  unfold value
  positivity

theorem abs_toRat (b : Binary) : |b.toRat| = b.value := by
  have hnonneg := b.value_nonneg
  rw [toRat]
  split
  · rw [abs_neg, abs_of_nonneg hnonneg]
  · rw [abs_of_nonneg hnonneg]

/-! ## The nearest integer -/

theorem den_fraction_pos (b : Binary) : 0 < b.fraction.2 := by
  rw [fraction]
  split
  · exact Nat.one_pos
  · simp [Nat.shiftLeft_eq]

/-- The fraction has the magnitude, so that computing with fractions is computing with values. -/
theorem num_fraction (b : Binary) : (b.fraction.1 : ℚ) = b.value * b.fraction.2 := by
  rw [fraction, value]
  split
  · rename_i hpos
    obtain ⟨n, hn⟩ := Int.eq_ofNat_of_zero_le hpos
    simp [hn, Nat.shiftLeft_eq]
  · rename_i hneg
    obtain ⟨n, hn⟩ := Int.eq_ofNat_of_zero_le (show 0 ≤ -b.exponent by omega)
    have hexponent : b.exponent = -(n : Int) := by omega
    simp [hexponent, Nat.shiftLeft_eq]

/-- **Rounding** moves a double by half a unit at most, and so to an integer that is nearest. Halves
are moved away from zero, which is as near. -/
theorem abs_round_sub_le (b : Binary) : |(b.round : ℚ) - b.toRat| ≤ 1 / 2 := by
  have hden := b.den_fraction_pos
  have hden' : (0 : ℚ) < b.fraction.2 := by exact_mod_cast hden
  have hnum := b.num_fraction
  have hround : b.round = b.signed ((2 * b.fraction.1 + b.fraction.2) / (2 * b.fraction.2)) := rfl
  have hbelow := Nat.div_mul_le_self (2 * b.fraction.1 + b.fraction.2) (2 * b.fraction.2)
  have habove := Nat.lt_div_mul_add (a := 2 * b.fraction.1 + b.fraction.2)
    (show 0 < 2 * b.fraction.2 by omega)
  -- rounding is a division with rest, of twice the numbers so that a half is added
  generalize (2 * b.fraction.1 + b.fraction.2) / (2 * b.fraction.2) = n at *
  have hmagnitude : |(n : ℚ) - b.value| ≤ 1 / 2 := by
    have hbelow' : (n : ℚ) * (2 * b.fraction.2) ≤ 2 * b.fraction.1 + b.fraction.2 := by
      exact_mod_cast hbelow
    have habove' : (2 * b.fraction.1 + b.fraction.2 : ℚ) <
        n * (2 * b.fraction.2) + 2 * b.fraction.2 := by
      exact_mod_cast habove
    rw [hnum] at hbelow' habove'
    rw [abs_le]
    constructor
    · nlinarith
    · nlinarith
  rw [hround, signed, toRat]
  split
  · rw [Int.cast_neg, Int.cast_natCast, neg_sub_neg, abs_sub_comm]
    exact hmagnitude
  · exact hmagnitude

/-- No other integer is nearer to a double than the one that it is rounded to. -/
theorem abs_round_sub_le_int (b : Binary) (i : Int) :
    |(b.round : ℚ) - b.toRat| ≤ |(i : ℚ) - b.toRat| := by
  have hround := b.abs_round_sub_le
  by_cases hi : i = b.round
  · rw [hi]
  · have hapart : (1 : ℚ) ≤ |(i : ℚ) - b.round| := by
      exact_mod_cast Int.one_le_abs (sub_ne_zero.mpr hi)
    have htriangle := abs_sub_le (i : ℚ) b.toRat b.round
    rw [abs_sub_comm b.toRat] at htriangle
    linarith

/-! ## The nearest double -/

section Nearest

variable {b d : Binary}

/-- Counted in an earlier place, a number is a natural one. So two doubles can be compared as
natural numbers, counted in the earlier of their last places. -/
theorem exists_value_eq {e : Int} (he : e ≤ d.exponent) : ∃ n : Nat, d.value = n * 2 ^ e := by
  obtain ⟨k, hk⟩ := Int.eq_ofNat_of_zero_le (show 0 ≤ d.exponent - e by omega)
  refine ⟨d.mantissa * 2 ^ k, ?_⟩
  have hexponent : d.exponent = k + e := by omega
  rw [value, hexponent, zpow_add₀ two_ne_zero, zpow_natCast]
  push_cast
  ring

/-- Of numbers that are counted in a place, one that is larger than another is larger by a unit at
least. -/
theorem add_one_mul_le {e : Int} (he : e ≤ d.exponent) {k : Nat} (h : k * 2 ^ e < d.value) :
    (k + 1 : ℚ) * 2 ^ e ≤ d.value := by
  have hpow : (0 : ℚ) < 2 ^ e := by positivity
  obtain ⟨n, hn⟩ := exists_value_eq he
  rw [hn, mul_lt_mul_iff_left₀ hpow] at h
  rw [hn, mul_le_mul_iff_left₀ hpow]
  exact_mod_cast h

theorem le_sub_one_mul {e : Int} (he : e ≤ d.exponent) {k : Nat} (h : d.value < k * 2 ^ e) :
    d.value ≤ (k - 1 : ℚ) * 2 ^ e := by
  have hpow : (0 : ℚ) < 2 ^ e := by positivity
  obtain ⟨n, hn⟩ := exists_value_eq he
  rw [hn, mul_lt_mul_iff_left₀ hpow] at h
  rw [hn, mul_le_mul_iff_left₀ hpow, le_sub_iff_add_le]
  exact_mod_cast h

/-- Counted in a later place, a number has less than 53 bits, as its own 53 bits reach further down.
-/
theorem value_lt {e : Int} (hd : d.IsCanonical) (he : d.exponent < e) :
    d.value < 2 ^ 52 * 2 ^ e := by
  have hdigits := cast_mantissa_lt hd
  have hpow : (0 : ℚ) < 2 ^ d.exponent := by positivity
  calc d.value < 2 ^ 53 * 2 ^ d.exponent := mul_lt_mul_of_pos_right (by linarith) hpow
    _ = 2 ^ 52 * 2 ^ (d.exponent + 1) := by
      rw [zpow_add₀ two_ne_zero]
      ring
    _ ≤ 2 ^ 52 * 2 ^ e := by
      gcongr
      · exact one_le_two
      · omega

/-- Numbers of 53 bits and more before the point have nothing behind it. -/
theorem exists_value_eq_natCast (hd : d.IsCanonical) (h : 2 ^ 52 ≤ d.value) :
    ∃ n : Nat, d.value = n := by
  have hwhole : 0 ≤ d.exponent := by
    by_contra hneg
    have hless := value_lt hd (not_le.mp hneg)
    rw [zpow_zero, mul_one] at hless
    exact absurd h (not_le.mpr hless)
  obtain ⟨n, hn⟩ := exists_value_eq hwhole
  exact ⟨n, by rw [hn, zpow_zero, mul_one]⟩

/-- A number with a later last place than some other has its first bit set. -/
theorem leading_of_lt (hb : b.IsCanonical) (hd : d.IsCanonical) (h : d.exponent < b.exponent) :
    0x10000000000000 ≤ b.mantissa := by
  have hlow := hd.low
  exact hb.leading.resolve_right (by omega)

/-- **Exact.** A number of 53 bits is a double, and caught by no other one. Up to there, integers
and doubles are the same numbers. -/
theorem Catches.value_eq {n : Nat} (hcatch : b.Catches n) (hb : b.IsCanonical) (hn : n < 2 ^ 53) :
    b.value = n := by
  have hlow := hcatch.low
  have hhigh := hcatch.high
  have hreach := b.reach_le
  -- no place of the double stands before the point
  have hplace : b.exponent ≤ 0 := by
    by_contra hpos
    have hfirst : 0x10000000000000 ≤ b.mantissa := hb.leading.resolve_right (by omega)
    have hmantissa : (2 ^ 52 - 1 / 4 : ℚ) ≤ b.mantissa - b.reach := by
      rw [reach]
      split
      · rename_i hpower
        rw [hpower.1]
        norm_num
      · rename_i hpower
        have hnext : ((0x10000000000000 + 1 : Nat) : ℚ) ≤ b.mantissa := by
          have hne : b.mantissa ≠ 0x10000000000000 := fun heq => hpower ⟨heq, by omega⟩
          exact_mod_cast (show 0x10000000000000 + 1 ≤ b.mantissa by omega)
        push_cast at hnext
        linarith
    have htwo : (2 : ℚ) ^ (1 : Int) ≤ 2 ^ b.exponent := zpow_le_zpow_right₀ one_le_two (by omega)
    have hless : (n : ℚ) + 1 ≤ 2 ^ 53 := by exact_mod_cast hn
    rw [zpow_one] at htwo
    nlinarith
  -- counted in its place both are whole, and less than one apart
  obtain ⟨k, hk⟩ := Int.eq_ofNat_of_zero_le (show 0 ≤ -b.exponent by omega)
  have hexponent : b.exponent = -(k : Int) := by omega
  have hpow : (0 : ℚ) < 2 ^ b.exponent := by positivity
  have hcounted : (n : ℚ) = (n * 2 ^ k : Nat) * 2 ^ b.exponent := by
    rw [hexponent, zpow_neg, zpow_natCast]
    push_cast
    field_simp
  rw [hcounted, mul_le_mul_iff_left₀ hpow] at hlow hhigh
  have hbelow : (b.mantissa : ℚ) < ((n * 2 ^ k + 1 : Nat) : ℚ) := by
    push_cast at hlow ⊢
    linarith
  have habove : ((n * 2 ^ k : Nat) : ℚ) < ((b.mantissa + 1 : Nat) : ℚ) := by
    push_cast at hhigh ⊢
    linarith
  have hmantissa : b.mantissa = n * 2 ^ k :=
    Nat.le_antisymm (Nat.le_of_lt_succ (by exact_mod_cast hbelow))
      (Nat.le_of_lt_succ (by exact_mod_cast habove))
  rw [hcounted, value, hmantissa]

/-- The next double is a place away: between two neighbours there are no others, whichever of their
places is the earlier one. -/
theorem value_add_le (hb : b.IsCanonical) (hd : d.IsCanonical) (hlt : b.value < d.value) :
    b.value + 2 ^ b.exponent ≤ d.value := by
  rcases le_or_gt b.exponent d.exponent with he | he
  · have hnext := add_one_mul_le he hlt
    rwa [add_mul, one_mul] at hnext
  · exfalso
    have hfirst : (0x10000000000000 : ℚ) ≤ b.mantissa := by exact_mod_cast leading_of_lt hb hd he
    have hsmall := value_lt hd he
    have hlarge : 2 ^ 52 * 2 ^ b.exponent ≤ b.value := by
      rw [value]
      gcongr
      linarith
    linarith

/-- The double before is a place away, or half a place under a power of two. -/
theorem le_value_sub (hb : b.IsCanonical) (hd : d.IsCanonical) (hlt : d.value < b.value) :
    d.value ≤ b.value - 2 * b.reach * 2 ^ b.exponent := by
  have hpow : (0 : ℚ) < 2 ^ b.exponent := by positivity
  rw [reach]
  split
  · -- below a power of two the places are half as wide
    rename_i hpower
    have hhalf : (2 : ℚ) ^ (b.exponent - 1) = 2 ^ b.exponent / 2 := by
      rw [zpow_sub₀ two_ne_zero, zpow_one]
    have hvalue : b.value = (0x20000000000000 : Nat) * 2 ^ (b.exponent - 1) := by
      rw [value, hpower.1, hhalf]
      push_cast
      ring
    -- the other double has its last place at the narrower one or after it, or before it
    rcases le_or_gt (b.exponent - 1) d.exponent with he | he
    · rw [hvalue] at hlt
      have hbefore := le_sub_one_mul he hlt
      rw [sub_mul, ← hvalue, hhalf] at hbefore
      linarith
    · have hsmall := value_lt hd he
      rw [hvalue]
      rw [hhalf] at hsmall ⊢
      push_cast
      linarith
  · -- elsewhere both neighbours are a whole place away
    rename_i hpower
    rcases le_or_gt b.exponent d.exponent with he | he
    · have hbefore := le_sub_one_mul he hlt
      rw [sub_mul] at hbefore
      change d.value ≤ b.value - _ at hbefore
      linarith
    · have hlow := hd.low
      have hfirst := leading_of_lt hb hd he
      -- its exponent is not the least one, so that a power of two would have been the first case
      have hne : b.mantissa ≠ 0x10000000000000 := fun heq => hpower ⟨heq, by omega⟩
      have hnext : ((0x10000000000000 + 1 : Nat) : ℚ) ≤ b.mantissa := by
        exact_mod_cast (show 0x10000000000000 + 1 ≤ b.mantissa by omega)
      have hsmall := value_lt hd he
      have hlarge : (2 ^ 52 + 1) * 2 ^ b.exponent ≤ b.value := by
        rw [value]
        gcongr
        push_cast at hnext
        linarith
      linarith

/-- **Doubles.** No double is nearer to a number than the one that catches it. The interval ends
halfway to the neighbours on both sides, and these are a place away, or half a place under a power
of two. -/
theorem Catches.abs_sub_le {x : ℚ} (hcatch : b.Catches x) (hb : b.IsCanonical)
    (hd : d.IsCanonical) : |b.value - x| ≤ |d.value - x| := by
  have hlow := hcatch.low
  have hhigh := hcatch.high
  rw [sub_mul] at hlow
  rw [add_mul] at hhigh
  change b.value - _ ≤ x at hlow
  change x ≤ b.value + _ at hhigh
  rcases lt_trichotomy b.value d.value with hlt | heq | hlt
  · have hnext := value_add_le hb hd hlt
    rw [abs_of_nonneg (show 0 ≤ d.value - x by linarith), abs_le]
    constructor <;> linarith
  · rw [heq]
  · have hnext := le_value_sub hb hd hlt
    rw [abs_sub_comm d.value, abs_of_nonneg (show 0 ≤ x - d.value by linarith), abs_le]
    constructor <;> linarith

end Nearest

/-! ## Sizes -/

section Sizes

variable {b : Binary} {x : ℚ}

theorem value_lt_limit (hb : b.IsCanonical) : b.value < limit := by
  have hdigits := cast_mantissa_lt hb
  have hpow : (2 : ℚ) ^ b.exponent ≤ 2 ^ (971 : Int) := zpow_le_zpow_right₀ one_le_two hb.high
  calc b.value ≤ b.mantissa * 2 ^ (971 : Int) :=
        mul_le_mul_of_nonneg_left hpow (Nat.cast_nonneg _)
    _ < limit := by
        rw [limit]
        exact mul_lt_mul_of_pos_right (by linarith) (by positivity)

/-- The first bit of a double that catches a number from one on is set. -/
theorem Catches.leading (hcatch : b.Catches x) (hb : b.IsCanonical) (hx : 1 ≤ x) :
    0x10000000000000 ≤ b.mantissa := by
  refine hb.leading.resolve_right fun hleast => ?_
  have hdigits := cast_mantissa_lt hb
  have hhigh := hcatch.high
  have hsmall : ((b.mantissa : ℚ) + 1 / 2) * 2 ^ b.exponent < 2 ^ (53 : Int) * 2 ^ (-53 : Int) := by
    rw [hleast]
    apply mul_lt_mul'' _ _ (by positivity) (by positivity)
    · norm_num at hdigits ⊢
      linarith
    · exact zpow_lt_zpow_right₀ one_lt_two (by decide)
  rw [← zpow_add₀ two_ne_zero, show (53 : Int) + -53 = 0 by rfl, zpow_zero] at hsmall
  linarith

/-- Such a number is at most twice as large as the double. -/
theorem Catches.le_two_mul_value (hcatch : b.Catches x) (hb : b.IsCanonical) (hx : 1 ≤ x) :
    x ≤ 2 * b.value := by
  have hleading : ((0x10000000000000 : Nat) : ℚ) ≤ b.mantissa := by
    exact_mod_cast hcatch.leading hb hx
  push_cast at hleading
  calc x ≤ (b.mantissa + 1 / 2) * 2 ^ b.exponent := hcatch.high
    _ ≤ 2 * b.mantissa * 2 ^ b.exponent := by
      gcongr
      linarith
    _ = 2 * b.value := by
      rw [value]
      ring

/-- The double is larger than such a number by half a place at most, which is the last of 53. This
is the relative error of one rounding. -/
theorem Catches.value_mul_le (hcatch : b.Catches x) (hb : b.IsCanonical) (hx : 1 ≤ x) :
    b.value * (1 - 1 / 2 ^ 53) ≤ x := by
  have hleading : ((0x10000000000000 : Nat) : ℚ) ≤ b.mantissa := by
    exact_mod_cast hcatch.leading hb hx
  push_cast at hleading
  have hreach := b.reach_le
  calc b.value * (1 - 1 / 2 ^ 53) = b.mantissa * (1 - 1 / 2 ^ 53) * 2 ^ b.exponent := by
        rw [value]
        ring
    _ ≤ (b.mantissa - b.reach) * 2 ^ b.exponent := by
      gcongr
      linarith
    _ ≤ x := hcatch.low

end Sizes

/-! ## Products and quotients -/

section Arithmetic

variable {a b : Binary}

theorem num_fraction_pos (h : 0 < a.value) : 0 < a.fraction.1 := by
  have hpos : (0 : ℚ) < a.fraction.1 := by
    rw [num_fraction]
    exact mul_pos h (by exact_mod_cast a.den_fraction_pos)
  exact_mod_cast hpos

theorem times_fraction (a b : Binary) :
    ((a.fraction.1 * b.fraction.1 : Nat) : ℚ) / (a.fraction.2 * b.fraction.2 : Nat) =
      a.value * b.value := by
  have hden : ((a.fraction.2 * b.fraction.2 : Nat) : ℚ) ≠ 0 := by
    exact_mod_cast (Nat.mul_pos a.den_fraction_pos b.den_fraction_pos).ne'
  rw [div_eq_iff hden, Nat.cast_mul, Nat.cast_mul, num_fraction, num_fraction]
  ring

theorem over_fraction (a b : Binary) :
    ((a.fraction.1 * b.fraction.2 : Nat) : ℚ) / (a.fraction.2 * b.fraction.1 : Nat) =
      a.value / b.value := by
  have hleft : (a.fraction.2 : ℚ) ≠ 0 := by exact_mod_cast a.den_fraction_pos.ne'
  have hright : (b.fraction.2 : ℚ) ≠ 0 := by exact_mod_cast b.den_fraction_pos.ne'
  rw [Nat.cast_mul, Nat.cast_mul, num_fraction, num_fraction]
  field_simp

/-- A product within the range is finite; only beyond the largest double and half a place does it
become infinite. -/
theorem isFinite_times (h : a.value * b.value < limit) : (a.times b).isFinite = true := by
  rw [← times_fraction] at h
  exact (nearestFraction_spec (Nat.mul_pos a.den_fraction_pos b.den_fraction_pos) h).1

/-- A quotient within the range is finite. -/
theorem isFinite_over (hb : 0 < b.value) (h : a.value / b.value < limit) :
    (a.over b).isFinite = true := by
  rw [← over_fraction] at h
  exact (nearestFraction_spec (Nat.mul_pos a.den_fraction_pos (num_fraction_pos hb)) h).1

variable {c : Binary} (hc : c.IsCanonical)
include hc

/-- The product is rounded once: it is the double that catches the exact product of both values. -/
theorem times_eq (ha : 0 < a.value) (hb : 0 < b.value) (hcatch : c.Catches (a.value * b.value)) :
    a.times b = Float.ofBits (UInt64.ofNat c.bits) := by
  rw [← times_fraction] at hcatch
  exact nearestFraction_eq (Nat.mul_pos (num_fraction_pos ha) (num_fraction_pos hb))
    (Nat.mul_pos a.den_fraction_pos b.den_fraction_pos) hc hcatch

/-- So is the quotient: it is the double that catches the exact quotient of both values. -/
theorem over_eq (ha : 0 < a.value) (hb : 0 < b.value) (hcatch : c.Catches (a.value / b.value)) :
    a.over b = Float.ofBits (UInt64.ofNat c.bits) := by
  rw [← over_fraction] at hcatch
  exact nearestFraction_eq (Nat.mul_pos (num_fraction_pos ha) b.den_fraction_pos)
    (Nat.mul_pos a.den_fraction_pos (num_fraction_pos hb)) hc hcatch

end Arithmetic

theorem toRat_ofFloat_neg {f : Float} (h : f.isNaN = false) :
    (ofFloat (-f)).toRat = -(ofFloat f).toRat := by
  rw [ofFloat_neg h]
  cases hnegative : (ofFloat f).negative <;> simp [toRat, value, hnegative]

end Binary

namespace Double

open Binary (ofFloat)

/-- The nearest double of a natural number is caught by no other one. -/
theorem abs_nearestFraction_sub_le {n : Nat} (h : n < 0x10000000000000000) {b : Binary}
    (hb : b.IsCanonical) :
    |(ofFloat (Float.nearestFraction n 1)).toRat - n| ≤ |b.value - n| := by
  by_cases hzero : n = 0
  · subst hzero
    have hmantissa : (ofFloat (Float.nearestFraction 0 1)).mantissa = 0 := by decide
    have hvalue : (ofFloat (Float.nearestFraction 0 1)).toRat = 0 := by
      simp [Binary.toRat, Binary.value, hmantissa]
    rw [hvalue, Nat.cast_zero, sub_zero, abs_zero]
    exact abs_nonneg _
  · have hpos := Nat.pos_of_ne_zero hzero
    obtain ⟨c, hc, hcatch, heq⟩ := exists_catches_nearest hpos h
    have hvalue : (ofFloat (Float.nearestFraction n 1)).toRat = c.value := by
      rw [heq, Binary.ofFloat_bits hc]
      rfl
    rw [hvalue]
    exact hcatch.abs_sub_le hc hb

/-- The double nearest to an integer lies as far from it as that of its magnitude, so that signs
need no attention. -/
theorem abs_nearest_sub {n : Int} (h : n.natAbs < 0x10000000000000000) :
    |(ofFloat (Float.nearest n)).toRat - n| =
      |(ofFloat (Float.nearestFraction n.natAbs 1)).toRat - n.natAbs| := by
  rw [Float.nearest]
  split
  · rename_i hneg
    have hmagnitude : (n.natAbs : ℚ) = -n := by
      rw [Nat.cast_natAbs, abs_of_neg hneg, Int.cast_neg]
    have hnumber := ((isFinite_iff _).mp (isFinite_nearestFraction h)).2
    rw [Binary.toRat_ofFloat_neg hnumber, hmagnitude, sub_neg_eq_add, ← neg_add', abs_neg]
  · rename_i hnonneg
    have hmagnitude : (n.natAbs : ℚ) = n := by
      rw [Nat.cast_natAbs, abs_of_nonneg (not_lt.mp hnonneg)]
    rw [hmagnitude]

/-- **Integers** of 64 bits have a nearest double: no other one is nearer to them. -/
theorem abs_nearest_sub_le {n : Int} (h : n.natAbs < 0x10000000000000000) {d : Float}
    (hd : d.isFinite = true) :
    |(ofFloat (Float.nearest n)).toRat - n| ≤ |(ofFloat d).toRat - n| := by
  have habs : |(n : ℚ)| = n.natAbs := by rw [Nat.cast_natAbs, Int.cast_abs]
  calc |(ofFloat (Float.nearest n)).toRat - n|
      = |(ofFloat (Float.nearestFraction n.natAbs 1)).toRat - n.natAbs| := abs_nearest_sub h
    _ ≤ |(ofFloat d).value - n.natAbs| :=
      abs_nearestFraction_sub_le h (Binary.isCanonical_ofFloat hd)
    _ = abs (|(ofFloat d).toRat| - |(n : ℚ)|) := by rw [Binary.abs_toRat, habs]
    _ ≤ |(ofFloat d).toRat - n| := abs_abs_sub_abs_le_abs_sub _ _

end Double

end FeatureTransform
