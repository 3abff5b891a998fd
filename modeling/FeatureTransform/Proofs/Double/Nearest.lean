import FeatureTransform.Proofs.Double.Bits
import Mathlib.Tactic
import Mathlib.Data.Rat.Cast.Order

/-!
# Nearest doubles

The reals that round to a double form an interval around it, half a last place to each side, or a
quarter below a power of two. `Binary.Catches` says that a rational lies in that interval, with the
ends left to the even mantissa. The main results are that `nearestBits` finds the double that
catches a fraction, and that there is one for every fraction that is not too large:

* **place** — the last place that `lastPlace` chooses is the one of 53 bits, or the least one;
* **rounding** — counted in that place, the fraction is rounded to the nearest integer, ties to
  the even one;
* **carry** — a fraction just below a power of two is counted in the place below it and rounded up
  to `2 ^ 53`, which the bits carry into the exponent.
-/

namespace FeatureTransform

/-! ## The last place -/

theorem lt_two_pow_log2 (n : Nat) : (n : ℚ) < 2 ^ ((n.log2 : Int) + 1) := by
  have h : n < 2 ^ (n.log2 + 1) := Nat.lt_log2_self
  exact_mod_cast h

theorem two_pow_log2_le {n : Nat} (hn : 0 < n) : (2 : ℚ) ^ (n.log2 : Int) ≤ n := by
  have h : 2 ^ n.log2 ≤ n := Nat.log2_self_le hn.ne'
  exact_mod_cast h

/-- The logarithms of numerator and denominator tell the size of a fraction from above. -/
theorem div_lt_two_zpow (num : Nat) {den : Nat} (hden : 0 < den) :
    (num : ℚ) / den < 2 ^ ((num.log2 : Int) - den.log2 + 1) := by
  have hden' : (0 : ℚ) < den := by exact_mod_cast hden
  rw [div_lt_iff₀ hden']
  calc (num : ℚ) < 2 ^ ((num.log2 : Int) + 1) := lt_two_pow_log2 num
    _ = 2 ^ ((num.log2 : Int) - den.log2 + 1) * 2 ^ (den.log2 : Int) := by
      rw [← zpow_add₀ two_ne_zero]
      congr 1
      ring
    _ ≤ _ := by
      have := two_pow_log2_le hden
      gcongr

/-- The logarithms tell the size of a fraction from below, too, so that it is known up to a factor
of four. -/
theorem two_zpow_lt_div {num den : Nat} (hnum : 0 < num) (hden : 0 < den) :
    (2 : ℚ) ^ ((num.log2 : Int) - den.log2 - 1) < num / den := by
  have hden' : (0 : ℚ) < den := by exact_mod_cast hden
  rw [lt_div_iff₀ hden']
  calc (2 : ℚ) ^ ((num.log2 : Int) - den.log2 - 1) * den
      < 2 ^ ((num.log2 : Int) - den.log2 - 1) * 2 ^ ((den.log2 : Int) + 1) := by
        have := lt_two_pow_log2 den
        gcongr
    _ = 2 ^ (num.log2 : Int) := by
      rw [← zpow_add₀ two_ne_zero]
      congr 1
      ring
    _ ≤ _ := two_pow_log2_le hnum

/-- Numerator and denominator are shifted so that they make the fraction counted in the place. Only
one of them is shifted, as the exponent has one sign. -/
theorem shifted_eq (num : Nat) {den : Nat} (hden : 0 < den) (e : Int) :
    ((num <<< (-e).toNat : Nat) : ℚ) = num / den * 2 ^ (-e) * ((den <<< e.toNat : Nat) : ℚ) := by
  have hden' : (den : ℚ) ≠ 0 := by positivity
  simp only [Nat.shiftLeft_eq, Nat.cast_mul, Nat.cast_pow, Nat.cast_ofNat]
  rcases le_total 0 e with he | he
  · obtain ⟨n, rfl⟩ := Int.eq_ofNat_of_zero_le he
    have hdown : (-(n : Int)).toNat = 0 := by omega
    rw [hdown, Int.toNat_natCast, zpow_neg, zpow_natCast]
    field_simp
  · obtain ⟨n, hn⟩ := Int.eq_ofNat_of_zero_le (neg_nonneg.mpr he)
    have hup : e.toNat = 0 := by omega
    rw [hup, hn, Int.toNat_natCast, zpow_natCast]
    field_simp

theorem shifted_lt_iff (num : Nat) {den : Nat} (hden : 0 < den) (e : Int) (n : Nat) :
    num <<< (-e).toNat < n * (den <<< e.toNat) ↔ (num : ℚ) / den < n * 2 ^ e := by
  have hunit : (0 : ℚ) < ((den <<< e.toNat : Nat) : ℚ) := by
    rw [Nat.shiftLeft_eq]
    positivity
  have hpow : (0 : ℚ) < 2 ^ e := by positivity
  rw [← Nat.cast_lt (α := ℚ), shifted_eq num hden, Nat.cast_mul, mul_lt_mul_iff_left₀ hunit,
    zpow_neg, ← div_eq_mul_inv, div_lt_iff₀ hpow]

/-- **Place.** The fraction has at most 53 bits before the last place, and 53 unless that place is
the least one. The logarithms leave two candidates, between which the code decides by a comparison.
-/
theorem lastPlace_spec {num den : Nat} (hnum : 0 < num) (hden : 0 < den) :
    -1074 ≤ lastPlace num den ∧ (num : ℚ) / den < 2 ^ (53 + lastPlace num den) ∧
      (lastPlace num den = -1074 ∨ (2 : ℚ) ^ (52 + lastPlace num den) ≤ num / den) := by
  have hhigh := div_lt_two_zpow num hden
  have hlow := two_zpow_lt_div hnum hden
  have hcond := shifted_lt_iff num hden (max (-1074) ((num.log2 : Int) - den.log2 - 53))
    0x20000000000000
  have hsplit : ∀ e : Int, ((0x20000000000000 : Nat) : ℚ) * 2 ^ e = 2 ^ (53 + e) := by
    intro e
    rw [zpow_add₀ two_ne_zero]
    norm_num
  rw [hsplit] at hcond
  simp only [lastPlace]
  generalize (num.log2 : Int) - den.log2 = k at *
  split
  · -- the lengths of the two numbers tell the place, or the place before it
    rename_i hlt
    refine ⟨le_max_left _ _, hcond.mp hlt, ?_⟩
    rcases le_total (k - 53) (-1074) with hk | hk
    · exact .inl (max_eq_left hk)
    · right
      rw [max_eq_right hk]
      calc (2 : ℚ) ^ (52 + (k - 53)) = 2 ^ (k - 1) := by congr 1; ring
        _ ≤ num / den := hlow.le
  · -- with another bit in front of the place, the next place is the last one
    rename_i hge
    have hge' := le_of_not_gt fun hlt => hge (hcond.mpr hlt)
    refine ⟨by omega, ?_, .inr ?_⟩
    · calc (num : ℚ) / den < 2 ^ (k + 1) := hhigh
        _ ≤ _ := zpow_le_zpow_right₀ one_le_two (by omega)
    · calc _ = (2 : ℚ) ^ (53 + max (-1074) (k - 53)) := by congr 1; ring
        _ ≤ _ := hge'

/-! ## Rounding in a place -/

/-- The integer is nearest to the rational, and even if the next one is as near. -/
structure RoundsTo (x : ℚ) (n : Nat) : Prop where
  /-- the rational is not more than half a unit below -/
  low : n - 1 / 2 ≤ x
  /-- and not more than half a unit above -/
  high : x ≤ n + 1 / 2
  /-- and less than that, if the integer is odd -/
  inside : n % 2 = 1 → n - 1 / 2 < x ∧ x < n + 1 / 2

/-- Of two neighbours one is odd, and does not have the rational halfway between them. So two
integers cannot both be nearest. -/
theorem RoundsTo.not_lt {x : ℚ} {m n : Nat} (hm : RoundsTo x m) (hn : RoundsTo x n) : ¬m < n := by
  intro hlt
  have hnext : (m : ℚ) + 1 ≤ n := by exact_mod_cast hlt
  have hupper := hm.high
  have hlower := hn.low
  rcases Nat.mod_two_eq_zero_or_one m with heven | hodd
  · have heq : n = m + 1 := by
      have : (n : ℚ) ≤ m + 1 := by linarith
      exact Nat.le_antisymm (by exact_mod_cast this) hlt
    have := (hn.inside (by omega)).1
    linarith
  · have := (hm.inside hodd).2
    linarith

/-- There is only one integer to which a rational is rounded; so it may be found in any way. -/
theorem RoundsTo.unique {x : ℚ} {m n : Nat} (hm : RoundsTo x m) (hn : RoundsTo x n) : m = n :=
  Nat.le_antisymm (Nat.le_of_not_lt (hn.not_lt hm)) (Nat.le_of_not_lt (hm.not_lt hn))

/-- A fraction lies within half a unit of the integer that it is rounded to; the denominator is
cleared. The bounds are strict for odd integers, as ties go to the even one. -/
theorem roundToEven_bounds (num : Nat) {den : Nat} (hden : 0 < den) :
    2 * (den * roundToEven num den) ≤ 2 * num + den ∧
      2 * num ≤ 2 * (den * roundToEven num den) + den ∧
      (roundToEven num den % 2 = 1 → 2 * (den * roundToEven num den) < 2 * num + den ∧
        2 * num < 2 * (den * roundToEven num den) + den) := by
  have hdiv := Nat.div_add_mod num den
  have hrest := Nat.mod_lt num hden
  simp only [roundToEven]
  generalize num / den = below at *
  generalize num % den = rest at *
  have hnext : den * (below + 1) = den * below + den := by ring
  split
  · rw [hnext]
    omega
  · omega

/-- **Rounding.** A fraction is rounded to the nearest integer, and to the even one if it lies
halfway between two. -/
theorem roundsTo_roundToEven (num : Nat) {den : Nat} (hden : 0 < den) :
    RoundsTo (num / den) (roundToEven num den) := by
  have hden' : (0 : ℚ) < den := by exact_mod_cast hden
  obtain ⟨hlow, hhigh, hodd⟩ := roundToEven_bounds num hden
  generalize roundToEven num den = n at *
  refine ⟨?_, ?_, fun h => ⟨?_, ?_⟩⟩
  · have : (2 : ℚ) * (den * n) ≤ 2 * num + den := by exact_mod_cast hlow
    rw [le_div_iff₀ hden']
    linarith
  · have : (2 : ℚ) * num ≤ 2 * (den * n) + den := by exact_mod_cast hhigh
    rw [div_le_iff₀ hden']
    linarith
  · have : (2 : ℚ) * (den * n) < 2 * num + den := by exact_mod_cast (hodd h).1
    rw [lt_div_iff₀ hden']
    linarith
  · have : (2 : ℚ) * num < 2 * (den * n) + den := by exact_mod_cast (hodd h).2
    rw [div_lt_iff₀ hden']
    linarith

/-- The same for a fraction that is counted in a place. -/
theorem roundsTo_shifted (num : Nat) {den : Nat} (hden : 0 < den) (e : Int) :
    RoundsTo (num / den / 2 ^ e) (roundToEven (num <<< (-e).toNat) (den <<< e.toNat)) := by
  have hunit : 0 < den <<< e.toNat := by
    rw [Nat.shiftLeft_eq]
    positivity
  have hunit' : ((den <<< e.toNat : Nat) : ℚ) ≠ 0 := by exact_mod_cast hunit.ne'
  have hcounted : (num : ℚ) / den / 2 ^ e =
      ((num <<< (-e).toNat : Nat) : ℚ) / ((den <<< e.toNat : Nat) : ℚ) := by
    rw [shifted_eq num hden, mul_div_cancel_right₀ _ hunit', zpow_neg, div_eq_mul_inv _ (2 ^ e)]
  rw [hcounted]
  exact roundsTo_roundToEven _ hunit

/-- Counted in a place and not: the interval of the rationals that are rounded to an integer, in
units of the number itself. -/
theorem roundsTo_div_iff {x c : ℚ} (hc : 0 < c) {n : Nat} : RoundsTo (x / c) n ↔
    (n - 1 / 2) * c ≤ x ∧ x ≤ (n + 1 / 2) * c ∧
      (n % 2 = 1 → (n - 1 / 2) * c < x ∧ x < (n + 1 / 2) * c) := by
  rw [← le_div_iff₀ hc, ← div_le_iff₀ hc, ← lt_div_iff₀ hc, ← div_lt_iff₀ hc]
  exact ⟨fun h => ⟨h.low, h.high, h.inside⟩, fun ⟨hlow, hhigh, hinside⟩ => ⟨hlow, hhigh, hinside⟩⟩

/-- A fraction is rounded to an integer, in a given place, if it lies within half a place of it.
This is how the rounding of a particular fraction is found. -/
theorem roundToEven_shifted {num den : Nat} (hden : 0 < den) (e : Int) (n : Nat)
    (hlow : (n - 1 / 2 : ℚ) * 2 ^ e ≤ num / den) (hhigh : (num : ℚ) / den ≤ (n + 1 / 2) * 2 ^ e)
    (hodd : n % 2 = 1 →
      (n - 1 / 2 : ℚ) * 2 ^ e < num / den ∧ (num : ℚ) / den < (n + 1 / 2) * 2 ^ e) :
    roundToEven (num <<< (-e).toNat) (den <<< e.toNat) = n :=
  (roundsTo_shifted num hden e).unique
    ((roundsTo_div_iff (by positivity)).mpr ⟨hlow, hhigh, hodd⟩)

/-! ## Intervals -/

namespace Binary

/-- The magnitude of the number. -/
def value (b : Binary) : ℚ := b.mantissa * 2 ^ b.exponent

/-- How far below a double the interval reaches, in last places: below a power of two the
neighbour is half as far away. -/
def reach (b : Binary) : ℚ :=
  if b.mantissa = 0x10000000000000 ∧ -1074 < b.exponent then 1 / 4 else 1 / 2

/-- The rational lies in the interval of those that round to the magnitude. -/
structure Catches (b : Binary) (x : ℚ) : Prop where
  /-- it is not under the lower end -/
  low : (b.mantissa - b.reach) * 2 ^ b.exponent ≤ x
  /-- it is not over the upper end -/
  high : x ≤ (b.mantissa + 1 / 2) * 2 ^ b.exponent
  /-- it is not one of the ends, if the mantissa is odd -/
  inside : b.mantissa % 2 = 1 →
    (b.mantissa - b.reach) * 2 ^ b.exponent < x ∧ x < (b.mantissa + 1 / 2) * 2 ^ b.exponent

/-- The interval reaches half a last place down, or less. -/
theorem reach_le (b : Binary) : b.reach ≤ 1 / 2 := by
  unfold reach
  split <;> norm_num

/-- Zero lies in its own interval. -/
theorem catches_zero {b : Binary} (hzero : b.mantissa = 0) : b.Catches 0 := by
  have hpow : (0 : ℚ) < 2 ^ b.exponent := by positivity
  have hreach : b.reach = 1 / 2 := if_neg fun h => by rw [hzero] at h; cases h.1
  refine ⟨?_, ?_, fun hodd => by rw [hzero] at hodd; cases hodd⟩
  · rw [hzero, hreach, Nat.cast_zero]
    linarith
  · rw [hzero, Nat.cast_zero]
    linarith

section Caught

variable {b : Binary} {num den : Nat}

theorem cast_mantissa_lt (hb : b.IsCanonical) : (b.mantissa : ℚ) + 1 ≤ 2 ^ 53 := by
  have hdigits := hb.digits
  exact_mod_cast (show b.mantissa + 1 ≤ 2 ^ 53 by omega)

/-- A later last place would lie higher than the interval reaches, since a fraction with that place
would have more bits than the double. -/
theorem lastPlace_le (hnum : 0 < num) (hden : 0 < den) (hb : b.IsCanonical)
    (hcatch : b.Catches (num / den)) : lastPlace num den ≤ b.exponent := by
  obtain ⟨-, -, habove⟩ := lastPlace_spec hnum hden
  have hlow := hb.low
  have hpow : (0 : ℚ) < 2 ^ b.exponent := by positivity
  by_contra hgt
  have hstep : (2 : ℚ) ^ 53 * 2 ^ b.exponent ≤ 2 ^ (52 + lastPlace num den) := by
    rw [← zpow_natCast, ← zpow_add₀ two_ne_zero]
    exact zpow_le_zpow_right₀ one_le_two (by push_cast; omega)
  have hcaught := hcatch.high
  have hend : ((b.mantissa : ℚ) + 1 / 2) * 2 ^ b.exponent < 2 ^ 53 * 2 ^ b.exponent := by
    have := cast_mantissa_lt hb
    exact mul_lt_mul_of_pos_right (by linarith) hpow
  rcases habove with habove | habove
  · omega
  · linarith

/-- An earlier last place is the next one, and belongs to a power of two: just below it the places
are half as large. -/
theorem of_lastPlace_lt (hnum : 0 < num) (hden : 0 < den) (hb : b.IsCanonical)
    (hcatch : b.Catches (num / den)) (hlt : lastPlace num den < b.exponent) :
    b.mantissa = 0x10000000000000 ∧ b.reach = 1 / 4 ∧ lastPlace num den = b.exponent - 1 := by
  obtain ⟨hplace, hbelow, -⟩ := lastPlace_spec hnum hden
  have hpow : (0 : ℚ) < 2 ^ b.exponent := by positivity
  have hcaught := hcatch.low
  have hfirst : 0x10000000000000 ≤ b.mantissa := by
    rcases hb.leading with h | h
    · exact h
    · omega
  -- from any other mantissa on all that is caught has the same last place
  have hpower : b.mantissa = 0x10000000000000 := by
    by_contra hne
    have hnext : ((0x10000000000000 + 1 : Nat) : ℚ) ≤ b.mantissa := by
      exact_mod_cast (show 0x10000000000000 + 1 ≤ b.mantissa by omega)
    have hup : (2 : ℚ) ^ (53 + lastPlace num den) ≤ 2 ^ 52 * 2 ^ b.exponent := by
      rw [← zpow_natCast, ← zpow_add₀ two_ne_zero]
      exact zpow_le_zpow_right₀ one_le_two (by push_cast; omega)
    have hend : (2 : ℚ) ^ 52 * 2 ^ b.exponent < (b.mantissa - b.reach) * 2 ^ b.exponent := by
      have hreach := b.reach_le
      push_cast at hnext
      exact mul_lt_mul_of_pos_right (by linarith) hpow
    linarith
  have hreach : b.reach = 1 / 4 := if_pos ⟨hpower, by omega⟩
  refine ⟨hpower, hreach, ?_⟩
  rw [hpower, hreach] at hcaught
  by_contra hne
  have hless : (2 : ℚ) ^ (53 + lastPlace num den) ≤ 2 ^ 51 * 2 ^ b.exponent := by
    rw [← zpow_natCast, ← zpow_add₀ two_ne_zero]
    exact zpow_le_zpow_right₀ one_le_two (by push_cast; omega)
  have hend : (2 : ℚ) ^ 51 * 2 ^ b.exponent <
      (((0x10000000000000 : Nat) : ℚ) - 1 / 4) * 2 ^ b.exponent :=
    mul_lt_mul_of_pos_right (by norm_num) hpow
  linarith

/-- **Same place.** There the fraction is rounded to the mantissa. -/
theorem roundToEven_of_catches (hden : 0 < den) (hcatch : b.Catches (num / den)) :
    roundToEven (num <<< (-b.exponent).toNat) (den <<< b.exponent.toNat) = b.mantissa := by
  have hreach : ((b.mantissa : ℚ) - 1 / 2) * 2 ^ b.exponent ≤
      (b.mantissa - b.reach) * 2 ^ b.exponent := by
    have := b.reach_le
    gcongr
  refine roundToEven_shifted hden _ _ (hreach.trans hcatch.low) hcatch.high fun hodd => ?_
  obtain ⟨hleft, hright⟩ := hcatch.inside hodd
  exact ⟨hreach.trans_lt hleft, hright⟩

/-- **Carry.** In the place below that of a power of two, the fraction is rounded up to it. -/
theorem roundToEven_carry (hden : 0 < den) (hcatch : b.Catches (num / den))
    (hpower : b.mantissa = 0x10000000000000) (hreach : b.reach = 1 / 4)
    (hbelow : (num : ℚ) / den < 2 ^ (53 + (b.exponent - 1))) :
    roundToEven (num <<< (-(b.exponent - 1)).toNat) (den <<< (b.exponent - 1).toNat) =
      0x20000000000000 := by
  have hcaught := hcatch.low
  rw [hpower, hreach] at hcaught
  have hhalf : (2 : ℚ) ^ (b.exponent - 1) = 2 ^ b.exponent / 2 := by
    rw [zpow_sub₀ two_ne_zero, zpow_one]
  have hpow : (0 : ℚ) < 2 ^ b.exponent := by positivity
  rw [zpow_add₀ two_ne_zero, hhalf] at hbelow
  apply roundToEven_shifted hden
  · rw [hhalf]
    push_cast at hcaught ⊢
    linarith
  · rw [hhalf]
    push_cast
    norm_num at hbelow ⊢
    linarith
  · intro h
    norm_num at h

/-- **Nearest.** The bits nearest to a fraction are those of the double that catches it. Rounding
takes place either at the last place of that double or, below a power of two, at the one before,
with a carry. -/
theorem nearestBits_eq (hnum : 0 < num) (hden : 0 < den) (hb : b.IsCanonical)
    (hcatch : b.Catches (num / den)) : nearestBits num den = b.bits := by
  have hdigits := hb.digits
  have hlow := hb.low
  have hhigh := hb.high
  simp only [nearestBits, if_neg hnum.ne']
  rcases (lastPlace_le hnum hden hb hcatch).lt_or_eq with hlt | heq
  · obtain ⟨hplace, hbelow, -⟩ := lastPlace_spec hnum hden
    obtain ⟨hpower, hreach, hnext⟩ := of_lastPlace_lt hnum hden hb hcatch hlt
    rw [hnext] at hbelow
    rw [hnext, roundToEven_carry hden hcatch hpower hreach hbelow, bits, hpower]
    omega
  · rw [heq, roundToEven_of_catches hden hcatch, bits]
    omega

/-- The double nearest to a fraction is the one that catches it. Nothing else needs to be known
about the computation in what follows. -/
theorem nearestFraction_eq (hnum : 0 < num) (hden : 0 < den) (hb : b.IsCanonical)
    (hcatch : b.Catches (num / den)) :
    Float.nearestFraction num den = Float.ofBits (UInt64.ofNat b.bits) := by
  rw [Float.nearestFraction, nearestBits_eq hnum hden hb hcatch]

end Caught

/-! ## Every fraction is caught -/

/-- The end of the interval of the largest double, half a last place above it. From here on
fractions round to the infinity. -/
def limit : ℚ := (2 ^ 53 - 1 / 2) * 2 ^ (971 : Int)

theorem two_pow_lt_limit : (2 : ℚ) ^ (971 : Int) < limit :=
  lt_mul_of_one_lt_left (by positivity) (by norm_num)

theorem limit_lt : limit < 2 ^ (1024 : Int) := by
  rw [limit, show (1024 : Int) = 53 + 971 by rfl, zpow_add₀ two_ne_zero]
  exact mul_lt_mul_of_pos_right (by norm_num) (by positivity)

section Rounded

variable {num den : Nat} (hnum : 0 < num) (hden : 0 < den)
include hnum hden

/-- Rounded in its last place, a fraction has at most 53 bits, or is the next power of two, which
has one bit more but the same leading digits. -/
theorem digits_spec {n : Nat}
    (hround : RoundsTo (num / den / 2 ^ lastPlace num den) n) :
    n ≤ 0x20000000000000 ∧ (0x10000000000000 ≤ n ∨ lastPlace num den = -1074) := by
  obtain ⟨-, hbelow, habove⟩ := lastPlace_spec hnum hden
  generalize lastPlace num den = e at *
  have hpow : (0 : ℚ) < 2 ^ e := by positivity
  rw [zpow_add₀ two_ne_zero, ← div_lt_iff₀ hpow] at hbelow
  rw [zpow_add₀ two_ne_zero, ← le_div_iff₀ hpow] at habove
  have hlow := hround.low
  have hhigh := hround.high
  norm_num at hbelow habove
  constructor
  · have hlt : (n : ℚ) < 0x20000000000000 + 1 := by linarith
    exact Nat.le_of_lt_succ (by exact_mod_cast hlt)
  · rcases habove with habove | habove
    · exact .inr habove
    · have hlt : ((0x10000000000000 : Nat) : ℚ) < n + 1 := by
        push_cast
        linarith
      exact .inl (Nat.le_of_lt_succ (by exact_mod_cast hlt))

/-- The digits of a fraction in its last place catch it. -/
theorem catches_of_roundsTo {n : Nat}
    (hround : RoundsTo (num / den / 2 ^ lastPlace num den) n) :
    Catches ⟨false, n, lastPlace num den⟩ (num / den) := by
  obtain ⟨-, -, habove⟩ := lastPlace_spec hnum hden
  generalize lastPlace num den = e at *
  have hpow : (0 : ℚ) < 2 ^ e := by positivity
  obtain ⟨hlow, hhigh, hinside⟩ := (roundsTo_div_iff hpow).mp hround
  by_cases hpower : n = 0x10000000000000 ∧ -1074 < e
  · -- nothing is below a power of two that is not counted in the place before
    obtain ⟨rfl, he⟩ := hpower
    refine ⟨?_, hhigh, fun hodd => by norm_num at hodd⟩
    rw [reach, if_pos ⟨rfl, he⟩]
    rcases habove with habove | habove
    · omega
    · rw [zpow_add₀ two_ne_zero] at habove
      refine le_trans ?_ habove
      exact mul_le_mul_of_nonneg_right (by norm_num) hpow.le
  · have hreach : reach ⟨false, n, e⟩ = 1 / 2 := if_neg hpower
    exact ⟨by rwa [hreach], hhigh, fun h => by rw [hreach]; exact hinside h⟩

/-- Rounded up to a power of two, a fraction is caught with the mantissa of that. -/
theorem catches_carried
    (hround : RoundsTo (num / den / 2 ^ lastPlace num den) 0x20000000000000) :
    Catches ⟨false, 0x10000000000000, lastPlace num den + 1⟩ (num / den) := by
  obtain ⟨hplace, hbelow, -⟩ := lastPlace_spec hnum hden
  generalize lastPlace num den = e at *
  have hpow : (0 : ℚ) < 2 ^ e := by positivity
  have hdouble : (2 : ℚ) ^ (e + 1) = 2 * 2 ^ e := by
    rw [zpow_add₀ two_ne_zero, zpow_one, mul_comm]
  obtain ⟨hlow, -, -⟩ := (roundsTo_div_iff hpow).mp hround
  rw [zpow_add₀ two_ne_zero] at hbelow
  refine ⟨?_, ?_, fun hodd => by norm_num at hodd⟩
  · rw [reach, if_pos ⟨rfl, by dsimp only; omega⟩, hdouble]
    push_cast at hlow ⊢
    linarith
  · rw [hdouble]
    norm_num at hbelow ⊢
    linarith

/-- **Every fraction** that is not too large is caught by a double: the one with the digits that it
is rounded to, or the power of two that these digits carry to. -/
theorem exists_catches (hhigh : (num : ℚ) / den < limit) :
    ∃ b : Binary, b.IsCanonical ∧ b.Catches (num / den) := by
  obtain ⟨hplace, -, habove⟩ := lastPlace_spec hnum hden
  have hround := roundsTo_shifted num hden (lastPlace num den)
  generalize roundToEven _ _ = n at hround
  obtain ⟨hdigits, hleading⟩ := digits_spec hnum hden hround
  have hlast : lastPlace num den ≤ 971 := by
    rcases habove with habove | habove
    · omega
    · have hlt := (zpow_lt_zpow_iff_right₀ one_lt_two).mp (habove.trans_lt (hhigh.trans limit_lt))
      omega
  -- in the last place of all the bound leaves no room for a carry
  have hroom : n = 0x20000000000000 → lastPlace num den ≠ 971 := by
    rintro rfl heq
    rw [heq] at hround
    have hlow := ((roundsTo_div_iff (by positivity)).mp hround).1
    have hcast : ((0x20000000000000 : Nat) : ℚ) = 2 ^ 53 := by norm_num
    rw [hcast] at hlow
    exact absurd hhigh (not_lt.mpr hlow)
  by_cases hcarry : n = 0x20000000000000
  · have hnext := hroom hcarry
    subst hcarry
    exact ⟨_, ⟨by dsimp only; omega, by dsimp only; omega, by dsimp only; omega, .inl (le_refl _)⟩,
      catches_carried hnum hden hround⟩
  · exact ⟨_, ⟨by dsimp only; omega, hplace, by dsimp only; omega, hleading⟩,
      catches_of_roundsTo hnum hden hround⟩

end Rounded

/-- The nearest double of such a fraction is finite, and catches it. So the code finds a double for
all fractions, not only for those of which one is known. -/
theorem nearestFraction_spec {num den : Nat} (hden : 0 < den) (hhigh : (num : ℚ) / den < limit) :
    (Float.nearestFraction num den).isFinite = true ∧
      (ofFloat (Float.nearestFraction num den)).Catches (num / den) := by
  rcases Nat.eq_zero_or_pos num with rfl | hnum
  · have hzero : Float.nearestFraction 0 den = Float.nearestFraction 0 1 := by
      simp only [Float.nearestFraction, nearestBits, if_true]
    have hmantissa : (ofFloat (Float.nearestFraction 0 1)).mantissa = 0 := by decide
    rw [hzero, Nat.cast_zero, zero_div]
    exact ⟨by decide, catches_zero hmantissa⟩
  · obtain ⟨b, hb, hcatch⟩ := exists_catches hnum hden hhigh
    rw [nearestFraction_eq hnum hden hb hcatch, ofFloat_bits hb]
    exact ⟨isFinite_bits hb, hcatch.low, hcatch.high, hcatch.inside⟩

end Binary

namespace Double

/-- A natural number of 64 bits has a nearest double that catches it, as it lies far below the end
of the range. -/
theorem exists_catches_nearest {n : Nat} (hpos : 0 < n) (h : n < 0x10000000000000000) :
    ∃ b : Binary, b.IsCanonical ∧ b.Catches n ∧
      Float.nearestFraction n 1 = Float.ofBits (UInt64.ofNat b.bits) := by
  have hvalue : (n : ℚ) / (1 : Nat) = n := by rw [Nat.cast_one, div_one]
  have hhigh : (n : ℚ) / (1 : Nat) < Binary.limit := by
    have hlt : (n : ℚ) < 2 ^ (64 : Int) := by exact_mod_cast h
    have hpow : (2 : ℚ) ^ (64 : Int) < 2 ^ (971 : Int) := zpow_lt_zpow_right₀ one_lt_two (by decide)
    rw [hvalue]
    exact (hlt.trans hpow).trans Binary.two_pow_lt_limit
  obtain ⟨b, hb, hcatch⟩ := Binary.exists_catches hpos Nat.one_pos hhigh
  exact ⟨b, hb, hvalue ▸ hcatch, Binary.nearestFraction_eq hpos Nat.one_pos hb hcatch⟩

theorem isFinite_nearestFraction {n : Nat} (h : n < 0x10000000000000000) :
    (Float.nearestFraction n 1).isFinite = true := by
  by_cases hzero : n = 0
  · subst hzero
    decide
  · obtain ⟨b, hb, -, heq⟩ := exists_catches_nearest (Nat.pos_of_ne_zero hzero) h
    rw [heq]
    exact Binary.isFinite_bits hb

/-- **Integers** of 64 bits have a finite nearest double. -/
theorem isFinite_nearest {n : Int} (h : n.natAbs < 0x10000000000000000) :
    (Float.nearest n).isFinite = true := by
  rw [Float.nearest]
  split
  · rw [isFinite_neg]
    exact isFinite_nearestFraction h
  · exact isFinite_nearestFraction h

end Double

end FeatureTransform
