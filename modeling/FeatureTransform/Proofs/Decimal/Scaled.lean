import FeatureTransform.Proofs.Decimal.Numeral
import FeatureTransform.Proofs.Double.Value

/-!
# The quick way of reading

On the quick way a numeral is scaled in two or more steps that each round, and what comes of it need
not be the double that the numeral was written for. How far it can be led astray is bounded, though:

* **significand** — the digits that are held never stand for more than the numeral does, and stand
  for just as much where the number fits 64 bits;
* **size** — two roundings add little more than two last places, so that of all written doubles only
  the largest three come near the end of the range; a division never makes a number larger;
* **short numerals** — a number of 53 bits and a power of ten up to `10 ^ 22` are doubles
  themselves. The only rounding is then the last one, and the result is the nearest double.
-/

namespace FeatureTransform.Decimal

/-! ## Digits that are held -/

/-- The digits at the end are worth no less than zeros, so leaving them off and scaling makes a
number no larger. -/
theorem mul_pow_le_valueOf (n : Nat) (ds : Text) : n * 10 ^ ds.length ≤ valueOf n ds := by
  induction ds generalizing n with
  | nil => simp [valueOf]
  | cons c ds ih =>
    calc n * 10 ^ (ds.length + 1) = 10 * n * 10 ^ ds.length := by ring
      _ ≤ (10 * n + (c.toNat - 48)) * 10 ^ ds.length := by
        gcongr
        exact Nat.le_add_right _ _
      _ ≤ valueOf n (c :: ds) := ih _

/-- More digits make a larger number. -/
theorem le_valueOf (n : Nat) (ds : Text) : n ≤ valueOf n ds :=
  (Nat.le_mul_of_pos_right n (by positivity)).trans (mul_pow_le_valueOf n ds)

/-- What `k` and the number of digits left over say of the digits behind `n`. -/
structure Holds (n : Nat) (ds : Text) (k left : Nat) : Prop where
  /-- the number held fits 64 bits -/
  fits : n < 0x10000000000000000 → k < 0x10000000000000000
  /-- no more digits are left over than there are -/
  length : left ≤ ds.length
  /-- with zeros for the digits left over it is no more than all digits make -/
  value : k * 10 ^ left ≤ valueOf n ds
  /-- with no digit left over it is what they make -/
  all : left = 0 → k = valueOf n ds
  /-- with all of them left over it is what it was -/
  none : left = ds.length → k = n
  /-- the first digit left over would not have fitted -/
  next : ∀ j, left = j + 1 → 0x10000000000000000 * 10 ^ j ≤ valueOf n ds

/-- **Holding.** Digits are held until one does not fit; from there on each that is left over counts
as a power of ten. -/
theorem holds_holdDigits (n : Nat) (ds : Text) :
    Holds n ds (holdDigits n ds).1 (holdDigits n ds).2 := by
  induction ds generalizing n with
  | nil =>
    refine ⟨id, le_refl _, ?_, fun _ => rfl, fun _ => rfl, ?_⟩
    · simp [holdDigits, valueOf]
    · rintro j ⟨⟩
  | cons c ds ih =>
    rw [holdDigits]
    split
    · rename_i hfits
      obtain ⟨hheld, hlength, hvalue, hall, -, hnext⟩ := ih (10 * n + (c.toNat - 48))
      refine ⟨fun _ => hheld hfits, Nat.le_succ_of_le hlength, hvalue, hall, ?_, hnext⟩
      intro hleft
      rw [hleft] at hlength
      exact absurd hlength (Nat.not_succ_le_self _)
    · rename_i hfits
      refine ⟨id, le_refl _, mul_pow_le_valueOf n (c :: ds), ?_, fun _ => rfl, ?_⟩
      · rintro ⟨⟩
      · rintro j ⟨⟩
        exact (Nat.mul_le_mul_right _ (Nat.not_lt.mp hfits)).trans (mul_pow_le_valueOf _ ds)

/-- All digits of a number of 64 bits are held. -/
theorem holdDigits_of_lt {n : Nat} {ds : Text} (h : valueOf n ds < 0x10000000000000000) :
    holdDigits n ds = (valueOf n ds, 0) := by
  induction ds generalizing n with
  | nil => rfl
  | cons c ds ih =>
    have hfits := (le_valueOf (10 * n + (c.toNat - 48)) ds).trans_lt h
    rw [holdDigits, if_pos hfits]
    exact ih h

/-- A whole number of 64 bits is held as it is. -/
theorem ofWhole_of_lt {ds : Text} (h : valueOf 0 ds < 0x10000000000000000) :
    Significand.ofWhole ds = ⟨valueOf 0 ds, 0⟩ := by
  simp only [Significand.ofWhole, holdDigits_of_lt h, Nat.cast_zero]

@[simp] theorem withPlaces_nil (s : Significand) : s.withPlaces [] = s := by
  simp [Significand.withPlaces, holdDigits]

namespace Numeral

/-- What the quick way makes of the numeral before it scales. -/
def significand (m : Numeral) : Significand :=
  let s := (Significand.ofWhole m.whole).withPlaces (m.places.getD [])
  { s with scale := s.scale + m.exponentValue }

variable (m : Numeral)

theorem significand_lt : m.significand.number < 0x10000000000000000 :=
  (holds_holdDigits _ _).fits ((holds_holdDigits 0 m.whole).fits (by decide))

/-- With zeros for all digits left over, the number held is no more than the digits make. A digit
that is left over in the whole part makes up for the places that are held behind it. -/
theorem held_le :
    (holdDigits (holdDigits 0 m.whole).1 (m.places.getD [])).1 *
      10 ^ ((holdDigits 0 m.whole).2 + (holdDigits (holdDigits 0 m.whole).1 (m.places.getD [])).2) ≤
        m.number := by
  obtain ⟨hsmall, -, hwhole, hall, -, hnext⟩ := holds_holdDigits 0 m.whole
  have hlower := mul_pow_le_valueOf (valueOf 0 m.whole) (m.places.getD [])
  rw [number]
  generalize m.places.getD [] = ds at *
  generalize (holdDigits 0 m.whole).1 = k at *
  generalize (holdDigits 0 m.whole).2 = left at *
  obtain ⟨hfits, hlength, hplaces, -, hnone, -⟩ := holds_holdDigits k ds
  generalize (holdDigits k ds).1 = k' at *
  generalize (holdDigits k ds).2 = left' at *
  -- while digits are left out of the whole part, none of the places is held
  rcases Nat.eq_zero_or_eq_succ_pred left with hzero | hsucc
  · rw [hall hzero] at hplaces
    rwa [hzero, Nat.zero_add]
  · rw [Nat.succ_eq_add_one] at hsucc
    rcases hlength.lt_or_eq with hlt | heq
    · calc k' * 10 ^ (left + left')
          ≤ 0x10000000000000000 * 10 ^ (left + left') := by
            gcongr
            exact (hfits (hsmall (by decide))).le
        _ = 0x10000000000000000 * 10 ^ left.pred * 10 ^ (left' + 1) := by
          rw [mul_assoc, ← pow_add]
          congr 2
          omega
        _ ≤ valueOf 0 m.whole * 10 ^ ds.length :=
          Nat.mul_le_mul (hnext _ hsucc) (Nat.pow_le_pow_right (by decide) hlt)
        _ ≤ valueOf (valueOf 0 m.whole) ds := hlower
    · rw [hnone heq, heq, pow_add, ← mul_assoc]
      exact (Nat.mul_le_mul_right _ hwhole).trans hlower

/-- **Significand.** It stands for no more than the numeral does. -/
theorem significand_le :
    (m.significand.number : ℚ) * 10 ^ m.significand.scale ≤ m.number * 10 ^ m.scale := by
  have hheld : ((m.significand.number * 10 ^ ((holdDigits 0 m.whole).2 +
      (holdDigits (holdDigits 0 m.whole).1 (m.places.getD [])).2) : Nat) : ℚ) ≤ m.number := by
    exact_mod_cast m.held_le
  have hscale : m.significand.scale = (((holdDigits 0 m.whole).2 +
      (holdDigits (holdDigits 0 m.whole).1 (m.places.getD [])).2 : Nat) : Int) + m.scale := by
    simp only [significand, Significand.ofWhole, Significand.withPlaces, scale]
    push_cast
    ring
  rw [hscale, zpow_add₀ (by norm_num), zpow_natCast, ← mul_assoc]
  gcongr
  push_cast at hheld
  exact hheld

/-- It stands for just as much where the number fits 64 bits. -/
theorem significand_of_lt (h : m.number < 0x10000000000000000) :
    m.significand = ⟨m.number, m.scale⟩ := by
  have hwhole := (le_valueOf (valueOf 0 m.whole) (m.places.getD [])).trans_lt h
  simp only [significand, ofWhole_of_lt hwhole, Significand.withPlaces, scale]
  rw [holdDigits_of_lt h]
  simp [number]

end Numeral

/-! ## Sizes -/

open Binary (ofFloat limit)

theorem ten_pow_lt_limit : (10 : ℚ) ^ (308 : Int) < limit := by
  have hpowers : 10 ^ 308 ≤ 6000000000000000 * 2 ^ 971 := by decide +kernel
  calc (10 : ℚ) ^ (308 : Int) ≤ 6000000000000000 * 2 ^ (971 : Int) := by exact_mod_cast hpowers
    _ < limit := by
      rw [limit]
      exact mul_lt_mul_of_pos_right (by norm_num) (by positivity)

theorem limit_lt_ten_pow : limit < (10 : ℚ) ^ (309 : Int) := by
  have hpowers : 2 ^ 1024 ≤ 10 ^ 309 := by decide +kernel
  have hpowers' : (2 : ℚ) ^ (1024 : Int) ≤ 10 ^ (309 : Int) := by exact_mod_cast hpowers
  exact Binary.limit_lt.trans_le hpowers'

/-- The powers of ten of the quick way are in the range of doubles. -/
theorem powerOfTen_spec {e : Nat} (he : e ≤ largestPower) :
    (powerOfTen e).IsCanonical ∧ (powerOfTen e).Catches (10 ^ e) := by
  have hquotient : ((Nat.pow 10 e : Nat) : ℚ) / (1 : Nat) = 10 ^ e := by
    simp only [Nat.pow_eq, Nat.cast_pow, Nat.cast_ofNat, Nat.cast_one, div_one]
  have hlargest : (10 : ℚ) ^ (e : Int) ≤ 10 ^ (308 : Int) :=
    zpow_le_zpow_right₀ (by norm_num) (by exact_mod_cast he)
  rw [zpow_natCast] at hlargest
  have hlimit := hlargest.trans_lt ten_pow_lt_limit
  rw [← hquotient] at hlimit ⊢
  obtain ⟨hfinite, hcatch⟩ := Binary.nearestFraction_spec Nat.one_pos hlimit
  exact ⟨Binary.isCanonical_ofFloat hfinite, hcatch⟩

/-- A power of ten but the first is at least two. -/
theorem two_le_powerOfTen {e : Nat} (hpos : 0 < e) (he : e ≤ largestPower) :
    2 ≤ (powerOfTen e).value := by
  obtain ⟨hcanonical, hcatch⟩ := powerOfTen_spec he
  have hten : (10 : ℚ) ^ 1 ≤ 10 ^ e := pow_le_pow_right₀ (by norm_num) hpos
  have hhalf := hcatch.le_two_mul_value hcanonical (by linarith)
  linarith

/-- **Division** by a power of ten keeps a double finite: the quotient is no more than the double
itself, and what lies below the end of the range is not rounded beyond it. -/
theorem isFinite_over_powerOfTen {f : Float} (hf : f.isFinite = true) {e : Nat} (hpos : 0 < e)
    (he : e ≤ largestPower) : ((ofFloat f).over (powerOfTen e)).isFinite = true := by
  have htwo := two_le_powerOfTen hpos he
  have hless : (ofFloat f).value / (powerOfTen e).value ≤ (ofFloat f).value :=
    div_le_self (ofFloat f).value_nonneg (by linarith)
  exact Binary.isFinite_over (by linarith)
    (hless.trans_lt (Binary.value_lt_limit (Binary.isCanonical_ofFloat hf)))

/-- Dividing by the largest power again and again keeps a double finite, step by step. -/
theorem isFinite_lower {steps e : Nat} {f : Float} (hf : f.isFinite = true)
    (hlow : steps * largestPower < e) (hhigh : e ≤ (steps + 1) * largestPower) :
    (lower steps e f).isFinite = true := by
  induction steps generalizing e f with
  | zero => exact isFinite_over_powerOfTen hf (by omega) (by omega)
  | succ steps ih =>
    rw [lower]
    split
    · exact hf
    · rw [Nat.succ_mul] at hlow hhigh
      exact ih (isFinite_over_powerOfTen hf (by decide) (le_refl _)) (by omega) (by omega)

/-- **Multiplication.** Two roundings before the last one are made up for by two last places at the
end of the range. -/
theorem isFinite_times_powerOfTen {n e : Nat} (hpos : 0 < n) (hn : n < 0x10000000000000000)
    (he : e ≤ largestPower) (h : (n : ℚ) * 10 ^ e ≤ (2 ^ 53 - 5 / 2) * 2 ^ (971 : Int)) :
    ((ofFloat (Float.nearestFraction n 1)).times (powerOfTen e)).isFinite = true := by
  obtain ⟨b, hb, hcatch, heq⟩ := Double.exists_catches_nearest hpos hn
  obtain ⟨hcanonical, hpower⟩ := powerOfTen_spec he
  have hone : (1 : ℚ) ≤ n := by exact_mod_cast hpos
  -- both factors have been rounded, each up by half a place at most, and the bound leaves room for
  -- it
  have hleft := hcatch.value_mul_le hb hone
  have hright := hpower.value_mul_le hcanonical (one_le_pow₀ (by norm_num))
  have hvalue : (ofFloat (Float.nearestFraction n 1)).value = b.value := by
    rw [heq, Binary.ofFloat_bits hb]
    rfl
  apply Binary.isFinite_times
  rw [hvalue]
  refine lt_of_mul_lt_mul_right ?_ (show (0 : ℚ) ≤ (1 - 1 / 2 ^ 53) * (1 - 1 / 2 ^ 53) by norm_num)
  calc b.value * (powerOfTen e).value * ((1 - 1 / 2 ^ 53) * (1 - 1 / 2 ^ 53))
      = b.value * (1 - 1 / 2 ^ 53) * ((powerOfTen e).value * (1 - 1 / 2 ^ 53)) := by ring
    _ ≤ (n : ℚ) * 10 ^ e := by
      have hnonneg := (powerOfTen e).value_nonneg
      gcongr
    _ ≤ (2 ^ 53 - 5 / 2) * 2 ^ (971 : Int) := h
    _ < (2 ^ 53 - 1 / 2) * ((1 - 1 / 2 ^ 53) * (1 - 1 / 2 ^ 53)) * 2 ^ (971 : Int) :=
      mul_lt_mul_of_pos_right (by norm_num) (by positivity)
    _ = limit * ((1 - 1 / 2 ^ 53) * (1 - 1 / 2 ^ 53)) := by
      rw [limit]
      ring

/-- **Size.** What is scaled stays in the range of doubles unless it lies at its very end. -/
theorem isFinite_scaled {n : Nat} {e : Int} (hn : n < 0x10000000000000000)
    (h : (n : ℚ) * 10 ^ e ≤ (2 ^ 53 - 5 / 2) * 2 ^ (971 : Int)) :
    (scaled n e).isFinite = true := by
  have hfinite := Double.isFinite_nearestFraction hn
  unfold scaled
  split
  · exact hfinite
  · rename_i hne
    have hpos := Nat.pos_of_ne_zero hne
    split
    · -- dividing never leads out of the range, in however many steps
      have hsteps := Nat.div_add_mod ((-e).toNat - 1) largestPower
      have hrest := Nat.mod_lt ((-e).toNat - 1) (show 0 < largestPower by decide)
      rw [mul_comm] at hsteps
      exact isFinite_lower hfinite (by omega) (by rw [Nat.succ_mul]; omega)
    · obtain ⟨k, rfl⟩ := Int.eq_ofNat_of_zero_le (show 0 ≤ e by omega)
      rw [zpow_natCast] at h
      split
      · -- a larger power of ten would lie beyond the range
        rename_i hlarge
        have hone : (1 : ℚ) ≤ n := by exact_mod_cast hpos
        have hpower : (10 : ℚ) ^ (309 : Int) ≤ 10 ^ (k : Int) :=
          zpow_le_zpow_right₀ (by norm_num) hlarge
        rw [zpow_natCast] at hpower
        have hend : (2 ^ 53 - 5 / 2 : ℚ) * 2 ^ (971 : Int) ≤ limit :=
          mul_le_mul_of_nonneg_right (by norm_num) (by positivity)
        have hless := limit_lt_ten_pow.trans_le
          (hpower.trans (le_mul_of_one_le_left (by positivity) hone))
        exact absurd (h.trans hend) (not_le.mpr hless)
      · rw [Int.toNat_natCast]
        exact isFinite_times_powerOfTen hpos hn (by omega) h

/-! ## Short numerals -/

/-- The powers of ten that are doubles: up to the twenty-second, since the power of five in it has
53 bits at most. -/
theorem value_powerOfTen {e : Nat} (he : e ≤ 22) : (powerOfTen e).value = 10 ^ e := by
  have hfractions : ∀ k ∈ List.range 23,
      (powerOfTen k).fraction.1 = 10 ^ k * (powerOfTen k).fraction.2 := by
    decide +kernel
  have hfraction := hfractions e (List.mem_range.mpr (by omega))
  have hden : ((powerOfTen e).fraction.2 : ℚ) ≠ 0 := by
    exact_mod_cast (powerOfTen e).den_fraction_pos.ne'
  have hnum := (powerOfTen e).num_fraction
  rw [hfraction, Nat.cast_mul] at hnum
  have hvalue := mul_right_cancel₀ hden hnum
  rw [← hvalue]
  norm_num

/-- The numbers of 53 bits are doubles. -/
theorem value_nearestFraction {n : Nat} (hpos : 0 < n) (hn : n < 2 ^ 53) :
    (ofFloat (Float.nearestFraction n 1)).value = n := by
  obtain ⟨b, hb, hcatch, heq⟩ := Double.exists_catches_nearest hpos (hn.trans (by decide))
  rw [heq, Binary.ofFloat_bits hb]
  exact hcatch.value_eq hb hn

/-- Such a number, scaled by a power of ten that is a double, is caught by one that is not zero,
because it lies well inside the range. -/
theorem exists_catches_scaled {n : Nat} (hpos : 0 < n) (hn : n < 2 ^ 53) {e : Int} (hlow : -22 ≤ e)
    (hhigh : e ≤ 22) :
    ∃ b : Binary, b.IsCanonical ∧ 0 < b.mantissa ∧ b.Catches (n * 10 ^ e) := by
  have hnum : 0 < n * Nat.pow 10 e.toNat := Nat.mul_pos hpos (Nat.pow_pos (by decide))
  have hden : 0 < Nat.pow 10 (-e).toNat := Nat.pow_pos (by decide)
  have hlarge : (n : ℚ) * 10 ^ e < limit := by
    have hn' : (n : ℚ) ≤ 2 ^ 53 := by exact_mod_cast hn.le
    have hpower : (10 : ℚ) ^ e ≤ 10 ^ (22 : Int) := zpow_le_zpow_right₀ (by norm_num) hhigh
    have hrange : (2 : ℚ) ^ 53 * 10 ^ (22 : Int) < 2 ^ (971 : Int) := by
      have hpowers : 2 ^ 53 * 10 ^ 22 < 2 ^ 971 := by decide +kernel
      exact_mod_cast hpowers
    calc (n : ℚ) * 10 ^ e ≤ 2 ^ 53 * 10 ^ (22 : Int) := by gcongr
      _ < limit := hrange.trans Binary.two_pow_lt_limit
  have hsmall : (2 : ℚ) ^ (-1074 : Int) < n * 10 ^ e := by
    have hone : (1 : ℚ) ≤ n := by exact_mod_cast hpos
    have hpower : (10 : ℚ) ^ (-22 : Int) ≤ 10 ^ e := zpow_le_zpow_right₀ (by norm_num) hlow
    have hrange : (2 : ℚ) ^ (-1074 : Int) < 10 ^ (-22 : Int) := by
      have hpowers : (10 : ℚ) ^ (22 : Int) < 2 ^ (1074 : Int) := by
        have : 10 ^ 22 < 2 ^ 1074 := by decide +kernel
        exact_mod_cast this
      rw [zpow_neg, zpow_neg]
      exact inv_strictAnti₀ (by positivity) hpowers
    exact hrange.trans_le (hpower.trans (le_mul_of_one_le_left (by positivity) hone))
  rw [← scaled_div_scale] at hlarge hsmall ⊢
  obtain ⟨b, hb, hcatch⟩ := Binary.exists_catches hnum hden hlarge
  refine ⟨b, hb, Nat.pos_of_ne_zero fun hzero => ?_, hcatch⟩
  -- zero catches nothing but what lies under the smallest double
  have hleast : b.exponent = -1074 := hb.leading.resolve_left (by omega)
  have hhalf := hcatch.high
  rw [hzero, hleast, Nat.cast_zero, zero_add] at hhalf
  have hpow : (0 : ℚ) < 2 ^ (-1074 : Int) := by positivity
  linarith

/-- Zero is zero, whatever scales it. -/
theorem scaled_zero (e : Int) : scaled 0 e = nearest 0 e := by
  have hzero : Float.nearestFraction 0 1 = 0.0 := by decide
  simp only [scaled, nearest, if_true, true_or, hzero]

/-- **Short numerals** are read as the nearest double: digits and power are doubles themselves, so
that only the last step rounds. -/
theorem scaled_eq_nearest {n : Nat} (hn : n < 2 ^ 53) {e : Int} (hlow : -22 ≤ e) (hhigh : e ≤ 22) :
    scaled n e = nearest n e := by
  rcases Nat.eq_zero_or_pos n with rfl | hpos
  · exact scaled_zero e
  obtain ⟨b, hb, hmantissa, hcatch⟩ := exists_catches_scaled hpos hn hlow hhigh
  have hdigits := value_nearestFraction hpos hn
  have hdigits' : 0 < (ofFloat (Float.nearestFraction n 1)).value := by
    rw [hdigits]
    exact_mod_cast hpos
  rw [nearest_eq hb hmantissa hcatch, scaled, if_neg hpos.ne']
  split
  · -- up to here a power of ten is a double, and one division rounds once
    obtain ⟨k, hk⟩ := Int.eq_ofNat_of_zero_le (show 0 ≤ -e by omega)
    have hpower := value_powerOfTen (show k ≤ 22 by omega)
    have hsteps : (k - 1) / largestPower = 0 :=
      Nat.div_eq_of_lt (by simp only [largestPower]; omega)
    have he : e = -(k : Int) := by omega
    rw [he, zpow_neg, zpow_natCast, ← div_eq_mul_inv, ← hdigits, ← hpower] at hcatch
    rw [hk, Int.toNat_natCast, hsteps, lower]
    exact Binary.over_eq hb hdigits' (by rw [hpower]; positivity) hcatch
  · -- so does one multiplication
    obtain ⟨k, rfl⟩ := Int.eq_ofNat_of_zero_le (show 0 ≤ e by omega)
    have hpower := value_powerOfTen (show k ≤ 22 by omega)
    rw [zpow_natCast, ← hdigits, ← hpower] at hcatch
    rw [if_neg (by simp only [largestPower]; omega), Int.toNat_natCast]
    exact Binary.times_eq hb hdigits' (by rw [hpower]; positivity) hcatch

/-! ## The end of the range -/

/-- The two largest doubles, which the bound on sizes leaves out. -/
def lastDouble (negative : Bool) (mantissa : Nat) : Float :=
  Double.signed negative (.ofBits (.ofNat (Binary.bits ⟨false, mantissa, 971⟩)))

/-- A finite double is one of the two, or has room for two roundings above it. This is where the two
are left to be looked at by themselves. -/
theorem eq_lastDouble_or {f : Float} (hf : f.isFinite = true) {x : ℚ}
    (hcatch : (ofFloat f).Catches x) :
    f = lastDouble (ofFloat f).negative 0x1FFFFFFFFFFFFF ∨
    f = lastDouble (ofFloat f).negative 0x1FFFFFFFFFFFFE ∨
      x ≤ (2 ^ 53 - 5 / 2) * 2 ^ (971 : Int) := by
  have hcanonical := Binary.isCanonical_ofFloat hf
  have hdigits := hcanonical.digits
  have hbits := Binary.eq_signed_bits ((Double.isFinite_iff f).mp hf).2
  -- with the last exponent only the two greatest mantissas are too large; with any other exponent
  -- the double is below the bound altogether
  by_cases hplace : (ofFloat f).exponent = 971
  · have hlast : (ofFloat f).bits = Binary.bits ⟨false, (ofFloat f).mantissa, 971⟩ := by
      rw [Binary.bits, hplace]
      rfl
    rw [hlast] at hbits
    rcases Nat.lt_or_ge (ofFloat f).mantissa 0x1FFFFFFFFFFFFE with hless | hmore
    · right; right
      have hmantissa : ((ofFloat f).mantissa : ℚ) + 1 ≤ (0x1FFFFFFFFFFFFE : Nat) := by
        exact_mod_cast hless
      refine hcatch.high.trans ?_
      rw [hplace]
      push_cast at hmantissa
      exact mul_le_mul_of_nonneg_right (by linarith) (by positivity)
    · rcases hmore.eq_or_lt with heq | hlt
      · rw [← heq] at hbits
        exact .inr (.inl hbits)
      · have heq : (ofFloat f).mantissa = 0x1FFFFFFFFFFFFF := by omega
        rw [heq] at hbits
        exact .inl hbits
  · right; right
    have hhigh := hcanonical.high
    have hpow : (2 : ℚ) ^ ((ofFloat f).exponent + 1) ≤ 2 ^ (971 : Int) :=
      zpow_le_zpow_right₀ one_le_two (by omega)
    have hmantissa := Binary.cast_mantissa_lt hcanonical
    rw [zpow_add₀ two_ne_zero, zpow_one] at hpow
    calc x ≤ ((ofFloat f).mantissa + 1 / 2) * 2 ^ (ofFloat f).exponent := hcatch.high
      _ ≤ 2 ^ 53 * 2 ^ (ofFloat f).exponent :=
        mul_le_mul_of_nonneg_right (by linarith) (by positivity)
      _ = 2 ^ 52 * (2 ^ (ofFloat f).exponent * 2) := by ring
      _ ≤ 2 ^ 52 * 2 ^ (971 : Int) := mul_le_mul_of_nonneg_left hpow (by norm_num)
      _ ≤ (2 ^ 53 - 5 / 2) * 2 ^ (971 : Int) :=
        mul_le_mul_of_nonneg_right (by norm_num) (by positivity)

/-- The numeral of one of the two, in the format of JSON, is read as a finite double as well. -/
theorem isFinite_scaled_last {negative : Bool} {mantissa n : Nat} {e : Int} {s : Text}
    (hwrite : json.write (lastDouble negative mantissa) = if negative then '-' :: s else s)
    (hscan : scanDecimal? s = some (n, e, [])) (hn : n < 0x10000000000000000)
    (hfinite : (scaled n e).isFinite = true) {m : Numeral} (hm : m.IsWritten)
    (htext : json.write (lastDouble negative mantissa) =
      if negative then '-' :: m.text else m.text) :
    (scaled m.significand.number m.significand.scale).isFinite = true := by
  have hs : m.text = s := by
    rw [hwrite] at htext
    cases negative with
    | true => exact (List.cons.inj htext).2.symm
    | false => exact htext.symm
  obtain ⟨rfl, rfl⟩ := hm.eq_of_scan (hs ▸ hscan)
  rw [m.significand_of_lt hn]
  exact hfinite

/-- **Range.** On the quick way, too, the JSON text of a finite double is never read as a number
beyond the doubles. It may be read as a neighbour, but what is written is never refused for its
size. -/
theorem isFinite_scaled_significand {f : Float} (hf : f.isFinite = true) {m : Numeral}
    (hm : m.IsWritten)
    (htext : json.write f = if (ofFloat f).negative then '-' :: m.text else m.text)
    (hcatch : (ofFloat f).Catches (m.number * 10 ^ m.scale)) :
    (scaled m.significand.number m.significand.scale).isFinite = true := by
  rcases eq_lastDouble_or hf hcatch with hlast | hlast | hbelow
  · generalize (ofFloat f).negative = negative at hlast htext
    subst hlast
    refine isFinite_scaled_last (n := 17976931348623157) (e := 292)
      (s := "1.7976931348623157e+308".toList) ?_ (by decide +kernel) (by decide)
      (by decide +kernel) hm htext
    cases negative <;> decide +kernel
  · generalize (ofFloat f).negative = negative at hlast htext
    subst hlast
    refine isFinite_scaled_last (n := 17976931348623155) (e := 292)
      (s := "1.7976931348623155e+308".toList) ?_ (by decide +kernel) (by decide)
      (by decide +kernel) hm htext
    cases negative <;> decide +kernel
  · exact isFinite_scaled m.significand_lt (m.significand_le.trans hbelow)

end FeatureTransform.Decimal
