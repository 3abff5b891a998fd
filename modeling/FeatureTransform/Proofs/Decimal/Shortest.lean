import FeatureTransform.Decimal.Read
import FeatureTransform.Proofs.Decimal.Digits
import FeatureTransform.Proofs.Double.Nearest

/-!
# The shortest digits read back

What `shortest` finds lies in the interval of its double, so that the nearest double of its digits
is that double again:

* **interval** — `Interval.contains` is membership in the interval of the double, counted in grid
  steps;
* **grid** — a grid of seventeen digits is finer than the interval is wide, since the leading digit
  of the value is found by `pointOf`; one of the two neighbours of the value lies in the interval;
* **reading** — the reader cuts off what lies beyond the doubles, which no such digits do, and
  rounds the rest to the nearest double.
-/

namespace FeatureTransform.Decimal

/-! ## The leading digit -/

theorem le_leadingShift (den tries num : Nat) (h : den ≤ num * 10 ^ tries) :
    den ≤ num * 10 ^ leadingShift den tries num := by
  induction tries generalizing num with
  | zero => simpa [leadingShift] using h
  | succ tries ih =>
    rw [leadingShift]
    split
    · rename_i hle
      simpa using hle
    · have hnext := ih (num * 10) (by rw [pow_succ] at h; linarith)
      rw [pow_succ]
      linarith

/-- **Leading digit.** A positive fraction is at least a one at the place of its leading digit, so
that seventeen digits from there on leave a small part of it. -/
theorem pointOf_spec {num den : Nat} (hnum : 0 < num) (hden : 0 < den) :
    (10 : ℚ) ^ (pointOf num den - 1) ≤ num / den := by
  have hden' : (0 : ℚ) < den := by exact_mod_cast hden
  unfold pointOf
  split
  · -- of a fraction from one on, the whole part has the digits in front of the point
    rename_i hle
    have hwhole : num / den ≠ 0 := (Nat.div_pos hle hden).ne'
    have hexp : ((Nat.log 10 (num / den) + 1 : Nat) : Int) - 1 =
        (Nat.log 10 (num / den) : Nat) := by
      omega
    rw [length_digitsOf hwhole, hexp, zpow_natCast, le_div_iff₀ hden']
    have hpow : 10 ^ Nat.log 10 (num / den) * den ≤ num :=
      (Nat.mul_le_mul_right den (Nat.pow_log_le_self 10 hwhole)).trans (Nat.div_mul_le_self num den)
    exact_mod_cast hpow
  · -- so many places are enough to bring the fraction above one
    have htries : den ≤ num * 10 ^ (den.log2 + 1) :=
      calc den ≤ 2 ^ (den.log2 + 1) := Nat.lt_log2_self.le
        _ ≤ 10 ^ (den.log2 + 1) := Nat.pow_le_pow_left (by decide) _
        _ ≤ num * 10 ^ (den.log2 + 1) := Nat.le_mul_of_pos_left _ hnum
    have hshift := le_leadingShift den _ num htries
    generalize leadingShift den (den.log2 + 1) num = j at *
    have hexp : (1 : Int) - j - 1 = -(j : Int) := by ring
    rw [hexp, zpow_neg, zpow_natCast, le_div_iff₀ hden', inv_mul_le_iff₀ (by positivity)]
    rw [mul_comm] at hshift
    exact_mod_cast hshift

/-! ## The interval -/

theorem shifted_div (k : Nat) (e : Int) :
    ((k <<< e.toNat : Nat) : ℚ) = k / 4 * 2 ^ e * ((4 <<< (-e).toNat : Nat) : ℚ) := by
  have h := shifted_eq k (show 0 < 4 by decide) (-e)
  rwa [neg_neg] at h

section

variable {b : Binary}

/-- The lower end of the interval, in units of the grid: below a power of two the doubles stand
closer, and the interval reaches half as far. -/
theorem low_eq (hb : 0 < b.mantissa) :
    ((Interval.of b).low : ℚ) = (b.mantissa - b.reach) * 2 ^ b.exponent * (Interval.of b).den := by
  simp only [Interval.of, Binary.reach]
  rw [shifted_div]
  congr 2
  split
  · rw [Nat.cast_sub (by omega)]
    push_cast
    ring
  · rw [Nat.cast_sub (by omega)]
    push_cast
    ring

theorem mid_eq : ((Interval.of b).mid : ℚ) = b.value * (Interval.of b).den := by
  simp only [Interval.of, Binary.value]
  rw [shifted_div]
  push_cast
  ring

/-- The upper end of the interval, in units of the grid: half a place above the double. -/
theorem high_eq :
    ((Interval.of b).high : ℚ) = (b.mantissa + 1 / 2) * 2 ^ b.exponent * (Interval.of b).den := by
  simp only [Interval.of]
  rw [shifted_div]
  push_cast
  ring

theorem den_pos : 0 < (Interval.of b).den := by
  simp only [Interval.of, Nat.shiftLeft_eq]
  positivity

/-- A grid step is the quotient of two whole numbers, one of which is one. -/
theorem step_div_scale (e : Int) :
    ((Nat.pow 10 e.toNat : Nat) : ℚ) = 10 ^ e * ((Nat.pow 10 (-e).toNat : Nat) : ℚ) := by
  simp only [Nat.pow_eq, Nat.cast_pow, Nat.cast_ofNat]
  rcases le_total 0 e with he | he
  · obtain ⟨n, rfl⟩ := Int.eq_ofNat_of_zero_le he
    have hdown : (-(n : Int)).toNat = 0 := by omega
    rw [hdown, Int.toNat_natCast, zpow_natCast]
    ring
  · obtain ⟨n, hn⟩ := Int.eq_ofNat_of_zero_le (neg_nonneg.mpr he)
    have hup : e.toNat = 0 := by omega
    have he' : e = -(n : Int) := by omega
    rw [hup, hn, Int.toNat_natCast, he', zpow_neg, zpow_natCast]
    field_simp

theorem scale_pos (e : Int) : (0 : ℚ) < ((Nat.pow 10 (-e).toNat : Nat) : ℚ) := by
  have hpos : 0 < Nat.pow 10 (-e).toNat := Nat.pow_pos (by decide)
  exact_mod_cast hpos

/-- **Interval.** Being contained is being caught: the whole numbers that are compared are the ends
of the interval of the double, over one denominator. -/
theorem contains_iff (hb : 0 < b.mantissa) (n : Nat) (e : Int) :
    (Interval.of b).contains n (Nat.pow 10 e.toNat) (Nat.pow 10 (-e).toNat) = true ↔
      b.Catches (n * 10 ^ e) := by
  have hden : (0 : ℚ) < (Interval.of b).den := by exact_mod_cast den_pos
  have hscale := scale_pos e
  have hpoint : ((n * Nat.pow 10 e.toNat * (Interval.of b).den : Nat) : ℚ) =
      n * 10 ^ e * ((Interval.of b).den * (Nat.pow 10 (-e).toNat : Nat)) := by
    rw [Nat.cast_mul, Nat.cast_mul, step_div_scale]
    ring
  have hlow : (((Interval.of b).low * Nat.pow 10 (-e).toNat : Nat) : ℚ) =
      (b.mantissa - b.reach) * 2 ^ b.exponent *
        ((Interval.of b).den * (Nat.pow 10 (-e).toNat : Nat)) := by
    rw [Nat.cast_mul, low_eq hb]
    ring
  have hhigh : (((Interval.of b).high * Nat.pow 10 (-e).toNat : Nat) : ℚ) =
      (b.mantissa + 1 / 2) * 2 ^ b.exponent *
        ((Interval.of b).den * (Nat.pow 10 (-e).toNat : Nat)) := by
    rw [Nat.cast_mul, high_eq]
    ring
  -- all sides are scaled by the same number, which is then taken away
  have hunit := mul_pos hden hscale
  have hclosed : (Interval.of b).closed = decide (b.mantissa % 2 = 0) := rfl
  simp only [Interval.contains]
  by_cases heven : b.mantissa % 2 = 0
  · rw [hclosed, if_pos (by simpa using heven), Bool.and_eq_true, decide_eq_true_eq,
      decide_eq_true_eq, ← Nat.cast_le (α := ℚ), ← Nat.cast_le (α := ℚ), hpoint, hlow, hhigh,
      mul_le_mul_iff_left₀ hunit, mul_le_mul_iff_left₀ hunit]
    exact ⟨fun h => ⟨h.1, h.2, fun hodd => by omega⟩, fun h => ⟨h.low, h.high⟩⟩
  · rw [hclosed, if_neg (by simpa using heven), Bool.and_eq_true, decide_eq_true_eq,
      decide_eq_true_eq, ← Nat.cast_lt (α := ℚ), ← Nat.cast_lt (α := ℚ), hpoint, hlow, hhigh,
      mul_lt_mul_iff_left₀ hunit, mul_lt_mul_iff_left₀ hunit]
    exact ⟨fun h => ⟨h.1.le, h.2.le, fun _ => h⟩, fun h => h.inside (by omega)⟩

/-! ## The grid -/

/-- What the search on a grid finds lies in the interval, since it looks before it takes one. -/
theorem onGrid?_spec (hb : 0 < b.mantissa) {point : Int} {count : Nat} {d : Digits}
    (h : (Interval.of b).onGrid? point count = some d) :
    ∃ n e, d = Digits.ofScaled n e ∧ b.Catches (n * 10 ^ e) := by
  simp only [Interval.onGrid?, Option.map_eq_some_iff] at h
  obtain ⟨n, hn, rfl⟩ := h
  refine ⟨n, _, rfl, (contains_iff hb n _).mp ?_⟩
  split at hn
  · rename_i hboth
    obtain ⟨hfirst, hsecond⟩ := (Bool.and_eq_true _ _).mp hboth
    split at hn
    · cases hn
      exact hfirst
    · cases hn
      exact hsecond
  · split at hn
    · cases hn
      assumption
    · split at hn
      · cases hn
        assumption
      · cases hn

/-- What is at most half a step from the value lies in an interval that reaches further than half a
step. -/
theorem catches_near {x g : ℚ} (hg : g / 2 < b.reach * 2 ^ b.exponent)
    (hx : |x - b.value| ≤ g / 2) : b.Catches x := by
  have hreach := b.reach_le
  have hpow : (0 : ℚ) < 2 ^ b.exponent := by positivity
  obtain ⟨hlow, hhigh⟩ := abs_le.mp hx
  have hhalf : b.reach * 2 ^ b.exponent ≤ 1 / 2 * 2 ^ b.exponent := by gcongr
  have hleft : (b.mantissa - b.reach) * 2 ^ b.exponent < x := by
    rw [sub_mul]
    simp only [Binary.value] at hlow
    linarith
  have hright : x < (b.mantissa + 1 / 2) * 2 ^ b.exponent := by
    rw [add_mul]
    simp only [Binary.value] at hhigh
    linarith
  exact ⟨hleft.le, hright.le, fun _ => ⟨hleft, hright⟩⟩

theorem mantissa_le_reach (hb : b.IsCanonical) : (b.mantissa : ℚ) ≤ b.reach * 2 ^ 54 := by
  have hdigits := hb.digits
  unfold Binary.reach
  split
  · rename_i h
    rw [h.1]
    norm_num
  · have : (b.mantissa : ℚ) ≤ 2 ^ 53 := by exact_mod_cast (show b.mantissa ≤ 2 ^ 53 by omega)
    linarith

/-- **Grid.** Half a step of seventeen digits is less than the interval reaches: the interval
reaches one part in `2 ^ 54` of the value at least, and half a step is less than one part in `2 * 10
^ 16`. -/
theorem grid_fine (hb : b.IsCanonical) (hpos : 0 < b.mantissa) :
    (10 : ℚ) ^ (pointOf (Interval.of b).mid (Interval.of b).den - 17) / 2 <
      b.reach * 2 ^ b.exponent := by
  have hden : (0 : ℚ) < (Interval.of b).den := by exact_mod_cast den_pos
  have hvalue : ((Interval.of b).mid : ℚ) / (Interval.of b).den = b.value := by
    rw [mid_eq]
    field_simp
  have hpow : (0 : ℚ) < 2 ^ b.exponent := by positivity
  have hmid : 0 < (Interval.of b).mid := by
    have : (0 : ℚ) < (Interval.of b).mid := by
      rw [mid_eq, Binary.value]
      have : (0 : ℚ) < b.mantissa := by exact_mod_cast hpos
      positivity
    exact_mod_cast this
  have hpoint := pointOf_spec hmid (den_pos (b := b))
  rw [hvalue] at hpoint
  have hsplit : (10 : ℚ) ^ (pointOf (Interval.of b).mid (Interval.of b).den - 17) =
      10 ^ (pointOf (Interval.of b).mid (Interval.of b).den - 1) / 10 ^ 16 := by
    rw [← zpow_natCast, ← zpow_sub₀ (by norm_num)]
    congr 1
    push_cast
    ring
  have hmantissa := mantissa_le_reach hb
  have hreach : 0 < b.reach := by
    unfold Binary.reach
    split <;> norm_num
  rw [hsplit]
  -- the mantissa has 53 bits, and 2 ^ 54 is less than 2 * 10 ^ 16
  calc (10 : ℚ) ^ (pointOf (Interval.of b).mid (Interval.of b).den - 1) / 10 ^ 16 / 2
      ≤ b.value / 10 ^ 16 / 2 := by gcongr
    _ ≤ b.reach * 2 ^ 54 * 2 ^ b.exponent / 10 ^ 16 / 2 := by
      unfold Binary.value
      gcongr
    _ < b.reach * 2 ^ b.exponent := by
      have := mul_pos hreach hpow
      linarith

/-- The value stands between a point of a grid and the next one. -/
theorem exists_part (hden : 0 < (Interval.of b).den) (e : Int) :
    let unit := Nat.pow 10 e.toNat * (Interval.of b).den
    let below := (Interval.of b).mid * Nat.pow 10 (-e).toNat / unit
    ∃ part : ℚ, 0 ≤ part ∧ part < 1 ∧ b.value = (below + part) * 10 ^ e := by
  intro unit below
  have hscale := scale_pos e
  have hden' : (0 : ℚ) < (Interval.of b).den := by exact_mod_cast hden
  have hunit : (unit : ℚ) = 10 ^ e * ((Interval.of b).den * (Nat.pow 10 (-e).toNat : Nat)) := by
    rw [Nat.cast_mul, step_div_scale]
    ring
  have hunit' : (0 : ℚ) < unit := by
    rw [hunit]
    positivity
  have hdiv : (unit : ℚ) * below + ((Interval.of b).mid * Nat.pow 10 (-e).toNat % unit : Nat) =
      b.value * ((Interval.of b).den * (Nat.pow 10 (-e).toNat : Nat)) := by
    rw [← mul_assoc, ← mid_eq]
    exact_mod_cast Nat.div_add_mod ((Interval.of b).mid * Nat.pow 10 (-e).toNat) unit
  have hrest := Nat.mod_lt ((Interval.of b).mid * Nat.pow 10 (-e).toNat) (by exact_mod_cast hunit')
  generalize (Interval.of b).mid * Nat.pow 10 (-e).toNat % unit = rest at *
  refine ⟨rest / unit, by positivity, ?_, ?_⟩
  · rw [div_lt_one hunit']
    exact_mod_cast hrest
  · have hproduct : (0 : ℚ) < (Interval.of b).den * (Nat.pow 10 (-e).toNat : Nat) := by positivity
    have hratio : (rest : ℚ) / unit * 10 ^ e *
        ((Interval.of b).den * (Nat.pow 10 (-e).toNat : Nat)) = rest := by
      rw [mul_assoc, ← hunit]
      field_simp
    apply mul_right_cancel₀ hproduct.ne'
    rw [← hdiv, add_mul, add_mul, hratio, hunit]
    ring

/-- One of the two neighbours on a grid is at most half a step away, so one of them is in the
interval when the grid is fine enough. -/
theorem near_or_near (hden : 0 < (Interval.of b).den) (e : Int) :
    let unit := Nat.pow 10 e.toNat * (Interval.of b).den
    let below := (Interval.of b).mid * Nat.pow 10 (-e).toNat / unit
    |(below : ℚ) * 10 ^ e - b.value| ≤ 10 ^ e / 2 ∨
      |((below + 1 : Nat) : ℚ) * 10 ^ e - b.value| ≤ 10 ^ e / 2 := by
  intro unit below
  obtain ⟨part, hpart, hpart', hvalue⟩ := exists_part hden e
  have hg : (0 : ℚ) < 10 ^ e := by positivity
  rw [hvalue]
  rcases le_total part (1 / 2) with hhalf | hhalf
  · left
    have hgap : (below : ℚ) * 10 ^ e - (below + part) * 10 ^ e = -(part * 10 ^ e) := by ring
    rw [hgap, abs_neg, abs_of_nonneg (by positivity)]
    nlinarith
  · right
    have hgap : ((below + 1 : Nat) : ℚ) * 10 ^ e - (below + part) * 10 ^ e =
        (1 - part) * 10 ^ e := by
      push_cast
      ring
    have hleft : 0 ≤ 1 - part := by linarith
    rw [hgap, abs_of_nonneg (by positivity)]
    nlinarith

/-- **Seventeen digits** always do, so that the search ends there at the latest. -/
theorem onGrid?_seventeen (hb : b.IsCanonical) (hpos : 0 < b.mantissa) :
    ((Interval.of b).onGrid? (pointOf (Interval.of b).mid (Interval.of b).den) 17).isSome := by
  have hfine := grid_fine hb hpos
  generalize pointOf (Interval.of b).mid (Interval.of b).den = point at *
  have hnear := near_or_near (b := b) den_pos (point - (17 : Nat))
  have hfirst := contains_iff hpos ((Interval.of b).mid * Nat.pow 10 (-(point - (17 : Nat))).toNat /
    (Nat.pow 10 (point - (17 : Nat)).toNat * (Interval.of b).den)) (point - (17 : Nat))
  have hsecond := contains_iff hpos
    ((Interval.of b).mid * Nat.pow 10 (-(point - (17 : Nat))).toNat /
      (Nat.pow 10 (point - (17 : Nat)).toNat * (Interval.of b).den) + 1) (point - (17 : Nat))
  simp only [Interval.onGrid?, Option.isSome_map]
  -- a neighbour that is near is caught, and whichever is taken then, one is
  rcases hnear with hnear | hnear
  · rw [hfirst.mpr (catches_near hfine hnear)]
    simp only [Bool.true_and, if_true]
    split
    · split <;> rfl
    · rfl
  · rw [hsecond.mpr (catches_near hfine hnear)]
    simp only [Bool.and_true, if_true]
    split
    · split <;> rfl
    · rfl

/-- **Shortest.** The digits that are found lie in the interval of the double, with however few of
them the search was content. -/
theorem shortest_spec (hb : b.IsCanonical) (hpos : 0 < b.mantissa) :
    ∃ n e, shortest b = Digits.ofScaled n e ∧ b.Catches (n * 10 ^ e) := by
  have hsome : ((List.range 17).findSome? fun n => (Interval.of b).onGrid?
      (pointOf (Interval.of b).mid (Interval.of b).den) (n + 1)).isSome := by
    rw [List.findSome?_isSome_iff]
    exact ⟨16, by simp, onGrid?_seventeen hb hpos⟩
  obtain ⟨d, hd⟩ := Option.isSome_iff_exists.mp hsome
  obtain ⟨count, -, hcount⟩ := List.exists_of_findSome?_eq_some hd
  obtain ⟨n, e, rfl, hcatch⟩ := onGrid?_spec hpos hcount
  refine ⟨n, e, ?_, hcatch⟩
  simp only [shortest, hd, Option.getD_some]

/-! ## Reading -/

/-- What a double catches is at least half its last place away from zero. -/
theorem catches_pos (hpos : 0 < b.mantissa) {x : ℚ} (hcatch : b.Catches x) :
    1 / 2 * 2 ^ b.exponent ≤ x := by
  have hone : (1 : ℚ) ≤ b.mantissa := by exact_mod_cast hpos
  have hreach := b.reach_le
  refine le_trans ?_ hcatch.low
  gcongr
  linarith

/-- What a double catches is below `2 ^ 1024`, which is where the range of doubles has ended. -/
theorem catches_lt (hb : b.IsCanonical) {x : ℚ} (hcatch : b.Catches x) : x < 2 ^ 1024 := by
  have hmantissa := Binary.cast_mantissa_lt hb
  have hhigh := hb.high
  calc x ≤ (b.mantissa + 1 / 2) * 2 ^ b.exponent := hcatch.high
    _ < 2 ^ 53 * 2 ^ b.exponent := by
      gcongr
      linarith
    _ ≤ 2 ^ 53 * 2 ^ (971 : Int) := by
      gcongr
      exact one_le_two
    _ = 2 ^ 1024 := by
      rw [← zpow_natCast, ← zpow_add₀ two_ne_zero, ← zpow_natCast]
      rfl

/-- The number of digits of a scaled number tells its order of magnitude. -/
theorem pow_length_le {n : Nat} (hn : n ≠ 0) (e : Int) :
    (10 : ℚ) ^ ((digitsOf n).length + e - 1) ≤ n * 10 ^ e ∧
      n * 10 ^ e < (10 : ℚ) ^ ((digitsOf n).length + e) := by
  have hlow : ((10 ^ Nat.log 10 n : Nat) : ℚ) ≤ n := by exact_mod_cast Nat.pow_log_le_self 10 hn
  have hhigh : (n : ℚ) < (10 ^ (Nat.log 10 n + 1) : Nat) := by
    exact_mod_cast Nat.lt_pow_succ_log_self (by decide) n
  have hpow : (0 : ℚ) < 10 ^ e := by positivity
  rw [length_digitsOf hn]
  constructor
  · have hexp : ((Nat.log 10 n + 1 : Nat) : Int) + e - 1 = (Nat.log 10 n : Nat) + e := by
      push_cast
      ring
    rw [hexp, zpow_add₀ (by norm_num), zpow_natCast]
    push_cast at hlow
    gcongr
  · rw [zpow_add₀ (by norm_num), zpow_natCast]
    push_cast at hhigh
    gcongr

/-- What a double catches is neither so small nor so large that the reader would not look: the
bounds on the number of digits are there to save work and never decide. -/
theorem length_of_catches (hb : b.IsCanonical) (hpos : 0 < b.mantissa) {n : Nat} {e : Int}
    (hcatch : b.Catches (n * 10 ^ e)) :
    n ≠ 0 ∧ -330 ≤ (digitsOf n).length + e ∧ (digitsOf n).length + e ≤ 310 := by
  have hlow := catches_pos hpos hcatch
  have hhigh := catches_lt hb hcatch
  have hn : n ≠ 0 := by
    rintro rfl
    rw [Nat.cast_zero, zero_mul] at hlow
    have hpow : (0 : ℚ) < 1 / 2 * 2 ^ b.exponent := by positivity
    linarith
  obtain ⟨hleft, hright⟩ := pow_length_le hn e
  refine ⟨hn, ?_, ?_⟩
  · -- half of the smallest double is more
    by_contra hlt
    have htiny : (10 : ℚ) ^ ((digitsOf n).length + e) ≤ 10 ^ (-330 : Int) :=
      zpow_le_zpow_right₀ (by norm_num) (by omega)
    have hleast : (2 : ℚ) ^ (-1074 : Int) ≤ 2 ^ b.exponent :=
      zpow_le_zpow_right₀ one_le_two hb.low
    have hgap : (10 : ℚ) ^ (-330 : Int) < 1 / 2 * 2 ^ (-1074 : Int) := by
      have hpowers : 2 * 2 ^ 1074 < 10 ^ 330 := by decide +kernel
      rw [zpow_neg, zpow_neg, one_div, ← mul_inv]
      exact inv_strictAnti₀ (by positivity) (by exact_mod_cast hpowers)
    have hhalf : (1 / 2 : ℚ) * 2 ^ (-1074 : Int) ≤ 1 / 2 * 2 ^ b.exponent := by gcongr
    exact lt_irrefl _ (((hright.trans_le htiny).trans hgap).trans_le (hhalf.trans hlow))
  · -- all doubles are less
    by_contra hlt
    have hhuge : (10 : ℚ) ^ (310 : Int) ≤ 10 ^ ((digitsOf n).length + e - 1) :=
      zpow_le_zpow_right₀ (by norm_num) (by omega)
    have hgap : (2 : ℚ) ^ 1024 < 10 ^ (310 : Int) := by
      have hpowers : 2 ^ 1024 < 10 ^ 310 := by decide +kernel
      exact_mod_cast hpowers
    exact lt_irrefl _ (((hhuge.trans hleft).trans_lt hhigh).trans hgap)

/-- A scaled number as a quotient of two whole ones. -/
theorem scaled_div_scale (n : Nat) (e : Int) :
    ((n * Nat.pow 10 e.toNat : Nat) : ℚ) / (Nat.pow 10 (-e).toNat : Nat) = n * 10 ^ e := by
  have hscale := (scale_pos e).ne'
  rw [Nat.cast_mul, step_div_scale]
  field_simp

/-- **Reading.** The nearest double of a scaled number that a double catches is that double, because
no two doubles catch the same number. -/
theorem nearest_eq (hb : b.IsCanonical) (hpos : 0 < b.mantissa) {n : Nat} {e : Int}
    (hcatch : b.Catches (n * 10 ^ e)) : nearest n e = Float.ofBits (UInt64.ofNat b.bits) := by
  obtain ⟨hn, hsmall, hlarge⟩ := length_of_catches hb hpos hcatch
  simp only [nearest]
  rw [if_neg (by simp only [hn, Int.not_lt.mpr hsmall, or_self, not_false_eq_true]),
    if_neg (Int.not_lt.mpr hlarge)]
  have hscale : 0 < Nat.pow 10 (-e).toNat := Nat.pow_pos (by decide)
  have hscaled : 0 < n * Nat.pow 10 e.toNat :=
    Nat.mul_pos (Nat.pos_of_ne_zero hn) (Nat.pow_pos (by decide))
  exact Binary.nearestFraction_eq hscaled hscale hb (by rwa [scaled_div_scale])

/-- The shortest digits lie in the interval of the double. -/
theorem catches_shortest (hb : b.IsCanonical) (hpos : 0 < b.mantissa) :
    b.Catches (shortest b).value := by
  obtain ⟨m, scale, hshortest, hcatch⟩ := shortest_spec hb hpos
  rwa [hshortest, Digits.value_ofScaled]

/-- **Round trip.** A scaled number with the value of the shortest digits of a double is read as the
magnitude of the double, in whatever layout the digits were written. -/
theorem nearest_shortest (hb : b.IsCanonical) (hpos : 0 < b.mantissa) {n : Nat} {e : Int}
    (hvalue : (n : ℚ) * 10 ^ e = (shortest b).value) :
    nearest n e = Float.ofBits (UInt64.ofNat b.bits) := by
  apply nearest_eq hb hpos
  rw [hvalue]
  exact catches_shortest hb hpos

/-- The digits that are found are in normal form: what is caught is not zero. -/
theorem isNormal_shortest (hb : b.IsCanonical) (hpos : 0 < b.mantissa) :
    (shortest b).IsNormal := by
  obtain ⟨m, scale, hshortest, hcatch⟩ := shortest_spec hb hpos
  rw [hshortest]
  apply Digits.isNormal_ofScaled
  rintro rfl
  have hlow := catches_pos hpos hcatch
  have hpow : (0 : ℚ) < 1 / 2 * 2 ^ b.exponent := by positivity
  rw [Nat.cast_zero, zero_mul] at hlow
  linarith

end

end FeatureTransform.Decimal
