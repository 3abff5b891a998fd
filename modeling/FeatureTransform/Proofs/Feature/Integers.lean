import FeatureTransform.Proofs.Feature.Numbers
import FeatureTransform.Proofs.Json.Scalar
import FeatureTransform.Proofs.Json.Trim

/-!
# Numbers as integers

A number that is coerced to an integer is rounded, and so moves by half a unit at most, as long as
it is not beyond the bounds of 64 bits. Beyond them it becomes the bound, which is as far away as
the number is large. The text of the same number does not become an integer there: it is read only
if it shows an integer within the bounds.

## Main results

* `FieldType.integerOf_of_lt`, `FieldType.integerOf_of_gt` — what lies beyond a bound becomes it;
* `FieldType.coerce_integer_text` — which texts of numbers become integers;
* `FieldType.coerce_integer_near_iff` — a number becomes an integer near to it exactly if it is
  within the bounds.
-/

namespace FeatureTransform

open Json (Number)

namespace FieldType

/-! ## Beyond the bounds -/

/-- A double above the bounds is moved to the greatest integer. -/
theorem roundToInt64_of_lt {f : Float} (h : 0x7FFFFFFFFFFFFFFF < (Binary.ofFloat f).toRat) :
    roundToInt64 f = Int64.maxValue := by
  have hbelow := (abs_le.mp (Binary.ofFloat f).abs_round_sub_le).1
  rw [← Int64.toInt_inj, toInt_roundToInt64_eq]
  generalize (Binary.ofFloat f).round = i at *
  -- rounding down by half a unit does not lead below the bound, which is an integer
  have hround : (0x7FFFFFFFFFFFFFFF - 1 : ℚ) < i := by linarith
  have hbound : 0x7FFFFFFFFFFFFFFF - 1 < i := by exact_mod_cast hround
  have hmax : Int64.maxValue.toInt = 0x7FFFFFFFFFFFFFFF := rfl
  omega

/-- A double below the bounds is moved to the least integer. -/
theorem roundToInt64_of_gt {f : Float} (h : (Binary.ofFloat f).toRat < -0x8000000000000000) :
    roundToInt64 f = Int64.minValue := by
  have habove := (abs_le.mp (Binary.ofFloat f).abs_round_sub_le).2
  rw [← Int64.toInt_inj, toInt_roundToInt64_eq]
  generalize (Binary.ofFloat f).round = i at *
  have hround : (i : ℚ) < -0x8000000000000000 + 1 := by linarith
  have hbound : i < -0x8000000000000000 + 1 := by exact_mod_cast hround
  have hmin : Int64.minValue.toInt = -0x8000000000000000 := rfl
  omega

/-- The nearest double of an integer above the bound is above the bound too, as the bound's own
successor is a double. Going through doubles, a number thus cannot get back into the bounds. -/
theorem le_nearest {i : Int} (hlow : 0x8000000000000000 ≤ i) (hhigh : i < 0x10000000000000000) :
    0x8000000000000000 ≤ (Binary.ofFloat (Float.nearest i)).toRat := by
  have hform : Binary.ofFloat 9223372036854775808.0 = ⟨false, 0x10000000000000, 11⟩ := by decide
  have hnext : (Binary.ofFloat 9223372036854775808.0).toRat = 0x8000000000000000 := by
    rw [hform]
    norm_num [Binary.toRat, Binary.value]
  -- the nearest double is not farther below than the successor is
  have hnearest := Double.abs_nearest_sub_le (n := i) (by omega)
    (show (9223372036854775808.0 : Float).isFinite = true by decide)
  have hlow' : (0x8000000000000000 : ℚ) ≤ i := by exact_mod_cast hlow
  rw [hnext, abs_sub_comm _ (i : ℚ), abs_sub_comm _ (i : ℚ),
    abs_of_nonneg (show (0 : ℚ) ≤ i - 0x8000000000000000 by linarith)] at hnearest
  have hbelow := (abs_le.mp hnearest).2
  linarith

/-- **Above.** A number above the bounds becomes the greatest integer, whether it was written as an
integer or as a double. -/
theorem integerOf_of_lt {n : Number} (h : 0x7FFFFFFFFFFFFFFF < n.toRat) :
    integerOf n = Int64.maxValue := by
  cases n with
  | integer i =>
    rw [Number.toRat_integer] at h
    have hlow : 0x7FFFFFFFFFFFFFFF < i.value := by exact_mod_cast h
    have hnearest := le_nearest (show 0x8000000000000000 ≤ i.value by omega) i.inRange.2
    rw [integerOf, Json.Integer.toInt64?, if_neg (by omega), Option.getD_none]
    exact roundToInt64_of_lt (by linarith)
  | double d => exact roundToInt64_of_lt h

/-- **Below.** A number below them becomes the least integer. -/
theorem integerOf_of_gt {n : Number} (h : n.toRat < -0x8000000000000000) :
    integerOf n = Int64.minValue := by
  cases n with
  | integer i =>
    rw [Number.toRat_integer] at h
    have hlow := i.inRange.1
    have hhigh : i.value < -0x8000000000000000 := by exact_mod_cast h
    omega
  | double d => exact roundToInt64_of_gt h

/-- What is not within the bounds is above or below them. -/
theorem not_spans_integer {q : ℚ} (h : ¬FieldType.integer.Spans q) :
    0x7FFFFFFFFFFFFFFF < q ∨ q < -0x8000000000000000 := by
  by_contra hnone
  rw [not_or, not_lt, not_lt] at hnone
  exact h ⟨hnone.2, hnone.1⟩

/-- The integers of the type are within its bounds. -/
theorem Accepts.spans {n : Number} (h : FieldType.integer.Accepts (.number n)) :
    FieldType.integer.Spans n.toRat := by
  cases n with
  | integer i =>
    have hlow := i.inRange.1
    have hhigh : i.value ≤ 0x7FFFFFFFFFFFFFFF := Int.le_of_lt_add_one h.2
    rw [Number.toRat_integer]
    constructor
    · exact_mod_cast hlow
    · exact_mod_cast hhigh
  | double d => cases h

/-- Beyond the bounds all numbers are whole, since doubles as large as that have no places behind
the point. -/
theorem exists_eq_intCast {n : Number} (h : ¬FieldType.integer.Spans n.toRat) :
    ∃ i : Int, n.toRat = i := by
  cases n with
  | integer i => exact ⟨i.value, rfl⟩
  | double d =>
    rw [Number.toRat_double] at h ⊢
    have hvalue := (Binary.ofFloat d.value).abs_toRat
    have hlarge : (2 : ℚ) ^ 52 ≤ |(Binary.ofFloat d.value).toRat| := by
      rw [le_abs]
      rcases not_spans_integer h with habove | hbelow
      · left
        linarith
      · right
        linarith
    -- a double of that size has all its bits in front of the point
    obtain ⟨k, hk⟩ :=
      Binary.exists_value_eq_natCast (Binary.isCanonical_ofFloat d.finite) (hvalue ▸ hlarge)
    rw [hk] at hvalue
    rcases eq_or_eq_neg_of_abs_eq hvalue with hpos | hneg
    · exact ⟨k, by simpa using hpos⟩
    · exact ⟨-k, by simpa using hneg⟩

/-- So each of them is a unit or more away from the bound, and the integer that it becomes is not
near to it. -/
theorem one_le_abs_integerOf_sub {n : Number} (h : ¬FieldType.integer.Spans n.toRat) :
    1 ≤ |((integerOf n).toInt : ℚ) - n.toRat| := by
  obtain ⟨k, hk⟩ := exists_eq_intCast h
  rcases not_spans_integer h with habove | hbelow
  · have hmax : Int64.maxValue.toInt = 0x7FFFFFFFFFFFFFFF := rfl
    rw [integerOf_of_lt habove, hk, hmax]
    rw [hk] at habove
    have hless : 0x7FFFFFFFFFFFFFFF < k := by exact_mod_cast habove
    exact_mod_cast Int.one_le_abs (show 0x7FFFFFFFFFFFFFFF - k ≠ 0 by omega)
  · have hmin : Int64.minValue.toInt = -0x8000000000000000 := rfl
    rw [integerOf_of_gt hbelow, hk, hmin]
    rw [hk] at hbelow
    have hless : k < -0x8000000000000000 := by exact_mod_cast hbelow
    exact_mod_cast Int.one_le_abs (show -0x8000000000000000 - k ≠ 0 by omega)

/-- Within the bounds, a number is rounded, and moves by half a unit at most. -/
theorem abs_integerOf_sub_le_half {n : Number} (h : FieldType.integer.Spans n.toRat) :
    |((integerOf n).toInt : ℚ) - n.toRat| ≤ 1 / 2 := by
  have hround := abs_sub_round n.toRat
  rw [abs_sub_comm] at hround
  exact (abs_integerOf_sub_le h (round n.toRat)).trans hround

/-! ## Texts of numbers -/

/-- **Texts.** The text of a number becomes that number if it is an integer of the type, and does
not convert otherwise. The text of a double shows that it is one, by its point or its exponent, and
so it is not read as an integer, even if it is whole. -/
theorem coerce_integer_text (n : Number) :
    (FieldType.integer.Accepts (.number n) →
      FieldType.integer.coerce (.string (Json.number n).write) = .number n) ∧
    (¬FieldType.integer.Accepts (.number n) →
      FieldType.integer.coerce (.string (Json.number n).write) = .null) := by
  have htext : Text.trim (Json.number n).write.toList = n.text := by
    rw [Json.write, String.toList_ofList]
    exact Json.trim_number n
  simp only [coerce, htext]
  cases n with
  | integer i =>
    have hlow := i.inRange.1
    rw [Json.Number.text, Decimal.readInt?_intText]
    constructor
    · rintro ⟨-, hhigh⟩
      rw [if_pos ⟨hlow, hhigh⟩]
      exact Json.ofInt64_of_lt hhigh
    · intro hnot
      rw [if_neg fun hbounds => hnot ⟨rfl, hbounds.2⟩]
  -- the numeral of a double shows that it is one
  | double d =>
    obtain ⟨m, hm, hwritten, -⟩ := @Decimal.write_spec Decimal.json rfl _ d.finite
    rw [Json.Number.text, hwritten, Decimal.readInt?_numeral _ hm]
    constructor
    · intro haccepts
      cases haccepts
    · exact fun _ => rfl

/-! ## Coercion to integers -/

/-- The integer is as near to the number as the bounds of 64 bits let it be: within half a unit if
the number is within them, and the bound itself if not. -/
structure Saturates (n : Number) (i : Int64) : Prop where
  /-- it is near to what is within the bounds, and to nothing else -/
  near_iff : |(i.toInt : ℚ) - n.toRat| ≤ 1 / 2 ↔ FieldType.integer.Spans n.toRat
  /-- what is above them becomes the greatest integer -/
  above : 0x7FFFFFFFFFFFFFFF < n.toRat → i = Int64.maxValue
  /-- what is below them becomes the least -/
  below : n.toRat < -0x8000000000000000 → i = Int64.minValue

/-- What a number is coerced to is near to it exactly within the bounds. -/
theorem saturates_integerOf (n : Number) : Saturates n (integerOf n) where
  near_iff := by
    constructor
    · intro hnear
      by_contra hspans
      have hfar := one_le_abs_integerOf_sub hspans
      linarith
    · exact abs_integerOf_sub_le_half
  above := integerOf_of_lt
  below := integerOf_of_gt

/-- **Integers.** A number always becomes an integer, never `null`, and one near to it exactly if it
is within the bounds. Its text becomes the same integer if it shows one, and does not convert
otherwise; so the text of what lies beyond the bounds never does, unlike the number. The two paths
differ because a number is rounded and then moved into the bounds, while a text is read or not. -/
theorem coerce_integer_near_iff (n : Number) : ∃ i : Int64,
    FieldType.integer.coerce (.number n) = .ofInt64 i ∧ Saturates n i ∧
      (FieldType.integer.Accepts (.number n) →
        FieldType.integer.coerce (.string (Json.number n).write) = .ofInt64 i) ∧
      (¬FieldType.integer.Accepts (.number n) →
        FieldType.integer.coerce (.string (Json.number n).write) = .null) ∧
      (¬FieldType.integer.Spans n.toRat →
        FieldType.integer.coerce (.string (Json.number n).write) = .null) := by
  obtain ⟨hread, hunread⟩ := coerce_integer_text n
  refine ⟨integerOf n, rfl, saturates_integerOf n, fun haccepts => ?_, hunread, fun hspans => ?_⟩
  · have hsame : Json.ofInt64 (integerOf n) = .number n := haccepts.coerce
    rw [hread haccepts, hsame]
  · exact hunread fun haccepts => hspans haccepts.spans

theorem inRange_greatest :
    (-0x8000000000000000 : Int) ≤ 0xFFFFFFFFFFFFFFFF ∧
      (0xFFFFFFFFFFFFFFFF : Int) < 0x10000000000000000 := by
  decide

/-- The greatest integer that a number may be, of 64 bits without a sign. -/
def greatest : Number := .integer ⟨0xFFFFFFFFFFFFFFFF, inRange_greatest⟩

/-- It becomes less than half of itself, while its text does not convert. -/
theorem coerce_integer_near_iff_greatest :
    FieldType.integer.coerce (.number greatest) = .ofInt64 Int64.maxValue ∧
      ¬|(Int64.maxValue.toInt : ℚ) - greatest.toRat| ≤ 1 / 2 ∧
      FieldType.integer.coerce (.string "18446744073709551615") = .null := by
  obtain ⟨i, hcoerce, hsaturates, -, -, htext⟩ := coerce_integer_near_iff greatest
  have habove : 0x7FFFFFFFFFFFFFFF < greatest.toRat := by norm_num [greatest]
  have hbeyond : ¬FieldType.integer.Spans greatest.toRat := fun hspans =>
    absurd hspans.2 (not_le.mpr habove)
  obtain rfl := hsaturates.above habove
  have hwritten : (Json.number greatest).write = "18446744073709551615" := by decide
  exact ⟨hcoerce, fun hnear => hbeyond (hsaturates.near_iff.mp hnear), hwritten ▸ htext hbeyond⟩

end FieldType

end FeatureTransform
