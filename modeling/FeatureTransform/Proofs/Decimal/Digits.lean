import FeatureTransform.Decimal.Shortest
import Mathlib.Data.List.TakeWhile
import Mathlib.Data.Nat.Digits.Lemmas
import Mathlib.Data.Rat.Cast.Order
import Mathlib.Tactic

/-!
# Decimal digits and their value

`digitsOf` writes a number with its leading digit first, so that it is the list of base ten digits
of the standard library turned around. A `Digits` has a rational value, which dropping the zeros at
the end does not change, and what `Digits.ofScaled` makes is in normal form: the digits are digits,
there is one, and the first is not zero.
-/

namespace FeatureTransform.Decimal

/-! ## Digits of numbers -/

/-- With enough fuel the digits come out as in the standard library, last digit first. -/
theorem reversedDigits_eq (fuel n : Nat) (h : n < 10 ^ fuel) :
    reversedDigits fuel n = Nat.digits 10 n := by
  induction fuel generalizing n with
  | zero =>
    obtain rfl : n = 0 := by simpa using h
    simp [reversedDigits]
  | succ fuel ih =>
    by_cases hn : n = 0
    · simp [reversedDigits, hn]
    · have hless : n / 10 < 10 ^ fuel := Nat.div_lt_of_lt_mul (by rwa [pow_succ'] at h)
      rw [reversedDigits, if_neg hn, ih _ hless]
      exact (Nat.digits_def' (by decide) (Nat.pos_of_ne_zero hn)).symm

theorem lt_pow_log2 (n : Nat) : n < 10 ^ (n.log2 + 1) :=
  calc n < 2 ^ (n.log2 + 1) := Nat.lt_log2_self
    _ ≤ 10 ^ (n.log2 + 1) := Nat.pow_le_pow_left (by decide) _

/-- **Digits** of a number are those of the standard library, first digit first. All that is known
of digits there is known of `digitsOf` by this. -/
theorem digitsOf_eq (n : Nat) : digitsOf n = (Nat.digits 10 n).reverse := by
  rw [digitsOf, reversedDigits_eq _ _ (lt_pow_log2 n)]

theorem length_digitsOf {n : Nat} (hn : n ≠ 0) : (digitsOf n).length = Nat.log 10 n + 1 := by
  rw [digitsOf_eq, List.length_reverse, Nat.length_digits 10 n (by decide) hn]

/-- The number that digits stand for, first digit first. -/
def numberOf (ds : List Nat) : Nat := Nat.ofDigits 10 ds.reverse

/-- The digits of a number stand for it. -/
theorem numberOf_digitsOf (n : Nat) : numberOf (digitsOf n) = n := by
  rw [numberOf, digitsOf_eq, List.reverse_reverse, Nat.ofDigits_digits]

theorem numberOf_append (xs ys : List Nat) :
    numberOf (xs ++ ys) = numberOf xs * 10 ^ ys.length + numberOf ys := by
  rw [numberOf, List.reverse_append, Nat.ofDigits_append, List.length_reverse]
  simp only [numberOf]
  ring

/-! ## Value and normal form -/

namespace Digits

/-- The number that scaled digits stand for. -/
def value (d : Digits) : ℚ := numberOf d.digits * 10 ^ (d.point - d.digits.length)

/-- The digits are digits, there is one, and the first is not zero. -/
structure IsNormal (d : Digits) : Prop where
  /-- each digit is below ten -/
  small : ∀ k ∈ d.digits, k < 10
  /-- the number does not begin with a zero -/
  first : ∀ k ∈ d.digits.head?, k ≠ 0
  /-- there is a digit -/
  nonempty : d.digits ≠ []

/-- Zeros in front of the reversed digits are a power of ten: taking them off divides by it, which
is why `ofScaled` puts them into the point. -/
theorem ofDigits_dropZeros (ds : List Nat) :
    Nat.ofDigits 10 ds = 10 ^ (ds.length - (ds.dropWhile (· == 0)).length) *
      Nat.ofDigits 10 (ds.dropWhile (· == 0)) := by
  induction ds with
  | nil => rfl
  | cons k rest ih =>
    by_cases hk : k = 0
    · subst hk
      have hle := (List.dropWhile_sublist (· == 0) (l := rest)).length_le
      have hlength : (0 :: rest).length - (rest.dropWhile (· == 0)).length =
          rest.length - (rest.dropWhile (· == 0)).length + 1 := by
        simp only [List.length_cons]
        omega
      have hdrop : (0 :: rest).dropWhile (· == 0) = rest.dropWhile (· == 0) := by simp
      rw [hdrop, hlength, Nat.ofDigits_cons, ih, pow_succ]
      ring
    · have hdrop : (k :: rest).dropWhile (· == 0) = k :: rest := by simp [hk]
      rw [hdrop]
      simp

/-- What `ofScaled` makes has the value of the scaled number, though its digits lose the zeros at
the end. -/
theorem value_ofScaled (n : Nat) (scale : Int) :
    (ofScaled n scale).value = n * 10 ^ scale := by
  have hle := (List.dropWhile_sublist (· == 0) (l := Nat.digits 10 n)).length_le
  have hn := ofDigits_dropZeros (Nat.digits 10 n)
  rw [Nat.ofDigits_digits] at hn
  simp only [value, ofScaled, digitsOf_eq, List.reverse_reverse, numberOf, List.length_reverse]
  conv_rhs => rw [hn]
  generalize (Nat.digits 10 n).length = m at *
  generalize (Nat.digits 10 n).dropWhile (· == 0) = ds at *
  have hexp : ((m : Int) + scale - ds.length) = ((m - ds.length : Nat) : Int) + scale := by omega
  rw [hexp, zpow_add₀ (by norm_num), zpow_natCast]
  push_cast
  ring

/-- The first digit of a number that is not zero is not zero, and taking zeros off the end leaves
the first digit. -/
theorem isNormal_ofScaled {n : Nat} (hn : n ≠ 0) (scale : Int) : (ofScaled n scale).IsNormal := by
  have hne : Nat.digits 10 n ≠ [] := Nat.digits_ne_nil_iff_ne_zero.mpr hn
  have hlast := Nat.getLast_digit_ne_zero 10 hn
  have hdrop : (Nat.digits 10 n).dropWhile (· == 0) ≠ [] := by
    rw [Ne, List.dropWhile_eq_nil_iff]
    intro h
    exact hlast (by simpa using h _ (List.getLast_mem hne))
  constructor
  · intro k hk
    simp only [ofScaled, digitsOf_eq, List.reverse_reverse, List.mem_reverse] at hk
    exact Nat.digits_lt_base (by decide) ((List.dropWhile_sublist _).mem hk)
  · intro k hk
    simp only [ofScaled, digitsOf_eq, List.reverse_reverse, List.head?_reverse] at hk
    rintro rfl
    apply hlast
    have hsplit := List.takeWhile_append_dropWhile (p := (· == 0)) (l := Nat.digits 10 n)
    have hend : (Nat.digits 10 n).getLast? = some 0 := by
      rw [← hsplit, List.getLast?_append, hk]
      rfl
    exact (List.getLast_eq_iff_getLast?_eq_some hne).mpr hend
  · simpa [ofScaled, digitsOf_eq] using hdrop

end Digits

end FeatureTransform.Decimal
