import FeatureTransform.Proofs.Double.Bits

/-!
# The order of doubles

Doubles are compared as the numbers that they stand for. NaN stands for none: it is neither below
nor above anything, itself included. So of two doubles one is at most the other if and only if both
are numbers and the other is not below.
-/

namespace FeatureTransform.Double

open Float.Model (UnpackedFloat)

section Unpacked

variable (u v : UnpackedFloat)

/-- Only NaN cannot be compared; all other doubles, infinities and zeros of both signs included, can
be compared with each other. -/
theorem compare_eq_none_iff : u.compare v = none ↔ u.isNaN = true ∨ v.isNaN = true := by
  -- where numbers are compared there is an answer; the cases below say where
  have hboth : ∀ {o : Ordering}, u.compare v = some o → u.isNaN = false → v.isNaN = false →
      (u.compare v = none ↔ u.isNaN = true ∨ v.isNaN = true) := by
    intro o hsome hu hv
    rw [hsome, hu, hv]
    exact iff_of_false (Option.some_ne_none o) (by decide)
  cases u with
  | notANumber => cases v <;> exact iff_of_true rfl (.inl rfl)
  | zero s =>
    cases v with
    | notANumber => exact iff_of_true rfl (.inr rfl)
    | finite t n k hn => cases t <;> exact hboth rfl rfl rfl
    | infinity t => cases t <;> exact hboth rfl rfl rfl
    | zero t => exact hboth rfl rfl rfl
  | infinity s =>
    cases v with
    | notANumber => cases s <;> exact iff_of_true rfl (.inr rfl)
    | infinity t => cases s <;> cases t <;> exact hboth rfl rfl rfl
    | _ => cases s <;> exact hboth rfl rfl rfl
  | finite s m e hm =>
    cases v with
    | notANumber => cases s <;> exact iff_of_true rfl (.inr rfl)
    | finite t n k hn => cases s <;> cases t <;> exact hboth rfl rfl rfl
    | infinity t => cases s <;> cases t <;> exact hboth rfl rfl rfl
    | zero t => cases s <;> exact hboth rfl rfl rfl

/-- Magnitudes are compared by their exponents first, so that exchanging the numbers exchanges both
comparisons. -/
theorem swap_magnitudes (m n : Nat) (e k : Int) :
    (compare k e).then (compare n m) = ((compare e k).then (compare m n)).swap := by
  rw [Ordering.swap_then, ← Std.OrientedOrd.eq_swap, ← Std.OrientedOrd.eq_swap]

/-- Seen from the other side the order is turned. Hence not being below says as much as being at
most, as long as both are numbers. -/
theorem compare_swap : v.compare u = (u.compare v).map Ordering.swap := by
  cases u with
  | finite s m e hm =>
    cases v with
    | finite t n k hn =>
      cases s with
      | negative =>
        cases t with
        | negative => exact congrArg (fun o => some o.swap) (swap_magnitudes m n e k)
        | positive => rfl
      | positive =>
        cases t with
        | negative => rfl
        | positive => exact congrArg some (swap_magnitudes m n e k)
    | infinity t => cases s <;> cases t <;> rfl
    | zero t => cases s <;> rfl
    | notANumber => cases s <;> rfl
  | infinity s =>
    cases v with
    | infinity t => cases s <;> cases t <;> rfl
    | finite t n k hn => cases s <;> cases t <;> rfl
    | _ => cases s <;> rfl
  | zero s =>
    cases v with
    | finite t n k hn => cases t <;> rfl
    | infinity t => cases t <;> rfl
    | _ => rfl
  | notANumber => cases v <;> rfl

end Unpacked

/-! ## Doubles -/

section Order

variable {f g : Float}

/-- One double is less than another if the comparison of the numbers that they stand for says so. -/
theorem lt_iff : f < g ↔ f.toModel.unpack.compare g.toModel.unpack = some .lt := by
  change decide ((_ == some Ordering.lt) = true) = true ↔ _
  rw [decide_eq_true_iff, beq_iff_eq]

/-- **The order** is one of numbers: what is not above another number is at most it. Without the
condition on both sides this fails, since NaN is not above anything. -/
theorem le_iff : f ≤ g ↔ f.isNaN = false ∧ g.isNaN = false ∧ ¬g < f := by
  have hnone := compare_eq_none_iff f.toModel.unpack g.toModel.unpack
  have hle : f ≤ g ↔ (f.toModel.unpack.compare g.toModel.unpack).any Ordering.isLE = true :=
    decide_eq_true_iff
  rw [hle, lt_iff, compare_swap f.toModel.unpack]
  change _ ↔ f.toModel.unpack.isNaN = false ∧ g.toModel.unpack.isNaN = false ∧ _
  cases horder : f.toModel.unpack.compare g.toModel.unpack with
  | none =>
    have hnan := hnone.mp horder
    simp only [Option.any_none, Bool.false_eq_true, false_iff]
    rintro ⟨hf, hg, -⟩
    simp [hf, hg] at hnan
  | some o =>
    have hnumbers := mt hnone.mpr (by simp [horder])
    rw [not_or, Bool.not_eq_true, Bool.not_eq_true] at hnumbers
    simp only [hnumbers, true_and, Option.any_some, Option.map_some, Option.some.injEq]
    cases o <;> decide

theorem not_lt_self (f : Float) : ¬f < f := by
  rw [lt_iff]
  intro hlt
  have hswap := compare_swap f.toModel.unpack f.toModel.unpack
  rw [hlt] at hswap
  cases hswap

/-- A number is at most itself, and NaN is not. -/
theorem le_self_iff : f ≤ f ↔ f.isNaN = false := by
  rw [le_iff]
  exact ⟨fun h => h.1, fun h => ⟨h, h, not_lt_self f⟩⟩

/-- **Ranges.** Between bounds of which the upper is not below the lower there is something exactly
if both are numbers: then the bounds themselves lie between, and otherwise nothing is comparable
with one of them. -/
theorem exists_between_iff (h : ¬g < f) :
    (∃ x, f ≤ x ∧ x ≤ g) ↔ f.isNaN = false ∧ g.isNaN = false := by
  constructor
  · rintro ⟨x, hlow, hhigh⟩
    exact ⟨(le_iff.mp hlow).1, (le_iff.mp hhigh).2.1⟩
  · rintro ⟨hf, hg⟩
    exact ⟨f, le_self_iff.mpr hf, le_iff.mpr ⟨hf, hg, h⟩⟩

end Order

end FeatureTransform.Double
