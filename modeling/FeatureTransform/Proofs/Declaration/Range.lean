import FeatureTransform.Proofs.Declaration.Separator
import FeatureTransform.Proofs.Declaration.Spelling
import FeatureTransform.Proofs.Double.Order

/-!
# Declared ranges

A number may be declared with a least and a greatest value. A line is refused if the greatest value
lies below the least. NaN lies below nothing, so that a bound may be NaN, and then no value is in
the range. That is the only exception: bounds that are numbers are in order. NaN is read only from
its word, which therefore tells the empty ranges.

## Main results

* `Decimal.isNaN_iff_of_read?` — the only texts for NaN are its words;
* `range_of_resolveText` — the bounds of an accepted line, as they are written and as they are read.
-/

namespace FeatureTransform

/-! ## Texts for NaN -/

namespace Double

/-- Up to the bits of infinity there are numbers only, infinity itself among them: NaN comes after
them. -/
theorem isNaN_ofBits {n : Nat} (h : n ≤ 0x7FF0000000000000) :
    (Float.ofBits (UInt64.ofNat n)).isNaN = false := by
  have hfields := ofBits_fields (BitVec.ofNat 11 (n / 0x10000000000000))
    (BitVec.ofNat 52 (n % 0x10000000000000))
  have hbits : n / 0x10000000000000 % 2 ^ 11 * 0x10000000000000 +
      n % 0x10000000000000 % 2 ^ 52 = n := by
    omega
  rw [BitVec.toNat_ofNat, BitVec.toNat_ofNat, hbits] at hfields
  rw [hfields]
  apply isNaN_ofFields
  intro hlast
  have htop := congrArg BitVec.toNat hlast
  rw [BitVec.toNat_ofNat] at htop
  have hvalue : (-1#11).toNat = 0x7FF := by decide
  rw [← BitVec.toNat_inj, BitVec.toNat_ofNat, BitVec.toNat_ofNat]
  omega

/-- A sign does not make a number of what is none, nor the other way round. -/
theorem isNaN_neg (f : Float) : (-f).isNaN = f.isNaN := by
  rcases eq_nan_or_ofFields f with rfl | ⟨s, e, m, h, rfl⟩
  · rw [neg_nan]
  · rw [neg_ofFields h, isNaN_ofFields h, isNaN_ofFields h]

theorem isNaN_signed (negative : Bool) (f : Float) : (signed negative f).isNaN = f.isNaN := by
  cases negative with
  | false => rfl
  | true => exact isNaN_neg f

end Double

namespace Decimal

/-- The word for NaN. -/
def nanWord : Text := ['n', 'a', 'n']

/-- The text is the word for NaN in any letter case, behind a sign or without, and with white space
around it or without. -/
def SaysNaN (s : Text) : Prop := (spanSign (Text.trim s)).2.map Char.toLower = nanWord

instance : DecidablePred SaysNaN := fun s =>
  inferInstanceAs (Decidable ((spanSign (Text.trim s)).2.map Char.toLower = nanWord))

/-- Digits are read as a number, however many there are: what is too large for a double becomes
infinite. -/
theorem isNaN_nearest (n : Nat) (e : Int) : (nearest n e).isNaN = false := by
  unfold nearest
  dsimp only
  split
  · decide
  · split
    · decide
    · refine Double.isNaN_ofBits ?_
      rw [nearestBits]
      split
      · exact Nat.zero_le _
      · exact Nat.min_le_right _ _

/-- Without a sign, the word is the only text for NaN: all others are words for infinity or digits,
which are read as numbers. -/
theorem isNaN_iff_of_readMagnitude? {s : Text} {f : Float} (h : readMagnitude? s = some f) :
    f.isNaN = true ↔ s.map Char.toLower = nanWord := by
  have hword : String.ofList (s.map Char.toLower) = "nan" ↔ s.map Char.toLower = nanWord :=
    String.ofList_inj
  unfold readMagnitude? at h
  dsimp only at h
  split at h
  · rename_i hinf
    cases h
    have hother : String.ofList (s.map Char.toLower) ≠ "nan" := by
      rcases hinf with heq | heq <;> rw [heq] <;> decide
    exact iff_of_false (by decide) (mt hword.mpr hother)
  · split at h
    · rename_i hnan
      cases h
      exact iff_of_true (by decide) (hword.mp hnan)
    · rename_i hnan
      split at h <;> cases h
      exact iff_of_false (by rw [isNaN_nearest]; decide) (mt hword.mpr hnan)

/-- A sign is read apart from the magnitude, so that a claim about a text needs to be proved only
for texts without a sign. -/
theorem read?_eq (s : Text) :
    read? s = (readMagnitude? (spanSign s).2).map (Double.signed (spanSign s).1) := by
  have hplain : ∀ m? : Option Float, m?.map (Double.signed false) = m? := by
    intro m?
    cases m? <;> rfl
  unfold read?
  split
  · rfl
  · exact (hplain _).symm
  · rename_i hminus hplus
    have hsign : spanSign s = (false, s) := by
      unfold spanSign
      split
      · exact absurd rfl (hplus _)
      · exact absurd rfl (hminus _)
      · rfl
    rw [hsign]
    exact (hplain _).symm

/-- **NaN** is read from its word only. Whoever declares an empty range has therefore written the
word: no other text, and no arithmetic on digits, leads to NaN by accident. -/
theorem isNaN_iff_of_read? {s : Text} {f : Float} (h : read? (Text.trim s) = some f) :
    f.isNaN = true ↔ SaysNaN s := by
  rw [read?_eq] at h
  obtain ⟨g, hread, rfl⟩ := Option.map_eq_some_iff.mp h
  rw [Double.isNaN_signed]
  exact isNaN_iff_of_readMagnitude? hread

example : SaysNaN " -NaN ".toList := by decide

end Decimal

/-! ## Parts of a constraint -/

section Parts

variable {s : Text} {low high : Float}

/-- A bound is there only if its part is there and is read as a double; an empty part is no bound.
-/
theorem numberPart_eq_ok {part? : Option Text} {f : Float} (h : numberPart part? = .ok (some f)) :
    ∃ part, part? = some part ∧ Decimal.read? (Text.trim part) = some f := by
  rw [numberPart] at h
  split at h
  · cases h
  · rename_i text htext
    obtain ⟨part, rfl, hpart⟩ := Option.bind_eq_some_iff.mp htext
    have htrim : Text.trim part = text := by
      rw [Text.nonEmpty?] at hpart
      split at hpart <;> cases hpart
      rfl
    split at h
    · rename_i g hread
      cases h
      exact ⟨part, rfl, htrim ▸ hread⟩
    · cases h

/-- **Bounds** are the second and the third of three parts. The third contains no further separator,
as a fourth part is refused. -/
theorem exists_parts_of_numberKind {default? : Option Float}
    (h : numberKind s = .ok (.number default? (some low) (some high))) : ∃ first lower upper,
      s = first ++ ';' :: (lower ++ ';' :: upper) ∧ ';' ∉ lower ∧ ';' ∉ upper ∧
      Decimal.read? (Text.trim lower) = some low ∧ Decimal.read? (Text.trim upper) = some high := by
  obtain ⟨_, _, _, hkind, parts, hparts, hlength, -, hmin, hmax⟩ := numberKind_eq_ok h
  cases hkind
  obtain ⟨lower, hlower, hlow⟩ := numberPart_eq_ok hmin
  obtain ⟨upper, hupper, hhigh⟩ := numberPart_eq_ok hmax
  -- an upper bound is there, so there are three parts, and more are refused
  match parts with
  | [] | [_] | [_, _] => cases hupper
  | [first, second, third] =>
    cases hlower
    cases hupper
    rcases hparts with hnone | hparts
    · cases hnone
    · have hjoin := Text.join_splitAll ';' s
      have hfree : ∀ piece ∈ [first, lower, upper], ';' ∉ piece :=
        fun piece hpiece => Text.not_mem_of_mem_splitAll (hparts ▸ hpiece)
      refine ⟨first, lower, upper, ?_, hfree lower (by simp), hfree upper (by simp), hlow, hhigh⟩
      rw [← hjoin, ← hparts]
      simp [Text.join]
  | _ :: _ :: _ :: _ :: _ => exact absurd hlength (by simp)

end Parts

/-! ## Ends of a line -/

/-- A text is its trimmed form with white space around it. The other lemmas speak of trimmed texts;
with this one they are carried over to the line as it was written. -/
theorem exists_append_trim (s : Text) : ∃ before behind,
    s = before ++ Text.trim s ++ behind ∧ IsBlankText behind := by
  refine ⟨s.takeWhile Char.isBlank, ((Text.trimStart s).reverse.takeWhile Char.isBlank).reverse, ?_,
    fun c hc => List.mem_takeWhile_imp (List.mem_reverse.mp hc)⟩
  rw [List.append_assoc, Text.trim, Text.trimEnd, Text.trimEndBy, ← List.reverse_append,
    List.takeWhile_append_dropWhile, List.reverse_reverse, Text.trimStart,
    List.takeWhile_append_dropWhile]

/-- What follows the first word, without the separator, is the end of the text: nothing of the
constraint is changed or left out. -/
theorem splitKeyword_suffix {s : Text} (h : Text.trimEnd s = s) : (splitKeyword s).2 <:+ s := by
  obtain ⟨divider, hparts, -⟩ :=
    (EndsWord.dropWhile s).exists_divider (trimEnd_dropWhile_isWord h)
  rw [splitKeyword_dropWhile] at hparts
  refine ⟨s.takeWhile Char.isWord ++ divider, ?_⟩
  rw [List.append_assoc, ← hparts, List.takeWhile_append_dropWhile]

/-- The constraint is the end of the type, as the word `optional` and the keyword are both taken
from its front. -/
theorem TypeText.constraint_suffix (s : Text) : (of s).constraint <:+ Text.trim s := by
  have hfirst := splitKeyword_suffix (Text.trimEnd_trimEnd (Text.trimStart s))
  rw [of_eq]
  split
  · exact (splitKeyword_suffix (Text.trimEnd_trimEnd _)).trans hfirst
  · exact hfirst

/-! ## Lines -/

section Lines

variable {line : Text} {p : Parameter} {low high : Float} {default? : Option Float}

/-- The constraint of a number is the end of its line, white space apart, and it is read as the kind
that the parameter has. -/
theorem exists_constraint_of_resolveText {min? max? : Option Float}
    (h : resolveText line = .ok (.parameter p)) (hkind : p.kind = .number default? min? max?) :
    ∃ front constraint behind, line = front ++ constraint ++ behind ∧ IsBlankText behind ∧
      numberKind constraint = .ok (.number default? min? max?) := by
  obtain ⟨token, type, hsplit, -, -, hdeclare⟩ := resolveText_eq_ok h
  obtain ⟨rfl, -⟩ := Text.splitOnce?_eq_some hsplit
  have hnumber : numberKind (TypeText.of type).constraint =
      .ok (.number default? min? max?) := by
    -- the word `number` names no output, so the kind was read from the constraint
    rw [declare] at hdeclare
    split at hdeclare
    · rename_i output houtput
      cases hdeclare
      obtain ⟨-, -, ⟨-, hnamed⟩, -⟩ := isNamedBy_of_outputOf? houtput
      simp [hkind, Kind.wordings, Kind.keyword] at hnamed
    · dsimp only at hdeclare
      split at hdeclare <;> cases hdeclare
      rename_i kind hread
      obtain rfl : kind = .number default? min? max? := hkind
      obtain ⟨hword, -⟩ := keyword_of_kindOf? hread
      rw [← hword] at hread
      exact Option.some.inj hread
  obtain ⟨word, hword⟩ := TypeText.constraint_suffix type
  obtain ⟨before, behind, htype, hbehind⟩ := exists_append_trim type
  generalize (TypeText.of type).constraint = constraint at hword hnumber
  refine ⟨token ++ '=' :: (before ++ word), constraint, behind, ?_, hbehind, hnumber⟩
  rw [htype, ← hword]
  simp only [List.append_assoc, List.cons_append]

/-- **Ranges.** The bounds of a number that a line declares are the last two of its parts, which are
read as doubles. They are in order, and some value lies between them, exactly if neither part is the
word for NaN. The check of the order refuses a line only if the greatest value is less than the
least, which NaN never is. -/
theorem range_of_resolveText (h : resolveText line = .ok (.parameter p))
    (hkind : p.kind = .number default? (some low) (some high)) : ∃ front lower upper,
      line = front ++ ';' :: (lower ++ ';' :: upper) ∧ ';' ∉ lower ∧ ';' ∉ upper ∧
      Decimal.read? (Text.trim lower) = some low ∧
      Decimal.read? (Text.trim upper) = some high ∧
      (low ≤ high ↔ ¬Decimal.SaysNaN lower ∧ ¬Decimal.SaysNaN upper) ∧
      ((∃ x, low ≤ x ∧ x ≤ high) ↔ ¬Decimal.SaysNaN lower ∧ ¬Decimal.SaysNaN upper) := by
  obtain ⟨front, constraint, behind, rfl, hbehind, hnumber⟩ :=
    exists_constraint_of_resolveText h hkind
  obtain ⟨first, lower, upper, rfl, hlower, hupper, hlow, hhigh⟩ :=
    exists_parts_of_numberKind hnumber
  -- the white space at the end of the line belongs to the last part
  have htrim : Text.trim (upper ++ behind) = Text.trim upper :=
    Text.trim_append_of_blank hbehind upper
  have hfree : ';' ∉ upper ++ behind := by
    rw [List.mem_append, not_or]
    exact ⟨hupper, fun hmem => absurd (hbehind ';' hmem) (by decide)⟩
  rw [← htrim] at hhigh
  have horder : ¬high < low := (isSpelt_of_numberKind hnumber).1 low rfl high rfl
  have hnumbers : low.isNaN = false ∧ high.isNaN = false ↔
      ¬Decimal.SaysNaN lower ∧ ¬Decimal.SaysNaN (upper ++ behind) := by
    rw [← Decimal.isNaN_iff_of_read? hlow, ← Decimal.isNaN_iff_of_read? hhigh,
      Bool.not_eq_true, Bool.not_eq_true]
  refine ⟨front ++ first, lower, upper ++ behind, by simp, hlower, hfree, hlow, hhigh, ?_, ?_⟩
  · rw [Double.le_iff, ← hnumbers]
    exact ⟨fun h => ⟨h.1, h.2.1⟩, fun h => ⟨h.1, h.2, horder⟩⟩
  · rw [Double.exists_between_iff horder, hnumbers]

/-- NaN as the least value leaves nothing under the greatest: the line is accepted, but no value is
in the range. -/
theorem range_of_resolveText_lanes : ∃ p,
    resolveText "lanes=number ;nan;1".toList = .ok (.parameter p) ∧
      p.kind = .number none (some Double.nan) (some 1.0) ∧
      ¬Double.nan ≤ 1.0 ∧ ¬∃ x, Double.nan ≤ x ∧ x ≤ 1.0 := by
  let p : Parameter :=
    { name := "lanes", description := "lanes", optional := false
      kind := .number none (some Double.nan) (some 1.0) }
  have hread : resolveText "lanes=number ;nan;1".toList = .ok (.parameter p) := by decide +kernel
  obtain ⟨front, lower, upper, -, -, -, hlow, -, horder, hsome⟩ := range_of_resolveText hread rfl
  have hnan : Decimal.SaysNaN lower := (Decimal.isNaN_iff_of_read? hlow).mp Double.isNaN_nan
  exact ⟨p, hread, rfl, fun h => (horder.mp h).1 hnan, fun h => (hsome.mp h).1 hnan⟩

end Lines

end FeatureTransform
