import FeatureTransform.Decimal.Read
import FeatureTransform.Proofs.Decimal.Numeral

/-!
# Plain texts of doubles

The plain format has no exponents, and a whole number has no point. Its texts are made of few
characters, none of them a blank, and each is read as the double that it was written for.
-/

namespace FeatureTransform.Decimal

/-! ## Digits with a point at most -/

/-- All characters are digits and points. -/
def IsPointed (s : Text) : Prop := ∀ c ∈ s, isDigit c = true ∨ c = '.'

section Positional

variable {d : Digits}

/-- A number without places is written in digits alone: the plain format adds no point to a whole
number. -/
theorem positionalText_whole (hpoint : 0 < d.point) (hle : d.digits.length ≤ d.point.toNat) :
    positionalText false d = d.digits.map digitChar ++
      List.replicate (d.point.toNat - d.digits.length) '0' := by
  simp [positionalText, not_le.mpr hpoint, not_lt.mpr hle]

/-- A number with places is written as in the formats that show fractions. -/
theorem positionalText_places (h : ¬(0 < d.point ∧ d.digits.length ≤ d.point.toNat)) :
    positionalText false d = positionalText true d := by
  unfold positionalText
  rcases le_or_gt d.point 0 with hpoint | hpoint
  · simp only [hpoint, if_true]
  · have hlt : d.point.toNat < d.digits.length := not_le.mp fun hle => h ⟨hpoint, hle⟩
    simp only [List.length_map, hlt, if_true]

theorem scanDecimal?_digits {s : Text} (hs : IsDigits s) (hne : s ≠ []) :
    scanDecimal? s = some (valueOf 0 s, 0, []) := by
  have hspan : spanDigits (s ++ []) = (s, []) := spanDigits_append hs stops_nil.digit
  rw [List.append_nil] at hspan
  simp [scanDecimal?, hspan, spanPlaces, hne, valueOf]

/-- The digits are found again with their value, whether there is a point or not. -/
theorem scanDecimal?_positionalText (hd : d.IsNormal) : ∃ n e,
    scanDecimal? (positionalText false d) = some (n, e, []) ∧ (n : ℚ) * 10 ^ e = d.value := by
  by_cases hwhole : 0 < d.point ∧ d.digits.length ≤ d.point.toNat
  · -- a whole number has no point in this layout and is read as digits
    obtain ⟨hpoint, hle⟩ := hwhole
    have hdigits := (isDigits_map hd.small).append
      (isDigits_replicate (d.point.toNat - d.digits.length))
    have hne : d.digits.map digitChar ++
        List.replicate (d.point.toNat - d.digits.length) '0' ≠ [] := by simp [hd.nonempty]
    have hnumber : valueOf 0 (d.digits.map digitChar ++
        List.replicate (d.point.toNat - d.digits.length) '0') =
          numberOf d.digits * 10 ^ (d.point.toNat - d.digits.length) := by
      rw [valueOf_append, valueOf_replicate, valueOf_map _ hd.small]
      simp
    have hexp : d.point - d.digits.length = ((d.point.toNat - d.digits.length : Nat) : Int) := by
      omega
    rw [positionalText_whole hpoint hle]
    refine ⟨_, _, scanDecimal?_digits hdigits hne, ?_⟩
    rw [hnumber, Digits.value, hexp, zpow_natCast, zpow_zero, mul_one]
    push_cast
    rfl
  · obtain ⟨m, hm, htext, hvalue⟩ := positionalText_spec hd
    have hscan := Numeral.scanDecimal?_text hm stops_nil
    rw [List.append_nil] at hscan
    exact ⟨m.number, m.scale, by rw [positionalText_places hwhole, htext, hscan], hvalue⟩

/-- The plain format has no exponent, so nothing but digits and points is written. -/
theorem isPointed_positionalText (hd : d.IsNormal) : IsPointed (positionalText false d) := by
  intro c hc
  have hmap := isDigits_map hd.small
  have hzeros : ∀ n, ∀ c ∈ List.replicate n '0', isDigit c = true := fun n =>
    isDigits_replicate n
  unfold positionalText at hc
  simp only at hc
  split at hc
  · -- a point in front of all digits, behind zeros
    simp only [List.cons_append, List.mem_cons, List.mem_append] at hc
    rcases hc with rfl | rfl | hc | hc
    · exact .inl rfl
    · exact .inr rfl
    · exact .inl (hzeros _ c hc)
    · exact .inl (hmap c hc)
  split at hc
  · -- a point among the digits
    rcases List.mem_append.mp hc with hc | hc
    · exact .inl (hmap c (List.mem_of_mem_take hc))
    · rcases List.mem_cons.mp hc with rfl | hc
      · exact .inr rfl
      · exact .inl (hmap c (List.mem_of_mem_drop hc))
  · -- a whole number with zeros behind it
    simp only [Bool.false_eq_true, if_false, List.append_nil, List.mem_append] at hc
    rcases hc with hc | hc
    · exact .inl (hmap c hc)
    · exact .inl (hzeros _ c hc)

end Positional

/-! ## Reading -/

section Reading

variable {s : Text} {c : Char}

/-- No digit and no point is a letter, a sign, a blank or a semicolon. -/
theorem IsPointed.ne (hs : IsPointed s) (hc : c ∈ s) : c.toLower ≠ 'n' ∧ c ≠ '-' ∧ c ≠ '+' ∧
    c ≠ ';' ∧ Char.isBlank c = false := by
  rcases hs c hc with hdigit | rfl
  · obtain ⟨k, hk, rfl⟩ := exists_digitChar hdigit
    interval_cases k <;> decide
  · decide

/-- Digits and points are no word: neither infinity nor a number that is none is spelt in them, and
so the scanned number is what is read. -/
theorem IsPointed.readMagnitude? (hs : IsPointed s) {n : Nat} {e : Int}
    (hscan : scanDecimal? s = some (n, e, [])) : readMagnitude? s = some (nearest n e) := by
  have hletter : 'n' ∉ s.map Char.toLower := by
    intro hmem
    obtain ⟨c, hc, hn⟩ := List.mem_map.mp hmem
    exact (hs.ne hc).1 hn
  -- each of the words has this letter
  have hword : ∀ word : String, 'n' ∈ word.toList → String.ofList (s.map Char.toLower) ≠ word := by
    rintro word hn rfl
    rw [String.toList_ofList] at hn
    exact hletter hn
  unfold Decimal.readMagnitude?
  simp only [hscan, hword "inf" (by decide), hword "infinity" (by decide),
    hword "nan" (by decide), or_self, if_false]

/-- A sign is read apart from what stands behind it. -/
theorem read?_signed (negative : Bool) {f : Float} (hplus : s.head? ≠ some '+')
    (hminus : s.head? ≠ some '-') (h : readMagnitude? s = some f) :
    read? (if negative then '-' :: s else s) = some (Double.signed negative f) := by
  cases negative with
  | true =>
    change (readMagnitude? s).map (- ·) = _
    rw [h]
    rfl
  | false =>
    simp only [Bool.false_eq_true, if_false]
    unfold read?
    split
    · exact absurd rfl hminus
    · exact absurd rfl hplus
    · exact h

end Reading

/-- The magnitude of a number in the plain format: digits and points, or the word for infinity. In
both cases it is read as the magnitude of the number. -/
theorem plain_write_eq {f : Float} (h : f.isNaN = false) : ∃ s,
    plain.write f = (if (Binary.ofFloat f).negative then '-' :: s else s) ∧
      (IsPointed s ∨ s = ['i', 'n', 'f']) ∧
      ∃ g, readMagnitude? s = some g ∧ f = Double.signed (Binary.ofFloat f).negative g := by
  unfold Layout.write Layout.writeBy
  rw [h]
  simp only [Bool.false_eq_true, if_false]
  refine ⟨_, rfl, ?_⟩
  by_cases hinf : f.isInf = true
  · rw [if_pos hinf]
    exact ⟨.inr rfl, 1.0 / 0.0, rfl, Double.eq_of_isInf hinf⟩
  rw [if_neg hinf]
  have hfinite := (Double.isFinite_iff f).mpr ⟨by simpa using hinf, h⟩
  have hcanonical := Binary.isCanonical_ofFloat hfinite
  have hbits := Binary.eq_signed_bits h
  -- zero has no shortest digits and is written as it is
  by_cases hzero : (Binary.ofFloat f).mantissa = 0
  · rw [hcanonical.bits_eq_zero hzero] at hbits
    rw [if_pos hzero]
    refine ⟨.inl ?_, _, ?_, hbits⟩
    · rintro c hc
      obtain rfl : c = '0' := by simpa [plain] using hc
      exact .inl rfl
    · decide
  · have hpos : 0 < (Binary.ofFloat f).mantissa := Nat.pos_of_ne_zero hzero
    have hnormal := isNormal_shortest hcanonical hpos
    have hpointed := isPointed_positionalText hnormal
    obtain ⟨n, e, hscan, hvalue⟩ := scanDecimal?_positionalText hnormal
    rw [if_neg hzero]
    refine ⟨.inl hpointed, _, hpointed.readMagnitude? hscan, ?_⟩
    rw [nearest_shortest hcanonical hpos hvalue]
    exact hbits

/-- **Round trip.** The plain text of a double is read as the double, whatever the double: also
infinities, the negative zero and the one that is no number. -/
theorem read?_plain (f : Float) : read? (plain.write f) = some f := by
  by_cases hnan : f.isNaN = true
  · rw [Double.eq_nan_of_isNaN hnan]
    decide
  · obtain ⟨s, htext, hs, g, hread, hsigned⟩ := plain_write_eq (by simpa using hnan)
    have hhead : s.head? ≠ some '+' ∧ s.head? ≠ some '-' := by
      rcases hs with hpointed | rfl
      · refine ⟨fun h => ?_, fun h => ?_⟩
        · exact (hpointed.ne (List.mem_of_mem_head? h)).2.2.1 rfl
        · exact (hpointed.ne (List.mem_of_mem_head? h)).2.1 rfl
      · decide
    rw [htext, read?_signed _ hhead.1 hhead.2 hread, ← hsigned]

theorem plain_ne_nil (f : Float) : plain.write f ≠ [] := by
  intro hnone
  have hread := read?_plain f
  have hnothing : read? [] = none := by decide
  rw [hnone, hnothing] at hread
  cases hread

theorem undivided_of_all {s : Text} (h : (s.all fun c => !Char.isBlank c && c != ';') = true) :
    ∀ c ∈ s, Char.isBlank c = false ∧ c ≠ ';' := by
  intro c hc
  simpa using List.all_eq_true.mp h c hc

/-- A plain text holds no blank and no semicolon, so it may stand among constraints, which are
trimmed and cut at semicolons. -/
theorem plain_undivided (f : Float) :
    ∀ c ∈ plain.write f, Char.isBlank c = false ∧ c ≠ ';' := by
  by_cases hnan : f.isNaN = true
  · rw [Double.eq_nan_of_isNaN hnan]
    exact undivided_of_all (by decide)
  · obtain ⟨s, htext, hs, -⟩ := plain_write_eq (by simpa using hnan)
    have hmagnitude : ∀ c ∈ s, Char.isBlank c = false ∧ c ≠ ';' := by
      rcases hs with hpointed | rfl
      · intro c hc
        obtain ⟨-, -, -, hsemicolon, hblank⟩ := hpointed.ne hc
        exact ⟨hblank, hsemicolon⟩
      · exact undivided_of_all (by decide)
    rw [htext]
    split
    · exact List.forall_mem_cons.mpr ⟨by decide, hmagnitude⟩
    · exact hmagnitude

end FeatureTransform.Decimal
