import FeatureTransform.Json.Read
import FeatureTransform.Json.Write
import FeatureTransform.Proofs.Decimal.Scaled

/-!
# Numbers and strings of JSON texts

The reader takes what the writer gives, in front of any text that does not go on with it:

* **numbers** — an integer within 64 bits stays an integer, since it has no point and no exponent. A
  double is written as a numeral that shows that it is one; what the quick way makes of this is a
  double again, but not always the same one;
* **strings** — every character is read back, escaped or not.
-/

namespace FeatureTransform.Json

open Decimal (IsDigits Stops StopsDigits Numeral Significand spanDigits spanDigits_append)

/-! ## Numbers -/

/-- The double of a sign and a magnitude that is not too large. The reader asks only of the result
whether it is finite, and puts the sign last. -/
theorem doubleOf_eq (negative : Bool) {n : Nat} {e : Int}
    (hf : (Double.signed negative (Decimal.scaled n e)).isFinite = true) :
    doubleOf negative n e = .ok (.double ⟨_, hf⟩) := by
  rw [Double.signed] at hf
  simp only [doubleOf, Number.ofFloat?, dif_pos hf]
  rfl

theorem ofInt?_value (i : Integer) : Number.ofInt? i.value = some (.integer i) := by
  simp only [Number.ofInt?]
  rw [dif_pos i.inRange]

/-- An integer within the bounds stays an integer, with its sign. -/
theorem wholeOf_natAbs (i : Integer) :
    wholeOf (decide (i.value < 0)) i.value.natAbs = .ok (.integer i) := by
  obtain ⟨hlow, hhigh⟩ := i.inRange
  unfold wholeOf
  by_cases hneg : i.value < 0
  · have hbounds : ¬(i.value.natAbs = 0 ∨ 0x8000000000000000 < i.value.natAbs) := by omega
    have hvalue : -(i.value.natAbs : Int) = i.value := by omega
    rw [decide_eq_true hneg, if_pos rfl, if_neg hbounds, hvalue, ofInt?_value]
  · have hvalue : (i.value.natAbs : Int) = i.value := by omega
    rw [decide_eq_false hneg, if_neg Bool.false_ne_true, hvalue, ofInt?_value]

/-- A whole number of 64 bits ends where no numeral goes on. -/
theorem readFraction_whole (negative : Bool) (n : Nat) {rest : Text} (hrest : Stops rest) :
    readFraction negative ⟨n, 0⟩ rest = (wholeOf negative n).map fun m => (m, rest) := by
  unfold readFraction
  split
  · exact absurd rfl (hrest.point '.' rfl)
  · exact absurd rfl (hrest.exponent 'e' rfl).1
  · exact absurd rfl (hrest.exponent 'E' rfl).2
  · simp only [if_true]
    cases wholeOf negative n <;> rfl

section Numerals

variable {m : Numeral} {rest : Text}

/-- The exponent of a numeral is read, and the text behind it is left. The places behind the point
have been counted before, and are subtracted here. -/
theorem readExponent_text (hm : m.IsWritten) (hrest : Stops rest) {signed down : Bool} {ds : Text}
    (hexponent : m.exponent = some (signed, down, ds)) (negative : Bool) (digits : Significand) :
    readExponent negative digits (Numeral.signText signed down ++ (ds ++ rest)) =
      (doubleOf negative digits.number (digits.scale + m.exponentValue)).map
        fun d => (d, rest) := by
  obtain ⟨hds, hne⟩ := hm.exponent signed down ds hexponent
  have hspan := Numeral.spanDigits_exponent hm hrest hexponent
  unfold readExponent
  simp only [Numeral.spanSign_exponent hm hexponent, hspan, Numeral.exponentValue, hexponent]
  obtain ⟨d, more, rfl⟩ := List.exists_cons_of_ne_nil hne
  cases down with
  | true =>
    simp only [List.cons_append, if_true]
    cases doubleOf negative digits.number _ <;> rfl
  | false =>
    simp only [List.cons_append, Bool.false_eq_true, if_false]
    cases doubleOf negative digits.number _ <;> rfl

/-- What follows the whole part of a numeral is read; a numeral of a double never ends there, so
that no double is taken for an integer. -/
theorem readFraction_text (hm : m.IsWritten) (hrest : Stops rest) (negative : Bool) :
    readFraction negative (.ofWhole m.whole) (m.placesText ++ (m.exponentText ++ rest)) =
      (doubleOf negative m.significand.number m.significand.scale).map fun d => (d, rest) := by
  cases hplaces : m.places with
  | some ds =>
    obtain ⟨hds, hne⟩ := hm.places ds hplaces
    have hspan := Numeral.spanDigits_places hm hrest hplaces
    have htext : m.placesText = '.' :: ds := by simp [Numeral.placesText, hplaces]
    rw [htext, List.cons_append]
    simp only [readFraction, hspan, Numeral.significand, hplaces, Option.getD_some]
    obtain ⟨d, more, rfl⟩ := List.exists_cons_of_ne_nil hne
    cases hexponent : m.exponent with
    | none =>
      rw [Numeral.exponentText_none hexponent]
      simp only [Numeral.exponentValue, hexponent, add_zero]
      split
      · -- what follows would have been the exponent
        exact absurd rfl (hrest.exponent 'e' rfl).1
      · exact absurd rfl (hrest.exponent 'E' rfl).2
      · cases doubleOf negative _ _ <;> rfl
    | some e =>
      obtain ⟨signed, down, es⟩ := e
      rw [Numeral.exponentText_some hexponent]
      exact readExponent_text hm hrest hexponent negative _
  -- without places there is an exponent, since the numeral shows that it is of a double
  | none =>
    have htext : m.placesText = [] := by simp [Numeral.placesText, hplaces]
    cases hexponent : m.exponent with
    | none => exact absurd hexponent (hm.isDouble.resolve_left (by simp [hplaces]))
    | some e =>
      obtain ⟨signed, down, es⟩ := e
      rw [htext, List.nil_append, Numeral.exponentText_some hexponent]
      simp only [readFraction, Numeral.significand, hplaces, Option.getD_none,
        Decimal.withPlaces_nil]
      exact readExponent_text hm hrest hexponent negative _

/-- The reader takes the whole part of a numeral. -/
theorem readNumber_whole {whole : Text} (hwhole : IsDigits whole) (hne : whole ≠ [])
    (hleading : ∀ rest, whole = '0' :: rest → rest = []) (hrest : StopsDigits rest)
    (negative : Bool) :
    readNumber negative (whole ++ rest) = readFraction negative (.ofWhole whole) rest := by
  unfold readNumber
  rw [spanDigits_append hwhole hrest]
  split
  · rename_i heq
    exact absurd (Prod.mk.inj heq).1 hne
  · rename_i heq
    exact absurd (Prod.mk.inj heq).1 hne
  · rename_i heq
    have := hleading _ (Prod.mk.inj heq).1
    cases this
  · rename_i heq
    obtain ⟨rfl, rfl⟩ := Prod.mk.inj heq
    rfl

end Numerals

/-- A number begins with a zero only if it is zero, which matters since the reader ends a number
behind a zero in front. -/
theorem natText_leading (n : Nat) : ∀ rest, Decimal.natText n = '0' :: rest → rest = [] := by
  intro rest h
  unfold Decimal.natText at h
  split at h
  · exact (List.cons.inj h).2.symm
  · rename_i hn
    exfalso
    cases hdigits : Decimal.digitsOf n with
    | nil => simp [hdigits] at h
    | cons k more =>
      rw [hdigits, List.map_cons, List.cons.injEq] at h
      -- the first character that is written is the last of the digits from below, which is not zero
      have hreverse : (Nat.digits 10 n).getLast? = some k := by
        rw [← List.head?_reverse, ← Decimal.digitsOf_eq, hdigits]
        rfl
      have hmem : k ∈ Nat.digits 10 n := List.mem_of_getLast? hreverse
      have hzero := (Decimal.digitChar_eq_zero (Nat.digits_lt_base (by decide) hmem)).mp h.1
      have hlast := Nat.getLast_digit_ne_zero 10 hn
      apply hlast
      rw [List.getLast_eq_iff_getLast?_eq_some, hreverse, hzero]

/-- An integer is read back. -/
theorem readNumber_integer (i : Integer) {rest : Text} (hrest : Stops rest) :
    readNumber (decide (i.value < 0)) (Decimal.natText i.value.natAbs ++ rest) =
      .ok (.integer i, rest) := by
  obtain ⟨hlow, hhigh⟩ := i.inRange
  obtain ⟨hdigits, hne, hvalue⟩ := Decimal.natText_spec i.value.natAbs
  have hheld : Significand.ofWhole (Decimal.natText i.value.natAbs) = ⟨i.value.natAbs, 0⟩ := by
    rw [Decimal.ofWhole_of_lt (by omega), hvalue]
  rw [readNumber_whole hdigits hne (natText_leading _) hrest.digit, hheld,
    readFraction_whole _ _ hrest, wholeOf_natAbs]
  rfl

/-- The numeral of a double is read as a double: the one that the quick way comes to. -/
theorem readNumber_numeral {f : Float} (hf : f.isFinite = true) {m : Numeral} (hm : m.IsWritten)
    (htext : Decimal.json.write f =
      if (Binary.ofFloat f).negative then '-' :: m.text else m.text)
    (hcatch : (Binary.ofFloat f).Catches (m.number * 10 ^ m.scale)) (negative : Bool) :
    ∃ hfinite, ∀ {rest : Text}, Stops rest → readNumber negative (m.text ++ rest) =
      .ok (.double ⟨Double.signed negative
        (Decimal.scaled m.significand.number m.significand.scale), hfinite⟩, rest) := by
  have hmagnitude := Decimal.isFinite_scaled_significand hf hm htext hcatch
  have hfinite : (Double.signed negative
      (Decimal.scaled m.significand.number m.significand.scale)).isFinite = true := by
    cases negative with
    | true => rw [Double.signed, if_pos rfl, Double.isFinite_neg, hmagnitude]
    | false => exact hmagnitude
  refine ⟨hfinite, fun {rest} hrest => ?_⟩
  rw [Numeral.text_append, readNumber_whole hm.whole hm.nonempty hm.leading
    (Numeral.stopsDigits_placesText hrest), readFraction_text hm hrest, doubleOf_eq _ hfinite]
  rfl

/-- A number is written as a sign at most and a text that begins with a digit, and read as a number
again, whatever follows. Which number it is, is a matter of rounding, but there always is one. -/
theorem exists_readNumber (n : Number) :
    ∃ negative digits m, n.text = (if negative then '-' :: digits else digits) ∧
      (∃ c more, digits = c :: more ∧ Decimal.isDigit c = true) ∧
      ∀ {rest : Text}, Stops rest → readNumber negative (digits ++ rest) = .ok (m, rest) := by
  cases n with
  | integer i =>
    obtain ⟨hdigits, hne, -⟩ := Decimal.natText_spec i.value.natAbs
    obtain ⟨c, more, hcons⟩ := List.exists_cons_of_ne_nil hne
    refine ⟨decide (i.value < 0), Decimal.natText i.value.natAbs, .integer i, ?_, ?_, ?_⟩
    · simp [Number.text, Decimal.intText]
    · exact ⟨c, more, hcons, hdigits c (by simp [hcons])⟩
    · exact readNumber_integer i
  | double d =>
    obtain ⟨m, hm, htext, hcatch, -⟩ := @Decimal.write_spec Decimal.json rfl _ d.finite
    obtain ⟨c, more, hcons⟩ := List.exists_cons_of_ne_nil hm.nonempty
    obtain ⟨hfinite, hread⟩ := readNumber_numeral d.finite hm htext hcatch
      (Binary.ofFloat d.value).negative
    refine ⟨(Binary.ofFloat d.value).negative, m.text, _, htext, ?_, hread⟩
    refine ⟨c, more ++ (m.placesText ++ m.exponentText), ?_, hm.whole c (by simp [hcons])⟩
    simp [Numeral.text, hcons]

/-! ## Strings -/

theorem hexValue?_hexDigit {n : Nat} (hn : n < 16) : hexValue? (hexDigit n) = some n := by
  interval_cases n <;> rfl

/-- A control character is found behind its escape of four digits, the first two of which are zeros.
-/
theorem readEscape_control {c : Char} (hc : c.toNat < 0x20) (rest : Text) :
    readEscape ('u' :: '0' :: '0' :: hexDigit (c.toNat / 16) :: hexDigit (c.toNat % 16) :: rest) =
      .ok (c, rest) := by
  have hzero : hexValue? '0' = some 0 := rfl
  have hhigh : hexValue? (hexDigit (c.toNat / 16)) = some (c.toNat / 16) :=
    hexValue?_hexDigit (by omega)
  have hlow : hexValue? (hexDigit (c.toNat % 16)) = some (c.toNat % 16) :=
    hexValue?_hexDigit (Nat.mod_lt _ (by decide))
  have hsum : ((0 * 16 + 0) * 16 + c.toNat / 16) * 16 + c.toNat % 16 = c.toNat := by omega
  have hread : readHex ('0' :: '0' :: hexDigit (c.toNat / 16) :: hexDigit (c.toNat % 16) :: rest) =
      .ok (c.toNat, rest) := by
    simp only [readHex, hzero, hhigh, hlow, hsum]
  have hpair : ¬(0xDC00 ≤ c.toNat ∧ c.toNat ≤ 0xDFFF) := by omega
  have hhalf : ¬(0xD800 ≤ c.toNat ∧ c.toNat ≤ 0xDBFF) := by omega
  rw [readEscape, hread]
  change (if 0xDC00 ≤ c.toNat ∧ c.toNat ≤ 0xDFFF then Except.error ReadError.loneSurrogate
    else if 0xD800 ≤ c.toNat ∧ c.toNat ≤ 0xDBFF then readSecondHalf c.toNat rest
    else .ok (Char.ofNat c.toNat, rest)) = _
  rw [if_neg hpair, if_neg hhalf, Char.ofNat_toNat]

/-- **One character** of a string is read back, whether it is escaped or not, and takes one step of
fuel. -/
theorem readString_escaped (c : Char) (rest read : Text) (fuel : Nat) :
    readString (fuel + 1) read (escaped c ++ rest) = readString fuel (c :: read) rest := by
  unfold escaped
  -- the cases are those of the writer, and each has its own letter for the reader
  split_ifs with h₁ h₂ h₃ h₄ h₅ h₆ h₇ h₈
  · subst h₁
    rfl
  · subst h₂
    rfl
  · subst h₃
    rfl
  · subst h₄
    rfl
  · subst h₅
    rfl
  · subst h₆
    rfl
  · subst h₇
    rfl
  · rw [List.cons_append, readString, if_neg (by decide), if_pos rfl]
    simp only [List.cons_append, List.nil_append]
    rw [readEscape_control h₈]
    rfl
  · rw [List.singleton_append, readString, if_neg h₁, if_neg h₂, if_neg h₈]

/-- The characters of a string are read one after another. -/
theorem readString_text (s rest read : Text) (fuel : Nat) (hfuel : s.length < fuel) :
    readString fuel read (s.flatMap escaped ++ '"' :: rest) =
      .ok (String.ofList (read.reverse ++ s), rest) := by
  induction s generalizing read fuel with
  | nil =>
    obtain ⟨fuel, rfl⟩ := Nat.exists_eq_succ_of_ne_zero (show fuel ≠ 0 by omega)
    simp [readString]
  | cons c s ih =>
    rw [List.length_cons] at hfuel
    obtain ⟨fuel, rfl⟩ := Nat.exists_eq_succ_of_ne_zero (show fuel ≠ 0 by omega)
    rw [List.flatMap_cons, List.append_assoc, readString_escaped, ih _ _ (by omega)]
    simp

theorem length_le_flatMap_escaped (s : Text) : s.length ≤ (s.flatMap escaped).length := by
  induction s with
  | nil => simp
  | cons c s ih =>
    have hone : 1 ≤ (escaped c).length := by
      unfold escaped
      split_ifs <;> simp
    rw [List.flatMap_cons, List.length_append, List.length_cons]
    omega

/-- **Strings** are read back, character by character up to the closing quote; quotes inside are
escaped, and so none of them ends the string. -/
theorem readString_quoted (s : String) (rest : Text) (fuel : Nat)
    (hfuel : (quoted s).length ≤ fuel) :
    ∃ inner, quoted s ++ rest = '"' :: inner ∧ readString fuel [] inner = .ok (s, rest) := by
  refine ⟨s.toList.flatMap escaped ++ '"' :: rest, by simp [quoted], ?_⟩
  have hlength := length_le_flatMap_escaped s.toList
  have hquoted : (quoted s).length = (s.toList.flatMap escaped).length + 2 := by simp [quoted]
  rw [readString_text _ _ _ _ (by omega)]
  simp

end FeatureTransform.Json
