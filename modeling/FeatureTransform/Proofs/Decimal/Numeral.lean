import FeatureTransform.Decimal.Layout
import FeatureTransform.Proofs.Decimal.Shortest

/-!
# Numerals

Between the digits of a double and the readers of its text stands the numeral: a whole part, places
behind a point, an exponent. It has a text and a number scaled by a power of ten.

* **writing** — every layout that shows fractions writes a numeral of the value of the digits;
* **scanning** — a numeral in front of a text that does not go on with one is found, with that
  number and that power of ten.
-/

namespace FeatureTransform.Decimal

/-! ## Characters of digits -/

theorem toNat_digitChar {d : Nat} (hd : d < 10) : (digitChar d).toNat = 48 + d := by
  interval_cases d <;> rfl

/-- The character of a digit is one: digits are written with what the readers look for. -/
theorem isDigit_digitChar {d : Nat} (hd : d < 10) : isDigit (digitChar d) = true := by
  interval_cases d <;> rfl

theorem digitChar_eq_zero {d : Nat} (hd : d < 10) : digitChar d = '0' ↔ d = 0 := by
  interval_cases d <;> decide

/-- The digits are the characters of the numbers below ten. -/
theorem exists_digitChar {c : Char} (h : isDigit c = true) : ∃ d < 10, c = digitChar d := by
  have hrange : '0' ≤ c ∧ c ≤ '9' := by
    by_contra hnot
    simp [isDigit, digit?, hnot] at h
  obtain ⟨hlow, hhigh⟩ := hrange
  have hlow : 48 ≤ c.toNat := hlow
  have hhigh : c.toNat ≤ 57 := hhigh
  refine ⟨c.toNat - 48, by omega, ?_⟩
  rw [digitChar, show 48 + (c.toNat - 48) = c.toNat by omega, Char.ofNat_toNat]

/-- A digit is no white space. -/
theorem isBlank_of_isDigit {c : Char} (h : isDigit c = true) : Char.isBlank c = false := by
  obtain ⟨d, hd, rfl⟩ := exists_digitChar h
  interval_cases d <;> rfl

/-- A digit is no sign. -/
theorem spanSign_of_isDigit {c : Char} (hc : isDigit c = true) (s : Text) :
    spanSign (c :: s) = (false, c :: s) := by
  unfold spanSign
  split
  · rename_i heq
    rw [(List.cons.inj heq).1] at hc
    cases hc
  · rename_i heq
    rw [(List.cons.inj heq).1] at hc
    cases hc
  · rfl

/-- All characters are digits. -/
def IsDigits (s : Text) : Prop := ∀ c ∈ s, isDigit c = true

theorem isDigits_map {ds : List Nat} (h : ∀ k ∈ ds, k < 10) : IsDigits (ds.map digitChar) := by
  intro c hc
  obtain ⟨k, hk, rfl⟩ := List.mem_map.mp hc
  exact isDigit_digitChar (h k hk)

theorem isDigits_replicate (n : Nat) : IsDigits (List.replicate n '0') := by
  intro c hc
  rw [List.eq_of_mem_replicate hc]
  rfl

/-- Digits behind digits are digits. -/
theorem IsDigits.append {s t : Text} (hs : IsDigits s) (ht : IsDigits t) : IsDigits (s ++ t) := by
  intro c hc
  rcases List.mem_append.mp hc with h | h
  · exact hs c h
  · exact ht c h

theorem valueOf_append (acc : Nat) (s t : Text) :
    valueOf acc (s ++ t) = valueOf (valueOf acc s) t := List.foldl_append

/-- Reading the characters of digits behind a number goes on with the number that the digits stand
for. -/
theorem valueOf_map {ds : List Nat} (acc : Nat) (h : ∀ k ∈ ds, k < 10) :
    valueOf acc (ds.map digitChar) = acc * 10 ^ ds.length + numberOf ds := by
  induction ds generalizing acc with
  | nil => simp [valueOf, numberOf]
  | cons k rest ih =>
    have hk := h k (by simp)
    have hrest := ih (10 * acc + k) fun j hj => h j (by simp [hj])
    have hnumber : numberOf (k :: rest) = k * 10 ^ rest.length + numberOf rest :=
      by simpa [numberOf] using numberOf_append [k] rest
    have hstep : valueOf acc ((k :: rest).map digitChar) =
        valueOf (10 * acc + k) (rest.map digitChar) := by
      simp [valueOf, toNat_digitChar hk]
    rw [hstep, hrest, hnumber, List.length_cons, pow_succ]
    ring

/-- Zeros behind a number multiply it by a power of ten. -/
theorem valueOf_replicate (acc n : Nat) :
    valueOf acc (List.replicate n '0') = acc * 10 ^ n := by
  induction n generalizing acc with
  | zero => simp [valueOf]
  | succ n ih =>
    have hstep : valueOf acc (List.replicate (n + 1) '0') =
        valueOf (10 * acc) (List.replicate n '0') := by
      simp [valueOf, List.replicate_succ]
    rw [hstep, ih, pow_succ]
    ring

/-! ## Where digits end -/

/-- The text does not go on with a digit. -/
def StopsDigits (s : Text) : Prop := ∀ c ∈ s.head?, isDigit c = false

/-- Digits end where something else begins, at the end of the text as well. -/
theorem spanDigits_append {ds rest : Text} (hds : IsDigits ds) (hrest : StopsDigits rest) :
    spanDigits (ds ++ rest) = (ds, rest) := by
  induction ds with
  | nil =>
    cases rest with
    | nil => rfl
    | cons c rest =>
      have hc := hrest c rfl
      simp [spanDigits, hc]
  | cons c ds ih =>
    have hc := hds c (by simp)
    have hnext := ih fun d hd => hds d (by simp [hd])
    simp only [spanDigits, List.cons_append, List.takeWhile_cons, List.dropWhile_cons, hc, if_true]
    simp only [spanDigits, Prod.mk.injEq] at hnext
    rw [hnext.1, hnext.2]

/-- A number is written in digits that have its value, at least one, also for zero. -/
theorem natText_spec (n : Nat) :
    IsDigits (natText n) ∧ natText n ≠ [] ∧ valueOf 0 (natText n) = n := by
  unfold natText
  split
  · rename_i h
    subst h
    exact ⟨isDigits_replicate 1, by decide, rfl⟩
  · rename_i h
    have hsmall : ∀ k ∈ digitsOf n, k < 10 := by
      intro k hk
      rw [digitsOf_eq, List.mem_reverse] at hk
      exact Nat.digits_lt_base (by decide) hk
    refine ⟨isDigits_map hsmall, ?_, ?_⟩
    · rw [Ne, List.map_eq_nil_iff, digitsOf_eq, List.reverse_eq_nil_iff]
      exact Nat.digits_ne_nil_iff_ne_zero.mpr h
    · rw [valueOf_map 0 hsmall, numberOf_digitsOf]
      simp

/-! ## Numerals -/

/-- A decimal numeral without a sign, in its parts. -/
structure Numeral where
  /-- the digits of the whole part -/
  whole : Text
  /-- the digits behind the point, if there is one -/
  places : Option Text
  /-- whether the exponent shows a plus sign, whether it is negative, and its digits -/
  exponent : Option (Bool × Bool × Text)

namespace Numeral

/-- The point and the digits behind it. -/
def placesText (m : Numeral) : Text :=
  match m.places with
  | none => []
  | some ds => '.' :: ds

/-- The sign of an exponent, if it has one. -/
def signText (signed down : Bool) : Text := if down then ['-'] else if signed then ['+'] else []

/-- The letter, the sign and the digits of the exponent. -/
def exponentText (m : Numeral) : Text :=
  match m.exponent with
  | none => []
  | some (signed, down, ds) => 'e' :: signText signed down ++ ds

/-- The text of the numeral. -/
def text (m : Numeral) : Text := m.whole ++ (m.placesText ++ m.exponentText)

/-- The digits as one number. -/
def number (m : Numeral) : Nat := valueOf (valueOf 0 m.whole) (m.places.getD [])

/-- The number that the exponent shows, zero where there is none. -/
def exponentValue (m : Numeral) : Int :=
  match m.exponent with
  | none => 0
  | some (_, down, ds) => if down then -(valueOf 0 ds : Int) else valueOf 0 ds

/-- The power of ten that scales the number. -/
def scale (m : Numeral) : Int := -((m.places.getD []).length : Int) + m.exponentValue

/-- What the numerals of doubles are like that the library writes. -/
structure IsWritten (m : Numeral) : Prop where
  /-- the whole part is made of digits -/
  whole : IsDigits m.whole
  /-- there is a whole part -/
  nonempty : m.whole ≠ []
  /-- it begins with a zero only if it is zero -/
  leading : ∀ rest, m.whole = '0' :: rest → rest = []
  /-- a point has digits behind it -/
  places : ∀ ds, m.places = some ds → IsDigits ds ∧ ds ≠ []
  /-- an exponent has digits -/
  exponent : ∀ signed down ds, m.exponent = some (signed, down, ds) → IsDigits ds ∧ ds ≠ []
  /-- it is seen to be a double -/
  isDouble : m.places ≠ none ∨ m.exponent ≠ none

end Numeral

/-! ## Writing numerals -/

/-- Digits in normal form begin with one that is not zero. -/
theorem head_of_isNormal {d : Digits} (hd : d.IsNormal) :
    ∃ k rest, d.digits = k :: rest ∧ k ≠ 0 ∧ k < 10 := by
  cases hdigits : d.digits with
  | nil => exact absurd hdigits hd.nonempty
  | cons k rest =>
    exact ⟨k, rest, rfl, hd.first k (by simp [hdigits]), hd.small k (by simp [hdigits])⟩

/-- Digits that do not begin with a zero are no zero. -/
theorem leading_of_ne_zero {k : Nat} (hk : k ≠ 0) (hk10 : k < 10) {more : Text} :
    ∀ rest, digitChar k :: more = '0' :: rest → rest = [] := fun _ heq =>
  absurd ((digitChar_eq_zero hk10).mp (List.cons.inj heq).1) hk

/-- Digits behind the point, with zeros between: the value is below one, and a zero stands for the
whole part. -/
theorem positionalText_of_nonpos {d : Digits} (hd : d.IsNormal) (hpoint : d.point ≤ 0) :
    ∃ m : Numeral, m.IsWritten ∧ positionalText true d = m.text ∧
      (m.number : ℚ) * 10 ^ m.scale = d.value := by
  have hplaces := (isDigits_replicate (-d.point).toNat).append (isDigits_map hd.small)
  have hnumber : valueOf (valueOf 0 ['0'])
      (List.replicate (-d.point).toNat '0' ++ d.digits.map digitChar) = numberOf d.digits := by
    rw [valueOf_append, valueOf_replicate, valueOf_map _ hd.small]
    simp [valueOf]
  have hscale : -(((List.replicate (-d.point).toNat '0' ++ d.digits.map digitChar).length : Nat)
      : Int) + 0 = d.point - d.digits.length := by
    simp
    omega
  refine ⟨⟨['0'], some (List.replicate (-d.point).toNat '0' ++ d.digits.map digitChar), none⟩,
    ⟨isDigits_replicate 1, by simp, by simp, ?_, by simp, by simp⟩, ?_, ?_⟩
  · rintro ds ⟨⟩
    exact ⟨hplaces, by simp [hd.nonempty]⟩
  · simp [positionalText, hpoint, Numeral.text, Numeral.placesText, Numeral.exponentText]
  · simp only [Numeral.number, Numeral.scale, Numeral.exponentValue, Option.getD_some, hnumber,
      hscale, Digits.value]

/-- The point among the digits: the digits in front of it are the whole part, those behind are the
places. -/
theorem positionalText_of_lt {d : Digits} (hd : d.IsNormal) (hpoint : 0 < d.point)
    (hless : d.point.toNat < d.digits.length) :
    ∃ m : Numeral, m.IsWritten ∧ positionalText true d = m.text ∧
      (m.number : ℚ) * 10 ^ m.scale = d.value := by
  obtain ⟨k, rest, hdigits, hk, hk10⟩ := head_of_isNormal hd
  have hmap := isDigits_map hd.small
  have htake : (d.digits.map digitChar).take d.point.toNat =
      digitChar k :: (rest.map digitChar).take (d.point.toNat - 1) := by
    obtain ⟨n, hn⟩ := Nat.exists_eq_succ_of_ne_zero (show d.point.toNat ≠ 0 by omega)
    rw [hn, hdigits]
    simp
  -- the digits are read on across the point
  have hnumber : valueOf (valueOf 0 ((d.digits.map digitChar).take d.point.toNat))
      ((d.digits.map digitChar).drop d.point.toNat) = numberOf d.digits := by
    rw [← valueOf_append, List.take_append_drop, valueOf_map _ hd.small]
    simp
  have hscale : -((((d.digits.map digitChar).drop d.point.toNat).length : Nat) : Int) + 0 =
      d.point - d.digits.length := by
    simp
    omega
  refine ⟨⟨(d.digits.map digitChar).take d.point.toNat,
    some ((d.digits.map digitChar).drop d.point.toNat), none⟩,
    ⟨fun c hc => hmap c (List.mem_of_mem_take hc), ?_, ?_, ?_, by simp, by simp⟩, ?_, ?_⟩
  · simp [htake]
  · rw [htake]
    exact leading_of_ne_zero hk hk10
  · rintro ds ⟨⟩
    refine ⟨fun c hc => hmap c (List.mem_of_mem_drop hc), ?_⟩
    rw [Ne, List.drop_eq_nil_iff, List.length_map]
    omega
  · have hpositive : ¬d.point ≤ 0 := by omega
    simp [positionalText, hpositive, hless, Numeral.text, Numeral.placesText,
      Numeral.exponentText]
  · simp only [Numeral.number, Numeral.scale, Numeral.exponentValue, Option.getD_some, hnumber,
      hscale, Digits.value]

/-- Zeros and the point behind the digits: the value is whole, and one zero stands for its places,
so that it does not look like an integer. -/
theorem positionalText_of_le {d : Digits} (hd : d.IsNormal) (hpoint : 0 < d.point)
    (hle : d.digits.length ≤ d.point.toNat) :
    ∃ m : Numeral, m.IsWritten ∧ positionalText true d = m.text ∧
      (m.number : ℚ) * 10 ^ m.scale = d.value := by
  obtain ⟨k, rest, hdigits, hk, hk10⟩ := head_of_isNormal hd
  have hwhole := (isDigits_map hd.small).append
    (isDigits_replicate (d.point.toNat - d.digits.length))
  have hnumber : valueOf (valueOf 0 (d.digits.map digitChar ++
      List.replicate (d.point.toNat - d.digits.length) '0')) ['0'] =
        numberOf d.digits * 10 ^ (d.point.toNat - d.digits.length) * 10 := by
    rw [valueOf_append, valueOf_replicate, valueOf_map _ hd.small]
    simp [valueOf]
    ring
  -- the zeros behind the digits are the power of ten by which these are multiplied
  have hexp : d.point - d.digits.length = ((d.point.toNat - d.digits.length : Nat) : Int) := by
    omega
  refine ⟨⟨d.digits.map digitChar ++ List.replicate (d.point.toNat - d.digits.length) '0',
    some ['0'], none⟩, ⟨hwhole, by simp [hdigits], ?_, ?_, by simp, by simp⟩, ?_, ?_⟩
  · rw [hdigits]
    exact leading_of_ne_zero hk hk10
  · rintro ds ⟨⟩
    exact ⟨isDigits_replicate 1, by simp⟩
  · have hpositive : ¬d.point ≤ 0 := by omega
    simp [positionalText, hpositive, Nat.not_lt.mpr hle, Numeral.text, Numeral.placesText,
      Numeral.exponentText]
  · simp only [Numeral.number, Numeral.scale, Numeral.exponentValue, Option.getD_some, hnumber,
      Digits.value, hexp, zpow_natCast]
    push_cast
    simp

/-- **Positional.** The point stands before, among or behind the digits, and in each case what is
written is a numeral of their value. -/
theorem positionalText_spec {d : Digits} (hd : d.IsNormal) :
    ∃ m : Numeral, m.IsWritten ∧ positionalText true d = m.text ∧
      (m.number : ℚ) * 10 ^ m.scale = d.value := by
  rcases le_or_gt d.point 0 with hpoint | hpoint
  · exact positionalText_of_nonpos hd hpoint
  · rcases Nat.lt_or_ge d.point.toNat d.digits.length with hless | hle
    · exact positionalText_of_lt hd hpoint hless
    · exact positionalText_of_le hd hpoint hle

/-- The digits of the exponent, with zeros in front up to the width of the layout. -/
def exponentDigits (layout : Layout) (d : Digits) : Text :=
  List.replicate (layout.exponentWidth - (natText d.exponent.natAbs).length) '0' ++
    natText d.exponent.natAbs

/-- The exponent is written in digits that have its size; zeros in front, up to the width of the
layout, do not change it. -/
theorem exponentDigits_spec (layout : Layout) (d : Digits) :
    IsDigits (exponentDigits layout d) ∧ exponentDigits layout d ≠ [] ∧
      valueOf 0 (exponentDigits layout d) = d.exponent.natAbs := by
  obtain ⟨hdigits, hne, hvalue⟩ := natText_spec d.exponent.natAbs
  refine ⟨(isDigits_replicate _).append hdigits, List.append_ne_nil_of_right_ne_nil _ hne, ?_⟩
  rw [exponentDigits, valueOf_append, valueOf_replicate, Nat.zero_mul, hvalue]

/-- One digit, the others as places, if there are any, and an exponent. -/
def scientificNumeral (layout : Layout) (d : Digits) (k : Nat) (rest : List Nat) : Numeral where
  whole := [digitChar k]
  places := if rest = [] then none else some (rest.map digitChar)
  exponent := some (layout.plusSign, decide (d.exponent < 0), exponentDigits layout d)

section Scientific

variable {layout : Layout} {d : Digits} {k : Nat} {rest : List Nat}

theorem isWritten_scientificNumeral (hk : k < 10) (hrest : ∀ j ∈ rest, j < 10) :
    (scientificNumeral layout d k rest).IsWritten := by
  obtain ⟨hexponent, hne, -⟩ := exponentDigits_spec layout d
  refine ⟨?_, List.cons_ne_nil _ _, ?_, ?_, ?_, .inr nofun⟩
  · intro c hc
    rw [List.mem_singleton.mp hc]
    exact isDigit_digitChar hk
  · intro s hs
    exact (List.cons.inj hs).2.symm
  · intro ds hds
    obtain ⟨hmore, heq⟩ := Option.ite_none_left_eq_some.mp hds
    cases heq
    exact ⟨isDigits_map hrest, by simpa using hmore⟩
  · rintro signed down ds ⟨⟩
    exact ⟨hexponent, hne⟩

/-- The scientific text is the text of that numeral: where only one digit is there, neither writes a
point. -/
theorem text_scientificNumeral (hdigits : d.digits = k :: rest) :
    scientificText layout d = (scientificNumeral layout d k rest).text := by
  unfold scientificText
  rw [hdigits]
  cases rest with
  | nil => simp [scientificNumeral, exponentDigits, Numeral.text, Numeral.placesText,
      Numeral.exponentText, Numeral.signText]
  | cons j more => simp [scientificNumeral, exponentDigits, Numeral.text, Numeral.placesText,
      Numeral.exponentText, Numeral.signText]

theorem value_scientificNumeral (hsmall : ∀ j ∈ d.digits, j < 10)
    (hdigits : d.digits = k :: rest) :
    ((scientificNumeral layout d k rest).number : ℚ) *
      10 ^ (scientificNumeral layout d k rest).scale = d.value := by
  obtain ⟨-, -, hvalue⟩ := exponentDigits_spec layout d
  have hplaces : (scientificNumeral layout d k rest).places.getD [] = rest.map digitChar := by
    cases rest <;> rfl
  have hnumber : (scientificNumeral layout d k rest).number = numberOf d.digits := by
    rw [Numeral.number, hplaces, ← valueOf_append]
    change valueOf 0 ((k :: rest).map digitChar) = _
    rw [← hdigits, valueOf_map 0 hsmall, Nat.zero_mul, Nat.zero_add]
  -- one digit less behind the point than there are, and one more in the exponent
  have hscale : (scientificNumeral layout d k rest).scale = d.point - d.digits.length := by
    have hlength : d.digits.length = rest.length + 1 := by rw [hdigits, List.length_cons]
    have hpoint : d.exponent = d.point - 1 := rfl
    rw [Numeral.scale, hplaces, List.length_map, hlength]
    simp only [Numeral.exponentValue, scientificNumeral, hvalue, decide_eq_true_eq]
    split <;> omega
  rw [hnumber, hscale, Digits.value]

end Scientific

/-- **Scientific.** The point stands behind the first digit, if others follow, and the exponent
makes up for where it would have stood. -/
theorem scientificText_spec (layout : Layout) {d : Digits} (hd : d.IsNormal) :
    ∃ m : Numeral, m.IsWritten ∧ scientificText layout d = m.text ∧
      (m.number : ℚ) * 10 ^ m.scale = d.value := by
  obtain ⟨k, rest, hdigits, -, hk⟩ := head_of_isNormal hd
  have hrest : ∀ j ∈ rest, j < 10 := fun j hj => hd.small j (by simp [hdigits, hj])
  exact ⟨scientificNumeral layout d k rest, isWritten_scientificNumeral hk hrest,
    text_scientificNumeral hdigits, value_scientificNumeral hd.small hdigits⟩

/-- A layout that shows fractions writes digits as a numeral of the same value. -/
theorem writeDigits_spec {layout : Layout} (hlayout : layout.showsFraction = true) {d : Digits}
    (hd : d.IsNormal) :
    ∃ m : Numeral, m.IsWritten ∧ layout.writeDigits d = m.text ∧
      (m.number : ℚ) * 10 ^ m.scale = d.value := by
  unfold Layout.writeDigits
  rw [hlayout]
  split
  · exact positionalText_spec hd
  · exact scientificText_spec layout hd

/-- **Writing.** A layout that shows fractions writes a finite double as a numeral, with a minus
sign where it has one. The number that the numeral stands for lies in the interval of the double, so
that the double is the nearest to it. All that is said of reading rests on this one fact. -/
theorem write_spec {layout : Layout} (hlayout : layout.showsFraction = true) {f : Float}
    (hf : f.isFinite = true) :
    ∃ m : Numeral, m.IsWritten ∧
      layout.write f = (if (Binary.ofFloat f).negative then '-' :: m.text else m.text) ∧
      (Binary.ofFloat f).Catches (m.number * 10 ^ m.scale) ∧
      f = Double.signed (Binary.ofFloat f).negative (nearest m.number m.scale) := by
  obtain ⟨hinf, hnan⟩ := (Double.isFinite_iff f).mp hf
  have hcanonical := Binary.isCanonical_ofFloat hf
  have hbits := Binary.eq_signed_bits hnan
  unfold Layout.write Layout.writeBy
  rw [hnan, hinf]
  -- zero has no shortest digits
  by_cases hzero : (Binary.ofFloat f).mantissa = 0
  · refine ⟨⟨['0'], some ['0'], none⟩,
      ⟨isDigits_replicate 1, by simp, by simp, ?_, by simp, by simp⟩, ?_, ?_, ?_⟩
    · rintro ds ⟨⟩
      exact ⟨isDigits_replicate 1, by simp⟩
    · simp [hzero, hlayout, Numeral.text, Numeral.placesText, Numeral.exponentText]
    · have hnumber : Numeral.number ⟨['0'], some ['0'], none⟩ = 0 := rfl
      rw [hnumber, Nat.cast_zero, zero_mul]
      exact Binary.catches_zero hzero
    · have hread : nearest (Numeral.number ⟨['0'], some ['0'], none⟩)
          (Numeral.scale ⟨['0'], some ['0'], none⟩) = Float.ofBits (UInt64.ofNat 0) := by
        decide
      rw [hread, ← hcanonical.bits_eq_zero hzero]
      exact hbits
  · have hpos : 0 < (Binary.ofFloat f).mantissa := Nat.pos_of_ne_zero hzero
    obtain ⟨m, hwritten, htext, hvalue⟩ :=
      writeDigits_spec hlayout (isNormal_shortest hcanonical hpos)
    refine ⟨m, hwritten, ?_, ?_, ?_⟩
    · simp [hzero, htext]
    · rw [hvalue]
      exact catches_shortest hcanonical hpos
    · rw [nearest_shortest hcanonical hpos hvalue]
      exact hbits

/-! ## Reading numerals -/

/-- The text does not go on with a numeral. -/
structure Stops (rest : Text) : Prop where
  /-- not with a digit -/
  digit : StopsDigits rest
  /-- nor with a point -/
  point : ∀ c ∈ rest.head?, c ≠ '.'
  /-- nor with an exponent -/
  exponent : ∀ c ∈ rest.head?, c ≠ 'e' ∧ c ≠ 'E'

theorem stops_nil : Stops [] := by
  constructor <;> intro c hc <;> cases hc

namespace Numeral

variable {m : Numeral} {rest : Text}

theorem stopsDigits_exponentText (hrest : Stops rest) : StopsDigits (m.exponentText ++ rest) := by
  unfold exponentText
  split
  · exact hrest.digit
  · rintro c ⟨⟩
    rfl

/-- Behind the whole part comes a point, a letter or the end of the numeral, so that the digits stop
there. -/
theorem stopsDigits_placesText (hrest : Stops rest) :
    StopsDigits (m.placesText ++ (m.exponentText ++ rest)) := by
  unfold placesText
  split
  · exact stopsDigits_exponentText hrest
  · rintro c ⟨⟩
    rfl

theorem text_append (m : Numeral) (rest : Text) :
    m.text ++ rest = m.whole ++ (m.placesText ++ (m.exponentText ++ rest)) := by
  rw [text, List.append_assoc, List.append_assoc]

/-- The whole part ends where the digits end, and nothing of the numeral is lost there. -/
theorem spanDigits_text (hm : m.IsWritten) (hrest : Stops rest) :
    spanDigits (m.text ++ rest) = (m.whole, m.placesText ++ (m.exponentText ++ rest)) := by
  rw [text_append]
  exact spanDigits_append hm.whole (stopsDigits_placesText hrest)

theorem spanDigits_places {ds : Text} (hm : m.IsWritten) (hrest : Stops rest)
    (hplaces : m.places = some ds) :
    spanDigits (ds ++ (m.exponentText ++ rest)) = (ds, m.exponentText ++ rest) :=
  spanDigits_append (hm.places ds hplaces).1 (stopsDigits_exponentText hrest)

theorem spanDigits_exponent {signed down : Bool} {ds : Text} (hm : m.IsWritten) (hrest : Stops rest)
    (hexponent : m.exponent = some (signed, down, ds)) : spanDigits (ds ++ rest) = (ds, rest) :=
  spanDigits_append (hm.exponent signed down ds hexponent).1 hrest.digit

/-- The places end where their digits end. -/
theorem spanPlaces_text (hm : m.IsWritten) (hrest : Stops rest) :
    spanPlaces (m.placesText ++ (m.exponentText ++ rest)) =
      (m.places.getD [], m.exponentText ++ rest) := by
  cases hplaces : m.places with
  | some ds =>
    have htext : m.placesText = '.' :: ds := by simp [placesText, hplaces]
    rw [htext]
    exact spanDigits_places hm hrest hplaces
  | none =>
    have htext : m.placesText = [] := by simp [placesText, hplaces]
    rw [htext, List.nil_append]
    unfold spanPlaces
    split
    · rename_i more hmore
      exfalso
      cases hexponent : m.exponent with
      | some e => simp [exponentText, hexponent] at hmore
      | none =>
        simp only [exponentText, hexponent, List.nil_append] at hmore
        exact hrest.point '.' (by simp [hmore]) rfl
    · rfl

/-- The exponent begins where its sign ends. -/
theorem spanSign_exponent {signed down : Bool} {ds : Text} (hm : m.IsWritten)
    (hexponent : m.exponent = some (signed, down, ds)) :
    spanSign (signText signed down ++ (ds ++ rest)) = (down, ds ++ rest) := by
  obtain ⟨hds, hne⟩ := hm.exponent signed down ds hexponent
  cases down with
  | true => rfl
  | false =>
    cases signed with
    | true => rfl
    | false =>
      obtain ⟨d, more, rfl⟩ := List.exists_cons_of_ne_nil hne
      exact spanSign_of_isDigit (hds d (by simp)) (more ++ rest)

theorem exponentText_some {signed down : Bool} {ds : Text}
    (hexponent : m.exponent = some (signed, down, ds)) :
    m.exponentText ++ rest = 'e' :: (signText signed down ++ (ds ++ rest)) := by
  simp [exponentText, hexponent]

theorem exponentText_none (hexponent : m.exponent = none) : m.exponentText ++ rest = rest := by
  simp [exponentText, hexponent]

/-- **Scanning.** A numeral in front of a text is found with its number and its power of ten,
whatever follows, as long as that does not go on with the numeral. -/
theorem scanDecimal?_text (hm : m.IsWritten) (hrest : Stops rest) :
    scanDecimal? (m.text ++ rest) = some (m.number, m.scale, rest) := by
  have hne : m.whole.isEmpty = false := by simpa using hm.nonempty
  unfold scanDecimal?
  simp only [spanDigits_text hm hrest, spanPlaces_text hm hrest, hne, Bool.false_and,
    Bool.false_eq_true, if_false]
  cases hexponent : m.exponent with
  | none =>
    rw [exponentText_none hexponent]
    cases rest with
    | nil => simp [number, scale, exponentValue, hexponent]
    | cons c more =>
      have hc := hrest.exponent c (by simp)
      simp [hc.1, hc.2, number, scale, exponentValue, hexponent]
  | some e =>
    obtain ⟨signed, down, ds⟩ := e
    obtain ⟨hds, hne⟩ := hm.exponent signed down ds hexponent
    have hspan := spanDigits_exponent hm hrest hexponent
    simp only [exponentText_some hexponent, spanSign_exponent hm hexponent, true_or, if_true, hspan]
    cases ds with
    | nil => exact absurd rfl hne
    | cons d more => simp [number, scale, exponentValue, hexponent]

/-- What a numeral stands for can be told from its text, so that one text cannot be that of two
numerals with different values. -/
theorem IsWritten.eq_of_scan (hm : m.IsWritten) {n : Nat} {e : Int}
    (hscan : scanDecimal? m.text = some (n, e, [])) : m.number = n ∧ m.scale = e := by
  have hparts := scanDecimal?_text hm stops_nil
  rw [List.append_nil, hscan] at hparts
  simpa [eq_comm] using hparts

/-- A numeral that shows places or an exponent is not made of digits alone. -/
theorem all_text (hm : m.IsWritten) : m.text.all isDigit = false := by
  rw [text, List.all_append, List.all_append]
  rcases hm.isDouble with h | h
  · obtain ⟨ds, hds⟩ := Option.ne_none_iff_exists'.mp h
    simp [placesText, hds, show isDigit '.' = false from rfl]
  · obtain ⟨⟨signed, down, ds⟩, hds⟩ := Option.ne_none_iff_exists'.mp h
    simp [exponentText, hds, show isDigit 'e' = false from rfl]

/-- A numeral holds no white space. -/
theorem isBlank_of_mem (hm : m.IsWritten) {c : Char} (hc : c ∈ m.text) :
    Char.isBlank c = false := by
  have hdigits : ∀ {ds : Text}, IsDigits ds → c ∈ ds → Char.isBlank c = false :=
    fun hds hmem => isBlank_of_isDigit (hds c hmem)
  rw [text, List.mem_append, List.mem_append] at hc
  rcases hc with hwhole | hplaces | hexponent
  · -- in the whole part
    exact hdigits hm.whole hwhole
  · -- in the places
    unfold placesText at hplaces
    split at hplaces
    · cases hplaces
    · rename_i ds hds
      rcases List.mem_cons.mp hplaces with rfl | hmem
      · rfl
      · exact hdigits (hm.places ds hds).1 hmem
  · -- in the exponent
    unfold exponentText at hexponent
    split at hexponent
    · cases hexponent
    · rename_i signed down ds hds
      rw [List.cons_append, List.mem_cons, List.mem_append] at hexponent
      rcases hexponent with rfl | hsign | hmem
      · rfl
      · cases signed <;> cases down <;> simp [signText] at hsign <;> subst hsign <;> rfl
      · exact hdigits (hm.exponent signed down ds hds).1 hmem

end Numeral

/-! ## Integers -/

/-- A sign at most and a text that begins with a digit: an integer is read if it goes on with
digits only, and if it has at most 64 bits. -/
theorem readInt?_signed (negative : Bool) {c : Char} {s : Text} (hc : isDigit c = true) :
    readInt? (if negative then '-' :: c :: s else c :: s) =
      if (c :: s).all isDigit then
        let i : Int := if negative then -(valueOf 0 (c :: s) : Int) else valueOf 0 (c :: s)
        if -0x8000000000000000 ≤ i ∧ i < 0x8000000000000000 then some i else none
      else none := by
  have hspan : spanSign (if negative then '-' :: c :: s else c :: s) = (negative, c :: s) := by
    cases negative with
    | true => rfl
    | false => exact spanSign_of_isDigit hc s
  simp only [readInt?, hspan, List.isEmpty_cons, Bool.false_or]
  cases (c :: s).all isDigit <;> rfl

/-- **Integers** are read back if they have at most 64 bits, sign included; beyond that the text of
an integer is none for the reader. -/
theorem readInt?_intText (i : Int) :
    readInt? (intText i) =
      if -0x8000000000000000 ≤ i ∧ i < 0x8000000000000000 then some i else none := by
  obtain ⟨hdigits, hne, hvalue⟩ := natText_spec i.natAbs
  obtain ⟨c, s, hcons⟩ := List.exists_cons_of_ne_nil hne
  have hsigned : (if (decide (i < 0)) then -(i.natAbs : Int) else i.natAbs) = i := by
    by_cases hneg : i < 0
    · rw [decide_eq_true hneg, if_pos rfl]
      omega
    · rw [decide_eq_false hneg, if_neg Bool.false_ne_true]
      omega
  have htext : intText i = if decide (i < 0) then '-' :: c :: s else c :: s := by
    simp [intText, hcons]
  rw [hcons] at hdigits hvalue
  rw [htext, readInt?_signed _ (hdigits c List.mem_cons_self),
    if_pos (List.all_eq_true.mpr hdigits),
    hvalue, hsigned]

/-- Numerals of doubles are not read as integers, since a point or an exponent stands in them. This
is what keeps a whole double apart from the integer of the same value. -/
theorem readInt?_numeral (negative : Bool) {m : Numeral} (hm : m.IsWritten) :
    readInt? (if negative then '-' :: m.text else m.text) = none := by
  obtain ⟨c, more, hcons⟩ := List.exists_cons_of_ne_nil hm.nonempty
  have htext : m.text = c :: (more ++ (m.placesText ++ m.exponentText)) := by
    rw [Numeral.text, hcons, List.cons_append]
  have hall := Numeral.all_text hm
  rw [htext] at hall ⊢
  rw [readInt?_signed negative (hm.whole c (by simp [hcons])), hall]
  rfl

end FeatureTransform.Decimal
