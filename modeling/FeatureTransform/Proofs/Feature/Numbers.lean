import FeatureTransform.Proofs.Double.Value
import FeatureTransform.Proofs.Feature.Fields

/-!
# Numbers under inferred schemas

The type of a field is inferred from the first value under its name that is not `null`, and all
values under that name are coerced to it. Where they are numbers, the first of them decides which
numbers stay what they are: those that have the same value in the type, whichever way they are
written. Others are rounded to a number of the type.

## Main results

* `Schema.field?_infer` — the type that is inferred is that of the first value;
* `FieldType.coerce_number` — a number is coerced to a nearest number of the type;
* `Schema.numbers_kept_iff` — which numbers of the records a schema is inferred from it keeps.
-/

namespace FeatureTransform

namespace Json

/-- The number that a JSON number stands for. -/
def Number.toRat : Number → ℚ
  | .integer i => i.value
  | .double d => (Binary.ofFloat d.value).toRat

@[simp] theorem Number.toRat_integer (i : Integer) : (Number.integer i).toRat = i.value := rfl

@[simp] theorem Number.toRat_double (d : Double) :
    (Number.double d).toRat = (Binary.ofFloat d.value).toRat := rfl

/-- The type that is inferred from a number. -/
def Number.type : Number → FieldType
  | .integer _ => .integer
  | .double _ => .double

/-- The number, if the value is one. -/
def number? : Json → Option Number
  | .number n => some n
  | _ => none

end Json

open Json (Number)

/-! ## Coercing numbers -/

namespace FieldType

/-- Some number of the type has the value. -/
def Holds (type : FieldType) (q : ℚ) : Prop :=
  ∃ n : Number, type.Accepts (.number n) ∧ n.toRat = q

/-- The value is not beyond the bounds of the type: for integers, those of 64 bits with a sign. -/
def Spans : FieldType → ℚ → Prop
  | .integer, q => -0x8000000000000000 ≤ q ∧ q ≤ 0x7FFFFFFFFFFFFFFF
  | _, _ => True

/-- The first number is of the type, and no other number of the type is nearer to the second. -/
structure IsNearest (type : FieldType) (kept n : Number) : Prop where
  /-- it is of the type -/
  accepts : type.Accepts (.number kept)
  /-- no other is nearer -/
  le : ∀ m : Number, type.Accepts (.number m) → |kept.toRat - n.toRat| ≤ |m.toRat - n.toRat|

/-- A nearest number has the same value if any number of the type has: no other could be nearer than
that one. -/
theorem IsNearest.toRat_eq_iff {type : FieldType} {kept n : Number}
    (h : type.IsNearest kept n) : kept.toRat = n.toRat ↔ type.Holds n.toRat := by
  constructor
  · exact fun heq => ⟨kept, h.accepts, heq⟩
  · rintro ⟨m, hm, heq⟩
    have hle := h.le m hm
    rw [heq, sub_self, abs_zero] at hle
    exact sub_eq_zero.mp (abs_nonpos_iff.mp hle)

/-- What lies beyond a bound is moved to it, so that rounding never fails. -/
theorem toInt_roundToInt64_eq (f : Float) : (roundToInt64 f).toInt =
    max (-0x8000000000000000) (min (Binary.ofFloat f).round 0x7FFFFFFFFFFFFFFF) := by
  simp only [roundToInt64]
  generalize (Binary.ofFloat f).round = i
  exact Int64.toInt_ofInt_of_le (by omega) (by omega)

/-- Rounding does not lead beyond the bounds, since these are integers themselves. -/
theorem toInt_roundToInt64 {f : Float}
    (h : FieldType.integer.Spans (Binary.ofFloat f).toRat) :
    (roundToInt64 f).toInt = (Binary.ofFloat f).round := by
  obtain ⟨hbelow, habove⟩ := abs_le.mp (Binary.ofFloat f).abs_round_sub_le
  obtain ⟨hlow, hhigh⟩ := h
  rw [toInt_roundToInt64_eq]
  generalize (Binary.ofFloat f).round = i at *
  -- an integer within half a unit of what is in bounds is in bounds itself
  have hlow' : (-0x8000000000000000 - 1 : ℚ) < i := by linarith
  have hhigh' : (i : ℚ) < 0x7FFFFFFFFFFFFFFF + 1 := by linarith
  have hmin : -0x8000000000000000 - 1 < i := by exact_mod_cast hlow'
  have hmax : i < 0x7FFFFFFFFFFFFFFF + 1 := by exact_mod_cast hhigh'
  omega

/-- No integer is nearer to a number than the one that it is coerced to. A number that was written
as an integer stays what it is. -/
theorem abs_integerOf_sub_le {n : Number} (h : FieldType.integer.Spans n.toRat) (i : Int) :
    |((integerOf n).toInt : ℚ) - n.toRat| ≤ |(i : ℚ) - n.toRat| := by
  cases n with
  | integer j =>
    have hlow := j.inRange.1
    have hhigh : j.value < 0x8000000000000000 := by
      have hspans : (j.value : ℚ) ≤ 0x7FFFFFFFFFFFFFFF := h.2
      have hle : j.value ≤ 0x7FFFFFFFFFFFFFFF := by exact_mod_cast hspans
      omega
    have hint : (integerOf (.integer j)).toInt = j.value := by
      rw [integerOf, Json.Integer.toInt64?, if_pos hhigh, Option.getD_some]
      exact Int64.toInt_ofInt_of_le hlow hhigh
    have hsame : ((integerOf (.integer j)).toInt : ℚ) = (Number.integer j).toRat := by
      rw [hint, Number.toRat_integer]
    rw [hsame, sub_self, abs_zero]
    exact abs_nonneg _
  | double d =>
    rw [integerOf, toInt_roundToInt64 h]
    exact (Binary.ofFloat d.value).abs_round_sub_le_int i

/-- A number has a finite double, as all its integers have 64 bits and its doubles are finite. -/
theorem isFinite_toFloat (n : Number) : n.toFloat.isFinite = true := by
  cases n with
  | integer i =>
    have hrange := i.inRange
    exact Double.isFinite_nearest (by omega)
  | double d => exact d.finite

/-- No double is nearer to a number than the one that it is coerced to. For an integer that is the
nearest one, and a double stays what it is. -/
theorem abs_toFloat_sub_le (n : Number) (d : Json.Double) :
    |(Binary.ofFloat n.toFloat).toRat - n.toRat| ≤ |(Binary.ofFloat d.value).toRat - n.toRat| := by
  cases n with
  | integer i =>
    have hrange := i.inRange
    exact Double.abs_nearest_sub_le (by omega) d.finite
  | double other =>
    have hsame : (Binary.ofFloat (Number.double other).toFloat).toRat =
        (Number.double other).toRat := rfl
    rw [hsame, sub_self, abs_zero]
    exact abs_nonneg _

/-- **Coercing** a number to the type of another gives a number of that type that is nearest. There
is always one, so that no number becomes `null`. -/
theorem coerce_number (first : Number) {n : Number} (h : first.type.Spans n.toRat) :
    ∃ kept, first.type.coerce (.number n) = .number kept ∧ first.type.IsNearest kept n := by
  have haccepts := first.type.accepts_coerce (.number n)
  cases first with
  | integer i =>
    refine ⟨.integer (.ofInt64 (integerOf n)), rfl, haccepts, fun m hm => ?_⟩
    cases m with
    | integer j => exact abs_integerOf_sub_le h j.value
    | double d => cases hm
  | double d =>
    have hcoerce := Json.ofFloat_value ⟨n.toFloat, isFinite_toFloat n⟩
    refine ⟨.double ⟨n.toFloat, isFinite_toFloat n⟩, hcoerce, rfl, fun m hm => ?_⟩
    cases m with
    | integer j => cases hm.1
    | double other => exact abs_toFloat_sub_le n other

end FieldType

namespace Schema

/-! ## The type of the first value -/

/-- The first value under a name, seen as something that not every value is. -/
def firstUnder? {α : Type} (see? : Json → Option α) (name : String)
    (samples : List (String × Json)) : Option α :=
  samples.findSome? fun (other, v) => if other = name then see? v else none

/-- What is seen first is seen in the first value of that name in which anything is seen. -/
theorem firstUnder?_cons {α : Type} (see? : Json → Option α) (name other : String) (v : Json)
    (rest : List (String × Json)) :
    firstUnder? see? name ((other, v) :: rest) =
      (if other = name then see? v else none).or (firstUnder? see? name rest) := by
  simp only [firstUnder?, List.findSome?_cons]
  cases if other = name then see? v else none <;> rfl

/-- The type of the first value under a name that has one. -/
def firstType? (name : String) (records : List Record) : Option FieldType :=
  firstUnder? FieldType.infer? name (records.flatMap Record.attributes)

/-- The type that a name has among some. -/
def typeAmong? (name : String) (types : List (String × Option FieldType)) : Option FieldType :=
  (types.lookup name).join

theorem typeAmong?_cons (name other : String) (type? : Option FieldType)
    (rest : List (String × Option FieldType)) :
    typeAmong? name ((other, type?) :: rest) =
      if other = name then type? else typeAmong? name rest := by
  by_cases h : other = name
  · simp [typeAmong?, h]
  · simp [typeAmong?, List.lookup_cons, beq_eq_false_iff_ne.mpr (Ne.symm h), h]

/-- **Another sample** gives its type to its name, unless that has a type already. This is the step
from which the type of every field follows. -/
theorem typeAmong?_addSample (name other : String) (v : Json)
    (types : List (String × Option FieldType)) :
    typeAmong? name (addSample other v types) =
      (typeAmong? name types).or (if other = name then FieldType.infer? v else none) := by
  induction types with
  | nil =>
    rw [addSample, typeAmong?_cons]
    rfl
  | cons type rest ih =>
    obtain ⟨third, type?⟩ := type
    rw [addSample, typeAmong?_cons]
    -- the sample belongs to the first name, or to one behind it
    by_cases hsame : third = other
    · subst hsame
      rw [if_pos rfl, typeAmong?_cons]
      split
      · rfl
      · rw [Option.or_none]
    · rw [if_neg hsame, typeAmong?_cons, ih]
      split
      · rename_i hname
        rw [if_neg (fun heq => hsame (hname.trans heq.symm)), Option.or_none]
      · rfl

/-- After all samples a name has the type of the first of its values that has one. -/
theorem typeAmong?_addSamples (name : String) (samples : List (String × Json))
    (types : List (String × Option FieldType)) :
    typeAmong? name (addSamples samples types) =
      (typeAmong? name types).or (firstUnder? FieldType.infer? name samples) := by
  induction samples generalizing types with
  | nil => exact Option.or_none.symm
  | cons sample rest ih =>
    obtain ⟨other, v⟩ := sample
    rw [addSamples, List.foldl_cons, ih, typeAmong?_addSample, Option.or_assoc, firstUnder?_cons]

/-- **Inference.** A field has the type of the first value under its name. Values that come later
have no say in it, not even numbers that would not fit. -/
theorem field?_infer {records : List Record} {name : String} {type : FieldType}
    (h : firstType? name records = some type) :
    (infer records).field? name = some ⟨name, type⟩ := by
  have htype : typeAmong? name (addSamples (records.flatMap Record.attributes) []) = some type :=
    (typeAmong?_addSamples name _ []).trans h
  obtain ⟨before, behind, hsplit, -⟩ :=
    List.lookup_eq_some_iff.mp (Option.join_eq_some_iff.mp htype)
  have hmem : (name, some type) ∈ addSamples (records.flatMap Record.attributes) [] := by
    rw [hsplit]
    exact List.mem_append_right _ List.mem_cons_self
  have hfield : (⟨name, type⟩ : Field) ∈ (infer records).fields :=
    List.mem_map.mpr ⟨_, hmem, rfl⟩
  exact field?_of_mem (nodup_infer records) hfield

/-! ## Names with numbers -/

/-- Every value under the name is a number or `null`. -/
def IsNumeric (name : String) (records : List Record) : Prop :=
  ∀ record ∈ records, ∀ v, (name, v) ∈ record.attributes → v = .null ∨ ∃ n, v = .number n

/-- The first number under the name. -/
def firstNumber? (name : String) (records : List Record) : Option Number :=
  firstUnder? Json.number? name (records.flatMap Record.attributes)

/-- The first value among numbers is the first number: the `null`s in front of it say nothing about
the type. -/
theorem firstUnder?_infer {name : String} {samples : List (String × Json)}
    (h : ∀ v, (name, v) ∈ samples → v = .null ∨ ∃ n, v = .number n) :
    firstUnder? FieldType.infer? name samples =
      (firstUnder? Json.number? name samples).map Number.type := by
  induction samples with
  | nil => rfl
  | cons sample rest ih =>
    obtain ⟨other, v⟩ := sample
    have hrest := ih fun w hw => h w (List.mem_cons_of_mem _ hw)
    rw [firstUnder?_cons, firstUnder?_cons, hrest]
    split
    · rename_i hname
      subst hname
      rcases h v List.mem_cons_self with rfl | ⟨n, rfl⟩
      · rfl
      · cases n <;> rfl
    · rfl

theorem exists_firstUnder? {name : String} {samples : List (String × Json)} {n : Number}
    (h : (name, .number n) ∈ samples) :
    ∃ first, firstUnder? Json.number? name samples = some first := by
  rw [← Option.isSome_iff_exists, firstUnder?, List.findSome?_isSome_iff]
  exact ⟨_, h, by simp [Json.number?]⟩

/-- The type that is inferred for numbers is that of the first of them. -/
theorem IsNumeric.firstType? {name : String} {records : List Record} (h : IsNumeric name records) :
    firstType? name records = (firstNumber? name records).map Number.type := by
  apply firstUnder?_infer
  intro v hv
  obtain ⟨record, hrecord, hmem⟩ := List.mem_flatMap.mp hv
  exact h record hrecord v hmem

/-- What stands under a name in one of the records is coerced to the type that is inferred. There is
a field of that name, since the record is one of those from which the schema comes. -/
theorem exists_coerced {records : List Record} {record : Record} (hrecord : record ∈ records)
    {name : String} {v : Json} (hv : Json.member? name record.attributes = some v) :
    ∃ type, (infer records).field? name = some ⟨name, type⟩ ∧
      Json.member? name ((infer records).project record.attributes) = some (type.coerce v) := by
  have hname : name ∈ (infer records).names :=
    mem_names_infer.mpr ⟨record, hrecord, List.mem_map.mpr ⟨_, Json.mem_of_member? hv, rfl⟩⟩
  obtain ⟨⟨name, type⟩, hfield, rfl⟩ := List.mem_map.mp hname
  have hfound := field?_of_mem (nodup_infer records) hfield
  refine ⟨type, hfound, ?_⟩
  rw [member?_project, hfound, Option.map_some, valueOf, hv]

/-- **Numbers.** Where all values under a name are numbers or `null`, a schema inferred from them
keeps `null`. Each number that is not beyond the bounds of the type of the first one becomes a
nearest number of that type, and so keeps its value exactly if some number of the type has it. -/
theorem numbers_kept_iff {name : String} {records : List Record} (h : IsNumeric name records)
    {record : Record} (hrecord : record ∈ records) :
    (Json.member? name record.attributes = some .null →
      Json.member? name ((infer records).project record.attributes) = some .null) ∧
    ∀ n, Json.member? name record.attributes = some (.number n) →
      ∃ first, firstNumber? name records = some first ∧
        (first.type.Spans n.toRat → ∃ kept,
          Json.member? name ((infer records).project record.attributes) = some (.number kept) ∧
            first.type.IsNearest kept n ∧
            (kept.toRat = n.toRat ↔ first.type.Holds n.toRat)) := by
  refine ⟨fun hnull => ?_, fun n hn => ?_⟩
  · obtain ⟨type, -, hprojected⟩ := exists_coerced hrecord hnull
    have haccepts : type.Accepts .null := trivial
    rw [hprojected, haccepts.coerce]
  · have hsample : (name, .number n) ∈ records.flatMap Record.attributes :=
      List.mem_flatMap.mpr ⟨record, hrecord, Json.mem_of_member? hn⟩
    obtain ⟨first, hfirst⟩ := exists_firstUnder? hsample
    refine ⟨first, hfirst, fun hspans => ?_⟩
    -- the type of the field is that of the first number, and so the number is coerced to it
    have htype : firstType? name records = some first.type := by
      rw [h.firstType?, firstNumber?, hfirst, Option.map_some]
    obtain ⟨type, hfield, hprojected⟩ := exists_coerced hrecord hn
    have heq : type = first.type := by
      rw [field?_infer htype] at hfield
      exact (congrArg Field.type (Option.some.inj hfield)).symm
    obtain ⟨kept, hkept, hnearest⟩ := FieldType.coerce_number first hspans
    refine ⟨kept, ?_, hnearest, hnearest.toRat_eq_iff⟩
    rw [hprojected, heq, hkept]

/-! ### Integers before other numbers -/

/-- A record with one attribute. -/
def single (v : Json) : Record := { id? := none, geometry := none, attributes := [("count", v)] }

/-- The integer one as a number. -/
def one : Number := .integer (.ofInt64 1)

/-- Two and a half as a number. -/
def twoAndHalf : Number := .double ⟨2.5, by decide⟩

/-- Records of which the first has an integer and the last another number. -/
def mixed : List Record := [single .null, single (.number one), single (.number twoAndHalf)]

theorem isNumeric_mixed : IsNumeric "count" mixed := by
  intro record hrecord v hv
  simp only [mixed, List.mem_cons, List.not_mem_nil, or_false] at hrecord
  rcases hrecord with rfl | rfl | rfl <;> obtain ⟨-, rfl⟩ := Prod.mk.inj (List.mem_singleton.mp hv)
  · exact .inl rfl
  · exact .inr ⟨_, rfl⟩
  · exact .inr ⟨_, rfl⟩

theorem toRat_twoAndHalf : twoAndHalf.toRat = 5 / 2 := by
  have hform : Binary.ofFloat 2.5 = ⟨false, 0x14000000000000, -51⟩ := by decide
  change (Binary.ofFloat 2.5).toRat = 5 / 2
  rw [hform]
  norm_num [Binary.toRat, Binary.value]

/-- The integer among them stays what it is. -/
theorem numbers_kept_mixed : ∃ kept,
    Json.member? "count" ((infer mixed).project (single (.number one)).attributes) =
      some (.number kept) ∧ kept.toRat = one.toRat := by
  have hrecord : single (.number one) ∈ mixed := by simp [mixed]
  obtain ⟨first, hfirst, hkeeps⟩ := (numbers_kept_iff isNumeric_mixed hrecord).2 one rfl
  obtain rfl : one = first := Option.some.inj hfirst
  have hspans : one.type.Spans one.toRat := by
    change (-0x8000000000000000 : ℚ) ≤ ((1 : Int) : ℚ) ∧ ((1 : Int) : ℚ) ≤ 0x7FFFFFFFFFFFFFFF
    norm_num
  obtain ⟨kept, hkept, -, hvalue⟩ := hkeeps hspans
  exact ⟨kept, hkept, hvalue.mpr ⟨one, ⟨rfl, by decide⟩, rfl⟩⟩

/-- The other number does not, so that inferred schemas do not keep all numbers: with an integer in
front of it, two and a half is rounded to three. -/
theorem not_numbers_kept : ¬∀ (name : String) (records : List Record), IsNumeric name records →
    ∀ record ∈ records, ∀ n, Json.member? name record.attributes = some (.number n) →
      ∃ kept, Json.member? name ((infer records).project record.attributes) =
        some (.number kept) ∧ kept.toRat = n.toRat := by
  intro h
  obtain ⟨kept, hkept, hvalue⟩ := h "count" mixed isNumeric_mixed (single (.number twoAndHalf))
    (by simp [mixed]) twoAndHalf rfl
  have hthree : Json.member? "count"
      ((infer mixed).project (single (.number twoAndHalf)).attributes) = some (.ofInt64 3) := by
    rfl
  rw [hthree] at hkept
  obtain rfl : Number.integer (.ofInt64 3) = kept := by
    injection Option.some.inj hkept
  rw [toRat_twoAndHalf] at hvalue
  change ((3 : Int) : ℚ) = 5 / 2 at hvalue
  norm_num at hvalue

end Schema

end FeatureTransform
