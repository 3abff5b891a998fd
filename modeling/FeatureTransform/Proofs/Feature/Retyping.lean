import FeatureTransform.Proofs.Decimal.Plain
import FeatureTransform.Proofs.Feature.Inference
import FeatureTransform.Proofs.Feature.Integers

/-!
# Retyping

A column can be changed to hold texts, and later be changed back. The text of a value is its JSON
text, and each type reads the texts of its own values: truth values are written as the words that
are read, an integer of 64 bits shows its digits, and a double shows that it is one and is read as
the double nearest to its numeral, which is itself.

## Main results

* `FieldType.Accepts.coerce_string` — what a type holds survives as a text;
* `FieldType.coerce_back_iff` — the values that survive under the type inferred from them are the
  scalars, and no others;
* `Schema.project_retyped` — fitted attributes survive in columns that are changed to texts and
  back.
-/

namespace FeatureTransform

/-! ## Texts of doubles -/

namespace Decimal

/-- A numeral is none of the words, since it begins with a digit; so it is read as a number. -/
theorem readMagnitude?_numeral {m : Numeral} (hm : m.IsWritten) :
    readMagnitude? m.text = some (nearest m.number m.scale) := by
  obtain ⟨c, more, hcons⟩ := List.exists_cons_of_ne_nil hm.nonempty
  have htext : m.text = c :: (more ++ (m.placesText ++ m.exponentText)) := by
    rw [Numeral.text, hcons, List.cons_append]
  have hfirst : c.toLower ≠ 'i' ∧ c.toLower ≠ 'n' := by
    obtain ⟨k, hk, rfl⟩ := exists_digitChar (hm.whole c (by simp [hcons]))
    interval_cases k <;> decide
  -- none of the words begins with a digit
  have hword : ∀ word : String, word.toList.head? ≠ some c.toLower →
      String.ofList (m.text.map Char.toLower) ≠ word := by
    rintro word hhead rfl
    rw [String.toList_ofList, htext] at hhead
    exact hhead rfl
  have hscan := Numeral.scanDecimal?_text hm stops_nil
  rw [List.append_nil] at hscan
  have hinf := hword "inf" (fun h => hfirst.1 (Option.some.inj h).symm)
  have hinfinity := hword "infinity" (fun h => hfirst.1 (Option.some.inj h).symm)
  have hnan := hword "nan" (fun h => hfirst.2 (Option.some.inj h).symm)
  unfold readMagnitude?
  simp only [hscan, hinf, hinfinity, hnan, or_self, if_false]

/-- **Round trip.** What a layout that shows fractions writes for a finite double is read as the
double: the digits are enough to single it out, and reading rounds to the nearest one. -/
theorem read?_write {layout : Layout} (hlayout : layout.showsFraction = true) {f : Float}
    (hf : f.isFinite = true) : read? (layout.write f) = some f := by
  obtain ⟨m, hm, htext, -, hvalue⟩ := write_spec hlayout hf
  obtain ⟨c, more, hcons⟩ := List.exists_cons_of_ne_nil hm.nonempty
  have hhead : m.text.head? = some c := by
    rw [Numeral.text, hcons, List.cons_append, List.head?_cons]
  have hdigit : isDigit c = true := hm.whole c (by simp [hcons])
  have hplus : m.text.head? ≠ some '+' := by
    rw [hhead]
    rintro ⟨⟩
    cases hdigit
  have hminus : m.text.head? ≠ some '-' := by
    rw [hhead]
    rintro ⟨⟩
    cases hdigit
  rw [htext, read?_signed _ hplus hminus (readMagnitude?_numeral hm), ← hvalue]

end Decimal

/-! ## Values -/

namespace FieldType

/-- The text of a double becomes the double, whichever way its digits are laid out. -/
theorem coerce_double_text (d : Json.Double) :
    FieldType.double.coerce (.string (Json.number (.double d)).write) = .number (.double d) := by
  have htext : Text.trim (Json.number (.double d)).write.toList = Decimal.json.write d.value := by
    rw [Json.write, String.toList_ofList]
    exact Json.trim_number (.double d)
  have hfraction : Decimal.json.showsFraction = true := rfl
  simp only [coerce, htext, Decimal.read?_write hfraction d.finite]
  exact Json.ofFloat_value d

/-- The word for a truth value becomes the truth value. -/
theorem coerce_boolean_text (b : Bool) :
    FieldType.boolean.coerce (.string (Json.bool b).write) = .bool b := by
  cases b <;> rfl

/-- **What a type holds** is read from its text by that type. For texts nothing happens, and the
three other types each read what is written for their values. -/
theorem Accepts.coerce_string {type : FieldType} {v : Json} (h : type.Accepts v) :
    type.coerce (FieldType.string.coerce v) = v := by
  match v with
  | .null => cases type <;> rfl
  | .string s =>
    obtain rfl : type = .string := h
    rfl
  | .bool b =>
    obtain rfl : type = .boolean := h
    exact coerce_boolean_text b
  | .number (.integer i) =>
    have haccepts : FieldType.integer.Accepts (.number (.integer i)) := ⟨rfl, h.2⟩
    obtain rfl : type = .integer := h.1
    exact (coerce_integer_text (.integer i)).1 haccepts
  | .number (.double d) =>
    obtain rfl : type = .double := h
    exact coerce_double_text d

/-- **There and back.** A value has a type, and becomes a text and then a value of that type that is
the value itself, exactly if it is a truth value, an integer of 64 bits with its sign, a finite
double or a text. Arrays and objects count as texts, and so they stay texts; greater integers have
no type that holds them. -/
theorem coerce_back_iff (v : Json) :
    (∃ type, infer? v = some type ∧ type.coerce (FieldType.string.coerce v) = v) ↔
      v.IsScalar ∧ v ≠ .null := by
  constructor
  · rintro ⟨type, htype, hback⟩
    have haccepts := type.accepts_coerce (FieldType.string.coerce v)
    rw [hback] at haccepts
    refine ⟨haccepts.isScalar, ?_⟩
    rintro rfl
    cases htype
  · rintro ⟨hscalar, hnull⟩
    obtain ⟨type, htype⟩ := Option.ne_none_iff_exists'.mp (mt Schema.infer?_eq_none_iff.mp hnull)
    have haccepts := accepts_infer hscalar
    rw [htype, Option.getD_some] at haccepts
    exact ⟨type, htype, haccepts.coerce_string⟩

end FieldType

/-! ## Columns -/

namespace Schema

/-- The schema with some columns changed to hold texts. -/
def withTexts (schema : Schema) (names : List String) : Schema :=
  (names.map fun name => { name := name, type := .string }).foldl insert schema

section Columns

variable {schema : Schema} (h : schema.names.Nodup)
include h

theorem nodup_withTexts (names : List String) : (schema.withTexts names).names.Nodup :=
  nodup_foldl_insert _ h

/-- A column is still there, with its type or with texts. -/
theorem field?_withTexts (names : List String) {field : Field} (hfield : field ∈ schema.fields) :
    ∃ type, (type = field.type ∨ type = .string) ∧
      (schema.withTexts names).field? field.name = some { name := field.name, type := type } := by
  -- texts replace fields of the same name and come behind otherwise, so no name is lost
  have hnames : field.name ∈ (schema.withTexts names).names := by
    have hfront := prefix_foldl_withName schema.names
      ((names.map fun name => ({ name := name, type := .string } : Field)).map Field.name)
    rw [← names_foldl_insert] at hfront
    exact hfront.subset (List.mem_map_of_mem hfield)
  obtain ⟨other, hother, hname⟩ := List.mem_map.mp hnames
  have hfound := field?_of_mem (nodup_withTexts h names) hother
  rw [hname] at hfound
  obtain ⟨name, type⟩ := other
  obtain rfl : name = field.name := hname
  refine ⟨type, ?_, hfound⟩
  -- it is one of the texts, or it was there before
  rcases (mem_foldl_insert _ h).mp hother with ⟨earlier, later, hsplit, -⟩ | ⟨hold, -⟩
  · have hnew : (⟨field.name, type⟩ : Field) ∈
        names.map fun name => { name := name, type := .string } := by
      rw [hsplit]
      exact List.mem_append_right _ List.mem_cons_self
    obtain ⟨name, -, heq⟩ := List.mem_map.mp hnew
    exact .inr (congrArg Field.type heq).symm
  · have hkept : schema.field? field.name = some ⟨field.name, type⟩ := field?_of_mem h hold
    rw [field?_of_mem h hfield] at hkept
    exact .inl (congrArg Field.type (Option.some.inj hkept)).symm

/-- **Columns.** Attributes that are fitted to a schema come back when columns are changed to texts
and then changed back. So changing a column to texts loses nothing of what was fitted before. -/
theorem project_retyped (names : List String) (attributes : List (String × Json)) :
    schema.project ((schema.withTexts names).project (schema.project attributes)) =
      schema.project attributes := by
  refine (sorted_project _ _).ext (sorted_project _ _) fun name => ?_
  rw [member?_project, member?_project]
  cases hfield : schema.field? name with
  | none => rfl
  | some field =>
    obtain rfl := name_of_field? hfield
    have hmem : field ∈ schema.fields := List.mem_reverse.mp (List.mem_of_find?_eq_some hfield)
    have haccepts := accepts_valueOf attributes field
    have hfitted : Json.member? field.name (schema.project attributes) =
        some (valueOf attributes field) := by
      rw [member?_project, hfield, Option.map_some]
    obtain ⟨type, htype, hfound⟩ := field?_withTexts h names hmem
    have hchanged : Json.member? field.name
        ((schema.withTexts names).project (schema.project attributes)) =
          some (type.coerce (valueOf attributes field)) := by
      rw [member?_project, hfound, Option.map_some, valueOf, hfitted]
    rw [Option.map_some, Option.map_some, valueOf, hchanged]
    -- a column that was left alone is coerced to its own type, a changed one is read from its text
    rcases htype with rfl | rfl
    · exact congrArg some ((congrArg _ haccepts.coerce).trans haccepts.coerce)
    · exact congrArg some haccepts.coerce_string

end Columns

end Schema

end FeatureTransform
