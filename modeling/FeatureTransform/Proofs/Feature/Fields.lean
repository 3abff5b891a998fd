import FeatureTransform.Proofs.Feature.Schema

/-!
# The fields of schemas

However a schema comes about — inferred from records, then extended field by field — its fields have
distinct names: a name that is there already is given another type and not a second field. Over
distinct names, what has been fitted to the schema conforms to it: the names are those of the
fields, and under each name stands `null` or a value of the field's type.
-/

namespace FeatureTransform

namespace Schema

/-! ## Distinct names -/

/-- The names of the fields, in order. -/
def names (schema : Schema) : List String := schema.fields.map Field.name

/-- The schema inferred from records and extended by fields, one after another. -/
def extended (records : List Record) (added : List Field) : Schema :=
  added.foldl insert (infer records)

/-- A name put behind others, unless it is one of them. -/
def withName (names : List String) (name : String) : List String :=
  if name ∈ names then names else names ++ [name]

/-- A name is looked for from the front, and put at the end if it is not found. Inserting a field
and adding a sample both go through their lists like this. -/
theorem withName_cons (first : String) (names : List String) (name : String) :
    withName (first :: names) name =
      if first = name then first :: names else first :: withName names name := by
  by_cases hfirst : first = name
  · simp [withName, hfirst]
  · by_cases hmem : name ∈ names
    · simp [withName, hfirst, hmem]
    · simp [withName, hfirst, Ne.symm hfirst, hmem]

/-- Names stay distinct if one more is put behind them unless it is there already. -/
theorem nodup_withName {names : List String} (h : names.Nodup) (name : String) :
    (withName names name).Nodup := by
  rw [withName]
  split
  · exact h
  · rename_i hnew
    rw [List.nodup_append]
    refine ⟨h, List.nodup_singleton name, ?_⟩
    rintro other hother last hlast rfl
    exact hnew (List.mem_singleton.mp hlast ▸ hother)

/-- The names are those there were, and the one that was put behind them. -/
theorem mem_withName {names : List String} {name other : String} :
    other ∈ withName names name ↔ other ∈ names ∨ other = name := by
  rw [withName]
  split
  · rename_i hmem
    exact ⟨.inl, fun h => h.elim id fun heq => heq ▸ hmem⟩
  · rw [List.mem_append, List.mem_singleton]

/-- Inserting a field is putting its name behind the others, as far as names go: a field that is
there gets another type in its place. -/
theorem names_insert (schema : Schema) (field : Field) :
    (schema.insert field).names = withName schema.names field.name := by
  obtain ⟨fields⟩ := schema
  change (insertField field fields).map Field.name = withName (fields.map Field.name) field.name
  induction fields with
  | nil => rfl
  | cons old rest ih =>
    rw [insertField, List.map_cons, withName_cons, ← ih]
    split <;> rfl

/-- Adding a sample is putting its name behind the others, as far as names go. -/
theorem names_addSample (name : String) (v : Json) (types : List (String × Option FieldType)) :
    (addSample name v types).map Prod.fst = withName (types.map Prod.fst) name := by
  induction types with
  | nil => rfl
  | cons type rest ih =>
    obtain ⟨other, type?⟩ := type
    rw [addSample, List.map_cons, withName_cons, ← ih]
    split <;> rfl

/-- **Inserting** a field keeps the names distinct, since a name that is there already gets no
second field. -/
theorem nodup_insert {schema : Schema} (h : schema.names.Nodup) (field : Field) :
    (schema.insert field).names.Nodup := by
  rw [names_insert]
  exact nodup_withName h field.name

/-- So does inserting fields one after another. -/
theorem nodup_foldl_insert (added : List Field) {schema : Schema} (h : schema.names.Nodup) :
    (added.foldl insert schema).names.Nodup := by
  induction added generalizing schema with
  | nil => exact h
  | cons field rest ih => exact ih (nodup_insert h field)

/-- The samples after all of some values. -/
abbrev addSamples (samples : List (String × Json)) (types : List (String × Option FieldType)) :
    List (String × Option FieldType) :=
  samples.foldl (fun types (name, value) => addSample name value types) types

/-- Samples keep the names distinct, however many there are of one name. -/
theorem nodup_addSamples (samples : List (String × Json))
    {types : List (String × Option FieldType)} (h : (types.map Prod.fst).Nodup) :
    ((addSamples samples types).map Prod.fst).Nodup := by
  induction samples generalizing types with
  | nil => exact h
  | cons sample rest ih =>
    obtain ⟨name, v⟩ := sample
    apply ih
    rw [names_addSample]
    exact nodup_withName h name

/-- The names of samples are all collected, and no others. -/
theorem mem_names_addSamples (samples : List (String × Json))
    (types : List (String × Option FieldType)) {name : String} :
    name ∈ (addSamples samples types).map Prod.fst ↔
      name ∈ types.map Prod.fst ∨ name ∈ samples.map Prod.fst := by
  induction samples generalizing types with
  | nil => simp
  | cons sample rest ih =>
    obtain ⟨other, v⟩ := sample
    rw [addSamples, List.foldl_cons, ih, names_addSample, mem_withName, List.map_cons,
      List.mem_cons, or_assoc]

theorem names_infer (records : List Record) :
    (infer records).names =
      (addSamples (records.flatMap Record.attributes) []).map Prod.fst := by
  rw [names, infer, List.map_map]
  rfl

/-- **Inference** gives each name one field, however many records have an attribute of that name. -/
theorem nodup_infer (records : List Record) : (infer records).names.Nodup := by
  rw [names_infer]
  exact nodup_addSamples _ List.nodup_nil

/-- The names are those of the attributes: every attribute of every record has a field, also if it
is always `null`. -/
theorem mem_names_infer {records : List Record} {name : String} :
    name ∈ (infer records).names ↔
      ∃ record ∈ records, name ∈ record.attributes.map Prod.fst := by
  rw [names_infer, mem_names_addSamples, List.map_flatMap, List.mem_flatMap]
  simp

/-- **However it came about**, a schema has fields with distinct names. There is no other way for a
schema to come about than inference and insertions. -/
theorem nodup_extended (records : List Record) (added : List Field) :
    (extended records added).names.Nodup :=
  nodup_foldl_insert added (nodup_infer records)

/-! ## Finding fields -/

/-- Among fields with distinct names a field is the first of its name. -/
theorem find?_of_nodup {fields : List Field} (h : (fields.map Field.name).Nodup) {field : Field}
    (hmem : field ∈ fields) :
    (fields.find? fun other => other.name == field.name) = some field := by
  induction fields with
  | nil => cases hmem
  | cons first rest ih =>
    obtain ⟨hnew, hrest⟩ := List.nodup_cons.mp h
    rcases List.mem_cons.mp hmem with rfl | hlater
    · rw [List.find?_cons_of_pos (by rw [beq_self_eq_true])]
    · have hne : first.name ≠ field.name := fun heq =>
        hnew (List.mem_map.mpr ⟨field, hlater, heq.symm⟩)
      rw [List.find?_cons_of_neg (by rwa [beq_iff_eq])]
      exact ih hrest hlater

/-- A field is found under its name, as no other field has it. -/
theorem field?_of_mem {schema : Schema} (h : schema.names.Nodup) {field : Field}
    (hmem : field ∈ schema.fields) : schema.field? field.name = some field := by
  refine find?_of_nodup ?_ (List.mem_reverse.mpr hmem)
  rw [List.map_reverse, List.nodup_reverse]
  exact h

/-! ## Conformance -/

/-- Attributes are what a schema declares: under the name of each field, and under no other, stands
one value, and it is `null` or of the field's type. -/
structure Conforms (schema : Schema) (attributes : List (String × Json)) : Prop where
  /-- each name is there once -/
  distinct : Json.Distinct attributes
  /-- the names are those of the fields -/
  names : ∀ name, name ∈ attributes.map Prod.fst ↔ name ∈ schema.names
  /-- the values have the types of their fields -/
  typed : ∀ field ∈ schema.fields, ∀ v, (field.name, v) ∈ attributes → field.type.Accepts v

/-- **Fitting** attributes to a schema makes them conform to it. What the schema does not know is
left out, what is missing becomes `null`, and each value is coerced to the type of its field. -/
theorem conforms_project {schema : Schema} (h : schema.names.Nodup)
    (attributes : List (String × Json)) : schema.Conforms (schema.project attributes) := by
  have hdistinct := (schema.sorted_project attributes).distinct
  have hfound : ∀ field ∈ schema.fields, Json.member? field.name (schema.project attributes) =
      some (valueOf attributes field) := by
    intro field hfield
    rw [member?_project, field?_of_mem h hfield, Option.map_some]
  refine ⟨hdistinct, fun name => ⟨?_, ?_⟩, ?_⟩
  · -- no name comes from anywhere but the fields
    intro hname
    obtain ⟨⟨other, v⟩, hmem, rfl⟩ := List.mem_map.mp hname
    obtain ⟨field, hfield, heq⟩ := List.mem_map.mp (Json.mem_of_mem_sortMembers hmem)
    exact List.mem_map.mpr ⟨field, hfield, congrArg Prod.fst heq⟩
  · intro hname
    obtain ⟨field, hfield, rfl⟩ := List.mem_map.mp hname
    exact List.mem_map.mpr ⟨_, Json.mem_of_member? (hfound field hfield), rfl⟩
  · intro field hfield v hv
    have heq := (hdistinct.member? hv).symm.trans (hfound field hfield)
    rw [Option.some.inj heq]
    exact accepts_valueOf attributes field

end Schema

end FeatureTransform
