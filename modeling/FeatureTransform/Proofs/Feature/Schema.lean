import FeatureTransform.Feature.Schema
import FeatureTransform.Proofs.Json.Portable
import FeatureTransform.Proofs.Json.Reader

/-!
# Schemas

Attributes are fitted to a schema field by field. What has been fitted has the types of its fields,
so that fitting it a second time changes nothing.

The schema of a record has a field for each attribute. What comes back of the attributes from a
program is fitted to it as the attributes themselves: those that were `null` are `null` again, and
the others have the type of their field already.
-/

namespace FeatureTransform

namespace Json

/-- A value that an attribute of a record may have: no array, no object, and no integer beyond the
signed ones of 64 bits. -/
def IsScalar : Json → Prop
  | .null | .bool _ | .string _ | .number (.double _) => True
  | .number (.integer i) => i.value < 0x8000000000000000
  | .array _ | .object _ => False

/-- A scalar can go to the script and back: there is no `null` inside it, and its integers have 64
bits with a sign. -/
theorem IsScalar.portable {v : Json} (h : v.IsScalar) : v.Portable := by
  cases v with
  | number n =>
    cases n with
    | integer i => exact h
    | double d => trivial
  | array items => cases h
  | object members => cases h
  | _ => trivial

theorem IsScalar.isAtom {v : Json} (h : v.IsScalar) : v.IsAtom := by
  cases v with
  | array items => cases h
  | object members => cases h
  | _ => trivial

theorem distinct_settleMembers {members : List (String × Json)} (h : Distinct members) :
    Distinct (settleMembers members) :=
  h.sublist (settleMembers_sublist members)

/-- A member that is not `null` comes back, in its settled form. -/
theorem mem_settleMembers {members : List (String × Json)} {name : String} {v : Json}
    (h : (name, v) ∈ members) (hv : v ≠ .null) : (name, v.settle) ∈ settleMembers members := by
  induction members with
  | nil => cases h
  | cons m rest ih =>
    obtain ⟨other, w⟩ := m
    rcases List.mem_cons.mp h with heq | hlater
    · obtain ⟨rfl, rfl⟩ := Prod.mk.inj heq
      rw [settleMembers_cons hv]
      exact List.mem_cons_self
    · by_cases hnull : w = .null
      · subst hnull
        exact ih hlater
      · rw [settleMembers_cons hnull]
        exact List.mem_cons_of_mem _ (ih hlater)

/-- A member that is `null` does not, since in a table it is no member at all. -/
theorem not_mem_settleMembers {members : List (String × Json)} (hdistinct : Distinct members)
    {name : String} (h : (name, .null) ∈ members) :
    name ∉ (settleMembers members).map Prod.fst := by
  induction members with
  | nil => cases h
  | cons m rest ih =>
    obtain ⟨other, w⟩ := m
    obtain ⟨hnew, hrest⟩ := List.nodup_cons.mp hdistinct
    rcases List.mem_cons.mp h with heq | hlater
    · obtain ⟨rfl, rfl⟩ := Prod.mk.inj heq
      exact fun hmem => hnew ((settleMembers_sublist rest).subset hmem)
    · have hne : name ≠ other := by
        rintro rfl
        exact hnew (List.mem_map.mpr ⟨_, hlater, rfl⟩)
      by_cases hnull : w = .null
      · subst hnull
        exact ih hrest hlater
      · rw [settleMembers_cons hnull, List.map_cons, List.mem_cons, not_or]
        exact ⟨hne, ih hrest hlater⟩

end Json

/-! ## Coercion -/

namespace FieldType

/-- The values that a field of the type may hold. -/
def Accepts (type : FieldType) : Json → Prop
  | .null => True
  | .bool _ => type = .boolean
  | .number (.integer i) => type = .integer ∧ i.value < 0x8000000000000000
  | .number (.double _) => type = .double
  | .string _ => type = .string
  | .array _ | .object _ => False

/-- What a field may hold is no array and no object. -/
theorem Accepts.isScalar {type : FieldType} {v : Json} (h : type.Accepts v) : v.IsScalar := by
  match v with
  | .null | .bool _ | .string _ | .number (.double _) => trivial
  | .number (.integer i) => exact h.2

theorem accepts_ofInt64 (i : Int64) : FieldType.integer.Accepts (.ofInt64 i) :=
  ⟨rfl, i.toInt_lt⟩

theorem accepts_ofFloat (f : Float) : FieldType.double.Accepts (.ofFloat f) := by
  by_cases h : f.isFinite = true
  · rw [Json.ofFloat_value ⟨f, h⟩]
    rfl
  · rw [Json.ofFloat, Json.Number.ofFloat?, dif_neg h]
    trivial

/-- **Coercion** gives a value of the type, or `null`, whatever it is given. -/
theorem accepts_coerce (type : FieldType) (v : Json) : type.Accepts (type.coerce v) := by
  cases type with
  | string => cases v <;> trivial
  | integer =>
    cases v with
    | number n => exact accepts_ofInt64 _
    | bool b => exact accepts_ofInt64 _
    | string s =>
      simp only [coerce]
      split
      · exact accepts_ofInt64 _
      · trivial
    | _ => trivial
  | double =>
    cases v with
    | number n => exact accepts_ofFloat _
    | string s =>
      simp only [coerce]
      split
      · exact accepts_ofFloat _
      · trivial
    | _ => trivial
  | boolean =>
    cases v with
    | bool b => rfl
    | number n => rfl
    | string s =>
      simp only [coerce]
      split <;> trivial
    | _ => trivial

/-- A value of the type stays as it is, and so does `null`. Together with `accepts_coerce` this is
why coercing twice is coercing once. -/
theorem Accepts.coerce {type : FieldType} {v : Json} (h : type.Accepts v) : type.coerce v = v := by
  match v with
  | .null => cases type <;> rfl
  | .bool b =>
    obtain rfl : type = .boolean := h
    rfl
  | .string s =>
    obtain rfl : type = .string := h
    rfl
  | .number (.double d) =>
    obtain rfl : type = .double := h
    exact Json.ofFloat_value d
  | .number (.integer i) =>
    obtain ⟨rfl, hlow⟩ := h
    change Json.ofInt64 (integerOf (.integer i)) = _
    rw [integerOf, Json.Integer.toInt64?, if_pos hlow, Option.getD_some, Json.ofInt64_of_lt hlow]

/-- The type that is inferred from a scalar holds it; so does the type of texts if there is only
`null`. -/
theorem accepts_infer {v : Json} (h : v.IsScalar) :
    ((infer? v).getD .string).Accepts v := by
  match v with
  | .null => trivial
  | .bool _ | .string _ | .number (.double _) => rfl
  | .number (.integer i) => exact ⟨rfl, h⟩

end FieldType

/-! ## Projection -/

namespace Schema

/-- The field of a name: of several the last. -/
def field? (schema : Schema) (name : String) : Option Field :=
  schema.fields.reverse.find? fun field => field.name == name

/-- What a field holds of the attributes. -/
def valueOf (attributes : List (String × Json)) (field : Field) : Json :=
  match Json.member? field.name attributes with
  | some value => field.type.coerce value
  | none => .null

/-- Of members made from fields, the one that is found under a name is that of the field found under
it. -/
theorem member?_fields (value : Field → Json) (fields : List Field) (name : String) :
    Json.member? name (fields.map fun field => (field.name, value field)) =
      (fields.find? fun field => field.name == name).map value := by
  induction fields with
  | nil => rfl
  | cons field rest ih =>
    rw [List.map_cons, Json.member?_cons, List.find?_cons, ih]
    by_cases hname : field.name = name
    · simp [hname]
    · simp [Ne.symm hname, beq_eq_false_iff_ne.mpr hname]

/-- Under the name of a field stands what it holds, and nothing under other names. The members of
the fitted attributes are thus known one by one. -/
theorem member?_project (schema : Schema) (attributes : List (String × Json)) (name : String) :
    Json.member? name (schema.project attributes) =
      (schema.field? name).map (valueOf attributes) := by
  change Json.member? name (Json.sortMembers
    (schema.fields.map fun field => (field.name, valueOf attributes field))) = _
  rw [Json.member?_sortMembers, ← List.map_reverse, member?_fields]
  rfl

theorem sorted_project (schema : Schema) (attributes : List (String × Json)) :
    Json.Sorted (schema.project attributes) :=
  Json.sorted_sortMembers _

theorem accepts_valueOf (attributes : List (String × Json)) (field : Field) :
    field.type.Accepts (valueOf attributes field) := by
  rw [valueOf]
  split
  · exact field.type.accepts_coerce _
  · trivial

/-- Attributes that have been fitted are scalars, as every field holds only such. -/
theorem isScalar_project (schema : Schema) (attributes : List (String × Json)) :
    ∀ m ∈ schema.project attributes, m.2.IsScalar := by
  intro m hm
  obtain ⟨field, -, rfl⟩ := List.mem_map.mp (Json.mem_of_mem_sortMembers hm)
  exact (accepts_valueOf attributes field).isScalar

theorem name_of_field? {schema : Schema} {name : String} {field : Field}
    (h : schema.field? name = some field) : field.name = name := by
  have hname := List.find?_some h
  exact eq_of_beq hname

/-- **Fitting** attributes that have been fitted changes nothing, since each value has the type of
its field already. -/
theorem project_project (schema : Schema) (attributes : List (String × Json)) :
    schema.project (schema.project attributes) = schema.project attributes := by
  -- both stand in order, so what is found under each name is all that counts
  refine (sorted_project _ _).ext (sorted_project _ _) fun name => ?_
  rw [member?_project, member?_project]
  cases hfield : schema.field? name with
  | none => rfl
  | some field =>
    have hname := name_of_field? hfield
    have hfitted : Json.member? field.name (schema.project attributes) =
        some (valueOf attributes field) := by
      rw [member?_project, hname, hfield, Option.map_some]
    have hagain : valueOf (schema.project attributes) field = valueOf attributes field := by
      rw [valueOf, hfitted]
      exact (accepts_valueOf attributes field).coerce
    rw [Option.map_some, Option.map_some, hagain]

end Schema

/-! ## Inference -/

namespace Schema

/-- A name that has not come up is put behind the others. -/
theorem addSample_new {name : String} (v : Json) {types : List (String × Option FieldType)}
    (h : name ∉ types.map Prod.fst) :
    addSample name v types = types ++ [(name, FieldType.infer? v)] := by
  induction types with
  | nil => rfl
  | cons type rest ih =>
    obtain ⟨other, type?⟩ := type
    rw [List.map_cons, List.mem_cons, not_or] at h
    rw [addSample, if_neg (Ne.symm h.1), ih h.2]
    rfl

/-- Samples of distinct new names are all put behind those that were there, each with its own type.
-/
theorem foldl_addSample {samples : List (String × Json)} {types : List (String × Option FieldType)}
    (h : (types.map Prod.fst ++ samples.map Prod.fst).Nodup) :
    samples.foldl (fun types (name, value) => addSample name value types) types =
      types ++ samples.map fun (name, value) => (name, FieldType.infer? value) := by
  induction samples generalizing types with
  | nil => simp
  | cons sample rest ih =>
    obtain ⟨name, v⟩ := sample
    have hnew : name ∉ types.map Prod.fst := fun hmem =>
      (List.nodup_append.mp h).2.2 name hmem name (by simp) rfl
    rw [List.foldl_cons]
    simp only [addSample_new v hnew]
    rw [ih (by simpa using h)]
    simp

/-- The schema of one record has a field for each of its attributes, in their order, with the type
of the value or that of texts. -/
theorem infer_one {record : Record} (h : Json.Distinct record.attributes) :
    infer [record] = ⟨record.attributes.map fun (name, v) =>
      { name := name, type := (FieldType.infer? v).getD .string }⟩ := by
  have hflat : [record].flatMap Record.attributes = record.attributes := by simp
  simp only [infer, hflat]
  rw [foldl_addSample (by rwa [List.map_nil, List.nil_append])]
  simp

/-- **Projection.** What comes back of the attributes is fitted to their schema as the attributes
themselves: what was `null` did not come back and is missing, so that it becomes `null` again. -/
theorem project_settled {record : Record} (hsorted : Json.Sorted record.attributes)
    (hscalar : ∀ m ∈ record.attributes, m.2.IsScalar) :
    (infer [record]).project (Json.settleMembers record.attributes) = record.attributes := by
  have hdistinct := hsorted.distinct
  rw [infer_one hdistinct, project, List.map_map]
  refine (congrArg Json.sortMembers ?_).trans (Json.sortMembers_of_sorted hsorted)
  conv_rhs => rw [← List.map_id record.attributes]
  apply List.map_congr_left
  rintro ⟨name, v⟩ hm
  have hv : v.IsScalar := hscalar _ hm
  by_cases hnull : v = .null
  · subst hnull
    simp only [Function.comp_apply,
      Json.member?_eq_none (Json.not_mem_settleMembers hdistinct hm), id_eq]
  · have hfound := (Json.distinct_settleMembers hdistinct).member?
      (Json.mem_settleMembers hm hnull)
    rw [Json.settle_of_portable v hv.portable] at hfound
    simp only [Function.comp_apply, hfound, (FieldType.accepts_infer hv).coerce, id_eq]

end Schema

end FeatureTransform
