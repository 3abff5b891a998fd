import FeatureTransform.Proofs.Feature.Numbers

/-!
# Inferring and inserting

A schema is inferred by going through the attributes of records one after another, and fields are
inserted into it one after another. Both put a name that is new behind the others and leave one that
is known in its place, so the names stand in the order in which they first came up. They differ in
the types: of the values under a name the first that is not `null` counts, of the fields inserted
under a name the last.

## Main results

* `InFirstOrder.foldl_withName` — the order of names, after any number of them;
* `type_infer`, `mem_foldl_insert` — which types count;
* `infer_insert` — what inferring and inserting come to.
-/

namespace FeatureTransform.Schema

/-! ## The order of names -/

/-- Some names are those of a list, each once, in the order in which they first come up there. -/
structure InFirstOrder (names all : List String) : Prop where
  /-- no name is there twice -/
  distinct : names.Nodup
  /-- the names are those of the list -/
  same : ∀ name, name ∈ names ↔ name ∈ all
  /-- what stands in front came up first -/
  order : names.Pairwise fun name other => all.idxOf name < all.idxOf other

section Order

variable {names all : List String}

/-- Names that are distinct are in order by themselves, since each comes up where it stands. -/
theorem inFirstOrder_self (h : names.Nodup) : InFirstOrder names names where
  distinct := h
  same _ := Iff.rfl
  order := by
    rw [List.pairwise_iff_getElem]
    intro i j hi hj hlt
    rwa [h.idxOf_getElem, h.idxOf_getElem]

/-- **One more name** goes behind the others if it is new, and changes nothing if it is not. -/
theorem InFirstOrder.withName (h : InFirstOrder names all) (name : String) :
    InFirstOrder (withName names name) (all ++ [name]) := by
  have hkept : names.Pairwise fun a b => (all ++ [name]).idxOf a < (all ++ [name]).idxOf b := by
    refine h.order.imp_of_mem fun ha hb hlt => ?_
    rwa [List.idxOf_append_of_mem ((h.same _).mp ha), List.idxOf_append_of_mem ((h.same _).mp hb)]
  refine ⟨nodup_withName h.distinct name, fun other => ?_, ?_⟩
  · rw [mem_withName, h.same, List.mem_append, List.mem_singleton]
  · rw [Schema.withName]
    split
    · exact hkept
    · rename_i hnew
      -- the others came up before the list ended, where the new name comes up
      refine List.pairwise_append.mpr ⟨hkept, List.pairwise_singleton _ _, ?_⟩
      intro other hother last hlast
      rw [List.mem_singleton.mp hlast]
      have hmem := (h.same other).mp hother
      have hnone : name ∉ all := fun hname => hnew ((h.same name).mpr hname)
      rw [List.idxOf_append_of_mem hmem, List.idxOf_append_of_notMem hnone]
      exact Nat.lt_add_right _ (List.idxOf_lt_length_of_mem hmem)

/-- **Names one after another** leave all in the order in which they first came up. -/
theorem InFirstOrder.foldl_withName (h : InFirstOrder names all) (more : List String) :
    InFirstOrder (more.foldl Schema.withName names) (all ++ more) := by
  induction more generalizing names all with
  | nil => rwa [List.append_nil]
  | cons name rest ih =>
    have hrest := ih (h.withName name)
    rwa [List.append_assoc, List.singleton_append] at hrest

/-- One more name does not move those that were there. -/
theorem prefix_withName (names : List String) (name : String) :
    names <+: Schema.withName names name := by
  rw [Schema.withName]
  split
  · exact List.prefix_refl _
  · exact List.prefix_append _ _

/-- What was there stays in front. -/
theorem prefix_foldl_withName (names more : List String) :
    names <+: more.foldl Schema.withName names := by
  induction more generalizing names with
  | nil => exact List.prefix_refl _
  | cons name rest ih => exact (prefix_withName names name).trans (ih _)

end Order

/-! ### The names of schemas -/

/-- The attributes of records, one record after another. -/
abbrev samplesOf (records : List Record) : List (String × Json) :=
  records.flatMap Record.attributes

/-- The attributes of more records follow those of the records before. -/
theorem samplesOf_append (records more : List Record) :
    samplesOf (records ++ more) = samplesOf records ++ samplesOf more :=
  List.flatMap_append

theorem names_addSamples (samples : List (String × Json))
    (types : List (String × Option FieldType)) :
    (addSamples samples types).map Prod.fst =
      (samples.map Prod.fst).foldl withName (types.map Prod.fst) := by
  induction samples generalizing types with
  | nil => rfl
  | cons sample rest ih =>
    obtain ⟨name, v⟩ := sample
    rw [addSamples, List.foldl_cons, ih, names_addSample]
    rfl

theorem names_infer_eq (records : List Record) :
    (infer records).names = ((samplesOf records).map Prod.fst).foldl withName [] := by
  rw [names_infer, names_addSamples]
  rfl

theorem names_foldl_insert (added : List Field) (schema : Schema) :
    (added.foldl insert schema).names = (added.map Field.name).foldl withName schema.names := by
  induction added generalizing schema with
  | nil => rfl
  | cons field rest ih =>
    rw [List.foldl_cons, ih, names_insert]
    rfl

/-! ## Types that are inferred -/

/-- Under a name, this is the first value that is not `null`. -/
def IsFirstUnder (name : String) (samples : List (String × Json)) (v : Json) : Prop :=
  v ≠ .null ∧ ∃ before behind, samples = before ++ (name, v) :: behind ∧
    ∀ w, (name, w) ∈ before → w = .null

/-- Every value but `null` has a type. So a name without a type is one under which only `null`
stands. -/
theorem infer?_eq_none_iff {v : Json} : FieldType.infer? v = none ↔ v = .null := by
  match v with
  | .null => simp [FieldType.infer?]
  | .bool _ | .string _ | .array _ | .object _ | .number (.integer _) | .number (.double _) =>
    simp [FieldType.infer?]

section First

variable {name : String} {samples : List (String × Json)}

/-- Where all values are `null`, none has a type. -/
theorem firstUnder?_of_null (h : ∀ v, (name, v) ∈ samples → v = .null) :
    firstUnder? FieldType.infer? name samples = none := by
  rw [firstUnder?, List.findSome?_eq_none_iff]
  rintro ⟨other, v⟩ hmem
  dsimp only
  split
  · rename_i hname
    subst hname
    exact infer?_eq_none_iff.mpr (h v hmem)
  · rfl

/-- What is seen first in two lists is what is seen first in the first of them, or else in the
second. -/
theorem firstUnder?_append {α : Type} (see? : Json → Option α) (name : String)
    (samples more : List (String × Json)) :
    firstUnder? see? name (samples ++ more) =
      (firstUnder? see? name samples).or (firstUnder? see? name more) :=
  List.findSome?_append

/-- The first value that is not `null` is the first that has a type; those in front of it say
nothing. -/
theorem IsFirstUnder.firstUnder? {v : Json} (h : IsFirstUnder name samples v) :
    firstUnder? FieldType.infer? name samples = FieldType.infer? v := by
  obtain ⟨hv, before, behind, rfl, hbefore⟩ := h
  obtain ⟨type, htype⟩ := Option.ne_none_iff_exists'.mp (mt infer?_eq_none_iff.mp hv)
  rw [firstUnder?_append, firstUnder?_of_null hbefore, firstUnder?_cons, if_pos rfl, htype]
  rfl

/-- Where some value is not `null`, one is the first. -/
theorem exists_isFirstUnder {v : Json} (h : (name, v) ∈ samples) (hv : v ≠ .null) :
    ∃ first, IsFirstUnder name samples first := by
  induction samples with
  | nil => cases h
  | cons sample rest ih =>
    by_cases hsample : sample.1 = name ∧ sample.2 ≠ .null
    · obtain ⟨rfl, hfirst⟩ := hsample
      exact ⟨sample.2, hfirst, [], rest, rfl, fun w hw => absurd hw List.not_mem_nil⟩
    · have hrest : (name, v) ∈ rest := by
        rcases List.mem_cons.mp h with rfl | hrest
        · exact absurd ⟨rfl, hv⟩ hsample
        · exact hrest
      obtain ⟨first, hfirst, before, behind, rfl, hbefore⟩ := ih hrest
      refine ⟨first, hfirst, sample :: before, behind, rfl, fun w hw => ?_⟩
      rcases List.mem_cons.mp hw with rfl | hw
      · by_contra hnull
        exact hsample ⟨rfl, hnull⟩
      · exact hbefore w hw

end First

/-- Among distinct names a name has the type that stands next to it. -/
theorem typeAmong?_of_mem {types : List (String × Option FieldType)}
    (h : (types.map Prod.fst).Nodup) {name : String} {type? : Option FieldType}
    (hmem : (name, type?) ∈ types) : typeAmong? name types = type? := by
  induction types with
  | nil => cases hmem
  | cons type rest ih =>
    obtain ⟨other, first?⟩ := type
    obtain ⟨hnew, hrest⟩ := List.nodup_cons.mp h
    rw [typeAmong?_cons]
    rcases List.mem_cons.mp hmem with heq | hlater
    · obtain ⟨rfl, rfl⟩ := Prod.mk.inj heq
      rw [if_pos rfl]
    · have hne : other ≠ name := by
        rintro rfl
        exact hnew (List.mem_map.mpr ⟨_, hlater, rfl⟩)
      rw [if_neg hne, ih hrest hlater]

/-- **Types.** A field has the type of the first value under its name that has one, and holds texts
if there is none. -/
theorem type_infer {records : List Record} {field : Field}
    (h : field ∈ (infer records).fields) :
    field.type = (firstType? field.name records).getD .string := by
  obtain ⟨⟨name, type?⟩, hmem, rfl⟩ := List.mem_map.mp h
  have hnodup := @nodup_addSamples (samplesOf records) [] List.nodup_nil
  have htype := (typeAmong?_addSamples name (samplesOf records) []).symm.trans
    (typeAmong?_of_mem hnodup hmem)
  exact congrArg (Option.getD · .string) htype.symm

/-- Further records count only for names that have had no type so far. -/
theorem firstType?_append (name : String) (records more : List Record) :
    firstType? name (records ++ more) =
      (firstType? name records).or (firstType? name more) := by
  rw [firstType?, List.flatMap_append, firstUnder?_append]
  rfl

/-! ## Fields that are inserted -/

/-- Of the fields inserted under its name, this one is the last. -/
def IsLast (field : Field) (added : List Field) : Prop :=
  ∃ earlier later, added = earlier ++ field :: later ∧ field.name ∉ later.map Field.name

theorem isLast_cons {field first : Field} {rest : List Field} : IsLast field (first :: rest) ↔
    field = first ∧ first.name ∉ rest.map Field.name ∨ IsLast field rest := by
  constructor
  · rintro ⟨earlier, later, hsplit, hlast⟩
    cases earlier with
    | nil =>
      obtain ⟨rfl, rfl⟩ := List.cons.inj hsplit
      exact .inl ⟨rfl, hlast⟩
    | cons other earlier =>
      obtain ⟨rfl, rfl⟩ := List.cons.inj hsplit
      exact .inr ⟨earlier, later, rfl, hlast⟩
  · rintro (⟨rfl, hlast⟩ | ⟨earlier, later, rfl, hlast⟩)
    · exact ⟨[], rest, rfl, hlast⟩
    · exact ⟨first :: earlier, later, rfl, hlast⟩

/-- **One field inserted** is there, and so are the fields of other names that were there; the field
that had its name, if there was one, is gone. -/
theorem mem_insert {schema : Schema} (h : schema.names.Nodup) {field other : Field} :
    other ∈ (schema.insert field).fields ↔
      other = field ∨ other ∈ schema.fields ∧ other.name ≠ field.name := by
  obtain ⟨fields⟩ := schema
  change other ∈ insertField field fields ↔ _ ∨ other ∈ fields ∧ _
  change (fields.map Field.name).Nodup at h
  induction fields with
  | nil => simp [insertField]
  | cons old rest ih =>
    obtain ⟨hnew, hrest⟩ := List.nodup_cons.mp h
    rw [insertField]
    by_cases hold : old.name = field.name
    · have hretyped : { old with type := field.type } = field := by rw [hold]
      -- behind it no field has the name
      have hbehind : other ∈ rest → other.name ≠ field.name := fun hmem hname =>
        hnew (hold ▸ hname ▸ List.mem_map.mpr ⟨other, hmem, rfl⟩)
      rw [if_pos hold, hretyped, List.mem_cons, List.mem_cons]
      constructor
      · exact Or.imp_right fun hmem => ⟨.inr hmem, hbehind hmem⟩
      · rintro (hother | ⟨rfl | hmem, hname⟩)
        · exact .inl hother
        · exact absurd hold hname
        · exact .inr hmem
    · rw [if_neg hold, List.mem_cons, ih hrest, List.mem_cons]
      constructor
      · rintro (rfl | hother | ⟨hmem, hname⟩)
        · exact .inr ⟨.inl rfl, hold⟩
        · exact .inl hother
        · exact .inr ⟨.inr hmem, hname⟩
      · rintro (hother | ⟨rfl | hmem, hname⟩)
        · exact .inr (.inl hother)
        · exact .inl rfl
        · exact .inr (.inr ⟨hmem, hname⟩)

/-- **Fields inserted one after another.** There are the last of each name, and of the fields that
were there those whose names have not been inserted. -/
theorem mem_foldl_insert (added : List Field) {schema : Schema} (h : schema.names.Nodup)
    {other : Field} : other ∈ (added.foldl insert schema).fields ↔
      IsLast other added ∨ other ∈ schema.fields ∧ other.name ∉ added.map Field.name := by
  induction added generalizing schema with
  | nil => simp [IsLast]
  | cons field rest ih =>
    rw [List.foldl_cons, ih (nodup_insert h field), mem_insert h, isLast_cons, List.map_cons,
      List.mem_cons, not_or]
    constructor
    · rintro (hlast | ⟨rfl | ⟨hmem, hname⟩, hrest⟩)
      · exact .inl (.inr hlast)
      · exact .inl (.inl ⟨rfl, hrest⟩)
      · exact .inr ⟨hmem, hname, hrest⟩
    · rintro ((⟨rfl, hrest⟩ | hlast) | ⟨hmem, hname, hrest⟩)
      · exact .inr ⟨.inl rfl, hrest⟩
      · exact .inl hlast
      · exact .inr ⟨.inr ⟨hmem, hname⟩, hrest⟩

/-! ## Places -/

/-- A field stands in the place of its name, so that orders of names are orders of fields. -/
theorem getElem?_fields {schema : Schema} (h : schema.names.Nodup) {field : Field}
    (hmem : field ∈ schema.fields) {index : Nat} (hname : schema.names[index]? = some field.name) :
    schema.fields[index]? = some field := by
  rw [names, List.getElem?_map] at hname
  obtain ⟨other, hother, heq⟩ := Option.map_eq_some_iff.mp hname
  have hfound := field?_of_mem h (List.mem_of_getElem? hother)
  rw [heq, field?_of_mem h hmem] at hfound
  rw [hother, Option.some.inj hfound]

/-- Where the names of a schema are in front, a field that is kept is kept in its place. -/
theorem getElem?_of_prefix {schema longer : Schema} (hlonger : longer.names.Nodup)
    (hfront : schema.names <+: longer.names) {index : Nat} {field : Field}
    (hfield : schema.fields[index]? = some field) (hmem : field ∈ longer.fields) :
    longer.fields[index]? = some field := by
  have hname : schema.names[index]? = some field.name := by
    rw [names, List.getElem?_map, hfield, Option.map_some]
  obtain ⟨behind, hbehind⟩ := hfront
  refine getElem?_fields hlonger hmem ?_
  rw [← hbehind, List.getElem?_append_left (List.getElem?_eq_some_iff.mp hname).1, hname]

/-! ## Inferring and inserting -/

/-- A schema says of records what there is to say. -/
structure Describes (schema : Schema) (records : List Record) : Prop where
  /-- its names are those of the attributes, in the order in which they first come up -/
  names : InFirstOrder schema.names ((samplesOf records).map Prod.fst)
  /-- a field has the type of the first value under its name that is not `null` -/
  typed : ∀ field ∈ schema.fields, ∀ v, IsFirstUnder field.name (samplesOf records) v →
    FieldType.infer? v = some field.type
  /-- a field that is `null` everywhere holds texts -/
  untyped : ∀ field ∈ schema.fields, (∀ v, (field.name, v) ∈ samplesOf records → v = .null) →
    field.type = .string

/-- What a schema of records becomes when there are more of them. -/
structure Outgrows (longer schema : Schema) (records : List Record) : Prop where
  /-- no field goes or changes its place -/
  front : schema.names <+: longer.names
  /-- nor does one change its type that had a value -/
  settled : ∀ (index : Nat) (field : Field), schema.fields[index]? = some field →
    (∃ v, (field.name, v) ∈ samplesOf records ∧ v ≠ .null) → longer.fields[index]? = some field

/-- What a schema becomes when fields are inserted one after another. -/
structure Receives (schema : Schema) (added : List Field) (after : Schema) : Prop where
  /-- no field goes or changes its place -/
  front : schema.names <+: after.names
  /-- new names stand behind, in the order in which they were first inserted -/
  names : InFirstOrder after.names (schema.names ++ added.map Field.name)
  /-- under a name that was inserted stands the field that was inserted last -/
  last : ∀ field, IsLast field added → field ∈ after.fields
  /-- under other names stand the fields that stood there -/
  others : ∀ (index : Nat) (field : Field), schema.fields[index]? = some field →
    field.name ∉ added.map Field.name → after.fields[index]? = some field

/-- What is inferred from records says of them what there is to say: names in order, and a type for
each. -/
theorem describes_infer (records : List Record) : (infer records).Describes records where
  names := by
    rw [names_infer_eq]
    exact (inFirstOrder_self List.nodup_nil).foldl_withName _
  typed field hfield v hv := by
    obtain ⟨type, htype⟩ := Option.ne_none_iff_exists'.mp (mt infer?_eq_none_iff.mp hv.1)
    rw [type_infer hfield, firstType?, hv.firstUnder?, htype, Option.getD_some]
  untyped field hfield hnull := by
    rw [type_infer hfield, firstType?, firstUnder?_of_null hnull, Option.getD_none]

/-- With more records the fields stay where they are, and a type changes only if it was that of no
value. -/
theorem outgrows_infer (records more : List Record) :
    (infer (records ++ more)).Outgrows (infer records) records := by
  have hfront : (infer records).names <+: (infer (records ++ more)).names := by
    rw [names_infer_eq, names_infer_eq, samplesOf_append, List.map_append, List.foldl_append]
    exact prefix_foldl_withName _ _
  refine ⟨hfront, fun index field hfield hvalue => ?_⟩
  obtain ⟨v, hmem, hv⟩ := hvalue
  obtain ⟨first, hfirst⟩ := exists_isFirstUnder hmem hv
  have htype := (describes_infer records).typed field (List.mem_of_getElem? hfield) first hfirst
  -- the first value stays the first when others come behind
  have hshorter : firstType? field.name records = some field.type :=
    hfirst.firstUnder?.trans htype
  have hlonger : firstType? field.name (records ++ more) = some field.type := by
    rw [firstType?_append, hshorter]
    rfl
  exact getElem?_of_prefix (nodup_infer _) hfront hfield
    (List.mem_reverse.mp (List.mem_of_find?_eq_some (field?_infer hlonger)))

/-- Inserting fields leaves those of other names in their places; the new ones stand behind them,
with the types inserted last. -/
theorem receives_foldl_insert {schema : Schema} (h : schema.names.Nodup) (added : List Field) :
    schema.Receives added (added.foldl insert schema) := by
  have hfront : schema.names <+: (added.foldl insert schema).names := by
    rw [names_foldl_insert]
    exact prefix_foldl_withName _ _
  refine ⟨hfront, ?_, fun field hlast => (mem_foldl_insert added h).mpr (.inl hlast), ?_⟩
  · rw [names_foldl_insert]
    exact (inFirstOrder_self h).foldl_withName _
  · intro index field hfield hother
    exact getElem?_of_prefix (nodup_foldl_insert added h) hfront hfield
      ((mem_foldl_insert added h).mpr (.inr ⟨List.mem_of_getElem? hfield, hother⟩))

/-- **Schemas.** What is inferred from records has a field for each name, in the order in which the
names first come up, with the type of the first value that is not `null`. More records neither move
fields nor change a type that came from a value. Fields inserted afterwards leave the others in
their places, stand behind them in the order in which they were first inserted, and have the types
that were inserted last. -/
theorem infer_insert (records more : List Record) (added : List Field) :
    (infer records).Describes records ∧
    (infer (records ++ more)).Outgrows (infer records) records ∧
    (infer records).Receives added (extended records added) :=
  ⟨describes_infer records, outgrows_infer records more,
    receives_foldl_insert (nodup_infer records) added⟩

end FeatureTransform.Schema
