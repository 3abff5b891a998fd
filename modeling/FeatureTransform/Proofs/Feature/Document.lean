import FeatureTransform.Feature.Record
import FeatureTransform.Proofs.Json.Portable
import FeatureTransform.Proofs.Json.Reader

/-!
# Documents of features

A document is read in three forms and with parts left out, and written in one form with all parts
there. Reading brings every document into that form: its records have no `null` for an id and no
geometry but objects, which is all that writing could lose, so that a collection of them holds them
again. As texts, the two differ in depth: a collection opens two more levels around a Feature, which
a reader that stops at some depth has to have left. And a text only brings back the numbers that the
reader gives back.
-/

namespace FeatureTransform.Record

/-! ## What is read -/

/-- A record as documents hold them. -/
structure IsProper (record : Record) : Prop where
  /-- an id is something -/
  id : ∀ v ∈ record.id?, v ≠ .null
  /-- a geometry is an object -/
  geometry : ∀ v ∈ record.geometry, ∃ members, v = .object members

section Reading

variable {members : List (String × Json)}

/-- A geometry that has been read is an object, and the member of that name: `null` and a missing
member both stand for no geometry. -/
theorem geometryOf_eq_ok {geometry : Option Json} (h : geometryOf members = .ok geometry) :
    ∀ v ∈ geometry, (∃ inside, v = .object inside) ∧ ("geometry", v) ∈ members := by
  rw [geometryOf] at h
  split at h
  · cases h
    exact fun v hv => absurd hv (Option.not_mem_none v)
  · cases h
    exact fun v hv => absurd hv (Option.not_mem_none v)
  · rename_i inside hfound
    cases h
    rintro v ⟨⟩
    exact ⟨⟨inside, rfl⟩, Json.mem_of_member? hfound⟩
  · cases h

/-- An id that has been read is a member of that name, but not `null`. -/
theorem idOf?_eq_some {v : Json} (h : idOf? members = some v) :
    v ≠ .null ∧ ("id", v) ∈ members := by
  rw [idOf?] at h
  split at h
  · cases h
  · cases h
  · rename_i id hnull hfound
    cases h
    refine ⟨?_, Json.mem_of_member? hfound⟩
    rintro rfl
    exact hnull rfl

/-- The attributes that have been read are those of the member `properties`; where it is `null` or
missing there are none. -/
theorem attributesOf_eq_ok {attributes : List (String × Json)}
    (h : attributesOf members = .ok attributes) :
    attributes = [] ∨ ("properties", .object attributes) ∈ members := by
  rw [attributesOf] at h
  split at h
  · cases h
    exact .inl rfl
  · cases h
    exact .inl rfl
  · rename_i inside hfound
    cases h
    exact .inr (Json.mem_of_member? hfound)
  · cases h

/-- A record whose parts are members of an object. -/
structure IsPartOf (record : Record) (members : List (String × Json)) : Prop where
  /-- an id is something -/
  id : ∀ v ∈ record.id?, v ≠ .null ∧ ("id", v) ∈ members
  /-- a geometry is an object -/
  geometry : ∀ v ∈ record.geometry, (∃ inside, v = .object inside) ∧ ("geometry", v) ∈ members
  /-- there need not be attributes -/
  attributes : record.attributes = [] ∨ ("properties", .object record.attributes) ∈ members

/-- **Features.** The parts of a record are members of its Feature. -/
theorem exists_members_of_feature {value : Json} {record : Record}
    (h : ofFeature value = .ok record) :
    ∃ members, value = .object members ∧ record.IsPartOf members := by
  cases value with
  | object members =>
    simp only [ofFeature] at h
    split at h
    · cases h
    · obtain ⟨geometry, hgeometry, h⟩ := Attempt.bind_eq_ok h
      obtain ⟨attributes, hattributes, h⟩ := Attempt.bind_eq_ok h
      cases h
      exact ⟨members, rfl, fun v hv => idOf?_eq_some hv, geometryOf_eq_ok hgeometry,
        attributesOf_eq_ok hattributes⟩
    · cases h
  | _ => cases h

/-- A value in the place of a Feature in a document. -/
inductive Holds : Json → Json → Prop where
  /-- the document is the Feature -/
  | whole (value : Json) : Holds value value
  /-- the document is an array of Features -/
  | item {items : List Json} {value : Json} (h : value ∈ items) : Holds (.array items) value
  /-- the document is a FeatureCollection -/
  | feature {members : List (String × Json)} {items : List Json} {value : Json}
      (hitems : ("features", .array items) ∈ members) (h : value ∈ items) :
      Holds (.object members) value

/-- What a document holds has at least its room, since forms only add brackets around Features. -/
theorem Holds.within {value feature : Json} {room : Nat} (h : Holds value feature)
    (hvalue : value.Within (room + 1)) : feature.Within (room + 1) := by
  cases h with
  | whole => exact hvalue
  | item h => exact (Json.Within.array_iff.mp hvalue feature h).mono (Nat.le_succ room)
  | feature hitems h =>
    have harray := (Json.Within.object_iff.mp hvalue).2 _ hitems
    exact (Json.Within.array_iff.mp (harray.mono (Nat.le_succ room)) feature h).mono
      (Nat.le_succ room)

/-- **Documents.** Whatever their form, each record is that of a Feature in them. So whatever holds
of the records of single Features holds of all records that are read. -/
theorem exists_feature_of_document {value : Json} {records : List Record}
    (h : ofDocument value = .ok records) :
    ∀ record ∈ records, ∃ feature, Holds value feature ∧ ofFeature feature = .ok record := by
  intro record hrecord
  cases value with
  | array items =>
    obtain ⟨feature, hmem, hfeature⟩ := Attempt.exists_of_mem_mapM h hrecord
    exact ⟨feature, .item hmem, hfeature⟩
  | object members =>
    -- an object is a collection or a Feature itself
    simp only [ofDocument] at h
    split at h
    · rw [ofCollection] at h
      split at h
      · cases h
        exact absurd hrecord List.not_mem_nil
      · cases h
        exact absurd hrecord List.not_mem_nil
      · rename_i items hfound
        obtain ⟨feature, hmem, hfeature⟩ := Attempt.exists_of_mem_mapM h hrecord
        exact ⟨feature, .feature (Json.mem_of_member? hfound) hmem, hfeature⟩
      · cases h
    · cases hfeature : ofFeature (.object members) with
      | error e =>
        rw [hfeature] at h
        cases h
      | ok found =>
        rw [hfeature] at h
        cases h
        obtain rfl := List.mem_singleton.mp hrecord
        exact ⟨_, .whole _, hfeature⟩
  | _ => cases h

/-- The records of a document are such as documents hold, and writing them loses nothing. -/
theorem isProper_of_document {value : Json} {records : List Record}
    (h : ofDocument value = .ok records) : ∀ record ∈ records, record.IsProper := by
  intro record hrecord
  obtain ⟨feature, -, hfeature⟩ := exists_feature_of_document h record hrecord
  obtain ⟨members, -, hpart⟩ := exists_members_of_feature hfeature
  exact ⟨fun v hv => (hpart.id v hv).1, fun v hv => (hpart.geometry v hv).1⟩

end Reading

/-! ## What is written -/

/-- The members of the Feature of a record, in the order of their names, in which they are kept. -/
theorem toFeature_eq (record : Record) : record.toFeature =
    .object (("geometry", record.geometry.getD .null) ::
      ((record.id?.map fun v => ("id", v)).toList ++
        [("properties", .object record.attributes), ("type", .string "Feature")])) := by
  cases h : record.id? <;> simp [toFeature, h]

/-- These members stand in order. -/
theorem sorted_toFeature (record : Record) : Json.Sorted
    (("geometry", record.geometry.getD .null) ::
      ((record.id?.map fun v => ("id", v)).toList ++
        [("properties", .object record.attributes), ("type", .string "Feature")])) := by
  rw [Json.sorted_iff]
  cases record.id? with
  | none =>
    change ["geometry", "properties", "type"].Pairwise (· < ·)
    decide
  | some v =>
    change ["geometry", "id", "properties", "type"].Pairwise (· < ·)
    decide

theorem geometryOf_of_member? {members : List (String × Json)} {geometry : Option Json}
    (hmember : Json.member? "geometry" members = some (geometry.getD .null))
    (hobject : ∀ v ∈ geometry, ∃ inside, v = .object inside) :
    geometryOf members = .ok geometry := by
  rw [geometryOf, hmember]
  cases geometry with
  | none => rfl
  | some v =>
    obtain ⟨inside, rfl⟩ := hobject v rfl
    rfl

theorem idOf?_of_member? {members : List (String × Json)} {id? : Option Json}
    (hmember : Json.member? "id" members = id?) (hnull : ∀ v ∈ id?, v ≠ .null) :
    idOf? members = id? := by
  rw [idOf?, hmember]
  split
  · rfl
  · exact absurd rfl (hnull .null rfl)
  · rfl

/-- The Feature of a record holds the record. The members that could have been left out are written
as `null`, and read as if they had been left out. -/
theorem IsProper.ofFeature_toFeature {record : Record} (h : record.IsProper) :
    ofFeature record.toFeature = .ok record := by
  obtain ⟨id?, geometry, attributes⟩ := record
  obtain ⟨members, hmembers, htype, hgeometry, hid, hattributes⟩ : ∃ members,
      toFeature ⟨id?, geometry, attributes⟩ = .object members ∧
      typeOf? members = some "Feature" ∧
      Json.member? "geometry" members = some (geometry.getD .null) ∧
      Json.member? "id" members = id? ∧ attributesOf members = .ok attributes := by
    cases id? with
    | none => exact ⟨_, rfl, rfl, rfl, rfl, rfl⟩
    | some v => exact ⟨_, rfl, rfl, rfl, rfl, rfl⟩
  rw [hmembers, ofFeature, htype]
  simp only [geometryOf_of_member? hgeometry h.geometry, hattributes,
    idOf?_of_member? hid h.id]
  rfl

theorem IsProper.ofDocument_toFeature {record : Record} (h : record.IsProper) :
    ofDocument record.toFeature = .ok [record] := by
  have hfeature := h.ofFeature_toFeature
  obtain ⟨members, hmembers, htype⟩ : ∃ members,
      record.toFeature = .object members ∧ typeOf? members = some "Feature" := by
    cases hid : record.id? <;> exact ⟨_, record.toFeature_eq, by rw [hid]; rfl⟩
  rw [hmembers] at hfeature ⊢
  rw [ofDocument, htype, if_neg (by decide), hfeature]
  rfl

/-- The collection of records that documents hold is read as these records, in the same order. -/
theorem ofDocument_collection_of_proper {records : List Record}
    (h : ∀ record ∈ records, record.IsProper) : ofDocument (collection records) = .ok records := by
  change (records.map toFeature).mapM ofFeature = .ok records
  apply Attempt.mapM_of_forall₂
  rw [List.forall₂_map_left_iff, List.forall₂_same]
  exact fun record hrecord => (h record hrecord).ofFeature_toFeature

/-- The Feature of a record has the room of its parts and one level more, that of its own braces. -/
theorem within_toFeature {record : Record} {room : Nat}
    (hid : ∀ v ∈ record.id?, v.Within (room + 1))
    (hgeometry : ∀ v ∈ record.geometry, v.Within (room + 1))
    (hattributes : (Json.object record.attributes).Within (room + 1)) :
    record.toFeature.Within (room + 2) := by
  -- without a geometry `null` stands in its place
  have hplace : (record.geometry.getD .null).Within (room + 1) := by
    cases hg : record.geometry with
    | none => exact Json.IsAtom.within (v := .null) trivial _
    | some v => exact hgeometry v hg
  have htype : (Json.string "Feature").Within (room + 1) :=
    Json.IsAtom.within (v := .string "Feature") trivial _
  rw [toFeature_eq]
  refine Json.Within.object_iff.mpr ⟨record.sorted_toFeature, ?_⟩
  intro m hm
  rcases List.mem_cons.mp hm with rfl | hm
  · exact hplace
  · rcases List.mem_append.mp hm with hm | hm
    · obtain ⟨v, hv, rfl⟩ := Option.map_eq_some_iff.mp (Option.mem_toList.mp hm)
      exact hid v hv
    · rcases List.mem_cons.mp hm with rfl | hm
      · exact hattributes
      · obtain rfl := List.mem_singleton.mp hm
        exact htype

/-- The Feature that is written has the room of the Feature that was read: its parts stand in it at
the level where they stood. -/
theorem IsPartOf.within_toFeature {record : Record} {members : List (String × Json)} {room : Nat}
    (h : record.IsPartOf members) (hmembers : (Json.object members).Within (room + 2)) :
    record.toFeature.Within (room + 2) := by
  obtain ⟨-, hparts⟩ := Json.Within.object_iff.mp hmembers
  refine Record.within_toFeature (fun v hv => hparts _ (h.id v hv).2)
    (fun v hv => hparts _ (h.geometry v hv).2) ?_
  rcases h.attributes with hnone | hmem
  · rw [hnone]
    exact Json.Within.object_iff.mpr ⟨.nil, fun m hm => absurd hm List.not_mem_nil⟩
  · exact hparts _ hmem

/-- A collection opens two levels around its Features, the object and the array in it. -/
theorem within_collection {records : List Record} {room : Nat}
    (h : ∀ record ∈ records, record.toFeature.Within room) :
    (collection records).Within (room + 2) := by
  have hfeatures : (Json.array (records.map toFeature)).Within (room + 1) := by
    refine Json.Within.array_iff.mpr fun v hv => ?_
    obtain ⟨record, hrecord, rfl⟩ := List.mem_map.mp hv
    exact h record hrecord
  have hsorted : ["features", "type"].Pairwise (· < ·) := by decide
  refine Json.Within.object_iff.mpr ⟨(Json.sorted_iff _).mpr hsorted, fun m hm => ?_⟩
  rcases List.mem_cons.mp hm with rfl | hm
  · exact hfeatures
  · obtain rfl := List.mem_singleton.mp hm
    exact Json.IsAtom.within (v := .string "FeatureCollection") trivial _

/-! ## Normal form -/

/-- A document as a collection of its records. -/
def normalise (value : Json) : Except ShapeError Json := (ofDocument value).map collection

/-- **Documents are read back.** The collection of the records that any document holds is read as
the same records; so a document in normal form stays as it is. What reading drops, such as further
members and what stands for nothing, it drops the first time. -/
theorem ofDocument_collection {value : Json} {records : List Record}
    (h : ofDocument value = .ok records) :
    ofDocument (collection records) = .ok records ∧
      normalise value = .ok (collection records) ∧
      normalise (collection records) = .ok (collection records) := by
  have hread := ofDocument_collection_of_proper (isProper_of_document h)
  refine ⟨hread, ?_, ?_⟩
  · rw [normalise, h]
    rfl
  · rw [normalise, hread]
    rfl

/-- A document with all forms of what may be left out: an id that is `null`, a geometry and
attributes that are missing, a member that means nothing. -/
def untidy : Json :=
  .array
    [.object [("bbox", .array []), ("id", .null), ("type", .string "Feature")],
      .object [("geometry", .null), ("id", .string "b"), ("properties", .object [("a", .null)]),
        ("type", .string "Feature")]]

theorem ofDocument_collection_untidy : ∃ records, ofDocument untidy = .ok records ∧
    records = [⟨none, none, []⟩, ⟨some (.string "b"), none, [("a", .null)]⟩] ∧
    ofDocument (collection records) = .ok records ∧
    normalise (collection records) = .ok (collection records) := by
  have hread : ofDocument untidy =
      .ok [⟨none, none, []⟩, ⟨some (.string "b"), none, [("a", .null)]⟩] := rfl
  obtain ⟨hagain, -, hnormal⟩ := ofDocument_collection hread
  exact ⟨_, hread, rfl, hagain, hnormal⟩

/-! ## Texts -/

/-- The text of the collection brings the records back, where it is not too deep to be read and the
reader gives its numbers back. Neither follows from the text that was read: a collection can be two
levels deeper, and the numbers are written anew. -/
theorem ofText_collection {text : String} {records : List Record}
    (h : ofText text = .ok records) (hdepth : (collection records).depth ≤ Json.maxDepth)
    (hback : (collection records).ReadsBack) :
    ofText (collection records).write = .ok records := by
  unfold ofText at h
  split at h
  · cases h
  · next value hvalue =>
    split at h
    · cases h
    · next found hfound =>
      obtain rfl := Except.ok.inj h
      have hwithin : value.Within (Json.maxDepth - 2 + 2) := Json.within_of_readText hvalue
      have hcollection : (collection found).Within (Json.maxDepth + 2) := by
        refine within_collection fun record hrecord => ?_
        obtain ⟨feature, hholds, hfeature⟩ := exists_feature_of_document hfound record hrecord
        obtain ⟨members, rfl, hpart⟩ := exists_members_of_feature hfeature
        exact hpart.within_toFeature (hholds.within hwithin)
      rw [ofText, Json.read_write hcollection.wellFormed hdepth, hback.reread]
      simp only [(ofDocument_collection hfound).1]

end FeatureTransform.Record
