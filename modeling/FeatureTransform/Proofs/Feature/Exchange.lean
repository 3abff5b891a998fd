import FeatureTransform.Feature.Exchange
import FeatureTransform.Proofs.Feature.Document
import FeatureTransform.Proofs.Feature.Schema
import FeatureTransform.Proofs.Json.Trim

/-!
# What comes back from scripts

A text brings back records in a normal form: their ids and geometries can be written and read, and
their attributes have the types of the schema. Where the script sees the system of the records, a
record in that form leaves as a text that brings it back.
-/

namespace FeatureTransform

/-! ## Records of a document -/

namespace Record

/-- A record with an id that is there and a geometry that is an object, of which so many arrays and
objects may still be opened around each other. -/
structure Shaped (room : Nat) (record : Record) : Prop where
  /-- an id is something -/
  id : ∀ v ∈ record.id?, v ≠ .null ∧ v.Within room
  /-- a geometry is an object -/
  geometry : ∀ v ∈ record.geometry, (∃ members, v = .object members) ∧ v.Within room

theorem Shaped.mono {record : Record} {room more : Nat} (h : record.Shaped room)
    (hmore : room ≤ more) : record.Shaped more := by
  constructor
  · intro v hv
    exact ⟨(h.id v hv).1, (h.id v hv).2.mono hmore⟩
  · intro v hv
    exact ⟨(h.geometry v hv).1, (h.geometry v hv).2.mono hmore⟩

/-- A record of some room is one that documents hold; the room only bounds its id and its geometry.
-/
theorem Shaped.isProper {record : Record} {room : Nat} (h : record.Shaped room) :
    record.IsProper :=
  ⟨fun v hv => (h.id v hv).1, fun v hv => (h.geometry v hv).1⟩

/-- **Documents.** Whatever their form, their records have less room than themselves, as they stand
inside at least one object. -/
theorem shaped_of_document {value : Json} {records : List Record} {room : Nat}
    (hvalue : value.Within (room + 1)) (h : ofDocument value = .ok records) :
    ∀ record ∈ records, record.Shaped room := by
  intro record hrecord
  obtain ⟨feature, hholds, hfeature⟩ := exists_feature_of_document h record hrecord
  obtain ⟨members, rfl, hpart⟩ := exists_members_of_feature hfeature
  obtain ⟨-, hmembers⟩ := Json.Within.object_iff.mp (hholds.within hvalue)
  constructor
  · intro v hv
    exact ⟨(hpart.id v hv).1, hmembers _ (hpart.id v hv).2⟩
  · intro v hv
    exact ⟨(hpart.geometry v hv).1, hmembers _ (hpart.geometry v hv).2⟩

section Writing

variable {record : Record}

/-- The Feature of a record has the record's room and one level more: the id and the geometry are
members of it, and its attributes lie in one further object. -/
theorem Shaped.within {room : Nat} (h : record.Shaped (room + 1))
    (hsorted : Json.Sorted record.attributes) (hscalar : ∀ m ∈ record.attributes, m.2.IsScalar) :
    record.toFeature.Within (room + 2) := by
  have hattributes : (Json.object record.attributes).Within (room + 1) :=
    Json.Within.object_iff.mpr ⟨hsorted, fun m hm => (hscalar m hm).isAtom.within room⟩
  exact within_toFeature (fun v hv => (h.id v hv).2) (fun v hv => (h.geometry v hv).2) hattributes

/-- The Feature of a record holds the record, and nothing is lost: its id is no `null` and its
geometry an object, as a document would have them. -/
theorem Shaped.ofDocument_toFeature {room : Nat} (h : record.Shaped room) :
    ofDocument record.toFeature = .ok [record] :=
  h.isProper.ofDocument_toFeature

end Writing

end Record

/-! ## Exchange -/

namespace Exchange

variable (exchange : Exchange)

/-- A record of a document as it comes back: fitted to the schema. -/
def fitted (record : Record) : Record :=
  { record with attributes := exchange.schema.project record.attributes }

/-- Fitting to the schema a second time changes nothing. The reason is that coercion leaves alone
what it has coerced. -/
theorem fitted_fitted (record : Record) :
    exchange.fitted (exchange.fitted record) = exchange.fitted record := by
  simp only [fitted, Schema.project_project]

/-- What a text brings back: nothing, or the records of the document that it is, each fitted to the
schema. -/
theorem decode_cases {text : String} {records : List Record}
    (h : exchange.decode text = .ok records) : records = [] ∨
      ∃ s value found, Json.readText s = .ok value ∧ Record.ofDocument value = .ok found ∧
        records = found.map exchange.fitted := by
  rw [decode] at h
  split at h
  · cases h
    exact .inl rfl
  · split at h
    · cases h
    · rename_i value hvalue
      split at h
      · cases h
        exact .inl rfl
      · split at h
        · cases h
        · rename_i found hfound
          cases h
          exact .inr ⟨_, value, found, hvalue, hfound, rfl⟩

/-- The text of an object brings back the records that it holds, provided that the reader accepts
its depth and gives its numbers back. -/
theorem decode_object {members : List (String × Json)} {records : List Record}
    (hwithin : (Json.object members).Within Json.maxDepth)
    (hback : (Json.object members).ReadsBack) (hmembers : members ≠ [])
    (hrecords : Record.ofDocument (.object members) = .ok records) :
    exchange.decode (Json.object members).write = .ok (records.map exchange.fitted) := by
  obtain ⟨c, more, htext, -⟩ := Json.exists_text_cons (.object members)
  have hread := hwithin.readText_of_readsBack hback
  have hsomething : isNothing (.object members) = false := by
    cases members with
    | nil => exact absurd rfl hmembers
    | cons m rest => rfl
  rw [decode, Json.write, String.toList_ofList, Json.trim_object, htext]
  simp only
  rw [← htext, hread]
  simp only [hsomething, Bool.false_eq_true, if_false, hrecords]
  rfl

/-- Where both systems are the same nothing is moved, and the text is that of the Feature as it is.
-/
theorem exportText_same {exchange : Exchange} (record : Record)
    (hsame : exchange.source = exchange.target) :
    exchange.exportText record = .ok record.toFeature.write := by
  obtain ⟨id?, geometry, attributes⟩ := record
  cases geometry with
  | none => rfl
  | some g => simp [exportText, reproject, hsame]

/-- A record that has been fitted comes back from the text of its Feature. One level of depth is
left for the object around the parts. -/
theorem decode_toFeature {record : Record} (h : record.Shaped (Json.maxDepth - 1))
    (hback : (exchange.fitted record).toFeature.ReadsBack) :
    exchange.decode (exchange.fitted record).toFeature.write = .ok [exchange.fitted record] := by
  have hshaped : (exchange.fitted record).Shaped (Json.maxDepth - 1) := ⟨h.id, h.geometry⟩
  -- the attributes are scalars now, whatever they were nested like before
  have hwithin : (exchange.fitted record).toFeature.Within Json.maxDepth :=
    hshaped.within (exchange.schema.sorted_project _) (exchange.schema.isScalar_project _)
  have hdocument := hshaped.ofDocument_toFeature
  rw [Record.toFeature_eq] at hwithin hback hdocument ⊢
  rw [exchange.decode_object hwithin hback (List.cons_ne_nil _ _) hdocument, List.map_singleton,
    fitted_fitted]

/-- **Normal form.** Where the script sees the system of the records, each record that a text brings
back leaves as a text that brings back this record and no other. The reason is that nothing is left
for a second reading to change: the id and the geometry are as documents hold them, and coercion
leaves alone what it has coerced. Only the numbers depend on the reader, which has to give them
back. -/
theorem decode_exportText (hsame : exchange.source = exchange.target) {text : String}
    {records : List Record} (h : exchange.decode text = .ok records) :
    ∀ record ∈ records, ∃ payload, exchange.exportText record = .ok payload ∧
      (record.toFeature.ReadsBack → exchange.decode payload = .ok [record]) := by
  intro record hrecord
  refine ⟨record.toFeature.write, exportText_same record hsame, fun hback => ?_⟩
  rcases exchange.decode_cases h with rfl | ⟨s, value, found, hvalue, hfound, rfl⟩
  · cases hrecord
  · obtain ⟨raw, hraw, rfl⟩ := List.mem_map.mp hrecord
    have hshaped : raw.Shaped (Json.maxDepth - 1) :=
      Record.shaped_of_document (Json.within_of_readText hvalue) hfound raw hraw
    exact exchange.decode_toFeature hshaped hback

/-- Degrees for the records and for the script, with fields of three types. -/
def degrees : Exchange :=
  { source := .wgs84
    target := .wgs84
    schema := ⟨[⟨"count", .integer⟩, ⟨"parts", .string⟩, ⟨"rest", .double⟩, ⟨"width", .double⟩]⟩ }

/-- A Feature with a number beyond the integers, an array for a text, a double, and a field
missing. -/
def loose : String :=
  "\x7b\"type\":\"Feature\",\"id\":[7]," ++
    "\"properties\":\x7b\"width\":0.25,\"parts\":[1,null],\"count\":1e30\x7d\x7d"

/-- The Feature that it becomes. -/
def tidy : String :=
  "\x7b\"geometry\":null,\"id\":[7],\"properties\":\x7b\"count\":9223372036854775807," ++
    "\"parts\":\"[1,null]\",\"rest\":null,\"width\":0.25\x7d,\"type\":\"Feature\"\x7d"

theorem decode_exportText_tidy :
    ∃ record, degrees.decode loose = .ok [record] ∧ record.toFeature.ReadsBack ∧
      degrees.decode tidy = .ok [record] := by
  -- both the text that leaves and whether its numbers come back are found by reading the first text
  have hpayloads : (degrees.decode loose).toOption.map (List.map fun record =>
      (record.toFeature.write, decide record.toFeature.ReadsBack)) = some [(tidy, true)] := by
    decide +kernel
  cases hloose : degrees.decode loose with
  | error e =>
    rw [hloose] at hpayloads
    cases hpayloads
  | ok records =>
    rw [hloose] at hpayloads
    obtain ⟨record, rfl, hrecord⟩ := List.map_eq_singleton_iff.mp (Option.some.inj hpayloads)
    obtain ⟨hpayload, hback⟩ := Prod.mk.inj hrecord
    have hback := of_decide_eq_true hback
    obtain ⟨payload, hexport, hdecode⟩ :=
      degrees.decode_exportText rfl hloose record List.mem_cons_self
    rw [exportText_same record rfl] at hexport
    obtain rfl := Except.ok.inj hexport
    rw [hpayload] at hdecode
    exact ⟨record, rfl, hback, hdecode hback⟩

end Exchange

end FeatureTransform
