import FeatureTransform.Proofs.Feature.Exchange
import FeatureTransform.Proofs.Program.Echo
import FeatureTransform.Transform

/-!
# The echo law

A record that goes to a script which returns what it gets comes back as it was: its text is read
into tables, the tables are written as text, the text is read again, and what is missing of the
attributes is put back by the schema. Both times the numbers are those of the record if the reader
gives them back.
-/

namespace FeatureTransform

open Lua (Store)

/-! ## Records -/

namespace Json

/-- A value that the id of an echoed record may have. -/
def IsId : Json → Prop
  | .string _ | .number (.double _) => True
  | .number (.integer i) => i.value < 0x8000000000000000
  | _ => False

/-- A value that the geometry of an echoed record may have. -/
def IsGeometry : Json → Prop
  | .object members => WellFormed (.object members) ∧ Portable (.object members)
  | _ => False

theorem IsId.portable {v : Json} (h : v.IsId) : v.Portable := by
  match v with
  | .string _ | .number (.double _) => trivial
  | .number (.integer i) => exact h

end Json

namespace Record

/-- A record whose Feature can be read by the program itself: the members of its objects stand in
order, it is nested no deeper than the reader accepts, and its text fits the memory of a script. -/
structure Fits (record : Record) : Prop where
  /-- objects have their members in order -/
  wellFormed : record.toFeature.WellFormed
  /-- the reader accepts the nesting -/
  depth : record.toFeature.depth ≤ Json.maxDepth
  /-- there is memory for the text -/
  size : record.toFeature.write.utf8ByteSize ≤ Lua.Eval.memoryLimit

/-- A record that comes back as it was. -/
structure Echoable (record : Record) : Prop where
  /-- the id is a text or a number -/
  id : ∀ v ∈ record.id?, v.IsId
  /-- the geometry has nothing that programs do not have -/
  geometry : ∀ v ∈ record.geometry, v.IsGeometry
  /-- the attributes stand in order -/
  sorted : Json.Sorted record.attributes
  /-- the attributes are no arrays and no objects -/
  scalar : ∀ m ∈ record.attributes, m.2.IsScalar
  /-- the reader accepts the nesting -/
  depth : record.toFeature.depth ≤ Json.maxDepth
  /-- there is memory for the text -/
  size : record.toFeature.write.utf8ByteSize ≤ Lua.Eval.memoryLimit
  /-- the reader gives the numbers back -/
  numbers : record.toFeature.ReadsBack

/-- A record that can come back as it was gets through. -/
theorem Echoable.fits {record : Record} (h : record.Echoable) : record.Fits := by
  refine ⟨?_, h.depth, h.size⟩
  have hgeometry : (record.geometry.getD .null).WellFormed := by
    cases hg : record.geometry with
    | none => trivial
    | some g =>
      have := h.geometry g hg
      cases g with
      | object members => exact this.1
      | _ => cases this
  have hid : ∀ v ∈ record.id?, v.WellFormed := by
    intro v hv
    have := h.id v hv
    cases v with
    | array items => cases this
    | object members => cases this
    | _ => trivial
  have hattributes : Json.WellFormedMembers record.attributes :=
    (Json.Within.members_iff.mp fun m hm => (h.scalar m hm).isAtom.within 0).1
  rw [toFeature_eq]
  refine ⟨record.sorted_toFeature, hgeometry, ?_⟩
  cases hid? : record.id? with
  | none => exact ⟨⟨h.sorted, hattributes⟩, trivial, trivial⟩
  | some v => exact ⟨hid v hid?, ⟨h.sorted, hattributes⟩, trivial, trivial⟩

/-- What comes back of the Feature of such a record: a geometry that is absent is gone, and the
attributes are those that come back. -/
def settledFeature (record : Record) : List (String × Json) :=
  (record.geometry.map fun v => ("geometry", v)).toList ++
    ((record.id?.map fun v => ("id", v)).toList ++
      [("properties", .object (Json.settleMembers record.attributes)),
        ("type", .string "Feature")])

theorem Echoable.settle_toFeature {record : Record} (h : record.Echoable) :
    record.toFeature.settle = .object record.settledFeature := by
  -- what is not there is written as `null` and does not come back
  have hgeometry : Json.settleMembers [("geometry", record.geometry.getD .null)] =
      (record.geometry.map fun v => ("geometry", v)).toList := by
    cases hg : record.geometry with
    | none => rfl
    | some g =>
      have := h.geometry g hg
      cases g with
      | object members =>
        have hnull : Json.object members ≠ .null := nofun
        rw [Option.getD_some, Json.settleMembers_cons hnull, Json.settle_of_portable _ this.2]
        rfl
      | _ => cases this
  have hid : Json.settleMembers (record.id?.map fun v => ("id", v)).toList =
      (record.id?.map fun v => ("id", v)).toList := by
    cases hid? : record.id? with
    | none => rfl
    | some v =>
      have hv := h.id v hid?
      have hnull : v ≠ .null := by
        rintro rfl
        cases hv
      rw [Option.map_some, Option.toList_some, Json.settleMembers_cons hnull,
        Json.settle_of_portable v hv.portable]
      rfl
  rw [toFeature_eq, Json.settle, settledFeature, ← List.singleton_append,
    Json.settleMembers_append, Json.settleMembers_append, hgeometry, hid]
  rfl

/-- No number that comes back is another than before, since those of the record are read back. -/
theorem Echoable.readsBack_settled {record : Record} (h : record.Echoable) :
    (Json.object record.settledFeature).ReadsBack := by
  have hportable : ∀ m ∈ record.attributes, m.2.Portable := fun m hm => (h.scalar m hm).portable
  have hnumbers := h.numbers
  rw [toFeature_eq, Json.readsBack_object, Json.readsBackMembers_cons,
    Json.readsBackMembers_append] at hnumbers
  obtain ⟨hgeometry, hid, hattributes, htype⟩ := hnumbers
  rw [settledFeature, Json.readsBack_object, Json.readsBackMembers_append,
    Json.readsBackMembers_append]
  refine ⟨?_, hid, Json.ReadsBackMembers.settle hattributes hportable, htype⟩
  cases hg : record.geometry with
  | none => trivial
  | some g =>
    rw [hg] at hgeometry
    exact ⟨hgeometry, trivial⟩

/-- The Feature that comes back is the record with the attributes that come back; the id and the
geometry are what they were. -/
theorem Echoable.ofDocument_settled {record : Record} (h : record.Echoable) :
    ofDocument (.object record.settledFeature) =
      .ok [{ record with attributes := Json.settleMembers record.attributes }] := by
  obtain ⟨id?, geometry, attributes⟩ := record
  have hgeometry := h.geometry
  have hid := h.id
  simp only at hgeometry hid
  rcases geometry with _ | g
  · rcases id? with _ | v
    · rfl
    · have hv := hid v rfl
      cases v <;> first | rfl | cases hv
  · have hg := hgeometry g rfl
    cases g with
    | object members =>
      rcases id? with _ | v
      · rfl
      · have hv := hid v rfl
        cases v <;> first | rfl | cases hv
    | _ => cases hg

end Record

namespace Json

theorem length_text_le (v : Json) : v.text.length ≤ v.write.utf8ByteSize := by
  rw [write, String.utf8ByteSize_ofList]
  induction v.text with
  | nil => exact Nat.le_refl _
  | cons c rest ih =>
    have := Char.utf8Size_pos c
    rw [String.utf8Len_cons, List.length_cons]
    omega

end Json

/-! ## The law -/

namespace Transformer

/-- The transformer of a session with a script that returns what it gets, for records of the system
that the script sees. -/
def echoing (script : Script) (system : ReferenceSystem) (dispatcher : Nat) (schema : Schema) :
    Transformer Store Lua.Value :=
  .of (.withDispatcher script system dispatcher) system schema

section Echoing

variable (script : Script) (system : ReferenceSystem) {dispatcher : Nat} {record : Record}
  {store : Store}

/-- Every record that fits gets through, and the engine is ready for the next: the store has grown,
and nothing that was there has changed. -/
theorem execute_echoing (schema : Schema) (h : Dispatcher.Echoes dispatcher store)
    (hfits : record.Fits) :
    ∃ next, Dispatcher.Echoes dispatcher next ∧
      (echoing script system dispatcher schema).execute record store =
        ((echoing script system dispatcher schema).exchange.decode
          record.toFeature.reread.settle.write, next) := by
  have hlength := Json.length_text_le record.toFeature
  have hsize := hfits.size
  have hlimit : Lua.Eval.memoryLimit < 2 ^ 60 := by decide
  obtain ⟨next, hcall, hgrows⟩ := h.call hfits.wellFormed hfits.depth (by omega) ⟨nofun, nofun⟩
  refine ⟨next, h.mono hgrows, ?_⟩
  have hexport : (echoing script system dispatcher schema).exchange.exportText record =
      .ok record.toFeature.write := Exchange.exportText_same record rfl
  have hengine : (echoing script system dispatcher schema).session.engine.call
      (echoing script system dispatcher schema).session.dispatcher [record.toFeature.write] store =
        (.ok (some record.toFeature.reread.settle.write), next) := Lua.engine_call hcall
  simp only [execute, hexport, hengine]

/-- A run over records that fit leaves the engine ready. The induction is on the records, with that
as the invariant. -/
theorem runFrom_echoing (schema : Schema) (index : Nat) (report : Report) (records : List Record)
    (hfits : ∀ record ∈ records, record.Fits) (h : Dispatcher.Echoes dispatcher store) :
    Dispatcher.Echoes dispatcher
      ((echoing script system dispatcher schema).runFrom index report records store).2 := by
  induction records generalizing index report store with
  | nil => exact h
  | cons record rest ih =>
    obtain ⟨next, hnext, hexecute⟩ :=
      execute_echoing script system schema h (hfits record (by simp))
    simp only [runFrom, hexecute]
    exact ih _ _ (fun other hother => hfits other (List.mem_cons_of_mem _ hother)) hnext

/-- A record that can come back as it was does, as fitting to its own schema puts back the
attributes that are `null`. -/
theorem execute_echoable (h : Dispatcher.Echoes dispatcher store) (hecho : record.Echoable) :
    ((echoing script system dispatcher (.infer [record])).execute record store).1 =
      .ok [record] := by
  obtain ⟨next, -, hexecute⟩ := execute_echoing script system (.infer [record]) h hecho.fits
  have hwellFormed := hecho.fits.wellFormed.settle
  have hdepth := (Json.depth_settle_le record.toFeature).trans hecho.depth
  rw [hecho.settle_toFeature] at hwellFormed hdepth
  have hmembers : record.settledFeature ≠ [] := by simp [Record.settledFeature]
  rw [hexecute, hecho.numbers.reread, hecho.settle_toFeature]
  simp only [Exchange.decode_object _ ⟨hwellFormed, hdepth⟩ hecho.readsBack_settled hmembers
    hecho.ofDocument_settled, List.map_cons, List.map_nil]
  have hproject := Schema.project_settled hecho.sorted hecho.scalar
  change Except.ok [{ record with attributes := (Schema.infer [record]).project _ }] = _
  rw [hproject]

end Echoing

/-- **The echo law.** Of a script that returns what it gets a session can be built, and in every
state that a session with it reaches with records that fit, a record comes back as it was. On the
way only members that are `null` are lost: a geometry that is not there anyway, and attributes,
which the schema of the record puts back. -/
theorem echo_law (script : Script) (bindings : Bindings) (system : ReferenceSystem)
    (hbody : IsEcho script.body) (hnames : ∀ p ∈ script.parameters, p.name ∉ reservedNames) :
    (script.error? = none → script.parameters = [] →
      ∃ session start, Session.build script bindings system Lua.engine .start =
        (.ok session, start)) ∧
    ∀ session start, Session.build script bindings system Lua.engine .start = (.ok session, start) →
      ∀ (schema : Schema) (earlier : List Record), (∀ record ∈ earlier, record.Fits) →
        ∀ record : Record, record.Echoable →
          ((Transformer.of session system (.infer [record])).execute record
            ((Transformer.of session system schema).run earlier start).2).1 = .ok [record] := by
  refine ⟨fun hrunnable hparameters =>
    Session.exists_build_echo bindings system hrunnable hparameters hbody, ?_⟩
  intro session start hbuild schema earlier hearlier record hrecord
  obtain ⟨dispatcher, rfl, hechoes⟩ := Session.echoes_of_build hbody hnames hbuild
  exact execute_echoable script system
    (runFrom_echoing script system schema 0 .empty earlier hearlier hechoes) hrecord

/-- A point with an attribute that has no value. -/
def echoPoint : Record :=
  { id? := some (.string "a")
    geometry := some (.object [("coordinates", .array [.number (.integer ⟨7, by decide⟩),
      .number (.double ⟨52.25, by decide⟩), .null]), ("type", .string "Point")])
    attributes := [("height", .null), ("name", .string "b")] }

/-- Behind itself the point comes back as it was, with the attribute that is `null`. -/
theorem echo_law_point :
    ∃ session start, Session.build (.ofSource "function func(feature) return feature end") ⟨[]⟩
        .webMercator Lua.engine .start = (.ok session, start) ∧
      ((Transformer.of session .webMercator (.infer [echoPoint])).execute echoPoint
        ((Transformer.of session .webMercator (.infer [])).run [echoPoint] start).2).1 =
          .ok [echoPoint] := by
  have hbody : (Script.ofSource "function func(feature) return feature end").body =
      "function func(feature) return feature end" := by decide
  have hparameters : (Script.ofSource "function func(feature) return feature end").parameters =
      [] := by decide
  have hrunnable : (Script.ofSource "function func(feature) return feature end").error? =
      none := by decide
  -- that the point can come back is seen by looking at it
  have hecho : echoPoint.Echoable := by
    have hgeometry : ∀ v ∈ echoPoint.geometry, v.IsGeometry := by
      rintro v ⟨⟩
      have hkeys : ["coordinates", "type"].Pairwise (· < ·) := by decide
      refine ⟨⟨(Json.sorted_iff _).mpr hkeys, ?_⟩, ?_⟩
      · simp [Json.WellFormed, Json.WellFormedMembers, Json.WellFormedItems]
      · simp [Json.Portable, Json.PortableMembers, Json.PortableItems]
    have hsorted : Json.Sorted echoPoint.attributes := by
      rw [Json.sorted_iff]
      change ["height", "name"].Pairwise (· < ·)
      decide
    refine ⟨?_, hgeometry, hsorted, ?_, ?_, ?_, ?_⟩
    · rintro v ⟨⟩
      trivial
    · simp [echoPoint, Json.IsScalar]
    · decide
    · decide +kernel
    · decide +kernel
  obtain ⟨hbuilds, hlaw⟩ := echo_law (.ofSource "function func(feature) return feature end") ⟨[]⟩
    .webMercator (by rw [hbody]; exact isEcho_plain) (by simp [hparameters])
  obtain ⟨session, start, hbuild⟩ := hbuilds hrunnable hparameters
  exact ⟨session, start, hbuild, hlaw session start hbuild (.infer []) [echoPoint]
    (by simpa using hecho.fits) echoPoint hecho⟩

end Transformer

end FeatureTransform
