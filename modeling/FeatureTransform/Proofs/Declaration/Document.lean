import FeatureTransform.Command.Inspect
import FeatureTransform.Proofs.Json.Order

/-!
# Declarations in JSON

A tool that reads the JSON of a script learns what the script declares: each declaration can be
read from its object, whose type says which further members there are. There is one exception. JSON
has no infinities and no NaN, so that such a number is written as `null`, like a number that is not
there. So two declarations have one object exactly if they are the same without these numbers.

## Main results

* `Declaration.ofDocument?_document` — reading the object of a declaration;
* `Declaration.document_eq_iff` — which declarations have one object;
* `Command.finite_of_inspectionDocument` — what the document of a script tells of its declarations.
-/

namespace FeatureTransform

/-! ## Without infinities and NaN -/

/-- The numbers that JSON can write. -/
def finite? (f? : Option Float) : Option Float := f?.filter Float.isFinite

/-- The kind without the numbers that JSON cannot write. -/
def Kind.finite : Kind → Kind
  | .number default? min? max? => .number (finite? default?) (finite? min?) (finite? max?)
  | kind => kind

/-- The parameter without the numbers that JSON cannot write. -/
def Parameter.finite (p : Parameter) : Parameter := { p with kind := p.kind.finite }

namespace Declaration

/-- The declaration without the numbers that JSON cannot write. -/
def finite : Declaration → Declaration
  | .parameter p => .parameter p.finite
  | .output o => .output o

/-- The declaration as a JSON object. -/
def document : Declaration → Json
  | .parameter p => .ofMembers p.members
  | .output o => .ofMembers o.members

end Declaration

/-! ## Reading the object -/

namespace Json

/-- The text, if the value is one. -/
def text? : Json → Option String
  | .string s => some s
  | _ => none

/-- The truth value, if the value is one. -/
def bool? : Json → Option Bool
  | .bool b => some b
  | _ => none

/-- The double, if the value is one. -/
def double? : Json → Option Float
  | .number (.double d) => some d.value
  | _ => none

/-- The texts, if the value is an array. -/
def texts? : Json → Option (List String)
  | .array items => some (items.filterMap text?)
  | _ => none

@[simp]
theorem text?_string (s : String) : (string s).text? = some s := rfl

@[simp]
theorem bool?_bool (b : Bool) : (bool b).bool? = some b := rfl

@[simp]
theorem text?_ofText? (s? : Option String) : (ofText? s?).text? = s? := by
  cases s? <;> rfl

/-- A number of a declaration is written as `null` both where it is not declared and where JSON has
no way to write it. Reading therefore finds only the numbers that JSON can write. -/
@[simp]
theorem double?_ofOptionalFloat (f? : Option Float) :
    (ofOptionalFloat f?).double? = finite? f? := by
  cases f? with
  | none => rfl
  | some f =>
    change (ofFloat f).double? = if f.isFinite then some f else none
    rw [ofFloat, Number.ofFloat?]
    by_cases hfinite : f.isFinite = true
    · rw [dif_pos hfinite, if_pos hfinite]
      rfl
    · rw [dif_neg hfinite, if_neg hfinite]
      rfl

@[simp]
theorem texts?_array (texts : List String) :
    (Json.array (texts.map .string)).texts? = some texts := by
  have hself : ∀ s ∈ texts, (text? ∘ Json.string) s = some s := fun s _ => rfl
  rw [texts?, List.filterMap_map, List.filterMap_congr hself, List.filterMap_some]

/-- Leaving out a number that JSON cannot write does not show in the JSON, since `null` is written
in both cases. -/
@[simp]
theorem ofOptionalFloat_finite? (f? : Option Float) :
    ofOptionalFloat (finite? f?) = ofOptionalFloat f? := by
  cases f? with
  | none => rfl
  | some f =>
    by_cases hfinite : f.isFinite = true
    · rw [finite?, Option.filter_some, if_pos hfinite]
    · rw [finite?, Option.filter_some, if_neg hfinite, ofOptionalFloat, ofOptionalFloat, ofFloat,
        Number.ofFloat?, dif_neg hfinite]

end Json

/-- The kind of output of that name. -/
def OutputKind.parse? (label : String) : Option OutputKind :=
  match label with
  | "number" => some .number
  | "string" => some .string
  | "html" => some .html
  | _ => none

/-- The kind that members tell, each found under its name. -/
def Kind.ofMembers? (find : String → Option Json) : Option Kind :=
  match (find "type").bind Json.text? with
  | some "raster" => some .raster
  | some "vector" => do
    let label ← (find "geometry").bind Json.text?
    return .vector (← Geometry.parse? label.toList)
  | some "extent" => some .extent
  | some "crs" => some (.crs ((find "default").bind Json.text?))
  | some "field" => some (.field ((find "parent").bind Json.text?))
  | some "string" => some (.string ((find "default").bind Json.text?))
  | some "file" => some (.file ((find "extension").bind Json.text?))
  | some "number" =>
    some (.number ((find "default").bind Json.double?) ((find "min").bind Json.double?)
      ((find "max").bind Json.double?))
  | some "enum" => return .choice (← (find "choices").bind Json.texts?)
  | some "boolean" => return .boolean (← (find "default").bind Json.bool?)
  | some "multiple_layers" => do
    let label ← (find "layer_type").bind Json.text?
    return .layers (← LayerType.parse? label.toList)
  | some "raster_destination" => some .rasterDestination
  | some "vector_destination" => some .vectorDestination
  | some "file_destination" => some (.fileDestination ((find "extension").bind Json.text?))
  | _ => none

namespace Declaration

/-- The declaration that an object tells. Only an output has a member `kind`. -/
def ofDocument? : Json → Option Declaration
  | .object members => do
    let find (name : String) := Json.member? name members
    let name ← (find "name").bind Json.text?
    let description ← (find "description").bind Json.text?
    match find "kind" with
    | some label =>
      let kind ← label.text?.bind OutputKind.parse?
      return .output { name, description, kind }
    | none =>
      let optional ← (find "optional").bind Json.bool?
      let kind ← Kind.ofMembers? find
      return .parameter { name, description, optional, kind }
  | _ => none

end Declaration

/-! ## What the object tells -/

/-- **Kinds** are told by their own members, whatever other members stand behind them. The members
stand in reverse order here, since they are found from the last one on. -/
theorem Kind.ofMembers?_members (kind : Kind) (others : List (String × Json)) :
    ofMembers? (fun name => Json.member? name (kind.members.reverse ++ others)) =
      some kind.finite := by
  cases kind with
  | vector geometry =>
    have hread : Geometry.parse? geometry.label.toList = some geometry := by
      cases geometry <;> rfl
    simp [ofMembers?, members, Json.member?_cons, finite, hread]
  | layers type =>
    have hread : LayerType.parse? type.label.toList = some type := by cases type <;> rfl
    simp [ofMembers?, members, Json.member?_cons, finite, hread]
  | _ => simp [ofMembers?, members, Json.member?_cons, finite]

/-- The members that every declaration has are found as if those of the kind were not there: none of
the latter has one of these names. -/
theorem Kind.member?_members (kind : Kind) (others : List (String × Json)) {query : String}
    (hquery : query ∈ ["name", "description", "optional", "kind"]) :
    Json.member? query (kind.members.reverse ++ others) = Json.member? query others := by
  have hnew : query ∉ kind.members.reverse.map Prod.fst := by
    simp only [List.mem_cons, List.not_mem_nil, or_false] at hquery
    rcases hquery with rfl | rfl | rfl | rfl <;> cases kind <;> simp [members]
  have hsplit : Json.member? query (kind.members.reverse ++ others) =
      (Json.member? query kind.members.reverse).or (Json.member? query others) :=
    List.lookup_append
  rw [hsplit, Json.member?_eq_none hnew, Option.none_or]

/-- Numbers that JSON cannot write make no difference to the members of a kind. This is what two
declarations with one object can differ in, and all they can differ in. -/
theorem Kind.members_finite (kind : Kind) : kind.finite.members = kind.members := by
  cases kind with
  | number default? min? max? => simp [finite, members]
  | _ => rfl

namespace Declaration

/-- **Reading** the object of a declaration gives the declaration without the numbers that JSON
cannot write, and everything else of it: its name, its kind, its description and whether it may be
left unbound. -/
theorem ofDocument?_document (d : Declaration) : ofDocument? d.document = some d.finite := by
  cases d with
  | output o =>
    have hread : OutputKind.parse? o.kind.label = some o.kind := by cases o.kind <;> rfl
    simp [document, ofDocument?, Json.ofMembers, Json.member?_sortMembers, Output.members,
      Json.member?_cons, finite, hread]
  | parameter p =>
    have hmembers : p.members.reverse = p.kind.members.reverse ++
        [("optional", .bool p.optional), ("description", .string p.description),
          ("name", .string p.name)] := by
      rw [Parameter.members, List.reverse_append]
      rfl
    have hkind := p.kind.ofMembers?_members [("optional", .bool p.optional),
      ("description", .string p.description), ("name", .string p.name)]
    have hnone : Json.member? "kind" [] = none := rfl
    simp [document, ofDocument?, Json.ofMembers, Json.member?_sortMembers, hmembers, hkind,
      Kind.member?_members, Json.member?_cons, hnone, finite, Parameter.finite]

/-- The object of a declaration does not change when the numbers are left out that JSON cannot
write. -/
theorem document_finite (d : Declaration) : d.finite.document = d.document := by
  cases d with
  | output o => rfl
  | parameter p =>
    rw [finite, document, document, Parameter.members, Parameter.members, Parameter.finite,
      Kind.members_finite]

/-- **One object.** Declarations have the same object exactly if they are the same without the
numbers that JSON cannot write. In one direction the declaration is read back from the object; in
the other these numbers are written as `null`, like numbers that are not declared. -/
theorem document_eq_iff (d e : Declaration) : d.document = e.document ↔ d.finite = e.finite := by
  constructor
  · intro h
    have hread := ofDocument?_document d
    rw [h, ofDocument?_document] at hread
    exact (Option.some.inj hread).symm
  · intro h
    rw [← document_finite d, ← document_finite e, h]

/-- An infinite default is shown to people, but not in JSON, where the parameter looks as if it had
no default at all. -/
theorem document_eq_iff_lanes : ∃ p q,
    resolveText "lanes=number inf".toList = .ok (.parameter p) ∧
      resolveText "lanes=number".toList = .ok (.parameter q) ∧
      Command.kindDetails p.kind = "default: inf" ∧ Command.kindDetails q.kind = "" ∧
      (parameter p).document = (parameter q).document := by
  let p : Parameter :=
    { name := "lanes", description := "lanes", optional := false
      kind := .number (some (1.0 / 0.0)) none none }
  let q : Parameter :=
    { name := "lanes", description := "lanes", optional := false, kind := .number none none none }
  have hinfinite : resolveText "lanes=number inf".toList = .ok (.parameter p) := by decide +kernel
  have hopen : resolveText "lanes=number".toList = .ok (.parameter q) := by decide +kernel
  have hdetails : Command.kindDetails p.kind = "default: inf" := by decide +kernel
  have hsame : (parameter p).finite = (parameter q).finite := by decide +kernel
  exact ⟨p, q, hinfinite, hopen, hdetails, rfl, (document_eq_iff _ _).mpr hsame⟩

/-- Objects in order tell the declarations in order, since each is read back from its own object. -/
theorem map_finite_of_map_document {ds es : List Declaration}
    (h : ds.map document = es.map document) : ds.map finite = es.map finite := by
  have hread : ofDocument? ∘ document = some ∘ finite := funext ofDocument?_document
  have hall := congrArg (List.map ofDocument?) h
  rw [List.map_map, List.map_map, hread, ← List.map_map, ← List.map_map] at hall
  exact List.map_injective_iff.mpr (fun _ _ => Option.some.inj) hall

end Declaration

/-! ## The document of a script -/

/-- **Scripts.** From what is shown of a script as JSON its declarations can be told: all of them,
in their order, without the numbers that JSON cannot write. -/
theorem Command.finite_of_inspectionDocument {script other : Script}
    (h : inspectionDocument script = inspectionDocument other) :
    script.parameters.map Parameter.finite = other.parameters.map Parameter.finite ∧
      script.outputs = other.outputs := by
  have hmember : ∀ name, Json.member? name _ = Json.member? name _ :=
    fun name => congrArg (Json.member? name) (Json.object.inj h)
  have hparameters := hmember "parameters"
  have houtputs := hmember "outputs"
  -- the members are sorted when they are shown, but found by their names all the same
  rw [Json.member?_sortMembers, Json.member?_sortMembers] at hparameters houtputs
  simp only [List.reverse_cons, List.reverse_nil, List.nil_append, List.cons_append,
    Json.member?_cons, String.reduceEq, if_false, if_true, Option.some.injEq, Json.array.injEq]
    at hparameters houtputs
  constructor
  · have hshown : (script.parameters.map Declaration.parameter).map Declaration.document =
        (other.parameters.map Declaration.parameter).map Declaration.document := by
      rw [List.map_map, List.map_map]
      exact hparameters
    have hfinite := Declaration.map_finite_of_map_document hshown
    rw [List.map_map, List.map_map] at hfinite
    have hinjective : Function.Injective Declaration.parameter :=
      fun _ _ => Declaration.parameter.inj
    apply List.map_injective_iff.mpr hinjective
    rw [List.map_map, List.map_map]
    exact hfinite
  · have hshown : (script.outputs.map Declaration.output).map Declaration.document =
        (other.outputs.map Declaration.output).map Declaration.document := by
      rw [List.map_map, List.map_map]
      exact houtputs
    have hfinite := Declaration.map_finite_of_map_document hshown
    rw [List.map_map, List.map_map] at hfinite
    exact List.map_injective_iff.mpr (fun _ _ => Declaration.output.inj) hfinite

end FeatureTransform
