import FeatureTransform.Proofs.Feature.Exchange
import FeatureTransform.Proofs.Json.Depth

/-!
# The forms of a result

A script gives its features back as an array, as a FeatureCollection or, if there is one, as a
Feature by itself. It makes no difference in which form they come: either all of them become
records, or the first that does not is the reason why none do. Only as texts do the forms differ,
because the brackets of an array or a collection count towards the depth at which the reader stops.
-/

namespace FeatureTransform

namespace Exchange

/-- The text, apart from white space around it, is read as the value. -/
def IsTextOf (text : String) (value : Json) : Prop :=
  Json.readText (Text.trim text.toList) = .ok value

/-! ## Forms -/

/-- A value that stands for some values in the place of Features. -/
inductive Presents : Json → List Json → Prop where
  /-- an array of them -/
  | array (items : List Json) : Presents (.array items) items
  /-- an object that calls itself a collection of them, whatever else it says -/
  | collection {members : List (String × Json)} {items : List Json}
      (htype : Record.typeOf? members = some "FeatureCollection")
      (hfeatures : Json.member? "features" members = some (.array items)) :
      Presents (.object members) items
  /-- an object that calls itself a Feature -/
  | single {members : List (String × Json)} (htype : Record.typeOf? members = some "Feature") :
      Presents (.object members) [.object members]

variable {exchange : Exchange} {text : String} {value : Json} {items : List Json}

/-- Whatever the form, the document holds these values and no others: the brackets or the braces
around them are all that the form adds. -/
theorem Presents.ofDocument_eq (h : Presents value items) :
    Record.ofDocument value = Record.ofItems items := by
  cases h with
  | array => rfl
  | collection htype hfeatures =>
    rw [Record.ofDocument, if_pos htype, Record.ofCollection, hfeatures]
  | @single members htype =>
    have htypes : Record.typeOf? members ≠ some "FeatureCollection" := by
      rw [htype]
      decide
    rw [Record.ofDocument, if_neg htypes, Record.ofItems, List.mapM_cons]
    cases Record.ofFeature (.object members) <;> rfl

/-- A form that stands for no records at all is an array without items. So the answer that is no
feature, an empty array, need not be told apart from forms. -/
theorem Presents.eq_nil (h : Presents value items) (hnothing : isNothing value = true) :
    items = [] := by
  cases h with
  | array =>
    cases items with
    | nil => rfl
    | cons v rest => cases hnothing
  | @collection members _ htype =>
    cases members with
    | nil => cases htype
    | cons m rest => cases hnothing
  | @single members htype =>
    cases members with
    | nil => cases htype
    | cons m rest => cases hnothing

/-- The form begins and ends with a bracket or a brace, so that trimming the text leaves it whole.
-/
theorem Presents.trim_text (h : Presents value items) : Text.trim value.text = value.text := by
  cases h with
  | array => exact Json.trim_array items
  | collection => exact Json.trim_object _
  | single => exact Json.trim_object _

/-! ## What comes back -/

/-- What comes of a value in the place of a Feature. -/
def receive (exchange : Exchange) (item : Json) : Except RecordError Record :=
  match Record.ofFeature item with
  | .error e => .error (.unexpectedShape e)
  | .ok record => .ok (exchange.fitted record)

/-- What a value becomes is the record of its Feature, fitted to the schema. -/
theorem receive_eq_ok_iff {item : Json} {record : Record} :
    exchange.receive item = .ok record ↔
      ∃ raw, Record.ofFeature item = .ok raw ∧ record = exchange.fitted raw := by
  unfold receive
  cases Record.ofFeature item <;> simp [eq_comm]

/-- A value becomes no record only because it is no Feature; fitting to the schema never fails. -/
theorem receive_eq_error_iff {item : Json} {e : RecordError} :
    exchange.receive item = .error e ↔
      ∃ cause, Record.ofFeature item = .error cause ∧ e = .unexpectedShape cause := by
  unfold receive
  cases Record.ofFeature item <;> simp [eq_comm]

/-- Reading one value after another and fitting what was read is the same as reading them all first:
fitting cannot fail, so the first failure is the same. -/
theorem mapM_receive (exchange : Exchange) (items : List Json) : items.mapM exchange.receive =
    match Record.ofItems items with
    | .error e => .error (.unexpectedShape e)
    | .ok records => .ok (records.map exchange.fitted) := by
  unfold Record.ofItems
  induction items with
  | nil => rfl
  | cons item rest ih =>
    rw [List.mapM_cons, List.mapM_cons, ih, receive]
    cases Record.ofFeature item with
    | error e => rfl
    | ok record => cases rest.mapM Record.ofFeature <;> rfl

/-- **Forms.** What comes of a text depends on nothing but the values that it stands for. The form
is gone as soon as the text has been read. -/
theorem decode_eq_mapM (htext : IsTextOf text value) (h : Presents value items) :
    exchange.decode text = items.mapM exchange.receive := by
  rw [mapM_receive]
  unfold decode
  split
  · next hnone =>
    have hempty : Json.readText [] = .error .endInValue := by
      rw [Json.readText, Json.readValue]
      rfl
    rw [IsTextOf, hnone, hempty] at htext
    cases htext
  · rw [IsTextOf] at htext
    rw [htext]
    by_cases hnothing : isNothing value = true
    · obtain rfl := h.eq_nil hnothing
      simp only [hnothing, if_true]
      rfl
    · simp only [hnothing, Bool.false_eq_true, if_false, h.ofDocument_eq]
      cases Record.ofItems items <;> rfl

/-- Either every value becomes a record, in the place where it stands, so that there are as many
records as values. -/
theorem mapM_receive_eq_ok_iff {records : List Record} :
    items.mapM exchange.receive = .ok records ↔
      List.Forall₂ (fun item record => ∃ raw, Record.ofFeature item = .ok raw ∧
        record = exchange.fitted raw) items records := by
  simp only [← receive_eq_ok_iff]
  exact ⟨Attempt.forall₂_of_mapM, Attempt.mapM_of_forall₂⟩

/-- Or none does, because of the first that is no Feature. What stands behind that one is not looked
at. -/
theorem mapM_receive_eq_error_iff {e : RecordError} :
    items.mapM exchange.receive = .error e ↔
      ∃ front item back cause, items = front ++ item :: back ∧
        (∀ x ∈ front, ∃ raw, Record.ofFeature x = .ok raw) ∧
        Record.ofFeature item = .error cause ∧ e = .unexpectedShape cause := by
  rw [Attempt.mapM_eq_error_iff]
  constructor
  · rintro ⟨front, item, back, hitems, hfront, hitem⟩
    obtain ⟨cause, hcause, rfl⟩ := receive_eq_error_iff.mp hitem
    refine ⟨front, item, back, cause, hitems, fun x hx => ?_, hcause, rfl⟩
    obtain ⟨record, hrecord⟩ := hfront x hx
    obtain ⟨raw, hraw, -⟩ := receive_eq_ok_iff.mp hrecord
    exact ⟨raw, hraw⟩
  · rintro ⟨front, item, back, cause, hitems, hfront, hcause, rfl⟩
    refine ⟨front, item, back, hitems, fun x hx => ?_, receive_eq_error_iff.mpr ⟨_, hcause, rfl⟩⟩
    obtain ⟨raw, hraw⟩ := hfront x hx
    exact ⟨_, receive_eq_ok_iff.mpr ⟨raw, hraw, rfl⟩⟩

/-- What is written of a form is a text of it, if the reader gives its numbers back and it is not
too deep for it. -/
theorem isTextOf_write (hvalue : value.WellFormed) (h : Presents value items)
    (hback : value.ReadsBack) (hdepth : value.depth ≤ Json.maxDepth) :
    IsTextOf value.write value := by
  rw [IsTextOf, Json.write, String.toList_ofList, h.trim_text, Json.readText_text_eq hvalue,
    if_pos hdepth, hback.reread]

/-- Beyond that depth it is refused, whatever its numbers are, since the reader counts brackets as
they are opened, before it knows what they hold. -/
theorem decode_write_deep (hvalue : value.WellFormed) (h : Presents value items)
    (hdepth : Json.maxDepth < value.depth) :
    exchange.decode value.write = .error (.malformedResult .tooDeep) := by
  obtain ⟨c, more, htext, -⟩ := Json.exists_text_cons value
  have hread := Json.readText_text_eq hvalue
  rw [if_neg (Nat.not_le.mpr hdepth), htext] at hread
  rw [decode, Json.write, String.toList_ofList, h.trim_text, htext]
  simp only [hread]

/-- **All forms agree.** Whichever form some values come in, and however it is spelt, either all of
them become records, in order and fitted to the schema, or there are none and the first that is no
Feature is the reason: the form is taken off before any of the values is looked at, and an empty one
stands for no values in each form. What is written of a form whose numbers the reader gives back is
a text of it up to the depth that the reader accepts; beyond, this depth is the reason why there are
none. -/
theorem decode_forms_agree (exchange : Exchange) (items : List Json) :
    (∀ text value, IsTextOf text value → Presents value items →
      (∀ records, exchange.decode text = .ok records ↔
        List.Forall₂ (fun item record => ∃ raw, Record.ofFeature item = .ok raw ∧
          record = exchange.fitted raw) items records) ∧
      (∀ e, exchange.decode text = .error e ↔
        ∃ front item back cause, items = front ++ item :: back ∧
          (∀ x ∈ front, ∃ raw, Record.ofFeature x = .ok raw) ∧
          Record.ofFeature item = .error cause ∧ e = .unexpectedShape cause) ∧
      ∀ other form, IsTextOf other form → Presents form items →
        exchange.decode other = exchange.decode text) ∧
    ∀ value, value.WellFormed → Presents value items →
      (value.ReadsBack → value.depth ≤ Json.maxDepth → IsTextOf value.write value) ∧
      (Json.maxDepth < value.depth →
        exchange.decode value.write = .error (.malformedResult .tooDeep)) := by
  refine ⟨fun text value htext h => ?_, fun value hvalue h => ?_⟩
  · rw [decode_eq_mapM htext h]
    refine ⟨fun records => mapM_receive_eq_ok_iff, fun e => mapM_receive_eq_error_iff, ?_⟩
    intro other form hother hform
    exact decode_eq_mapM hother hform
  · exact ⟨isTextOf_write hvalue h, decode_write_deep hvalue h⟩

/-- A Feature without geometry. -/
def bridge : Json :=
  .object [("id", .string "b"), ("properties", .object [("count", .bool true)]),
    ("type", .string "Feature")]

/-- A number of the box around it. -/
def edge : Json := .number (.double ⟨-7.25, by decide⟩)

/-- A collection of that Feature and something else. -/
def mixture : Json :=
  .object [("bbox", .array [edge]), ("features", .array [bridge, .null]),
    ("type", .string "FeatureCollection")]

theorem wellFormed_mixture : mixture.WellFormed := by
  have hbridge : ["id", "properties", "type"].Pairwise (· < ·) := by decide
  have hnames : ["bbox", "features", "type"].Pairwise (· < ·) := by decide
  have hcount : (Json.object [("count", .bool true)]).WellFormed :=
    ⟨List.pairwise_singleton _ _, trivial, trivial⟩
  refine ⟨(Json.sorted_iff _).mpr hnames, ⟨trivial, trivial⟩, ⟨⟨?_, ?_⟩, trivial, trivial⟩, trivial,
    trivial⟩
  · exact (Json.sorted_iff _).mpr hbridge
  · exact ⟨trivial, hcount, trivial, trivial⟩

/-- A collection and an array of the same two values are both refused, with the second of them as
the reason. -/
theorem decode_forms_agree_mixture : mixture.WellFormed ∧ mixture.ReadsBack ∧
    Presents mixture [bridge, .null] ∧ IsTextOf mixture.write mixture ∧
    degrees.decode mixture.write = .error (.unexpectedShape (.notFeature .null)) ∧
    degrees.decode (Json.array [bridge, .null]).write = degrees.decode mixture.write := by
  have hform : Presents mixture [bridge, .null] := .collection rfl rfl
  have hitems : (Json.array [bridge, .null]).WellFormed := wellFormed_mixture.2.2.1
  have hback : mixture.ReadsBack := by decide +kernel
  obtain ⟨htexts, hwritten⟩ := decode_forms_agree degrees [bridge, .null]
  have htext := (hwritten mixture wellFormed_mixture hform).1 hback (by decide)
  have hother := (hwritten _ hitems (.array _)).1 hback.2.1 (by decide)
  obtain ⟨-, herror, hsame⟩ := htexts mixture.write mixture htext hform
  refine ⟨wellFormed_mixture, hback, hform, htext, ?_, hsame _ _ hother (.array _)⟩
  refine (herror _).mpr ⟨[bridge], .null, [], _, rfl, ?_, rfl, rfl⟩
  intro x hx
  rw [List.mem_singleton.mp hx]
  exact ⟨_, rfl⟩

/-! ### At the bound -/

/-- So many arrays around an empty one. -/
def nested : Nat → Json
  | 0 => .array []
  | n + 1 => .array [nested n]

theorem depth_nested (n : Nat) : (nested n).depth = n + 1 := by
  induction n with
  | zero => rfl
  | succ n ih => rw [nested, Json.depth, Json.itemsDepth, Json.itemsDepth, ih, Nat.max_zero]

theorem wellFormed_nested (n : Nat) : (nested n).WellFormed := by
  induction n with
  | zero => trivial
  | succ n ih => exact ⟨ih, trivial⟩

theorem readsBack_nested (n : Nat) : (nested n).ReadsBack := by
  induction n with
  | zero => trivial
  | succ n ih => exact ⟨ih, trivial⟩

/-- A Feature that is as deep as the reader accepts. -/
def deep : Json :=
  .object [("properties", .object [("nest", nested 124)]), ("type", .string "Feature")]

theorem depth_deep : deep.depth = Json.maxDepth := by
  simp only [deep, Json.depth, Json.membersDepth, depth_nested]
  rfl

theorem wellFormed_deep : deep.WellFormed := by
  have hnames : ["properties", "type"].Pairwise (· < ·) := by decide
  have hproperties : (Json.object [("nest", nested 124)]).WellFormed :=
    ⟨List.pairwise_singleton _ _, wellFormed_nested 124, trivial⟩
  exact ⟨(Json.sorted_iff _).mpr hnames, hproperties, trivial, trivial⟩

/-- That Feature is read by itself and not in an array, which is one level deeper. So the forms
agree as values, but not as texts. -/
theorem not_decode_forms_alike : ¬∀ (exchange : Exchange) (value : Json) (items : List Json),
    value.WellFormed → Presents value items →
      exchange.decode (Json.array items).write = exchange.decode value.write := by
  intro h
  have hform : Presents deep [deep] := .single rfl
  have hitems : (Json.array [deep]).WellFormed := ⟨wellFormed_deep, trivial⟩
  have halone : degrees.decode deep.write = .ok [degrees.fitted
      { id? := none, geometry := none, attributes := [("nest", nested 124)] }] := by
    have hback : deep.ReadsBack := ⟨⟨readsBack_nested 124, trivial⟩, trivial, trivial⟩
    have htext := isTextOf_write wellFormed_deep hform hback depth_deep.le
    rw [decode_eq_mapM htext hform]
    rfl
  have hdepth : Json.maxDepth < (Json.array [deep]).depth := by
    rw [Json.depth, Json.itemsDepth, Json.itemsDepth, depth_deep]
    decide
  have hamong : degrees.decode (Json.array [deep]).write = .error (.malformedResult .tooDeep) :=
    decode_write_deep hitems (.array [deep]) hdepth
  have hsame := h degrees deep [deep] wellFormed_deep hform
  rw [halone, hamong] at hsame
  cases hsame

end Exchange

end FeatureTransform
