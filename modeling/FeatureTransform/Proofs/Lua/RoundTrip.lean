import FeatureTransform.Proofs.Lua.Interchange
import FeatureTransform.Proofs.Lua.Start

/-!
# The round trip through a program

A JSON value that becomes a value of a program and is written again loses the members that are
`null`, and its integers beyond the signed ones of 64 bits become doubles; nothing else changes, and
a second trip changes nothing at all. All that this needs of the state of the program is the mark of
arrays: without it an empty array would come back as an empty object.
-/

namespace FeatureTransform

namespace Lua.Interchange

/-- **The round trip.** A value comes back settled, whatever the program has made in the meantime;
what has come back goes the same way again and is the same. Each table on the way is made by
decoding and by nothing else, and so it has no holes, no key of two kinds and the mark if it was an
array. That is all on which its form depends. -/
theorem encode_decode (json : Json) (before : Store) (hjson : json.WellFormed)
    (hroom : json.Addressable) (hmark : MarksArrays before) :
    ∃ v after, decode json before = .done v after ∧
      ∀ later, after.Grows later → encode later v = .ok json.settle ∧
        ∃ v' last, decode json.settle later = .done v' last ∧
          encode last v' = .ok json.settle := by
  obtain ⟨v, after, hdecoded⟩ := decode_spec json before hjson hroom hmark
  refine ⟨v, after, hdecoded.run, fun later hlater => ⟨hdecoded.encode hlater, ?_⟩⟩
  have hgrows : before.Grows later := hdecoded.grows.trans hlater
  obtain ⟨v', last, hagain⟩ := decode_spec json.settle later hjson.settle hroom.settle
    (hmark.mono hgrows)
  have hencode := hagain.encode (Store.Grows.refl last)
  rw [Json.settle_settle] at hencode
  exact ⟨v', last, hagain.run, hencode⟩

/-- A value with all that may change on the way, and with much that looks as if it could. -/
def traveller : Json :=
  .object [("1", .array [.null, .array [], .object []]), ("2", .null),
    ("3", .number (.integer ⟨18446744073709551615, by decide⟩)),
    ("4", .object [("1", .number (.double ⟨-0.0, by decide⟩)), ("2", .null)])]

/-- The same value when it has come back. -/
def returned : Json :=
  .object [("1", .array [.null, .array [], .object []]),
    ("3", .number (.double ⟨18446744073709551616.0, by decide⟩)),
    ("4", .object [("1", .number (.double ⟨-0.0, by decide⟩))])]

theorem encode_decode_traveller :
    ∃ v after, decode traveller .start = .done v after ∧ encode after v = .ok returned := by
  have hsettle : traveller.settle = returned := by
    have hlarge : Float.nearest 18446744073709551615 = 18446744073709551616.0 := by decide
    have hfinite : (18446744073709551616.0 : Float).isFinite = true := by decide
    simp [traveller, returned, Json.settle, Json.settleMembers, Json.settleItems,
      Json.Integer.toInt64?, Json.Number.toFloat, hlarge, Json.ofFloat, Json.Number.ofFloat?,
      hfinite]
  have hjson : traveller.WellFormed := by
    have houter : ["1", "2", "3", "4"].Pairwise (· < ·) := by decide
    have hinner : ["1", "2"].Pairwise (· < ·) := by decide
    simp only [traveller, Json.WellFormed, Json.WellFormedMembers, Json.WellFormedItems,
      Json.sorted_iff, and_true, true_and]
    exact ⟨houter, List.Pairwise.nil, hinner⟩
  have hroom : traveller.Addressable := by
    simp [traveller, Json.Addressable, Json.AddressableMembers, Json.AddressableItems]
  obtain ⟨v, after, hrun, htrip⟩ :=
    encode_decode traveller .start hjson hroom (marksArrays_of start_arrayMeta)
  have hencode := (htrip after (Store.Grows.refl after)).1
  rw [hsettle] at hencode
  exact ⟨v, after, hrun, hencode⟩

/-- The table of an empty array. -/
def emptyArray : Table := { Table.empty with metatable := some arrayMetaRef }

theorem decode_emptyArray (before : Store) : decode (.array []) before =
    .done (.table before.tables.size) { before with tables := before.tables.push emptyArray } := by
  rw [decode]
  rfl

/-- **The mark** is needed: a state in which the empty array comes back is one that marks arrays.
Without it, the empty array would come back as an object. -/
theorem marksArrays_of_encode {before after : Store} {v : Value}
    (hthere : arrayMetaRef < before.tables.size)
    (hdecode : decode (.array []) before = .done v after)
    (hencode : encode after v = .ok (.array [])) : MarksArrays before := by
  rw [decode_emptyArray] at hdecode
  obtain ⟨rfl, rfl⟩ := Ending.done.inj hdecode
  generalize hafter : { before with tables := before.tables.push emptyArray } = after at hencode
  have hfound : after.tables[before.tables.size]? = some emptyArray := by
    rw [← hafter]
    exact Array.getElem?_push_size
  have hmetatable : after.tables[arrayMetaRef]? = before.tables[arrayMetaRef]? := by
    rw [← hafter]
    exact Array.getElem?_push_lt hthere |>.trans (Array.getElem?_eq_getElem hthere).symm
  have hempty : emptyArray.Holds [] := ⟨Table.holds_empty.perm, Table.holds_empty.room⟩
  have harray : isArray after emptyArray = isMarked after emptyArray :=
    isArray_of_empty hempty.size (hempty.length_names (by simp))
  rw [encode] at hencode
  cases hmarked : isMarked after emptyArray with
  | error e =>
    rw [encodeWithin_error hfound (harray.trans hmarked)] at hencode
    cases hencode
  | ok marked =>
    cases marked with
    | false =>
      -- it would have come back as an object
      rw [encodeWithin_object hfound (harray.trans hmarked)] at hencode
      obtain ⟨members, -, hmembers⟩ := Attempt.bind_eq_ok hencode
      cases hmembers
    | true =>
      have hmetaref : emptyArray.metatable = some arrayMetaRef := rfl
      rw [isMarked, hmetaref, Option.bind_some, hmetatable] at hmarked
      cases hthis : before.tables[arrayMetaRef]? with
      | none =>
        rw [hthis] at hmarked
        cases hmarked
      | some metatable =>
        rw [hthis] at hmarked
        obtain ⟨marker, hmarker, hmarked⟩ := Attempt.bind_eq_ok hmarked
        have harrays : (marker == some "array") = true := Except.ok.inj hmarked
        rw [eq_of_beq harrays] at hmarker
        exact ⟨metatable, hthis, hmarker⟩

end Lua.Interchange

end FeatureTransform
