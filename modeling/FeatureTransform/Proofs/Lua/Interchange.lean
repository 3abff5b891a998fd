import FeatureTransform.Lua.Start
import FeatureTransform.Proofs.Attempt
import FeatureTransform.Proofs.Json.Portable
import FeatureTransform.Proofs.Lua.Store
import FeatureTransform.Proofs.Lua.Table
import FeatureTransform.Proofs.Text.Split

/-!
# JSON through programs

A JSON value becomes a value of a program, and that value has a JSON form again: the one of what
comes back. Whatever the program adds to the store in the meantime changes nothing of that.
-/

namespace FeatureTransform

namespace Lua.Interchange

open Json (settle settleItems settleMembers itemsDepth membersDepth WellFormedItems
  WellFormedMembers AddressableItems AddressableMembers Sorted)
open Table (positions)

theorem text_ne_nil (s : String) : Value.text s ≠ .nil := nofun

theorem null_ne_nil : Value.null ≠ .nil := nofun

theorem int_ne_nil (i : Int64) : Value.int i ≠ .nil := nofun

theorem table_ne_nil (ref : Nat) : Value.table ref ≠ .nil := nofun

/-- The bytes of a text are read as that text, so that texts go in and out unchanged. -/
theorem utf8Text_toUTF8 (target : HostType) (s : String) :
    utf8Text target s.toUTF8 = .ok s := by
  rw [utf8Text, Utf8.read_toUTF8]
  rfl

/-! ## Tables and their forms -/

/-- The items of a table that has the form of an array. -/
def itemsOf (t : Table) : List Value := (List.range t.length).map fun n => t.getNat (n + 1)

section Steps

variable {store : Store} {ref : Nat} {t : Table}

/-- A table in the form of an array has the forms of its items as items, in the order of the
positions. What stands under other keys is not looked at. -/
theorem encodeWithin_array (ht : store.tables[ref]? = some t) (h : isArray store t = .ok true)
    (fuel : Nat) : encodeWithin store (fuel + 1) (.table ref) =
      (do return .array (← (itemsOf t).mapM (encodeWithin store fuel))) := by
  rw [encodeWithin, ht, Option.getD_some]
  simp only
  rw [h]
  rfl

/-- Any other table has those of its entries as members, in the order in which they are visited,
before they are sorted. -/
theorem encodeWithin_object (ht : store.tables[ref]? = some t) (h : isArray store t = .ok false)
    (fuel : Nat) : encodeWithin store (fuel + 1) (.table ref) =
      (do return .ofMembers ((← t.toList.mapM (memberOf? (encodeWithin store fuel))).filterMap
        id)) := by
  rw [encodeWithin, ht, Option.getD_some]
  simp only
  rw [h]
  rfl

/-- A mark that is no text is an error. -/
theorem encodeWithin_error {e : HostError} (ht : store.tables[ref]? = some t)
    (h : isArray store t = .error e) (fuel : Nat) :
    encodeWithin store (fuel + 1) (.table ref) = .error (.host e) := by
  rw [encodeWithin, ht, Option.getD_some]
  simp only
  rw [h]
  rfl

/-- The mark decides about a table without entries, as there are no keys that could. -/
theorem isArray_of_empty (hsize : t.size = 0) (hlength : t.length = 0) :
    isArray store t = isMarked store t := by
  rw [isArray, hsize, hlength, if_pos rfl, if_pos rfl]

end Steps

/-! ## The mark of arrays -/

/-- The metatable of tables that are made from arrays says that they are arrays. A program can get
at it, and could change that. -/
def MarksArrays (store : Store) : Prop :=
  ∃ metatable, store.tables[arrayMetaRef]? = some metatable ∧
    markerText (metatable.getText markerName) = .ok (some "array")

theorem MarksArrays.mono {store later : Store} (h : MarksArrays store)
    (hgrows : store.Grows later) : MarksArrays later := by
  obtain ⟨metatable, hfound, hmarker⟩ := h
  exact ⟨metatable, hgrows.tables hfound, hmarker⟩

/-- The metatable that there is before any program says so. -/
theorem marksArrays_of {store : Store} (h : store.tables[arrayMetaRef]? = some arrayMetatable) :
    MarksArrays store := by
  refine ⟨arrayMetatable, h, ?_⟩
  have hholds : arrayMetatable.Holds ([] ++ [(Key.text markerName, Value.text "array")]) := by
    rw [arrayMetatable, Table.setText]
    exact Table.holds_empty.set (text_ne_nil _) List.not_mem_nil
  have hmarker : arrayMetatable.getText markerName = .text "array" :=
    hholds.get (List.mem_singleton_self _)
  rw [hmarker]
  change some <$> utf8Text .string "array".toUTF8 = _
  rw [utf8Text_toUTF8]
  rfl

/-! ## Forms of values -/

/-- The JSON form of a value in a store and in all that the store grows to. -/
def Encodes (store : Store) (fuel : Nat) (v : Value) (json : Json) : Prop :=
  ∀ later, store.Grows later → ∀ more, fuel ≤ more → encodeWithin later more v = .ok json

section Forms

variable {store later : Store} {fuel more : Nat} {v : Value} {json : Json}

theorem Encodes.mono (h : Encodes store fuel v json) (hgrows : store.Grows later)
    (hfuel : fuel ≤ more) : Encodes later more v json :=
  fun _ hlater _ hmore => h _ (hgrows.trans hlater) _ (hfuel.trans hmore)

/-- A form that does not depend on the store stays what it is while the store grows. -/
theorem encodes_of_eq (h : ∀ store fuel, encodeWithin store (fuel + 1) v = .ok json) :
    Encodes store 1 v json := by
  intro later _ more hmore
  obtain ⟨more, rfl⟩ := Nat.exists_eq_add_of_le' hmore
  exact h later more

/-- A number has the form that it comes back as: an integer beyond those of the program has become a
double. -/
theorem encodes_number (n : Json.Number) :
    Encodes store 1 (ofNumber n) (settle (.number n)) := by
  apply encodes_of_eq
  intro store fuel
  cases n with
  | integer i =>
    simp only [ofNumber, settle]
    cases i.toInt64? <;> rfl
  | double d => exact congrArg Except.ok (Json.ofFloat_value d)

theorem exists_ofNumber (n : Json.Number) : ∃ m, ofNumber n = .number m := by
  cases n with
  | integer i =>
    rw [ofNumber]
    split
    · exact ⟨_, rfl⟩
    · exact ⟨_, rfl⟩
  | double d => exact ⟨_, rfl⟩

theorem encodes_text (s : String) : Encodes store 1 (.text s) (.string s) := by
  apply encodes_of_eq
  intro store fuel
  rw [Value.text, encodeWithin, utf8Text_toUTF8]
  rfl

/-- A table made from an array is marked, as long as the common metatable of all arrays says so. -/
theorem isMarked_array {t : Table} (hmark : MarksArrays store)
    (hmeta : t.metatable = some arrayMetaRef) : isMarked store t = .ok true := by
  obtain ⟨metatable, hfound, hmarker⟩ := hmark
  rw [isMarked, hmeta, Option.bind_some, hfound]
  simp only
  rw [hmarker]
  rfl

/-- **Arrays.** A marked table of items has their forms as its items. The mark matters only if there
are none. -/
theorem encodes_array {ref : Nat} {t : Table} {vs : List Value} {items : List Json}
    (ht : store.tables[ref]? = some t) (hmeta : t.metatable = some arrayMetaRef)
    (hmark : MarksArrays store) (hholds : t.Holds (positions 1 vs))
    (hlength : vs.length < 2 ^ 63) (hitems : List.Forall₂ (Encodes store fuel) vs items) :
    Encodes store (fuel + 1) (.table ref) (.array items) := by
  intro later hlater more hmore
  obtain ⟨more, rfl⟩ := Nat.exists_eq_add_of_le' (show 1 ≤ more by omega)
  have hsize : t.size = vs.length := by rw [hholds.size, Table.length_positions]
  have harray : isArray later t = .ok true := by
    rw [isArray, hsize, hholds.length_positions hlength, if_pos rfl]
    split
    · exact isMarked_array (hmark.mono hlater) hmeta
    · rfl
  have hforms : vs.mapM (encodeWithin later more) = .ok items :=
    Attempt.mapM_of_forall₂ (hitems.imp fun v json h => h later hlater more (by omega))
  rw [encodeWithin_array (hlater.tables ht) harray, itemsOf, hholds.length_positions hlength,
    hholds.getNat, hforms]
  rfl

/-- **Objects.** An unmarked table of members has their forms as its members: their names are no
positions, and so the table is never taken for an array. -/
theorem encodes_object {ref : Nat} {t : Table} {entries : List (Key × Value)}
    {members : List (String × Json)} (ht : store.tables[ref]? = some t)
    (hmeta : t.metatable = none) (hholds : t.Holds entries)
    (hmembers : List.Forall₂ (fun e m => e.1 = Key.text m.1 ∧ Encodes store fuel e.2 m.2)
      entries members) (hsorted : Sorted members) :
    Encodes store (fuel + 1) (.table ref) (.object members) := by
  intro later hlater more hmore
  obtain ⟨more, rfl⟩ := Nat.exists_eq_add_of_le' (show 1 ≤ more by omega)
  have hnames : ∀ e ∈ entries, ∃ name, e.1 = Key.text name :=
    ((List.forall₂_and_left _ _).mp (hmembers.imp fun e m h => ⟨⟨m.1, h.1⟩, h⟩)).1
  have harray : isArray later t = .ok false := by
    rw [isArray, hholds.length_names hnames]
    split
    · rw [if_pos rfl, isMarked, hmeta]
      rfl
    · rfl
  -- the table lists its entries in an order of its own, and the members are sorted behind it
  obtain ⟨others, hothers, hsame⟩ := List.perm_comp_forall₂ hholds.toList_perm hmembers
  have hforms : t.toList.mapM (memberOf? (encodeWithin later more)) = .ok (others.map some) := by
    apply Attempt.mapM_of_forall₂
    rw [List.forall₂_map_right_iff]
    refine hothers.imp fun e m h => ?_
    obtain ⟨hkey, hform⟩ := h
    rw [memberOf?, hkey, Key.text, memberName?, utf8Text_toUTF8]
    change (do
      let json ← encodeWithin later more e.2
      return some (m.1, json) : Except Obstacle (Option (String × Json))) = _
    rw [hform later hlater more (by omega)]
    rfl
  rw [encodeWithin_object (hlater.tables ht) harray, hforms]
  change Except.ok (Json.ofMembers ((others.map some).filterMap id)) = _
  rw [List.filterMap_map, Json.ofMembers]
  have hid : others.filterMap (id ∘ some) = others := List.filterMap_some
  rw [hid, Json.sortMembers_of_perm hsame hsorted]

end Forms

/-! ## Values of JSON -/

/-- What the decoding of a JSON value leaves behind: a value with a form, and a table at least for
each array and object around another. -/
structure Decoded (json : Json) (before : Store) (v : Value) (after : Store) : Prop where
  /-- the decoding is done -/
  run : decode json before = .done v after
  /-- nothing is changed -/
  grows : before.Grows after
  /-- only `null` is no value -/
  isValue : json ≠ .null → v ≠ .nil
  /-- only `null` and `false` are not true -/
  isTrue : json ≠ .null → json ≠ .bool false → v.isTrue = true
  /-- the form is the one of what comes back -/
  encodes : Encodes after (json.depth + 1) v json.settle
  /-- there are tables enough to follow every path -/
  room : before.tables.size + json.depth ≤ after.tables.size

/-- What the decoding of items leaves behind, in a table that held some entries. -/
structure DecodedItems (entries : List (Key × Value)) (n : Nat) (t : Table) (items : List Json)
    (before : Store) (t' : Table) (vs : List Value) (after : Store) : Prop where
  /-- the decoding is done -/
  run : decodeItems n t items before = .done t' after
  /-- nothing is changed -/
  grows : before.Grows after
  /-- the values stand at the positions -/
  holds : t'.Holds (entries ++ positions n vs)
  /-- the table is marked as before -/
  metatable : t'.metatable = t.metatable
  /-- the forms are those of what comes back -/
  encodes : List.Forall₂ (Encodes after (itemsDepth items + 1)) vs (settleItems items)
  /-- there are tables enough to follow every path -/
  room : before.tables.size + itemsDepth items ≤ after.tables.size

/-- What the decoding of members leaves behind, in a table that held some entries. -/
structure DecodedMembers (entries : List (Key × Value)) (t : Table) (members : List (String × Json))
    (before : Store) (t' : Table) (added : List (Key × Value)) (after : Store) : Prop where
  /-- the decoding is done -/
  run : decodeMembers t members before = .done t' after
  /-- nothing is changed -/
  grows : before.Grows after
  /-- the values stand under their names -/
  holds : t'.Holds (entries ++ added)
  /-- the table is marked as before -/
  metatable : t'.metatable = t.metatable
  /-- the forms are those of what comes back -/
  encodes : List.Forall₂
    (fun e m => e.1 = Key.text m.1 ∧ Encodes after (membersDepth members + 1) e.2 m.2)
    added (settleMembers members)
  /-- there are tables enough to follow every path -/
  room : before.tables.size + membersDepth members ≤ after.tables.size

section Steps

variable {before middle after : Store} {t t' : Table} {entries added : List (Key × Value)}
  {v : Value} {vs : List Value}

/-- One more item in front of those that are decoded is put at the next position. -/
theorem DecodedItems.cons {n : Nat} {item : Json} {rest : List Json}
    (h : DecodedItems (entries ++ [(.nat n, v)]) (n + 1) (t.set (.nat n) v) rest middle t' vs after)
    (hrun : decodeItems n t (item :: rest) before =
      decodeItems (n + 1) (t.set (.nat n) v) rest middle)
    (hgrows : before.Grows middle)
    (hencodes : Encodes middle (item.depth + 1) v item.settle)
    (hroom : before.tables.size + item.depth ≤ middle.tables.size) :
    DecodedItems entries n t (item :: rest) before t' (v :: vs) after where
  run := hrun.trans h.run
  grows := hgrows.trans h.grows
  holds := by
    have hholds := h.holds
    rwa [List.append_assoc] at hholds
  metatable := by rw [h.metatable, Table.metatable_set]
  encodes := by
    rw [itemsDepth, settleItems]
    refine List.Forall₂.cons (hencodes.mono h.grows (by omega)) ?_
    exact h.encodes.imp fun w json hw => hw.mono (Store.Grows.refl _) (by omega)
  room := by
    have := h.room
    rw [itemsDepth]
    omega

/-- One more member in front of those that are decoded is put under its name, which none of the
others has. -/
theorem DecodedMembers.cons {name : String} {member : Json} {rest : List (String × Json)}
    (h : DecodedMembers (entries ++ [(.text name, v)]) (t.setText name v) rest middle t' added
      after)
    (hrun : decodeMembers t ((name, member) :: rest) before =
      decodeMembers (t.setText name v) rest middle)
    (hgrows : before.Grows middle) (hmember : member ≠ .null)
    (hencodes : Encodes middle (member.depth + 1) v member.settle)
    (hroom : before.tables.size + member.depth ≤ middle.tables.size) :
    DecodedMembers entries t ((name, member) :: rest) before t' ((.text name, v) :: added)
      after where
  run := hrun.trans h.run
  grows := hgrows.trans h.grows
  holds := by
    have hholds := h.holds
    rwa [List.append_assoc] at hholds
  metatable := by rw [h.metatable, Table.metatable_setText]
  encodes := by
    rw [membersDepth, Json.settleMembers_cons hmember]
    refine List.Forall₂.cons ⟨rfl, hencodes.mono h.grows (by omega)⟩ ?_
    exact h.encodes.imp fun e m he => ⟨he.1, he.2.mono (Store.Grows.refl _) (by omega)⟩
  room := by
    have := h.room
    rw [membersDepth]
    omega

/-- One more member that is `null` in front of those that are decoded leaves no trace, because
assigning no value adds no key. -/
theorem DecodedMembers.cons_null {name : String} {rest : List (String × Json)}
    (h : DecodedMembers entries (t.setText name .nil) rest before t' added after) :
    DecodedMembers entries t ((name, .null) :: rest) before t' added after where
  run := h.run
  grows := h.grows
  holds := h.holds
  metatable := by rw [h.metatable, Table.metatable_setText]
  encodes := by
    have hdepth : membersDepth ((name, Json.null) :: rest) = membersDepth rest := by
      simp [membersDepth, Json.depth]
    rw [hdepth]
    exact h.encodes
  room := by
    have := h.room
    simpa [membersDepth, Json.depth] using this

end Steps

/-- The names that come later are not among the keys. -/
def Fresh (members : List (String × Json)) (entries : List (Key × Value)) : Prop :=
  ∀ m ∈ members, Key.text m.1 ∉ entries.map Prod.fst

theorem Fresh.tail {m : String × Json} {rest : List (String × Json)} {entries : List (Key × Value)}
    (h : Fresh (m :: rest) entries) : Fresh rest entries :=
  fun other hother => h other (List.mem_cons_of_mem _ hother)

theorem Fresh.cons {name : String} {member : Json} {rest : List (String × Json)}
    {entries : List (Key × Value)} (v : Value) (h : Fresh ((name, member) :: rest) entries)
    (hsorted : Sorted ((name, member) :: rest)) : Fresh rest (entries ++ [(.text name, v)]) := by
  intro other hother hmem
  rw [List.map_append, List.mem_append] at hmem
  rcases hmem with hmem | hmem
  · exact h.tail other hother hmem
  · have hname : other.1 = name := Key.text_inj.mp (List.mem_singleton.mp hmem)
    have hless : name < other.1 := (List.pairwise_cons.mp hsorted).1 other hother
    exact absurd hname hless.ne'

/-! ### Whole values

The induction is on the value, with its items and members. -/

mutual

/-- **Decoding** a value leaves a value that has the form of what comes back. The induction is over
the JSON value, together with the items of arrays and the members of objects, each with the table
that is being filled. -/
theorem decode_spec (json : Json) (before : Store) (hjson : json.WellFormed)
    (hroom : json.Addressable) (hmark : MarksArrays before) :
    ∃ v after, Decoded json before v after := by
  match json with
  | .null => exact ⟨.nil, before, rfl, .refl _, fun h => absurd rfl h, fun h => absurd rfl h,
      encodes_of_eq fun _ _ => rfl, Nat.le_refl _⟩
  | .bool true => exact ⟨.bool true, before, rfl, .refl _, nofun, fun _ _ => rfl,
      encodes_of_eq fun _ _ => rfl, Nat.le_refl _⟩
  | .bool false => exact ⟨.bool false, before, rfl, .refl _, nofun, fun _ h => absurd rfl h,
      encodes_of_eq fun _ _ => rfl, Nat.le_refl _⟩
  | .number n =>
    obtain ⟨m, hm⟩ : ∃ m, ofNumber n = .number m := exists_ofNumber n
    refine ⟨ofNumber n, before, rfl, .refl _, fun _ => ?_, fun _ _ => ?_, encodes_number n,
      Nat.le_refl _⟩
    · rw [hm]
      nofun
    · rw [hm]
      rfl
  | .string s => exact ⟨.text s, before, rfl, .refl _, nofun, fun _ _ => rfl, encodes_text s,
      Nat.le_refl _⟩
  | .array items =>
    obtain ⟨hlength, hitems⟩ := hroom
    obtain ⟨t, vs, middle, h⟩ := decodeItems_spec items 1 .empty [] before hjson hitems (by omega)
      Table.holds_empty (fun _ _ _ => List.not_mem_nil) hmark
    have hsame : vs.length = items.length := by
      rw [h.encodes.length_eq, Json.length_settleItems]
    -- the table is made behind what stands in it, so the store grows once more
    have hgrows := middle.grows_newTable { t with metatable := some arrayMetaRef }
    refine ⟨.table middle.tables.size, _, ?_, h.grows.trans hgrows, nofun, fun _ _ => rfl, ?_, ?_⟩
    · rw [decode]
      exact (Eval.bind_done _ h.run).trans rfl
    · rw [Json.depth, settle]
      refine encodes_array (Array.getElem?_push_size ..) rfl
        (hmark.mono (h.grows.trans hgrows)) ⟨h.holds.perm, h.holds.room⟩ (by omega) ?_
      exact h.encodes.imp fun w json hw => hw.mono hgrows (Nat.le_refl _)
    · have := h.room
      rw [Json.depth, Array.size_push]
      omega
  | .object members =>
    obtain ⟨hsorted, hmembers⟩ := hjson
    obtain ⟨t, added, middle, h⟩ := decodeMembers_spec members .empty [] before hmembers hsorted
      hroom Table.holds_empty (fun _ _ => List.not_mem_nil) hmark
    have hgrows := middle.grows_newTable t
    refine ⟨.table middle.tables.size, _, ?_, h.grows.trans hgrows, nofun, fun _ _ => rfl, ?_, ?_⟩
    · rw [decode]
      exact (Eval.bind_done _ h.run).trans rfl
    · rw [Json.depth, settle]
      refine encodes_object (Array.getElem?_push_size ..) h.metatable h.holds ?_
        hsorted.settleMembers
      exact h.encodes.imp fun e m he => ⟨he.1, he.2.mono hgrows (Nat.le_refl _)⟩
    · have := h.room
      rw [Json.depth, Array.size_push]
      omega

/-- **Decoding** items adds a value for each, at the positions that follow, so that the table has no
holes. -/
theorem decodeItems_spec (items : List Json) (n : Nat) (t : Table) (entries : List (Key × Value))
    (before : Store) (hitems : WellFormedItems items)
    (hroom : AddressableItems items) (hn : n + items.length ≤ 2 ^ 63) (hholds : t.Holds entries)
    (hfresh : ∀ k, n ≤ k → k < 2 ^ 63 → Key.nat k ∉ entries.map Prod.fst)
    (hmark : MarksArrays before) :
    ∃ t' vs after, DecodedItems entries n t items before t' vs after := by
  match items with
  | [] =>
    refine ⟨t, [], before, rfl, .refl _, ?_, rfl, .nil, Nat.le_refl _⟩
    rwa [positions, List.append_nil]
  | item :: rest =>
    obtain ⟨hitem, hrest⟩ := hitems
    obtain ⟨hthis, hothers⟩ := hroom
    rw [List.length_cons] at hn
    have hnext : ∀ (w : Value) k, n + 1 ≤ k → k < 2 ^ 63 →
        Key.nat k ∉ (entries ++ [(Key.nat n, w)]).map Prod.fst := by
      intro w k hk hbound hmem
      rw [List.map_append, List.mem_append] at hmem
      rcases hmem with hmem | hmem
      · exact hfresh k (by omega) hbound hmem
      · have := (Key.nat_inj (by omega) (by omega)).mp (List.mem_singleton.mp hmem)
        omega
    have hthere := hfresh n (Nat.le_refl _) (by omega)
    -- a `null` among the items is kept by a value of its own, so the positions have no gaps
    by_cases hnull : item = .null
    · subst hnull
      obtain ⟨t', vs, after, h⟩ := decodeItems_spec rest (n + 1) (t.set (.nat n) .null)
        (entries ++ [(.nat n, .null)]) before hrest hothers (by omega)
        (hholds.set null_ne_nil hthere) (hnext .null) hmark
      exact ⟨t', _, after, h.cons rfl (.refl _) (encodes_of_eq fun _ _ => rfl) (Nat.le_refl _)⟩
    · obtain ⟨v, middle, hdecoded⟩ := decode_spec item before hitem hthis hmark
      obtain ⟨t', vs, after, h⟩ := decodeItems_spec rest (n + 1) (t.set (.nat n) v)
        (entries ++ [(.nat n, v)]) middle hrest hothers (by omega)
        (hholds.set (hdecoded.isValue hnull) hthere) (hnext v) (hmark.mono hdecoded.grows)
      have hrun : decodeItems n t (item :: rest) before =
          decodeItems (n + 1) (t.set (.nat n) v) rest middle := by
        rw [decodeItems]
        · exact Eval.bind_done _ hdecoded.run
        · exact hnull
      exact ⟨t', _, after, h.cons hrun hdecoded.grows hdecoded.encodes hdecoded.room⟩

/-- **Decoding** members adds a value for each that is not `null`, under its own name. -/
theorem decodeMembers_spec (members : List (String × Json)) (t : Table)
    (entries : List (Key × Value)) (before : Store) (hmembers : WellFormedMembers members)
    (hsorted : Sorted members) (hroom : AddressableMembers members) (hholds : t.Holds entries)
    (hfresh : Fresh members entries) (hmark : MarksArrays before) :
    ∃ t' added after, DecodedMembers entries t members before t' added after := by
  match members with
  | [] =>
    refine ⟨t, [], before, rfl, .refl _, ?_, rfl, .nil, Nat.le_refl _⟩
    rwa [List.append_nil]
  | (name, member) :: rest =>
    obtain ⟨hmember, hrest⟩ := hmembers
    obtain ⟨hthis, hothers⟩ := hroom
    have hthere : Key.text name ∉ entries.map Prod.fst := hfresh (name, member) (by simp)
    -- a member that is `null` is not there at all
    by_cases hnull : member = .null
    · subst hnull
      obtain ⟨t', added, after, h⟩ := decodeMembers_spec rest (t.setText name .nil) entries before
        hrest hsorted.of_cons hothers (hholds.set_nil hthere) hfresh.tail hmark
      exact ⟨t', added, after, h.cons_null⟩
    · obtain ⟨v, middle, hdecoded⟩ := decode_spec member before hmember hthis hmark
      obtain ⟨t', added, after, h⟩ := decodeMembers_spec rest (t.setText name v)
        (entries ++ [(Key.text name, v)]) middle hrest hsorted.of_cons hothers
        (hholds.set (hdecoded.isValue hnull) hthere) (hfresh.cons v hsorted)
        (hmark.mono hdecoded.grows)
      have hrun : decodeMembers t ((name, member) :: rest) before =
          decodeMembers (t.setText name v) rest middle := by
        rw [decodeMembers]
        exact Eval.bind_done _ hdecoded.run
      exact ⟨t', _, after, h.cons hrun hdecoded.grows hnull hdecoded.encodes hdecoded.room⟩

end

/-- **Round trip.** What a JSON value becomes has the form of what comes back, whatever else the
store has by then. The steps suffice because each level of the value has a table of its own. -/
theorem Decoded.encode {json : Json} {before after later : Store} {v : Value}
    (h : Decoded json before v after) (hgrows : after.Grows later) :
    encode later v = .ok json.settle := by
  have hroom := h.room
  have hsize := hgrows.size_le
  exact h.encodes later hgrows _ (by omega)

end Lua.Interchange

end FeatureTransform
