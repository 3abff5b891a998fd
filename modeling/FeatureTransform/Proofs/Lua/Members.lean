import FeatureTransform.Proofs.Decimal.Numeral
import FeatureTransform.Proofs.Lua.Endless
import FeatureTransform.Proofs.Lua.Shape

/-!
# Entries and members

In the form of an object, each entry of a table becomes a member, and its key names it: a text by
itself, an integer by its digits. An integer and the text of its digits are two keys of one name. Of
two such entries the one that is visited later stays and the other is lost, so that the members are
as many as the entries less the pairs of this kind.

## Main results

* `Names.eq_or_twin` — which keys have one name;
* `exists_forms` — the members before they are put in order, one for each entry;
* `length_add_card_twins` — how many members there are;
* `keepsEntries_iff` — no entry is lost exactly if no integer stands beside the text of its digits.
-/

namespace FeatureTransform

/-! ## Lists of members -/

namespace Json

variable {members : List (String × Json)} {name : String} {v : Json}

theorem isSome_member?_iff : (member? name members).isSome ↔ name ∈ members.map Prod.fst := by
  rw [member?, List.lookup_isSome_iff, List.mem_map]
  simp only [beq_iff_eq]
  simp only [eq_comm]

/-- Sorting takes no name away and adds none. -/
theorem mem_names_sortMembers :
    name ∈ (sortMembers members).map Prod.fst ↔ name ∈ members.map Prod.fst := by
  rw [← isSome_member?_iff, member?_sortMembers, isSome_member?_iff, List.map_reverse,
    List.mem_reverse]

/-- Of the members with one name the last is found, and none of the same name stands behind it. -/
theorem exists_last_of_member?_sortMembers (h : member? name (sortMembers members) = some v) :
    ∃ front back, members = front ++ (name, v) :: back ∧ ∀ m ∈ back, m.1 ≠ name := by
  rw [member?_sortMembers, member?, List.lookup_eq_some_iff] at h
  obtain ⟨back, front, hsplit, hback⟩ := h
  refine ⟨front.reverse, back.reverse, ?_, fun m hm => ?_⟩
  · rw [← List.reverse_reverse members, hsplit]
    simp
  · exact (bne_iff_ne.mp (hback m (List.mem_reverse.mp hm))).symm

end Json

namespace Lua

/-! ## Keys and names -/

namespace Interchange

/-- The name that a text or an integer gives to its member. -/
inductive Names : Key → String → Prop
  /-- a text is its own name -/
  | text (name : String) : Names (.text name) name
  /-- an integer is named by its digits -/
  | int (i : Int64) : Names (.int i) (Decimal.intString i.toInt)

variable {key other : Key} {name : String}

/-- Texts and integers have a name, and so they become members. -/
theorem Names.memberName?_eq (h : Names key name) : memberName? key = .ok (some name) := by
  cases h with
  | text =>
    rw [Key.text, memberName?, utf8Text_toUTF8]
    rfl
  | int i => rfl

/-- The name of a key that has one. -/
def nameOf (key : Key) : String := ((memberName? key).toOption.bind id).getD ""

theorem Names.nameOf_eq (h : Names key name) : nameOf key = name := by
  rw [nameOf, h.memberName?_eq]
  rfl

/-- Digits belong to one integer. Hence two integers never have one name. -/
theorem intString_inj {i j : Int64} (h : Decimal.intString i.toInt = Decimal.intString j.toInt) :
    i = j := by
  have hread (k : Int64) : Decimal.readInt? (Decimal.intText k.toInt) = some k.toInt := by
    have hlow := k.le_toInt
    have hhigh := k.toInt_lt
    rw [Decimal.readInt?_intText, if_pos (by omega)]
  have htexts : Decimal.intText i.toInt = Decimal.intText j.toInt := String.ofList_injective h
  have hsame := hread i
  rw [htexts, hread j] at hsame
  exact Int64.toInt_inj.mp (Option.some.inj hsame).symm

/-- **One name.** Keys of one name are the same, or one is an integer and the other the text of its
digits. Texts are their own names, and so are different for different texts. -/
theorem Names.eq_or_twin (h : Names key name) (h' : Names other name) : key = other ∨
    (∃ i, key = .int i ∧ other = .text (Decimal.intString i.toInt)) ∨
    ∃ i, other = .int i ∧ key = .text (Decimal.intString i.toInt) := by
  generalize hname : name = name' at h'
  cases h with
  | text =>
    cases h' with
    | text => exact .inl (congrArg Key.text hname)
    | int i => exact .inr (.inr ⟨i, rfl, congrArg Key.text hname⟩)
  | int i =>
    cases h' with
    | text => exact .inr (.inl ⟨i, rfl, congrArg Key.text hname.symm⟩)
    | int j => exact .inl (congrArg Key.int (intString_inj hname))

end Interchange

/-! ## Entries -/

namespace Table

variable {t : Table} {key : Key} {v : Value}

theorem mem_toList_iff : (key, v) ∈ t.toList ↔ t.entries[key]? = some v := by
  rw [toList, List.mem_mergeSort, Std.HashMap.mem_toList_iff_getElem?_eq_some]

theorem get_of_mem_toList (h : (key, v) ∈ t.toList) : t.get key = v := by
  rw [get, Std.HashMap.getD_eq_getD_getElem?, mem_toList_iff.mp h]
  rfl

theorem has_iff_exists_mem : t.has key = true ↔ ∃ v, (key, v) ∈ t.toList := by
  simp only [mem_toList_iff]
  rw [has, Std.HashMap.contains_iff_mem, ← Std.HashMap.isSome_getElem?_iff_mem,
    Option.isSome_iff_exists]

/-- The keys in the order in which they are visited, each once. -/
theorem nodup_keys (t : Table) : (t.toList.map Prod.fst).Nodup := by
  have hperm : (t.toList.map Prod.fst).Perm t.entries.keys := by
    rw [← Std.HashMap.map_fst_toList_eq_keys]
    exact (List.mergeSort_perm _ _).map _
  exact hperm.nodup_iff.mpr (Std.HashMap.distinct_keys.imp fun hne heq => by simp [heq] at hne)

theorem toFinset_keys (t : Table) : (t.toList.map Prod.fst).toFinset = t.keySet := by
  ext key
  rw [List.mem_toFinset, mem_keySet, has_iff_exists_mem, List.mem_map]
  constructor
  · rintro ⟨⟨key, v⟩, hmem, rfl⟩
    exact ⟨v, hmem⟩
  · rintro ⟨v, hmem⟩
    exact ⟨(key, v), hmem, rfl⟩

/-- Whether a key is an integer beside which the text of its digits is a key, too. -/
def hasTwin (t : Table) : Key → Bool
  | .int i => t.has (.text (Decimal.intString i.toInt))
  | _ => false

/-- The integers beside which the text of their digits is a key, too. -/
def twins (t : Table) : Finset Key := t.keySet.filter (t.hasTwin ·)

/-- A key is a twin if it is an integer of the table and the text of its digits is a key, too. -/
theorem mem_twins : key ∈ t.twins ↔ t.has key = true ∧ t.hasTwin key = true := by
  rw [twins, Finset.mem_filter, mem_keySet]

/-- There are no twins if no integer has the text of its digits beside it. -/
theorem twins_eq_empty_iff : t.twins = ∅ ↔
    ∀ i, ¬(t.has (.int i) = true ∧ t.has (.text (Decimal.intString i.toInt)) = true) := by
  rw [twins, Finset.filter_eq_empty_iff]
  constructor
  · rintro h i ⟨hint, htext⟩
    exact h (mem_keySet.mpr hint) htext
  · intro h key hkey htwin
    cases key with
    | int i => exact h i ⟨mem_keySet.mp hkey, htwin⟩
    | _ => exact absurd htwin Bool.false_ne_true

end Table

/-! ## Members -/

namespace Interchange

variable {store : Store} {ref : Nat} {t : Table} {members forms : List (String × Json)}

/-- What one of two lists that belong together has in front of an item and behind it, the other has,
too. -/
theorem exists_append_of_forall₂ {α β : Type} {R : α → β → Prop} {as : List α}
    {front back : List β} {b : β} (h : List.Forall₂ R as (front ++ b :: back)) :
    ∃ before a behind, as = before ++ a :: behind ∧ R a b ∧ List.Forall₂ R behind back := by
  induction front generalizing as with
  | nil =>
    cases h with
    | cons hab hrest => exact ⟨[], _, _, rfl, hab, hrest⟩
  | cons c front ih =>
    cases h with
    | cons _ hrest =>
      obtain ⟨before, a, behind, rfl, hab, hback⟩ := ih hrest
      exact ⟨_ :: before, a, behind, rfl, hab, hback⟩

/-- A member has the name of the entry's key and the form of its value. -/
def Represents (store : Store) (entry : Key × Value) (member : String × Json) : Prop :=
  Names entry.1 member.1 ∧ encode store entry.2 = .ok member.2

theorem represents_of_memberOf? {entry : Key × Value} {m : Option (String × Json)}
    (hname : ∃ name, Names entry.1 name)
    (h : memberOf? (encodeWithin store (store.tables.size + 1)) entry = .ok m) :
    ∃ member, m = some member ∧ Represents store entry member := by
  obtain ⟨name, hname⟩ := hname
  rw [memberOf?_named hname.memberName?_eq] at h
  obtain ⟨json, hjson, h⟩ := Attempt.bind_eq_ok h
  cases h
  refine ⟨(name, json), rfl, hname, ?_⟩
  rw [encode, encodeWithin_succ (by simp [hjson]), hjson]

theorem forall₂_represents {entries : List (Key × Value)} {made : List (Option (String × Json))}
    (hnamed : ∀ e ∈ entries, ∃ name, Names e.1 name)
    (hmade : entries.mapM (memberOf? (encodeWithin store (store.tables.size + 1))) = .ok made) :
    List.Forall₂ (Represents store) entries (made.filterMap id) := by
  have hall := (List.forall₂_and_left _ _).mpr ⟨hnamed, Attempt.forall₂_of_mapM hmade⟩
  clear hmade hnamed
  induction hall with
  | nil => exact .nil
  | cons h _ ih =>
    obtain ⟨member, rfl, hrepresents⟩ := represents_of_memberOf? h.1 h.2
    exact .cons hrepresents ih

/-- **Forms.** An object is made of a member for each entry, in the order of the visit; sorting
comes last. -/
theorem exists_forms (ht : store.tables[ref]? = some t)
    (hkeys : ∀ key, t.has key = true → ∃ name, Names key name)
    (hencode : encode store (.table ref) = .ok (.object members)) :
    ∃ forms, List.Forall₂ (Represents store) t.toList forms ∧ members = Json.sortMembers forms := by
  rw [encode] at hencode
  cases hlisted : isArray store t with
  | error e =>
    rw [encodeWithin_error ht hlisted] at hencode
    cases hencode
  | ok listed =>
    cases listed with
    | true =>
      rw [encodeWithin_array ht hlisted] at hencode
      obtain ⟨items, -, hitems⟩ := Attempt.bind_eq_ok hencode
      cases hitems
    | false =>
      rw [encodeWithin_object ht hlisted] at hencode
      obtain ⟨made, hmade, hmembers⟩ := Attempt.bind_eq_ok hencode
      cases hmembers
      refine ⟨made.filterMap id, forall₂_represents (fun e he => ?_) hmade, rfl⟩
      exact hkeys e.1 (Table.has_iff_exists_mem.mpr ⟨e.2, he⟩)

/-- The names are those of the keys, one for each entry, with names that come up twice. -/
theorem names_forms {entries : List (Key × Value)}
    (h : List.Forall₂ (Represents store) entries forms) :
    forms.map Prod.fst = (entries.map Prod.fst).map nameOf := by
  induction h with
  | nil => rfl
  | cons hrepresents _ ih =>
    rw [List.map_cons, List.map_cons, List.map_cons, ih, hrepresents.1.nameOf_eq]

/-- Of the keys that are no twins, no two have one name. The integer of each pair is the one that is
left out. -/
theorem injOn_nameOf (hkeys : ∀ key, t.has key = true → ∃ name, Names key name) :
    Set.InjOn nameOf (t.keySet \ t.twins : Finset Key) := by
  intro key hkey other hother hsame
  rw [Finset.mem_coe, Finset.mem_sdiff, Table.mem_keySet, Table.mem_twins] at hkey hother
  obtain ⟨hkey, hsingle⟩ := hkey
  obtain ⟨hother, hsingle'⟩ := hother
  obtain ⟨name, hname⟩ := hkeys key hkey
  obtain ⟨name', hname'⟩ := hkeys other hother
  rw [hname.nameOf_eq, hname'.nameOf_eq] at hsame
  subst hsame
  rcases hname.eq_or_twin hname' with heq | ⟨i, rfl, rfl⟩ | ⟨i, rfl, rfl⟩
  · exact heq
  · exact absurd ⟨hkey, hother⟩ hsingle
  · exact absurd ⟨hother, hkey⟩ hsingle'

/-- Twins have no names of their own, so that without them all names are still there. -/
theorem image_nameOf (t : Table) : (t.keySet \ t.twins).image nameOf = t.keySet.image nameOf := by
  refine Finset.Subset.antisymm (Finset.image_subset_image Finset.sdiff_subset) ?_
  intro name hname
  obtain ⟨key, hkey, rfl⟩ := Finset.mem_image.mp hname
  by_cases htwin : t.hasTwin key = true
  · cases key with
    | int i =>
      refine Finset.mem_image.mpr ⟨.text (Decimal.intString i.toInt), ?_, ?_⟩
      · rw [Finset.mem_sdiff, Table.mem_keySet, Table.mem_twins]
        exact ⟨htwin, fun h => Bool.false_ne_true h.2⟩
      · rw [(Names.text _).nameOf_eq, (Names.int i).nameOf_eq]
    | _ => exact absurd htwin Bool.false_ne_true
  · refine Finset.mem_image.mpr ⟨key, Finset.mem_sdiff.mpr ⟨hkey, fun h => ?_⟩, rfl⟩
    exact htwin (Table.mem_twins.mp h).2

/-- **How many.** The members and the twins together are as many as the entries: of each pair of
keys with one name one member remains. -/
theorem length_add_card_twins (hkeys : ∀ key, t.has key = true → ∃ name, Names key name)
    (hforms : List.Forall₂ (Represents store) t.toList forms) :
    (Json.sortMembers forms).length + t.twins.card = t.size := by
  have hnames : ((Json.sortMembers forms).map Prod.fst).toFinset = t.keySet.image nameOf := by
    ext name
    rw [List.mem_toFinset, Json.mem_names_sortMembers, names_forms hforms, ← Table.toFinset_keys,
      Finset.mem_image, List.mem_map]
    simp only [List.mem_toFinset]
  have hlength : (Json.sortMembers forms).length = (t.keySet \ t.twins).card := by
    rw [← List.length_map (f := Prod.fst), ← List.toFinset_card_of_nodup
      (Json.sorted_sortMembers forms).distinct, hnames, ← image_nameOf,
      Finset.card_image_of_injOn (injOn_nameOf hkeys)]
  have htwins : t.twins ⊆ t.keySet := Finset.filter_subset _ _
  rw [hlength, Finset.card_sdiff_add_card_eq_card htwins, Table.card_keySet]

/-- No entry of the table is lost in the object. -/
structure KeepsEntries (store : Store) (t : Table) (members : List (String × Json)) : Prop where
  /-- each entry has a member of its name, with the form of its value -/
  represented : ∀ key, t.has key = true → ∃ name json, Names key name ∧
    Json.member? name members = some json ∧ encode store (t.get key) = .ok json
  /-- there are as many members as entries -/
  count : members.length = t.size

/-- Without twins, each name is that of one entry, whose member is found, with the form of the
entry's value. -/
theorem exists_member_of_twins (htwins : t.twins = ∅)
    (hkeys : ∀ key, t.has key = true → ∃ name, Names key name)
    (hforms : List.Forall₂ (Represents store) t.toList forms) {key : Key}
    (hkey : t.has key = true) : ∃ name json, Names key name ∧
      Json.member? name (Json.sortMembers forms) = some json ∧
      encode store (t.get key) = .ok json := by
  have hinjective := injOn_nameOf hkeys
  rw [htwins, Finset.sdiff_empty, ← Table.toFinset_keys] at hinjective
  have hdistinct : Json.Distinct forms.reverse := by
    rw [Json.Distinct, List.map_reverse, List.nodup_reverse, names_forms hforms]
    exact (Table.nodup_keys t).map_on fun a ha b hb =>
      hinjective (List.mem_toFinset.mpr ha) (List.mem_toFinset.mpr hb)
  obtain ⟨v, hmem⟩ := Table.has_iff_exists_mem.mp hkey
  rw [Table.get_of_mem_toList hmem]
  obtain ⟨front, back, hsplit⟩ := List.append_of_mem hmem
  rw [hsplit] at hforms
  obtain ⟨before, ⟨name, json⟩, behind, rfl, ⟨hname, hjson⟩, -⟩ :=
    exists_append_of_forall₂ hforms.flip
  refine ⟨name, json, hname, ?_, hjson⟩
  rw [Json.member?_sortMembers]
  exact hdistinct.member? (by simp)

/-- **Entries and members.** Of a table whose keys are texts and integers, an object holds every
entry exactly if beside no integer the text of its digits is a key; for each that is, one member is
missing. What a member holds is the form of the entry of its name that is visited last. The reason
is that members are named by the digits of an integer, and of two members with one name the later
replaces the earlier. -/
theorem keepsEntries_iff (ht : store.tables[ref]? = some t)
    (hkeys : ∀ key, t.has key = true → ∃ name, Names key name)
    (hencode : encode store (.table ref) = .ok (.object members)) :
    (KeepsEntries store t members ↔
      ∀ i, ¬(t.has (.int i) = true ∧ t.has (.text (Decimal.intString i.toInt)) = true)) ∧
    members.length + t.twins.card = t.size ∧
    (∀ name, (Json.member? name members).isSome ↔ ∃ key, t.has key = true ∧ Names key name) ∧
    ∀ name json, Json.member? name members = some json →
      ∃ front key v back, t.toList = front ++ (key, v) :: back ∧ Names key name ∧
        encode store v = .ok json ∧ ∀ e ∈ back, ¬Names e.1 name := by
  obtain ⟨forms, hforms, rfl⟩ := exists_forms ht hkeys hencode
  have hcount := length_add_card_twins hkeys hforms
  refine ⟨?_, hcount, fun name => ?_, fun name json hmember => ?_⟩
  · rw [← Table.twins_eq_empty_iff]
    constructor
    -- with twins there are fewer members than entries
    · intro hkeeps
      have hall := hkeeps.count
      exact Finset.card_eq_zero.mp (by omega)
    · intro htwins
      refine ⟨fun key hkey => exists_member_of_twins htwins hkeys hforms hkey, ?_⟩
      rwa [htwins, Finset.card_empty, Nat.add_zero] at hcount
  · rw [Json.isSome_member?_iff, Json.mem_names_sortMembers, names_forms hforms, List.mem_map]
    constructor
    · rintro ⟨key, hkey, rfl⟩
      have hhas := Table.mem_keySet.mp (Table.toFinset_keys t ▸ List.mem_toFinset.mpr hkey)
      obtain ⟨name, hname⟩ := hkeys key hhas
      exact ⟨key, hhas, hname.nameOf_eq ▸ hname⟩
    · rintro ⟨key, hkey, hname⟩
      refine ⟨key, List.mem_toFinset.mp ?_, hname.nameOf_eq⟩
      rw [Table.toFinset_keys]
      exact Table.mem_keySet.mpr hkey
  · obtain ⟨front, back, rfl, hback⟩ := Json.exists_last_of_member?_sortMembers hmember
    obtain ⟨before, ⟨key, v⟩, behind, hsplit, ⟨hname, hjson⟩, hbehind⟩ :=
      exists_append_of_forall₂ hforms
    refine ⟨before, key, v, behind, hsplit, hname, hjson, fun e he hlater => ?_⟩
    have hnames : nameOf e.1 ∈ back.map Prod.fst := by
      rw [names_forms hbehind]
      exact List.mem_map_of_mem (List.mem_map_of_mem he)
    obtain ⟨m, hm, heq⟩ := List.mem_map.mp hnames
    exact hback m hm (heq.trans hlater.nameOf_eq)

/-- The table of `{'a', ['1'] = 'b'}`, with room for one position and one other key. -/
def rivals : Table := ((Table.sized 1 1).set (.nat 1) (.text "a")).setText "1" (.text "b")

theorem holds_rivals : rivals.Holds [(.nat 1, .text "a"), (.text "1", .text "b")] := by
  have hnone : (Table.sized 1 1).Holds [] :=
    ⟨by rw [Table.sized, Std.HashMap.toList_empty], by decide⟩
  exact (hnone.set (text_ne_nil "a") (by decide)).set (text_ne_nil "b") (by decide)

theorem length_rivals : rivals.length = 1 := by
  have hroom : rivals.layout.arraySize = 1 := by
    rw [rivals, Table.setText, Table.arraySize_set_slot]
    · rw [Table.layout_set_position]
      · rfl
      · decide
    · rw [Table.layout_set_position] <;> decide
  have hone : rivals.has (.nat 1) = true := (holds_rivals.contains _).mpr (by decide)
  have htwo : rivals.has (.nat 2) = false := by
    apply eq_false_of_ne_true
    rw [holds_rivals.contains]
    decide
  rw [Table.length]
  simp only [hroom, hone, htwo]
  rfl

/-- Its two entries are both called `1`, and one of them is lost. -/
theorem keepsEntries_iff_rivals : ∃ store ref members, store.tables[ref]? = some rivals ∧
    encode store (.table ref) = .ok (.object members) ∧ rivals.size = 2 ∧ members.length = 1 ∧
    ¬KeepsEntries store rivals members := by
  have hsize : rivals.size = 2 := holds_rivals.size
  let store : Store := { Store.start with tables := #[rivals] }
  have ht : store.tables[0]? = some rivals := rfl
  have hlisted : isArray store rivals = .ok false := by
    rw [isArray, length_rivals, hsize]
    rfl
  have hnames : ∀ e ∈ rivals.toList, Names e.1 "1" ∧ ∃ s, e.2 = .text s := by
    intro e he
    rcases List.mem_pair.mp (holds_rivals.toList_perm.mem_iff.mp he) with rfl | rfl
    · exact ⟨.int 1, "a", rfl⟩
    · exact ⟨.text "1", "b", rfl⟩
  obtain ⟨made, hmade⟩ : ∃ made, rivals.toList.mapM
      (memberOf? (encodeWithin store (store.tables.size + 1))) = .ok made := by
    refine Attempt.exists_mapM fun e he => ?_
    obtain ⟨hname, s, hs⟩ := hnames e he
    rw [memberOf?_named hname.memberName?_eq, hs, encodes_text s store (.refl _) _ (by omega)]
    exact ⟨_, rfl⟩
  have hencode : encode store (.table 0) = .ok (Json.ofMembers (made.filterMap id)) := by
    rw [encode, encodeWithin_object ht hlisted, hmade]
    rfl
  have hkeys : ∀ key, rivals.has key = true → ∃ name, Names key name := by
    intro key hkey
    obtain ⟨v, hmem⟩ := Table.has_iff_exists_mem.mp hkey
    exact ⟨"1", (hnames _ hmem).1⟩
  obtain ⟨hiff, hcount, hnamed, -⟩ := keepsEntries_iff ht hkeys hencode
  have hint : rivals.has (.int 1) = true := (holds_rivals.contains _).mpr (by decide)
  have htext : rivals.has (.text "1") = true := (holds_rivals.contains _).mpr (by decide)
  refine ⟨store, 0, _, ht, hencode, hsize, ?_, fun hkeeps => hiff.mp hkeeps 1 ⟨hint, htext⟩⟩
  have hfound := Json.isSome_member?_iff.mp ((hnamed "1").mpr ⟨_, htext, .text "1"⟩)
  have hmembers := List.length_pos_of_mem hfound
  rw [List.length_map] at hmembers
  -- both keys are called so, and so one entry has no member
  have htwins := Finset.card_pos.mpr ⟨_, Table.mem_twins.mpr ⟨hint, htext⟩⟩
  omega

end Interchange

end Lua

end FeatureTransform
