import FeatureTransform.Proofs.Lua.Interchange

/-!
# Arrays and objects

The JSON form of a table is an array if its keys are the positions from one on, or if it is empty
and marked. It is an array in one more case: where the table has holes, and outside of its length
just as many keys as there are holes inside, because only the numbers are compared. Of such a table
the keys outside are lost, and the holes are `null`.

Which of the borders of a table its length is depends on its room; every border is the length for
some room, and what is said here of the length holds whatever it is.
-/

namespace FeatureTransform.Lua

namespace Table

/-! ## Keys and positions -/

section Keys

variable {t : Table} {n b : Nat}

/-- The keys that have a value. -/
def keySet (t : Table) : Finset Key := t.entries.keys.toFinset

/-- The positions up to `n`. -/
def reach (n : Nat) : Finset Key := (Finset.range n).image fun k => Key.nat (k + 1)

/-- The keys that are no positions up to `n`. -/
def strays (t : Table) (n : Nat) : Finset Key := t.keySet \ reach n

/-- The positions up to `n` that have no value. -/
def gaps (t : Table) (n : Nat) : Finset Key := reach n \ t.keySet

/-- The keys are the positions up to `n`. -/
def IsList (t : Table) (n : Nat) : Prop :=
  ∀ key, t.has key = true ↔ ∃ k, 1 ≤ k ∧ k ≤ n ∧ key = .nat k

/-- There are gaps up to `n`, and as many other keys as gaps. -/
def Hollow (t : Table) (n : Nat) : Prop :=
  (t.gaps n).Nonempty ∧ (t.strays n).card = (t.gaps n).card

theorem mem_keySet {key : Key} : key ∈ t.keySet ↔ t.has key = true := by
  rw [keySet, List.mem_toFinset, Std.HashMap.mem_keys, has, Std.HashMap.contains_iff_mem]

theorem mem_reach {key : Key} : key ∈ reach n ↔ ∃ k, 1 ≤ k ∧ k ≤ n ∧ key = .nat k := by
  rw [reach, Finset.mem_image]
  constructor
  · rintro ⟨k, hk, rfl⟩
    have hless := Finset.mem_range.mp hk
    exact ⟨k + 1, by omega, by omega, rfl⟩
  · rintro ⟨k, hpos, hle, rfl⟩
    refine ⟨k - 1, Finset.mem_range.mpr (by omega), ?_⟩
    rw [Nat.sub_add_cancel hpos]

/-- A table is a list of a length if its keys are the positions up to it. -/
theorem isList_iff : t.IsList n ↔ t.keySet = reach n := by
  rw [Finset.ext_iff]
  simp only [IsList, mem_keySet, mem_reach]

/-- The keys are as many as the entries. -/
theorem card_keySet (t : Table) : t.keySet.card = t.size := by
  have hnodup : t.entries.keys.Nodup :=
    Std.HashMap.distinct_keys.imp fun hne heq => by simp [heq] at hne
  rw [keySet, List.toFinset_card_of_nodup hnodup, Std.HashMap.length_keys, size]

/-- There are as many positions up to a number as it says. -/
theorem card_reach (hn : n ≤ lastPosition) : (reach n).card = n := by
  have hlast : lastPosition = 2 ^ 63 - 1 := rfl
  rw [reach, Finset.card_image_of_injOn, Finset.card_range]
  intro j hj k hk heq
  have hj := Finset.mem_range.mp hj
  have hk := Finset.mem_range.mp hk
  have hsucc := (Key.nat_inj (by omega) (by omega)).mp heq
  omega

/-- A list has one border, its length, and so any way to look for a border finds it. -/
theorem IsList.border_eq (h : t.IsList n) (hn : n ≤ lastPosition) (hb : t.IsBorder b) : b = n := by
  have hlast : lastPosition = 2 ^ 63 - 1 := rfl
  refine IsSequence.border_eq (fun k hk => ?_) hn hb
  rw [h]
  constructor
  · rintro ⟨j, hpos, hle, heq⟩
    obtain rfl := (Key.nat_inj (by omega) (by omega)).mp heq
    exact ⟨hpos, hle⟩
  · rintro ⟨hpos, hle⟩
    exact ⟨k, hpos, hle, rfl⟩

theorem IsList.size (h : t.IsList n) (hn : n ≤ lastPosition) : t.size = n := by
  rw [← card_keySet, isList_iff.mp h, card_reach hn]

/-- A table has `n` entries if its gaps and its other keys make up for each other: both are what is
left of two sets of the same size, one on each side. -/
theorem size_eq_iff_card (hn : n ≤ lastPosition) :
    t.size = n ↔ (t.strays n).card = (t.gaps n).card := by
  have hkeys := Finset.card_sdiff_add_card_inter t.keySet (reach n)
  have hreach := Finset.card_sdiff_add_card_inter (reach n) t.keySet
  rw [card_keySet] at hkeys
  rw [card_reach hn, Finset.inter_comm] at hreach
  change (t.strays n).card + _ = _ at hkeys
  change (t.gaps n).card + _ = _ at hreach
  omega

/-- **Counting.** That is so for a list, and for a hollow table. Nothing but the numbers is
compared, so the two are not told apart. -/
theorem size_eq_iff (hn : n ≤ lastPosition) : t.size = n ↔ t.IsList n ∨ t.Hollow n := by
  constructor
  · intro hsize
    have hcards := (size_eq_iff_card hn).mp hsize
    rcases (t.gaps n).eq_empty_or_nonempty with hnone | hsome
    · rw [hnone, Finset.card_empty, Finset.card_eq_zero] at hcards
      left
      rw [isList_iff]
      exact Finset.Subset.antisymm (Finset.sdiff_eq_empty_iff_subset.mp hcards)
        (Finset.sdiff_eq_empty_iff_subset.mp hnone)
    · exact .inr ⟨hsome, hcards⟩
  · rintro (hlist | hhollow)
    · exact hlist.size hn
    · exact (size_eq_iff_card hn).mpr hhollow.2

/-- A hollow table has a gap, and so it does not end at zero. -/
theorem Hollow.pos (h : t.Hollow n) : n ≠ 0 := by
  rintro rfl
  obtain ⟨key, hkey⟩ := h.1
  obtain ⟨k, hpos, hle, -⟩ := mem_reach.mp (Finset.mem_sdiff.mp hkey).1
  omega

/-- A position that there is room for takes its place. -/
theorem layout_set_position {key : Key} (h : t.layout.isPosition key = true) (v : Value) :
    (t.set key v).layout = t.layout := by
  unfold set
  split
  · rfl
  · split
    · rfl
    · simp only [Layout.make, h, Bool.true_or, if_true]

/-- So does another key that there is room for. -/
theorem arraySize_set_slot (key : Key) (v : Value)
    (h : t.layout.slots.size < t.layout.capacity) :
    (t.set key v).layout.arraySize = t.layout.arraySize := by
  unfold set
  split
  · rfl
  · split
    · rfl
    · simp only [Layout.make, if_pos h]
      split <;> rfl

/-- **Borders.** Every border is the length of the same entries with some room. So a statement about
the length that leaves the room open is one about all borders. -/
theorem length_border (hb : t.IsBorder b) :
    { t with layout := { t.layout with arraySize := b } }.length = b := by
  have hhas : ∀ key, { t with layout := { t.layout with arraySize := b } }.has key = t.has key :=
    fun key => rfl
  have hfull : ¬(b ≠ 0 ∧ (!t.has (.nat b)) = true) := by
    rintro ⟨hne, hnot⟩
    rw [hb.here.resolve_left hne] at hnot
    cases hnot
  rw [length]
  simp only [hhas]
  rw [if_neg hfull]
  rcases hb.behind with rfl | hbehind
  · -- behind the last position there is none to look at
    split
    · have hlast : t.has (.nat lastPosition) = true := hb.here.resolve_left (by decide)
      have hmax : max lastPosition 1 = lastPosition := rfl
      have hend : lastPosition < 2 * lastPosition := by decide
      rw [hmax, borderBeyond, if_pos hend, hhas, if_pos hlast]
    · rfl
  · rw [hbehind, if_neg Bool.false_ne_true]

end Keys

end Table

/-! ## The form of a table -/

namespace Interchange

section Forms

variable {store : Store} {ref : Nat} {t : Table}

/-- **The test** that decides about the form. -/
theorem isArray_iff (hroom : t.layout.arraySize ≤ 0x8000000) {listed : Bool}
    (h : isArray store t = .ok listed) : listed = true ↔
      (∃ n, 1 ≤ n ∧ n ≤ Table.lastPosition ∧ t.IsList n) ∨
      (t.size = 0 ∧ isMarked store t = .ok true) ∨ t.Hollow t.length := by
  have hborder := Table.isBorder_length hroom
  have hcount := Table.size_eq_iff (t := t) hborder.le
  rw [isArray] at h
  by_cases hlength : t.length = t.size
  · rw [if_pos hlength] at h
    by_cases hzero : t.length = 0
    · rw [if_pos hzero] at h
      have hsize : t.size = 0 := by omega
      constructor
      · rintro rfl
        exact .inr (.inl ⟨hsize, h⟩)
      · -- an empty table is neither a list of something nor hollow
        rintro (⟨n, hpos, hle, hlist⟩ | ⟨-, hmarked⟩ | hhollow)
        · have hn := hlist.size hle
          omega
        · exact Except.ok.inj (h.symm.trans hmarked)
        · exact absurd hzero hhollow.pos
    · -- the numbers agree and there are entries: that is a list or a hollow table
      rw [if_neg hzero] at h
      cases h
      refine ⟨fun _ => ?_, fun _ => rfl⟩
      rcases hcount.mp hlength.symm with hlist | hhollow
      · exact .inl ⟨t.length, by omega, hborder.le, hlist⟩
      · exact .inr (.inr hhollow)
  · -- the numbers differ, and in none of the three cases they do
    rw [if_neg hlength] at h
    cases h
    refine ⟨fun h => absurd h Bool.false_ne_true, ?_⟩
    rintro (⟨n, hpos, hle, hlist⟩ | ⟨hsize, -⟩ | hhollow)
    · have hn := hlist.size hle
      have hb := hlist.border_eq hle hborder
      omega
    · -- a border that is a position needs an entry
      rcases hborder.here with hzero | hhere
      · omega
      · have hmem := Finset.card_pos.mpr ⟨_, Table.mem_keySet.mpr hhere⟩
        rw [Table.card_keySet] at hmem
        omega
    · exact absurd (hcount.mpr (.inr hhollow)).symm hlength

/-- **Arrays and objects.** A table that has a JSON form has that of an array if it is a list, if it
is empty and marked, or if it is hollow, and that of an object otherwise. The third case comes from
the test, which compares the length with the number of entries and looks at no key: where as many
keys stand outside of the length as are missing inside it, the numbers agree. An array is as long as
the table, and leaves out as many keys as there are gaps in the table. -/
theorem encode_shape (ht : store.tables[ref]? = some t) (hroom : t.layout.arraySize ≤ 0x8000000)
    {json : Json} (hencode : encode store (.table ref) = .ok json) :
    ((∃ items, json = .array items) ↔
      (∃ n, 1 ≤ n ∧ n ≤ Table.lastPosition ∧ t.IsList n) ∨
      (t.size = 0 ∧ isMarked store t = .ok true) ∨ t.Hollow t.length) ∧
    ((∃ items, json = .array items) ∨ ∃ members, json = .object members) ∧
    ∀ items, json = .array items →
      items.length = t.length ∧ (t.strays t.length).card = (t.gaps t.length).card := by
  rw [encode] at hencode
  cases hlisted : isArray store t with
  | error e =>
    rw [encodeWithin_error ht hlisted] at hencode
    cases hencode
  | ok listed =>
    have hiff := isArray_iff hroom hlisted
    rw [← hiff]
    cases listed with
    | false =>
      rw [encodeWithin_object ht hlisted] at hencode
      obtain ⟨members, -, hjson⟩ := Attempt.bind_eq_ok hencode
      cases hjson
      refine ⟨⟨?_, fun h => absurd h Bool.false_ne_true⟩, .inr ⟨_, rfl⟩, ?_⟩
      · rintro ⟨items, hitems⟩
        cases hitems
      · intro items hitems
        cases hitems
    | true =>
      rw [encodeWithin_array ht hlisted] at hencode
      obtain ⟨items, hitems, hjson⟩ := Attempt.bind_eq_ok hencode
      cases hjson
      refine ⟨⟨fun _ => rfl, fun _ => ⟨items, rfl⟩⟩, .inl ⟨items, rfl⟩, ?_⟩
      rintro _ ⟨⟩
      have hlength := (Attempt.forall₂_of_mapM hitems).length_eq
      rw [itemsOf, List.length_map, List.length_range] at hlength
      -- nothing but the count makes an array of a table
      have hcount : t.size = t.length := by
        by_contra hne
        rw [isArray, if_neg (Ne.symm hne)] at hlisted
        cases hlisted
      exact ⟨hlength.symm, (Table.size_eq_iff_card (Table.isBorder_length hroom).le).mp hcount⟩

end Forms

/-- The table of `{1, nil, 3, x = 'a'}`, with room for three positions and one other key. -/
def holed : Table :=
  (((Table.sized 3 1).set (.nat 1) (.int 1)).set (.nat 3) (.int 3)).setText "x" (.text "a")

theorem holds_holed :
    holed.Holds [(.nat 1, .int 1), (.nat 3, .int 3), (.text "x", .text "a")] := by
  have hnone : (Table.sized 3 1).Holds [] :=
    ⟨by rw [Table.sized, Std.HashMap.toList_empty], by decide⟩
  have hone : ((Table.sized 3 1).set (.nat 1) (.int 1)).Holds [(.nat 1, .int 1)] :=
    hnone.set (int_ne_nil 1) (by decide)
  have hthree : (((Table.sized 3 1).set (.nat 1) (.int 1)).set (.nat 3) (.int 3)).Holds
      [(.nat 1, .int 1), (.nat 3, .int 3)] := hone.set (int_ne_nil 3) (by decide)
  exact hthree.set (text_ne_nil "a") (by decide)

theorem length_holed : holed.length = 3 := by
  have hroom : holed.layout.arraySize = 3 := by
    rw [holed, Table.setText, Table.arraySize_set_slot]
    · rw [Table.layout_set_position, Table.layout_set_position]
      · rfl
      · decide
      · rw [Table.layout_set_position] <;> decide
    · rw [Table.layout_set_position, Table.layout_set_position]
      · decide
      · decide
      · rw [Table.layout_set_position] <;> decide
  have hthree : holed.has (.nat 3) = true := (holds_holed.contains _).mpr (by decide)
  have hfour : holed.has (.nat 4) = false := by
    apply eq_false_of_ne_true
    rw [holds_holed.contains]
    decide
  rw [Table.length]
  simp only [hroom, hthree, hfour]
  rfl

/-- The two positions and the name are counted as an array of three items, and the name is not in
it. -/
theorem encode_shape_holed : ∃ store ref, store.tables[ref]? = some holed ∧
    encode store (.table ref) = .ok (.array [.ofInt64 1, .null, .ofInt64 3]) ∧
    holed.has (.text "x") = true ∧ holed.Hollow 3 := by
  have hsize : holed.size = 3 := holds_holed.size
  have hname : holed.has (.text "x") = true := (holds_holed.contains _).mpr (by decide)
  let store : Store := { Store.start with tables := #[holed] }
  have ht : store.tables[0]? = some holed := rfl
  have hitems : itemsOf holed = [.int 1, .nil, .int 3] := by
    have hone : holed.getNat 1 = .int 1 := holds_holed.get (by decide)
    have htwo : holed.getNat 2 = .nil := by
      apply Table.get_of_not_has
      rw [holds_holed.contains]
      decide
    have hthree : holed.getNat 3 = .int 3 := holds_holed.get (by decide)
    rw [itemsOf, length_holed]
    change [holed.getNat 1, holed.getNat 2, holed.getNat 3] = _
    rw [hone, htwo, hthree]
  have hlisted : isArray store holed = .ok true := by
    rw [isArray, length_holed, hsize]
    rfl
  have hencode : encode store (.table 0) = .ok (.array [.ofInt64 1, .null, .ofInt64 3]) := by
    rw [encode, encodeWithin_array ht hlisted, hitems]
    rfl
  refine ⟨store, 0, ht, hencode, hname, ?_⟩
  have hshape := encode_shape ht holds_holed.room hencode
  -- neither a list, for the name is a key, nor empty
  rcases hshape.1.mp ⟨_, rfl⟩ with ⟨n, -, -, hlist⟩ | ⟨hnone, -⟩ | hhollow
  · obtain ⟨k, -, -, hkey⟩ := (hlist (.text "x")).mp hname
    cases hkey
  · rw [hsize] at hnone
    cases hnone
  · rwa [length_holed] at hhollow

end Interchange

end FeatureTransform.Lua
