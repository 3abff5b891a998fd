import FeatureTransform.Proofs.Json.RoundTrip

/-!
# What comes back from programs

Programs have no `null` that could be a member of an object, and no integer beyond the signed ones
of 64 bits: a value that goes into a program and comes back has lost those. A portable value has
none of them. What has come back is portable, so that it is not changed a second time.
-/

namespace FeatureTransform.Json

mutual

/-- What a value is when it comes back from a program. -/
def settle : Json → Json
  | .number (.integer i) =>
    match i.toInt64? with
    | some i => .ofInt64 i
    | none => .ofFloat (Number.integer i).toFloat
  | .array items => .array (settleItems items)
  | .object members => .object (settleMembers members)
  | v => v

/-- What the items of an array are when they come back. -/
def settleItems : List Json → List Json
  | [] => []
  | v :: rest => settle v :: settleItems rest

/-- What the members of an object are when they come back: those that are `null` do not. -/
def settleMembers : List (String × Json) → List (String × Json)
  | [] => []
  | (_, .null) :: rest => settleMembers rest
  | (name, v) :: rest => (name, settle v) :: settleMembers rest

end

mutual

/-- No member of an object inside is `null`, and every integer is a signed one of 64 bits. -/
def Portable : Json → Prop
  | .number (.integer i) => i.value < 0x8000000000000000
  | .array items => PortableItems items
  | .object members => PortableMembers members
  | _ => True

/-- All items are portable. -/
def PortableItems : List Json → Prop
  | [] => True
  | v :: rest => Portable v ∧ PortableItems rest

/-- All members are portable, and none is `null`. -/
def PortableMembers : List (String × Json) → Prop
  | [] => True
  | (_, v) :: rest => v ≠ .null ∧ Portable v ∧ PortableMembers rest

end

/-- A member that is not `null` comes back under its name. -/
theorem settleMembers_cons {name : String} {v : Json} (hv : v ≠ .null)
    (rest : List (String × Json)) :
    settleMembers ((name, v) :: rest) = (name, settle v) :: settleMembers rest := by
  cases v <;> first | exact absurd rfl hv | rfl

theorem ofInt64_of_lt {i : Integer} (h : i.value < 0x8000000000000000) :
    ofInt64 (Int64.ofInt i.value) = .number (.integer i) := by
  have hlow := i.inRange.1
  have hvalue : (Int64.ofInt i.value).toInt = i.value := Int64.toInt_ofInt_of_le (by omega) h
  simp only [ofInt64, Integer.ofInt64, hvalue]

theorem ofFloat_value (d : Double) : ofFloat d.value = .number (.double d) := by
  simp only [ofFloat, Number.ofFloat?, dif_pos d.finite]

mutual

/-- **Portable** values come back as they are: there is nothing in them that a table could not hold.
-/
theorem settle_of_portable (v : Json) (h : v.Portable) : v.settle = v := by
  match v with
  | .null | .bool _ | .string _ | .number (.double _) => rfl
  | .number (.integer i) =>
    have hlow : i.value < 0x8000000000000000 := h
    simp only [settle, Integer.toInt64?, if_pos hlow]
    exact ofInt64_of_lt hlow
  | .array items => rw [settle, settleItems_of_portable items h]
  | .object members => rw [settle, settleMembers_of_portable members h]

theorem settleItems_of_portable (items : List Json) (h : PortableItems items) :
    settleItems items = items := by
  match items with
  | [] => rfl
  | v :: rest =>
    obtain ⟨hv, hrest⟩ := h
    rw [settleItems, settle_of_portable v hv, settleItems_of_portable rest hrest]

theorem settleMembers_of_portable (members : List (String × Json)) (h : PortableMembers members) :
    settleMembers members = members := by
  match members with
  | [] => rfl
  | (name, v) :: rest =>
    obtain ⟨hnull, hv, hrest⟩ := h
    rw [settleMembers_cons hnull, settle_of_portable v hv, settleMembers_of_portable rest hrest]

end

theorem settleMembers_append (members others : List (String × Json)) :
    settleMembers (members ++ others) = settleMembers members ++ settleMembers others := by
  induction members with
  | nil => rfl
  | cons m rest ih =>
    obtain ⟨name, v⟩ := m
    by_cases hnull : v = .null
    · subst hnull
      exact ih
    · rw [List.cons_append, settleMembers_cons hnull, settleMembers_cons hnull, ih,
        List.cons_append]

theorem length_settleItems (items : List Json) : (settleItems items).length = items.length := by
  induction items with
  | nil => rfl
  | cons v rest ih => rw [settleItems, List.length_cons, List.length_cons, ih]

/-- The members that come back are named as before, and in the same order; some may be missing. -/
theorem settleMembers_sublist (members : List (String × Json)) :
    ((settleMembers members).map Prod.fst).Sublist (members.map Prod.fst) := by
  induction members with
  | nil => exact List.Sublist.refl _
  | cons m rest ih =>
    obtain ⟨name, v⟩ := m
    cases v with
    | null => exact ih.trans (List.sublist_cons_self _ _)
    | _ => exact ih.cons_cons _

theorem Sorted.settleMembers {members : List (String × Json)} (h : Sorted members) :
    Sorted (settleMembers members) :=
  (sorted_iff _).mpr (((sorted_iff _).mp h).sublist (settleMembers_sublist members))

/-- What is written for a double is `null` or a number, never a value with anything inside. -/
theorem ofFloat_eq (f : Float) : ofFloat f = .null ∨ ∃ n, ofFloat f = .number n := by
  unfold ofFloat
  split
  · exact .inr ⟨_, rfl⟩
  · exact .inl rfl

theorem settle_number_eq (n : Number) :
    settle (.number n) = .null ∨ ∃ m, settle (.number n) = .number m := by
  cases n with
  | integer i =>
    rw [settle]
    cases i.toInt64? with
    | some i => exact .inr ⟨_, rfl⟩
    | none => exact ofFloat_eq _
  | double d => exact .inr ⟨_, rfl⟩

/-! ### What stays as it was -/

mutual

/-- What comes back has its members in order if what went in had, since leaving out members changes
no order. -/
theorem WellFormed.settle {v : Json} (h : v.WellFormed) : v.settle.WellFormed := by
  match v with
  | .null | .bool _ | .string _ => trivial
  | .number n =>
    obtain heq | ⟨m, heq⟩ := settle_number_eq n
    · rw [heq]
      trivial
    · rw [heq]
      trivial
  | .array items => exact WellFormedItems.settle h
  | .object members => exact ⟨h.1.settleMembers, WellFormedMembers.settle h.2⟩

theorem WellFormedItems.settle {items : List Json} (h : WellFormedItems items) :
    WellFormedItems (settleItems items) := by
  match items with
  | [] => trivial
  | v :: rest => exact ⟨WellFormed.settle h.1, WellFormedItems.settle h.2⟩

theorem WellFormedMembers.settle {members : List (String × Json)} (h : WellFormedMembers members) :
    WellFormedMembers (settleMembers members) := by
  match members with
  | [] => trivial
  | (name, v) :: rest =>
    by_cases hnull : v = .null
    · subst hnull
      rw [settleMembers]
      exact WellFormedMembers.settle h.2
    · rw [settleMembers_cons hnull]
      exact ⟨WellFormed.settle h.1, WellFormedMembers.settle h.2⟩

end

mutual

/-- What comes back is nested no deeper. It can be less deep where the deepest member was `null`. -/
theorem depth_settle_le (v : Json) : v.settle.depth ≤ v.depth := by
  match v with
  | .null | .bool _ | .string _ => exact Nat.le_refl _
  | .number n =>
    obtain heq | ⟨m, heq⟩ := settle_number_eq n
    · rw [heq]
      exact Nat.zero_le _
    · rw [heq]
      exact Nat.le_refl _
  | .array items => exact Nat.succ_le_succ (depth_settleItems_le items)
  | .object members => exact Nat.succ_le_succ (depth_settleMembers_le members)

theorem depth_settleItems_le (items : List Json) :
    itemsDepth (settleItems items) ≤ itemsDepth items := by
  match items with
  | [] => exact Nat.le_refl _
  | v :: rest =>
    have hv := depth_settle_le v
    have hrest := depth_settleItems_le rest
    rw [settleItems, itemsDepth, itemsDepth]
    omega

theorem depth_settleMembers_le (members : List (String × Json)) :
    membersDepth (settleMembers members) ≤ membersDepth members := by
  match members with
  | [] => exact Nat.le_refl _
  | (name, v) :: rest =>
    have hv := depth_settle_le v
    have hrest := depth_settleMembers_le rest
    rw [membersDepth]
    by_cases hnull : v = .null
    · subst hnull
      rw [settleMembers]
      omega
    · rw [settleMembers_cons hnull, membersDepth]
      omega

end

/-! ### A second time -/

/-- A large integer comes back as the double nearest to it, because a program holds it as a double.
-/
theorem settle_large {i : Integer} (h : 0x8000000000000000 ≤ i.value) :
    ∃ d : Double, settle (.number (.integer i)) = .number (.double d) ∧
      d.value = Float.nearest i.value := by
  have hrange := i.inRange
  have hfinite := FeatureTransform.Double.isFinite_nearest (n := i.value) (by omega)
  refine ⟨⟨_, hfinite⟩, ?_, rfl⟩
  have hlarge : ¬i.value < 0x8000000000000000 := by omega
  simp only [settle, Integer.toInt64?, if_neg hlarge]
  exact ofFloat_value ⟨_, hfinite⟩

/-- Nothing but `null` comes back as `null`. -/
theorem settle_ne_null {v : Json} (hv : v ≠ .null) : v.settle ≠ .null := by
  match v with
  | .null => exact absurd rfl hv
  | .bool _ | .string _ | .number (.double _) | .array _ | .object _ => nofun
  | .number (.integer i) =>
    by_cases h : i.value < 0x8000000000000000
    · rw [settle_of_portable (.number (.integer i)) h]
      nofun
    · obtain ⟨d, heq, -⟩ := settle_large (i := i) (by omega)
      rw [heq]
      nofun

mutual

/-- What comes back is portable: `null`s among the members are gone, and large integers have become
doubles. -/
theorem portable_settle (v : Json) : v.settle.Portable := by
  match v with
  | .null | .bool _ | .string _ | .number (.double _) => trivial
  | .number (.integer i) =>
    by_cases h : i.value < 0x8000000000000000
    · rw [settle_of_portable (.number (.integer i)) h]
      exact h
    · obtain ⟨d, heq, -⟩ := settle_large (i := i) (by omega)
      rw [heq]
      trivial
  | .array items => exact portable_settleItems items
  | .object members => exact portable_settleMembers members

theorem portable_settleItems (items : List Json) : PortableItems (settleItems items) := by
  match items with
  | [] => trivial
  | v :: rest => exact ⟨portable_settle v, portable_settleItems rest⟩

theorem portable_settleMembers (members : List (String × Json)) :
    PortableMembers (settleMembers members) := by
  match members with
  | [] => trivial
  | (name, v) :: rest =>
    by_cases hnull : v = .null
    · subst hnull
      exact portable_settleMembers rest
    · rw [settleMembers_cons hnull]
      exact ⟨settle_ne_null hnull, portable_settle v, portable_settleMembers rest⟩

end

/-- **Once is enough.** What has come back comes back as it is, so that a value changes on its first
way through a program, if at all. -/
theorem settle_settle (v : Json) : v.settle.settle = v.settle :=
  settle_of_portable _ (portable_settle v)

/-! ## Numbers -/

theorem readsBack_object {members : List (String × Json)} :
    (Json.object members).ReadsBack ↔ ReadsBackMembers members := Iff.rfl

theorem readsBackMembers_cons {m : String × Json} {rest : List (String × Json)} :
    ReadsBackMembers (m :: rest) ↔ m.2.ReadsBack ∧ ReadsBackMembers rest := Iff.rfl

theorem readsBackMembers_append {members others : List (String × Json)} :
    ReadsBackMembers (members ++ others) ↔
      ReadsBackMembers members ∧ ReadsBackMembers others := by
  induction members with
  | nil => exact (iff_of_eq (true_and _)).symm
  | cons m rest ih =>
    rw [List.cons_append, readsBackMembers_cons, readsBackMembers_cons, ih, and_assoc]

/-- Portable members bring no new numbers back: each is `null` or comes back as it is. So if the
reader gave the numbers back before, it still does. -/
theorem ReadsBackMembers.settle {members : List (String × Json)} (h : ReadsBackMembers members)
    (hportable : ∀ m ∈ members, m.2.Portable) : ReadsBackMembers (settleMembers members) := by
  induction members with
  | nil => trivial
  | cons m rest ih =>
    obtain ⟨name, v⟩ := m
    obtain ⟨hv, hrest⟩ := h
    obtain ⟨hfirst, hothers⟩ := List.forall_mem_cons.mp hportable
    by_cases hnull : v = .null
    · subst hnull
      exact ih hrest hothers
    · rw [settleMembers_cons hnull, settle_of_portable v hfirst]
      exact ⟨hv, ih hrest hothers⟩

/-! ## Sizes -/

mutual

/-- No array inside has more items than there are positions in a table. -/
def Addressable : Json → Prop
  | .array items => items.length < 2 ^ 63 ∧ AddressableItems items
  | .object members => AddressableMembers members
  | _ => True

/-- The same for the items of an array. -/
def AddressableItems : List Json → Prop
  | [] => True
  | v :: rest => Addressable v ∧ AddressableItems rest

/-- The same for the values of members. -/
def AddressableMembers : List (String × Json) → Prop
  | [] => True
  | (_, v) :: rest => Addressable v ∧ AddressableMembers rest

end

theorem length_le_itemsText (items : List Json) : items.length ≤ (itemsText items).length := by
  induction items with
  | nil => simp
  | cons v rest ih =>
    simp only [itemsText, List.length_cons, List.length_append]
    omega

/-- An array is longer than it has items, as each item is written with a character at least. -/
theorem itemsText_le_text (items : List Json) :
    (itemsText items).length ≤ (Json.array items).text.length := by
  cases items with
  | nil => simp [itemsText, text]
  | cons v rest => simp [itemsText, text]

theorem membersText_le_text (members : List (String × Json)) :
    (membersText members).length ≤ (Json.object members).text.length := by
  rcases members with _ | ⟨⟨name, v⟩, rest⟩
  · simp [membersText, text]
  · simp [membersText, text]

mutual

/-- A value is addressable if its text is not longer than that. A text that fits into memory is far
shorter, so that what is read is always addressable. -/
theorem addressable_of_length (v : Json) (h : v.text.length < 2 ^ 63) : v.Addressable := by
  match v with
  | .null | .bool _ | .string _ | .number _ => trivial
  | .array items =>
    have hitems := length_le_itemsText items
    have htext := itemsText_le_text items
    exact ⟨by omega, addressableItems_of_length items (by omega)⟩
  | .object members =>
    have htext := membersText_le_text members
    exact addressableMembers_of_length members (by omega)

theorem addressableItems_of_length (items : List Json) (h : (itemsText items).length < 2 ^ 63) :
    AddressableItems items := by
  match items with
  | [] => trivial
  | v :: rest =>
    simp only [itemsText, List.length_cons, List.length_append] at h
    exact ⟨addressable_of_length v (by omega), addressableItems_of_length rest (by omega)⟩

theorem addressableMembers_of_length (members : List (String × Json))
    (h : (membersText members).length < 2 ^ 63) : AddressableMembers members := by
  match members with
  | [] => trivial
  | (name, v) :: rest =>
    simp only [membersText, List.length_cons, List.length_append] at h
    exact ⟨addressable_of_length v (by omega), addressableMembers_of_length rest (by omega)⟩

end

theorem length_rereadItems (items : List Json) : (rereadItems items).length = items.length := by
  induction items with
  | nil => rfl
  | cons v rest ih => rw [rereadItems, List.length_cons, List.length_cons, ih]

mutual

/-- Reading the numbers again leaves the lengths of arrays, and so a value stays addressable. -/
theorem Addressable.reread {v : Json} (h : v.Addressable) : v.reread.Addressable := by
  match v with
  | .null | .bool _ | .string _ | .number _ => trivial
  | .array items =>
    refine ⟨?_, AddressableItems.reread h.2⟩
    rw [length_rereadItems]
    exact h.1
  | .object members => exact AddressableMembers.reread h

theorem AddressableItems.reread {items : List Json} (h : AddressableItems items) :
    AddressableItems (rereadItems items) := by
  match items with
  | [] => trivial
  | v :: rest => exact ⟨Addressable.reread h.1, AddressableItems.reread h.2⟩

theorem AddressableMembers.reread {members : List (String × Json)}
    (h : AddressableMembers members) :
    AddressableMembers (rereadMembers members) := by
  match members with
  | [] => trivial
  | (name, v) :: rest => exact ⟨Addressable.reread h.1, AddressableMembers.reread h.2⟩

end

mutual

/-- What comes back has arrays of the same lengths: items that are `null` are kept, unlike members.
-/
theorem Addressable.settle {v : Json} (h : v.Addressable) : v.settle.Addressable := by
  match v with
  | .null | .bool _ | .string _ => trivial
  | .number n =>
    obtain heq | ⟨m, heq⟩ := settle_number_eq n
    · rw [heq]
      trivial
    · rw [heq]
      trivial
  | .array items =>
    refine ⟨?_, AddressableItems.settle h.2⟩
    rw [length_settleItems]
    exact h.1
  | .object members => exact AddressableMembers.settle h

theorem AddressableItems.settle {items : List Json} (h : AddressableItems items) :
    AddressableItems (settleItems items) := by
  match items with
  | [] => trivial
  | v :: rest => exact ⟨Addressable.settle h.1, AddressableItems.settle h.2⟩

theorem AddressableMembers.settle {members : List (String × Json)}
    (h : AddressableMembers members) :
    AddressableMembers (settleMembers members) := by
  match members with
  | [] => trivial
  | (name, v) :: rest =>
    by_cases hnull : v = .null
    · subst hnull
      have hrest : AddressableMembers (settleMembers rest) := AddressableMembers.settle h.2
      exact hrest
    · rw [settleMembers_cons hnull]
      exact ⟨Addressable.settle h.1, AddressableMembers.settle h.2⟩

end

end FeatureTransform.Json
