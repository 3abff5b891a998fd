import FeatureTransform.Proofs.Attempt
import FeatureTransform.Proofs.Json.RoundTrip

/-!
# What the reader gives

Whatever text the reader accepts, the value that it gives has the members of its objects in order
and is nested no deeper than the reader allows, so that the text of the value is accepted again. It
is read as the same value if the reader gives its numbers back.
-/

namespace FeatureTransform.Json

/-! ## Values that may be read -/

/-- A value inside of which so many arrays and objects may be opened around each other, and whose
objects have their members in order. -/
structure Within (room : Nat) (v : Json) : Prop where
  /-- objects have their members in order -/
  wellFormed : v.WellFormed
  /-- there is room for the nesting -/
  depth : v.depth ≤ room

/-- There is room for a value exactly if its objects are in order and its depth is not greater than
the room. -/
theorem within_iff {room : Nat} {v : Json} : v.Within room ↔ v.WellFormed ∧ v.depth ≤ room :=
  ⟨fun h => ⟨h.wellFormed, h.depth⟩, fun ⟨hv, hdepth⟩ => ⟨hv, hdepth⟩⟩

/-- Neither an array nor an object. -/
def IsAtom : Json → Prop
  | .array _ | .object _ => False
  | _ => True

/-- A value with nothing inside needs no room. -/
theorem IsAtom.within {v : Json} (h : v.IsAtom) (room : Nat) : v.Within room := by
  cases v with
  | array items => cases h
  | object members => cases h
  | _ => exact ⟨trivial, Nat.zero_le room⟩

namespace Within

variable {room : Nat} {items : List Json} {members : List (String × Json)}

/-- More room does no harm. -/
theorem mono {v : Json} (h : v.Within room) {more : Nat} (hmore : room ≤ more) : v.Within more :=
  ⟨h.wellFormed, h.depth.trans hmore⟩

theorem items_iff : (∀ v ∈ items, v.Within room) ↔
    WellFormedItems items ∧ itemsDepth items ≤ room := by
  induction items with
  | nil => simp [WellFormedItems, itemsDepth]
  | cons v rest ih =>
    rw [List.forall_mem_cons, ih, within_iff, WellFormedItems, itemsDepth, max_le_iff]
    exact and_and_and_comm

theorem members_iff : (∀ m ∈ members, m.2.Within room) ↔
    WellFormedMembers members ∧ membersDepth members ≤ room := by
  induction members with
  | nil => simp [WellFormedMembers, membersDepth]
  | cons m rest ih =>
    obtain ⟨name, v⟩ := m
    rw [List.forall_mem_cons, ih, within_iff, WellFormedMembers, membersDepth, max_le_iff]
    exact and_and_and_comm

/-- An array takes one level of the room, and leaves the rest to its items. -/
theorem array_iff : (Json.array items).Within (room + 1) ↔ ∀ v ∈ items, v.Within room := by
  rw [items_iff]
  constructor
  · rintro ⟨hitems, hdepth⟩
    exact ⟨hitems, Nat.le_of_succ_le_succ hdepth⟩
  · rintro ⟨hitems, hdepth⟩
    exact ⟨hitems, Nat.succ_le_succ hdepth⟩

/-- An object takes one level of the room and leaves the rest to its members, which have to stand in
order. -/
theorem object_iff : (Json.object members).Within (room + 1) ↔
    Sorted members ∧ ∀ m ∈ members, m.2.Within room := by
  rw [members_iff]
  constructor
  · rintro ⟨⟨hsorted, hmembers⟩, hdepth⟩
    exact ⟨hsorted, hmembers, Nat.le_of_succ_le_succ hdepth⟩
  · rintro ⟨hsorted, hmembers, hdepth⟩
    exact ⟨⟨hsorted, hmembers⟩, Nat.succ_le_succ hdepth⟩

/-- Whatever the order of the members, the object that they make has them in order; of members with
one name it has the last. -/
theorem ofMembers (h : ∀ m ∈ members, m.2.Within room) : (ofMembers members).Within (room + 1) :=
  object_iff.mpr ⟨sorted_sortMembers members, fun m hm => h m (mem_of_mem_sortMembers hm)⟩

/-- What is read from its own text is the value with its numbers read again. -/
theorem readText {v : Json} (h : v.Within maxDepth) : readText v.text = .ok v.reread :=
  readText_text h.wellFormed h.depth

/-- What is read back from its own text, if the reader gives each of its numbers back. -/
theorem readText_of_readsBack {v : Json} (h : v.Within maxDepth) (hback : v.ReadsBack) :
    Json.readText v.text = .ok v := by
  rw [h.readText, hback.reread]

end Within

/-! ## Steps backwards

Each function of the reader can only have come to its result by what it reads first. -/

theorem readWord_eq_ok {value v : Json} {expected s rest : Text}
    (h : readWord value expected s = .ok (v, rest)) : v = value := by
  induction expected generalizing s with
  | nil =>
    cases h
    rfl
  | cons c expected ih =>
    cases s with
    | nil => cases h
    | cons d s =>
      rw [readWord] at h
      by_cases hc : c = d
      · rw [if_pos hc] at h
        exact ih h
      · rw [if_neg hc] at h
        cases h

section Steps

variable {fuel room : Nat} {first : Bool} {s rest : Text}

/-- A value that has been read is an atom, or the reader has opened an array or an object and there
was room for it. -/
theorem readValue_cases {v : Json} (h : readValue (fuel + 1) room s = .ok (v, rest)) :
    v.IsAtom ∨
    (∃ inner inside items, room = inner + 1 ∧ v = .array items ∧
      readItems fuel inner true inside = .ok (items, rest)) ∨
    ∃ inner inside members, room = inner + 1 ∧ v = ofMembers members ∧
      readMembers fuel inner true inside = .ok (members, rest) := by
  rw [readValue] at h
  split at h
  · cases h
  · -- the three words
    obtain rfl := readWord_eq_ok h
    exact .inl trivial
  · obtain rfl := readWord_eq_ok h
    exact .inl trivial
  · obtain rfl := readWord_eq_ok h
    exact .inl trivial
  · -- a string
    obtain ⟨text, -, h⟩ := Attempt.bind_eq_ok h
    cases h
    exact .inl trivial
  · -- an array, if there is room for it
    rename_i inside _
    cases room with
    | zero => cases h
    | succ inner =>
      obtain ⟨⟨items, behind⟩, hitems, h⟩ := Attempt.bind_eq_ok h
      cases h
      exact .inr (.inl ⟨inner, inside, items, rfl, rfl, hitems⟩)
  · -- an object, if there is room for it
    rename_i inside _
    cases room with
    | zero => cases h
    | succ inner =>
      obtain ⟨⟨members, behind⟩, hmembers, h⟩ := Attempt.bind_eq_ok h
      cases h
      exact .inr (.inr ⟨inner, inside, members, rfl, rfl, hmembers⟩)
  · -- a number, with a sign and without
    obtain ⟨n, -, h⟩ := Attempt.bind_eq_ok h
    cases h
    exact .inl trivial
  · split at h
    · obtain ⟨n, -, h⟩ := Attempt.bind_eq_ok h
      cases h
      exact .inl trivial
    · cases h

theorem readItems_cases {items : List Json}
    (h : readItems (fuel + 1) room first s = .ok (items, rest)) :
    items = [] ∨ ∃ inside, readItem fuel room inside = .ok (items, rest) := by
  rw [readItems] at h
  split at h
  · cases h
  · cases h
    exact .inl rfl
  · split at h
    · exact .inr ⟨_, h⟩
    · split at h
      · split at h
        · cases h
        · cases h
        · exact .inr ⟨_, h⟩
      · cases h

/-- An item that has been read is a value, and the items behind it are read from where it ends. -/
theorem readItem_cases {items : List Json} (h : readItem (fuel + 1) room s = .ok (items, rest)) :
    ∃ v behind others, items = v :: others ∧ readValue fuel room s = .ok (v, behind) ∧
      readItems fuel room false behind = .ok (others, rest) := by
  rw [readItem] at h
  obtain ⟨⟨v, behind⟩, hv, h⟩ := Attempt.bind_eq_ok h
  obtain ⟨⟨others, _⟩, hothers, h⟩ := Attempt.bind_eq_ok h
  cases h
  exact ⟨v, behind, others, rfl, hv, hothers⟩

theorem readMembers_cases {members : List (String × Json)}
    (h : readMembers (fuel + 1) room first s = .ok (members, rest)) :
    members = [] ∨ ∃ inside, readMember fuel room inside = .ok (members, rest) := by
  rw [readMembers] at h
  split at h
  · cases h
  · cases h
    exact .inl rfl
  · split at h
    · split at h
      · exact .inr ⟨_, h⟩
      · cases h
    · split at h
      · split at h
        · cases h
        · exact .inr ⟨_, h⟩
        · cases h
        · cases h
      · cases h

/-- A member that has been read has a name and a value, and the members behind it are read from
where it ends. -/
theorem readMember_cases {members : List (String × Json)}
    (h : readMember (fuel + 1) room s = .ok (members, rest)) :
    ∃ name v inside behind others, members = (name, v) :: others ∧
      readValue fuel room inside = .ok (v, behind) ∧
      readMembers fuel room false behind = .ok (others, rest) := by
  rw [readMember] at h
  obtain ⟨⟨name, colon⟩, -, h⟩ := Attempt.bind_eq_ok h
  simp only at h
  split at h
  · cases h
  · rename_i inside _
    obtain ⟨⟨v, behind⟩, hv, h⟩ := Attempt.bind_eq_ok h
    obtain ⟨⟨others, _⟩, hothers, h⟩ := Attempt.bind_eq_ok h
    cases h
    exact ⟨name, v, inside, behind, others, rfl, hv, hothers⟩
  · cases h

end Steps

/-! ## All that is read -/

/-- With so much fuel the reader gives nothing that the room does not allow. -/
structure Confined (fuel : Nat) : Prop where
  /-- values -/
  value : ∀ {room s v rest}, readValue fuel room s = .ok (v, rest) → v.Within room
  /-- the items up to a closing bracket -/
  items : ∀ {room first s items rest}, readItems fuel room first s = .ok (items, rest) →
    ∀ v ∈ items, v.Within room
  /-- an item and those behind it -/
  item : ∀ {room s items rest}, readItem fuel room s = .ok (items, rest) →
    ∀ v ∈ items, v.Within room
  /-- the members up to a closing brace -/
  members : ∀ {room first s members rest}, readMembers fuel room first s = .ok (members, rest) →
    ∀ m ∈ members, m.2.Within room
  /-- a member and those behind it -/
  member : ∀ {room s members rest}, readMember fuel room s = .ok (members, rest) →
    ∀ m ∈ members, m.2.Within room

/-- All that the reader gives is confined to its room. The induction is on the fuel, over the five
functions of the reader at once. -/
theorem confined (fuel : Nat) : Confined fuel := by
  -- each function calls the others with less fuel: one induction carries all five
  induction fuel with
  | zero =>
    constructor <;> intros <;>
      simp_all only [readValue, readItems, readItem, readMembers, readMember, reduceCtorEq]
  | succ fuel ih =>
    refine ⟨?_, ?_, ?_, ?_, ?_⟩
    · intro room s v rest h
      rcases readValue_cases h with hatom | ⟨inner, inside, items, rfl, rfl, hitems⟩ |
          ⟨inner, inside, members, rfl, rfl, hmembers⟩
      · exact hatom.within room
      · exact Within.array_iff.mpr (ih.items hitems)
      · exact Within.ofMembers (ih.members hmembers)
    · intro room first s items rest h
      rcases readItems_cases h with rfl | ⟨inside, hitem⟩
      · exact fun v hv => absurd hv List.not_mem_nil
      · exact ih.item hitem
    · intro room s items rest h
      obtain ⟨v, behind, others, rfl, hv, hothers⟩ := readItem_cases h
      exact List.forall_mem_cons.mpr ⟨ih.value hv, ih.items hothers⟩
    · intro room first s members rest h
      rcases readMembers_cases h with rfl | ⟨inside, hmember⟩
      · exact fun v hv => absurd hv List.not_mem_nil
      · exact ih.member hmember
    · intro room s members rest h
      obtain ⟨name, v, inside, behind, others, rfl, hv, hothers⟩ := readMember_cases h
      exact List.forall_mem_cons.mpr ⟨ih.value hv, ih.members hothers⟩

/-- **What is read** is in order and not nested too deep, whatever the text was: members are sorted
as they are read, and each bracket takes some of the room. -/
theorem within_of_readText {s : Text} {v : Json} (h : readText s = .ok v) : v.Within maxDepth := by
  rw [readText] at h
  obtain ⟨⟨value, rest⟩, hvalue, h⟩ := Attempt.bind_eq_ok h
  simp only at h
  split at h
  · cases h
    exact (confined _).value hvalue
  · cases h

/-- What is read is read again from the text that is written of it. Only the numbers need a
condition, since the reader may take the text of a double for its neighbour. -/
theorem readText_of_readText {s : Text} {v : Json} (h : readText s = .ok v) (hback : v.ReadsBack) :
    readText v.text = .ok v :=
  (within_of_readText h).readText_of_readsBack hback

end FeatureTransform.Json
