import FeatureTransform.Proofs.Json.Reread

/-!
# The JSON round trip

Reading the text of a value gives the value with its numbers read again, if the members of its
objects stand in order and it is nested no deeper than the reader accepts. The reader spends fuel,
and room for what it opens; a text needs no more of either than its length and its depth allow.
-/

namespace FeatureTransform.Json

open Decimal (Stops)

/-! ## Order and depth -/

mutual

/-- The members of every object inside stand in increasing order of their names. -/
def WellFormed : Json → Prop
  | .array items => WellFormedItems items
  | .object members => Sorted members ∧ WellFormedMembers members
  | _ => True

/-- All items are well-formed. -/
def WellFormedItems : List Json → Prop
  | [] => True
  | v :: rest => WellFormed v ∧ WellFormedItems rest

/-- All values of members are well-formed. -/
def WellFormedMembers : List (String × Json) → Prop
  | [] => True
  | (_, v) :: rest => WellFormed v ∧ WellFormedMembers rest

end

mutual

/-- How many arrays and objects stand around each other, at most. -/
def depth : Json → Nat
  | .array items => itemsDepth items + 1
  | .object members => membersDepth members + 1
  | _ => 0

/-- The greatest depth of the items. -/
def itemsDepth : List Json → Nat
  | [] => 0
  | v :: rest => max (depth v) (itemsDepth rest)

/-- The greatest depth of the values of members. -/
def membersDepth : List (String × Json) → Nat
  | [] => 0
  | (_, v) :: rest => max (depth v) (membersDepth rest)

end

mutual

/-- Reading the numbers again leaves the objects in order, since no name is touched. -/
theorem WellFormed.reread {v : Json} (h : v.WellFormed) : v.reread.WellFormed := by
  match v with
  | .null | .bool _ | .string _ | .number _ => trivial
  | .array items => exact WellFormedItems.reread h
  | .object members => exact ⟨h.1.rereadMembers, WellFormedMembers.reread h.2⟩

theorem WellFormedItems.reread {items : List Json} (h : WellFormedItems items) :
    WellFormedItems (rereadItems items) := by
  match items with
  | [] => trivial
  | v :: rest => exact ⟨WellFormed.reread h.1, WellFormedItems.reread h.2⟩

theorem WellFormedMembers.reread {members : List (String × Json)} (h : WellFormedMembers members) :
    WellFormedMembers (rereadMembers members) := by
  match members with
  | [] => trivial
  | (name, v) :: rest => exact ⟨WellFormed.reread h.1, WellFormedMembers.reread h.2⟩

end

/-! ## Values -/

/-- No text of a value begins with white space or a closing bracket. So the reader neither skips
anything in front of an item nor takes the item for the end of the array. -/
theorem exists_text_cons (v : Json) :
    ∃ c more, v.text = c :: more ∧ isSpace c = false ∧ c ≠ ']' := by
  match v with
  | .null => exact ⟨_, _, rfl, rfl, by decide⟩
  | .bool true => exact ⟨_, _, rfl, rfl, by decide⟩
  | .bool false => exact ⟨_, _, rfl, rfl, by decide⟩
  | .number n =>
    obtain ⟨negative, digits, m, htext, ⟨c, more, rfl, hc⟩, -⟩ := exists_readNumber n
    cases negative with
    | true => exact ⟨_, _, htext, rfl, by decide⟩
    | false =>
      refine ⟨_, _, htext, isSpace_of_isDigit hc, ?_⟩
      rintro rfl
      cases hc
  | .string s => exact ⟨_, _, rfl, rfl, by decide⟩
  | .array [] => exact ⟨_, _, rfl, rfl, by decide⟩
  | .array (_ :: _) => exact ⟨_, _, rfl, rfl, by decide⟩
  | .object [] => exact ⟨_, _, rfl, rfl, by decide⟩
  | .object (_ :: _) => exact ⟨_, _, rfl, rfl, by decide⟩

theorem text_ne_nil (v : Json) : v.text ≠ [] := by
  obtain ⟨c, more, htext, -⟩ := exists_text_cons v
  rw [htext]
  exact List.cons_ne_nil c more

/-- Behind a value in an array stands a comma or a bracket, which does not go on with a number. -/
theorem stops_itemsText (items : List Json) (rest : Text) : Stops (itemsText items ++ rest) := by
  cases items <;> constructor <;> rintro c ⟨⟩ <;> decide

/-- Behind a value in an object stands a comma or a brace, which does not go on with a number. -/
theorem stops_membersText (members : List (String × Json)) (rest : Text) :
    Stops (membersText members ++ rest) := by
  rcases members with _ | ⟨⟨name, v⟩, more⟩ <;> constructor <;> rintro c ⟨⟩ <;> decide

/-- A string is read back wherever a value may stand; its text is fuel enough. -/
theorem readValue_string (s : String) (rest : Text) {fuel : Nat}
    (hfuel : (quoted s).length ≤ fuel) (room : Nat) :
    readValue (fuel + 1) room (quoted s ++ rest) = .ok (.string s, rest) := by
  obtain ⟨inner, hinner, hread⟩ := readString_quoted s rest fuel hfuel
  rw [hinner, readValue, skipSpace_cons _ rfl]
  simp only
  rw [hread]
  rfl

/-! ### Steps of the reader -/

section Steps

variable {fuel room : Nat}

/-- An opening bracket takes one level of the room and leads to the first item. -/
theorem readValue_array (s : Text) :
    readValue (fuel + 1) (room + 1) ('[' :: s) =
      (readItems fuel room true s).map fun (items, rest) => (.array items, rest) := by
  rw [readValue, skipSpace_cons s rfl]
  cases hitems : readItems fuel room true s <;> simp only [hitems] <;> rfl

/-- An opening brace takes one level of the room and leads to the first member. -/
theorem readValue_object (s : Text) :
    readValue (fuel + 1) (room + 1) ('\x7b' :: s) =
      (readMembers fuel room true s).map fun (members, rest) => (ofMembers members, rest) := by
  rw [readValue, skipSpace_cons s rfl]
  cases hmembers : readMembers fuel room true s <;> simp only [hmembers] <;> rfl

theorem readItems_close (first : Bool) (rest : Text) :
    readItems (fuel + 1) room first (']' :: rest) = .ok ([], rest) := by
  rw [readItems]
  rfl

theorem readMembers_close (first : Bool) (rest : Text) :
    readMembers (fuel + 1) room first ('\x7d' :: rest) = .ok ([], rest) := by
  rw [readMembers]
  rfl

theorem readItems_first (v : Json) (s : Text) :
    readItems (fuel + 1) room true (v.text ++ s) = readItem fuel room (v.text ++ s) := by
  obtain ⟨c, more, htext, hc, hclose⟩ := exists_text_cons v
  rw [htext, List.cons_append, readItems, skipSpace_cons _ hc]
  split
  · rename_i heq
    cases heq
  · rename_i heq
    exact absurd (List.cons.inj heq).1 hclose
  · rename_i heq
    obtain ⟨rfl, rfl⟩ := List.cons.inj heq
    rw [if_pos rfl]

theorem readItems_next (v : Json) (s : Text) :
    readItems (fuel + 1) room false (',' :: (v.text ++ s)) = readItem fuel room (v.text ++ s) := by
  obtain ⟨c, more, htext, hc, hclose⟩ := exists_text_cons v
  rw [htext, List.cons_append, readItems, skipSpace_cons _ rfl]
  split
  · rename_i heq
    cases heq
  · rename_i heq
    cases heq
  · rename_i heq
    obtain ⟨rfl, rfl⟩ := List.cons.inj heq
    rw [if_neg Bool.false_ne_true, if_pos rfl, skipSpace_cons _ hc]
    split
    · rename_i heq
      cases heq
    · rename_i heq
      exact absurd (List.cons.inj heq).1 hclose
    · rfl

/-- An item is read, then those behind it, each with one step of fuel less. -/
theorem readItem_eq {s s' rest : Text} {v : Json} {items : List Json}
    (hv : readValue fuel room s = .ok (v, s'))
    (hitems : readItems fuel room false s' = .ok (items, rest)) :
    readItem (fuel + 1) room s = .ok (v :: items, rest) := by
  simp only [readItem, hv, bind, Except.bind, hitems]
  rfl

theorem readMembers_first (s : Text) :
    readMembers (fuel + 1) room true ('"' :: s) = readMember fuel room s := by
  rw [readMembers, skipSpace_cons _ rfl]
  rfl

theorem readMembers_next (s : Text) :
    readMembers (fuel + 1) room false (',' :: '"' :: s) = readMember fuel room s := by
  rw [readMembers, skipSpace_cons _ rfl]
  split
  · rename_i heq
    cases heq
  · rename_i heq
    cases heq
  · rename_i heq
    obtain ⟨rfl, rfl⟩ := List.cons.inj heq
    rw [if_neg Bool.false_ne_true, if_pos rfl, skipSpace_cons _ rfl]
    rfl

/-- A member is read by its name, a colon and its value, and then those behind it. -/
theorem readMember_eq {s s' s'' rest : Text} {name : String} {v : Json}
    {members : List (String × Json)} (hname : readString fuel [] s = .ok (name, ':' :: s'))
    (hv : readValue fuel room s' = .ok (v, s''))
    (hmembers : readMembers fuel room false s'' = .ok (members, rest)) :
    readMember (fuel + 1) room s = .ok ((name, v) :: members, rest) := by
  have hcolon : skipSpace (':' :: s') = ':' :: s' := skipSpace_cons _ rfl
  simp only [readMember, hname, bind, Except.bind, hcolon, hv, hmembers]
  rfl

end Steps

/-! ### Whole values

The induction is on the value, with its items and members; three steps of fuel for each character
are more than the reader takes. -/

mutual

/-- **Values** are read back in front of any text that does not go on with a number. The induction
is over the value; three steps of fuel for each character are enough, since there are never more
than three calls in a row that take no character. -/
theorem readValue_text (v : Json) (fuel room : Nat) {rest : Text} (hv : v.WellFormed)
    (hdepth : v.depth ≤ room) (hfuel : 3 * v.text.length ≤ fuel) (hrest : Stops rest) :
    readValue fuel room (v.text ++ rest) = .ok (v.reread, rest) := by
  have hone : 0 < v.text.length := List.length_pos_of_ne_nil (text_ne_nil v)
  obtain ⟨fuel, rfl⟩ := Nat.exists_eq_add_of_le' (show 3 ≤ fuel by omega)
  match v with
  | .null =>
    rw [text, readValue]
    rfl
  | .bool true =>
    rw [text, readValue]
    rfl
  | .bool false =>
    rw [text, readValue]
    rfl
  | .number n => exact readValue_number n hrest _ room
  | .string s =>
    rw [text] at hfuel ⊢
    exact readValue_string s rest (by omega) room
  | .array [] =>
    rw [depth] at hdepth
    obtain ⟨room, rfl⟩ := Nat.exists_eq_add_of_le' (show 1 ≤ room by omega)
    change readValue (fuel + 3) (room + 1) ('[' :: ']' :: rest) = _
    rw [readValue_array, readItems_close]
    rfl
  | .array (v :: items) =>
    obtain ⟨hv, hitems⟩ := hv
    simp only [depth, itemsDepth] at hdepth
    simp only [text, List.length_cons, List.length_append] at hfuel
    obtain ⟨room, rfl⟩ := Nat.exists_eq_add_of_le' (show 1 ≤ room by omega)
    have hfirst := readValue_text v fuel room hv (by omega) (by omega) (stops_itemsText items rest)
    have hothers := readItems_text items fuel room rest hitems (by omega) (by omega)
    simp only [text, List.cons_append, List.append_assoc]
    rw [readValue_array, readItems_first, readItem_eq hfirst hothers]
    rfl
  | .object [] =>
    rw [depth] at hdepth
    obtain ⟨room, rfl⟩ := Nat.exists_eq_add_of_le' (show 1 ≤ room by omega)
    change readValue (fuel + 3) (room + 1) ('\x7b' :: '\x7d' :: rest) = _
    rw [readValue_object, readMembers_close]
    rfl
  | .object ((name, v) :: members) =>
    obtain ⟨hsorted, hv, hmembers⟩ := hv
    simp only [depth, membersDepth] at hdepth
    simp only [text, List.length_cons, List.length_append] at hfuel
    obtain ⟨room, rfl⟩ := Nat.exists_eq_add_of_le' (show 1 ≤ room by omega)
    have hfirst := readValue_text v fuel room hv (by omega) (by omega)
      (stops_membersText members rest)
    have hothers := readMembers_text members fuel room rest hmembers (by omega) (by omega)
    obtain ⟨inner, hinner, hread⟩ := readString_quoted name
      (':' :: (v.text ++ (membersText members ++ rest))) fuel (by omega)
    simp only [text, List.cons_append, List.append_assoc]
    rw [readValue_object, hinner, readMembers_first, readMember_eq hread hfirst hothers]
    -- the members are put in order again, which they are
    change Except.ok (ofMembers (rereadMembers ((name, v) :: members)), rest) = _
    rw [ofMembers, sortMembers_of_sorted hsorted.rereadMembers, reread]

/-- The items behind the first are read back. -/
theorem readItems_text (items : List Json) (fuel room : Nat) (rest : Text)
    (hitems : WellFormedItems items) (hdepth : itemsDepth items ≤ room)
    (hfuel : 3 * (itemsText items).length ≤ fuel) :
    readItems fuel room false (itemsText items ++ rest) = .ok (rereadItems items, rest) := by
  match items with
  | [] =>
    simp only [itemsText, List.length_singleton] at hfuel
    obtain ⟨fuel, rfl⟩ := Nat.exists_eq_add_of_le' (show 1 ≤ fuel by omega)
    exact readItems_close false rest
  | v :: items =>
    obtain ⟨hv, hitems⟩ := hitems
    simp only [itemsDepth] at hdepth
    simp only [itemsText, List.length_cons, List.length_append] at hfuel
    obtain ⟨fuel, rfl⟩ := Nat.exists_eq_add_of_le' (show 2 ≤ fuel by omega)
    have hfirst := readValue_text v fuel room hv (by omega) (by omega) (stops_itemsText items rest)
    have hothers := readItems_text items fuel room rest hitems (by omega) (by omega)
    simp only [itemsText, List.cons_append, List.append_assoc]
    rw [readItems_next]
    exact readItem_eq hfirst hothers

/-- The members behind the first are read back. -/
theorem readMembers_text (members : List (String × Json)) (fuel room : Nat) (rest : Text)
    (hmembers : WellFormedMembers members) (hdepth : membersDepth members ≤ room)
    (hfuel : 3 * (membersText members).length ≤ fuel) :
    readMembers fuel room false (membersText members ++ rest) =
      .ok (rereadMembers members, rest) := by
  match members with
  | [] =>
    simp only [membersText, List.length_singleton] at hfuel
    obtain ⟨fuel, rfl⟩ := Nat.exists_eq_add_of_le' (show 1 ≤ fuel by omega)
    exact readMembers_close false rest
  | (name, v) :: members =>
    obtain ⟨hv, hmembers⟩ := hmembers
    simp only [membersDepth] at hdepth
    simp only [membersText, List.length_cons, List.length_append] at hfuel
    -- one step for the comma, one for the member, and the rest for name, value and the others
    obtain ⟨fuel, rfl⟩ := Nat.exists_eq_add_of_le' (show 2 ≤ fuel by omega)
    have hfirst := readValue_text v fuel room hv (by omega) (by omega)
      (stops_membersText members rest)
    have hothers := readMembers_text members fuel room rest hmembers (by omega) (by omega)
    obtain ⟨inner, hinner, hread⟩ := readString_quoted name
      (':' :: (v.text ++ (membersText members ++ rest))) fuel (by omega)
    simp only [membersText, List.cons_append, List.append_assoc]
    rw [hinner, readMembers_next]
    exact readMember_eq hread hfirst hothers

end

/-- **Round trip.** The text of a value that is nested no deeper than the reader accepts is read as
the value, up to its numbers: each of these is read as what the reader makes of its digits. -/
theorem readText_text {v : Json} (hv : v.WellFormed) (hdepth : v.depth ≤ maxDepth) :
    readText v.text = .ok v.reread := by
  have hread := readValue_text v (3 * v.text.length + 3) maxDepth hv hdepth (by omega)
    Decimal.stops_nil
  rw [List.append_nil] at hread
  rw [readText, hread]
  rfl

/-- The same for the texts that are handed over. -/
theorem read_write {v : Json} (hv : v.WellFormed) (hdepth : v.depth ≤ maxDepth) :
    read v.write = .ok v.reread := by
  rw [read, write, String.toList_ofList, readText_text hv hdepth]

end FeatureTransform.Json
