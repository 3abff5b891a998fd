import FeatureTransform.Proofs.Json.RoundTrip

/-!
# Values nested too deep

The reader refuses the text of a value that is nested deeper than it accepts, and for no other
reason: what stands in front of the first bracket too many is read, and there it stops. Together
with the round trip this says of every value what comes of its text.
-/

namespace FeatureTransform.Json

open Decimal (Stops)

/-! ## Steps that fail -/

section Steps

variable {fuel room : Nat} {s : Text}

/-- An item that is too deep is refused, and so is one in front of items that are, because
everything in front of the place that is too deep is read without failing. -/
theorem readItem_deep {v : Json} (hv : v.WellFormed) (hfuel : 3 * v.text.length ≤ fuel)
    (hs : Stops s)
    (hfirst : room < v.depth → readValue fuel room (v.text ++ s) = .error .tooDeep)
    (hbehind : v.depth ≤ room → readItems fuel room false s = .error .tooDeep) :
    readItem (fuel + 1) room (v.text ++ s) = .error .tooDeep := by
  rcases Nat.lt_or_ge room v.depth with hdepth | hdepth
  · rw [readItem, hfirst hdepth]
    rfl
  · have hread := readValue_text v fuel room hv hdepth hfuel hs
    simp only [readItem, hread, bind, Except.bind, hbehind hdepth]

/-- A member whose value is too deep is refused, and so is one in front of members that are. -/
theorem readMember_deep {name : String} {v : Json} {inner : Text}
    (hname : readString fuel [] inner = .ok (name, ':' :: (v.text ++ s))) (hv : v.WellFormed)
    (hfuel : 3 * v.text.length ≤ fuel) (hs : Stops s)
    (hfirst : room < v.depth → readValue fuel room (v.text ++ s) = .error .tooDeep)
    (hbehind : v.depth ≤ room → readMembers fuel room false s = .error .tooDeep) :
    readMember (fuel + 1) room inner = .error .tooDeep := by
  have hcolon : skipSpace (':' :: (v.text ++ s)) = ':' :: (v.text ++ s) := skipSpace_cons _ rfl
  rcases Nat.lt_or_ge room v.depth with hdepth | hdepth
  · simp only [readMember, hname, bind, Except.bind, hcolon, hfirst hdepth]
  · have hread := readValue_text v fuel room hv hdepth hfuel hs
    simp only [readMember, hname, bind, Except.bind, hcolon, hread, hbehind hdepth]

end Steps

/-! ## Whole values

The induction is on the value, as for the round trip. -/

mutual

/-- **Values** with no room for their depth are refused. -/
theorem readValue_deep (v : Json) (fuel room : Nat) (rest : Text) (hv : v.WellFormed)
    (hdepth : room < v.depth) (hfuel : 3 * v.text.length ≤ fuel) :
    readValue fuel room (v.text ++ rest) = .error .tooDeep := by
  have hone : 0 < v.text.length := List.length_pos_of_ne_nil (text_ne_nil v)
  obtain ⟨fuel, rfl⟩ := Nat.exists_eq_add_of_le' (show 3 ≤ fuel by omega)
  match v with
  | .null | .bool _ | .number _ | .string _ => exact absurd hdepth (Nat.not_lt_zero room)
  | .array [] =>
    obtain rfl : room = 0 := Nat.lt_one_iff.mp hdepth
    rw [text, readValue]
    rfl
  | .array (v :: items) =>
    obtain ⟨hv, hitems⟩ := hv
    simp only [depth, itemsDepth] at hdepth
    simp only [text, List.length_cons, List.length_append] at hfuel
    simp only [text, List.cons_append, List.append_assoc]
    -- with no room the bracket is refused, and else there is less room behind it
    cases room with
    | zero =>
      rw [readValue]
      rfl
    | succ room =>
      have hdeep : readItem (fuel + 1) room (v.text ++ (itemsText items ++ rest)) =
          .error .tooDeep := by
        refine readItem_deep hv (by omega) (stops_itemsText items rest) ?_ ?_
        · exact fun hfirst => readValue_deep v fuel room _ hv hfirst (by omega)
        · exact fun _ => readItems_deep items fuel room rest hitems (by omega) (by omega)
      rw [readValue_array, readItems_first, hdeep]
      rfl
  | .object [] =>
    obtain rfl : room = 0 := Nat.lt_one_iff.mp hdepth
    rw [text, readValue]
    rfl
  | .object ((name, v) :: members) =>
    obtain ⟨-, hv, hmembers⟩ := hv
    simp only [depth, membersDepth] at hdepth
    simp only [text, List.length_cons, List.length_append] at hfuel
    simp only [text, List.cons_append, List.append_assoc]
    cases room with
    | zero =>
      rw [readValue]
      rfl
    | succ room =>
      obtain ⟨inner, hinner, hread⟩ := readString_quoted name
        (':' :: (v.text ++ (membersText members ++ rest))) fuel (by omega)
      have hdeep : readMember (fuel + 1) room inner = .error .tooDeep := by
        refine readMember_deep hread hv (by omega) (stops_membersText members rest) ?_ ?_
        · exact fun hfirst => readValue_deep v fuel room _ hv hfirst (by omega)
        · exact fun _ => readMembers_deep members fuel room rest hmembers (by omega) (by omega)
      rw [readValue_object, hinner, readMembers_first, hdeep]
      rfl

/-- Items behind the first are refused if there is no room for one of them. -/
theorem readItems_deep (items : List Json) (fuel room : Nat) (rest : Text)
    (hitems : WellFormedItems items) (hdepth : room < itemsDepth items)
    (hfuel : 3 * (itemsText items).length ≤ fuel) :
    readItems fuel room false (itemsText items ++ rest) = .error .tooDeep := by
  match items with
  | [] => exact absurd hdepth (Nat.not_lt_zero room)
  | v :: items =>
    obtain ⟨hv, hitems⟩ := hitems
    simp only [itemsDepth] at hdepth
    simp only [itemsText, List.length_cons, List.length_append] at hfuel
    obtain ⟨fuel, rfl⟩ := Nat.exists_eq_add_of_le' (show 2 ≤ fuel by omega)
    simp only [itemsText, List.cons_append, List.append_assoc]
    rw [readItems_next]
    refine readItem_deep hv (by omega) (stops_itemsText items rest) ?_ ?_
    · exact fun hfirst => readValue_deep v fuel room _ hv hfirst (by omega)
    · exact fun _ => readItems_deep items fuel room rest hitems (by omega) (by omega)

/-- Members behind the first are refused if there is no room for one of them. -/
theorem readMembers_deep (members : List (String × Json)) (fuel room : Nat) (rest : Text)
    (hmembers : WellFormedMembers members) (hdepth : room < membersDepth members)
    (hfuel : 3 * (membersText members).length ≤ fuel) :
    readMembers fuel room false (membersText members ++ rest) = .error .tooDeep := by
  match members with
  | [] => exact absurd hdepth (Nat.not_lt_zero room)
  | (name, v) :: members =>
    obtain ⟨hv, hmembers⟩ := hmembers
    simp only [membersDepth] at hdepth
    simp only [membersText, List.length_cons, List.length_append] at hfuel
    obtain ⟨fuel, rfl⟩ := Nat.exists_eq_add_of_le' (show 2 ≤ fuel by omega)
    obtain ⟨inner, hinner, hread⟩ := readString_quoted name
      (':' :: (v.text ++ (membersText members ++ rest))) fuel (by omega)
    simp only [membersText, List.cons_append, List.append_assoc]
    rw [hinner, readMembers_next]
    refine readMember_deep hread hv (by omega) (stops_membersText members rest) ?_ ?_
    · exact fun hfirst => readValue_deep v fuel room _ hv hfirst (by omega)
    · exact fun _ => readMembers_deep members fuel room rest hmembers (by omega) (by omega)

end

/-- **Texts of values.** The text of a value is read as the value, up to its numbers, unless it is
nested deeper than the reader accepts. No number is a reason to refuse it: the text of a finite
double is never too large. -/
theorem readText_text_eq {v : Json} (hv : v.WellFormed) :
    readText v.text = if v.depth ≤ maxDepth then .ok v.reread else .error .tooDeep := by
  split
  · next hdepth => exact readText_text hv hdepth
  · next hdepth =>
    have hread := readValue_deep v (3 * v.text.length + 3) maxDepth [] hv (by omega)
      (by omega)
    rw [List.append_nil] at hread
    rw [readText, hread]
    rfl

end FeatureTransform.Json
