import FeatureTransform.Proofs.Feature.Numbers
import FeatureTransform.Proofs.Feature.Projection

/-!
# Moving twice

Where the positions of a geometry are is guessed from what stands in it, and moving them changes
what stands in it. As long as a map does not lead out of the finite numbers, a position stays one,
and nothing else becomes one: in front of an array stands a number afterwards if and only if one
stood there before. So moving by one map and then by another is moving by the two in a row, and if
the second undoes the first on the positions, what comes back is the geometry with doubles in them.

## Main results

* `moveCoordinates_moveCoordinates`, `moveMember_moveMember` — the steps, for coordinates and for
  the members of geometries;
* `comesBack_iff_moves` — to come back is to be moved by the map that leaves every point in place;
* `moveGeometry_moveGeometry` — composition, and what undoing gives.
-/

namespace FeatureTransform

open Json (Place Number)

/-! ## Maps -/

namespace PointMap

/-- The map leads from finite numbers to finite numbers. -/
def KeepsFinite (f : PointMap) : Prop :=
  ∀ x y : Float, x.isFinite = true → y.isFinite = true →
    (f x y).1.isFinite = true ∧ (f x y).2.isFinite = true

/-- One map after another. -/
def after (g f : PointMap) : PointMap := fun x y => g (f x y).1 (f x y).2

/-- The map that leaves every point in place. -/
def stay : PointMap := fun x y => (x, y)

end PointMap

variable {f : PointMap}

/-! ## Coordinates -/

/-- What makes an array a position is that its first two items are numbers. They are replaced, and
all further items stay as they are. -/
theorem moveCoordinates_position (f : PointMap) (x y : Number) (rest : List Json) :
    moveCoordinates f (.array (.number x :: .number y :: rest)) =
      .array (.ofFloat (f x.toFloat y.toFloat).1 :: .ofFloat (f x.toFloat y.toFloat).2 :: rest) :=
  rfl

/-- What is moved is a number only if it was one. A single number is left alone, and arrays stay
arrays. -/
theorem isNumber_moveCoordinates (f : PointMap) (v : Json) :
    (moveCoordinates f v).isNumber = v.isNumber := by
  cases v with
  | array items =>
    rw [moveCoordinates.eq_def]
    dsimp only
    split <;> rfl
  | _ => rfl

/-- So an array of arrays does not become a position, whatever the map makes of the points inside.
-/
theorem beginsWithNumber_map (f : PointMap) (items : List Json) :
    beginsWithNumber (items.map (moveCoordinates f)) = beginsWithNumber items := by
  cases items with
  | nil => rfl
  | cons v rest => exact isNumber_moveCoordinates f v

/-- A position that has been moved is one, of the point that the map gives. Here the numbers have to
be finite, because others are written as `null`, which is no number. -/
theorem moveCoordinates_moved (hf : f.KeepsFinite) (g : PointMap) (x y : Number)
    (rest : List Json) :
    moveCoordinates g (moveCoordinates f (.array (.number x :: .number y :: rest))) =
      moveCoordinates (g.after f) (.array (.number x :: .number y :: rest)) := by
  obtain ⟨hfirst, hsecond⟩ :=
    hf _ _ (FieldType.isFinite_toFloat x) (FieldType.isFinite_toFloat y)
  rw [moveCoordinates_position, Json.ofFloat_value ⟨_, hfirst⟩, Json.ofFloat_value ⟨_, hsecond⟩,
    moveCoordinates_position, moveCoordinates_position]
  rfl

mutual

/-- **Coordinates.** Moving them twice is moving them once, by both maps. The induction is over the
nesting of arrays; the guess of what is a position comes out the same at each level. -/
theorem moveCoordinates_moveCoordinates (hf : f.KeepsFinite) (g : PointMap) (v : Json) :
    moveCoordinates g (moveCoordinates f v) = moveCoordinates (g.after f) v := by
  match v with
  | .null | .bool _ | .number _ | .string _ | .object _ => rfl
  | .array items =>
    -- a position, a number without a second one, or items that are coordinates themselves
    rcases items_cases items with ⟨x, y, rest, rfl⟩ | ⟨x, rest, rfl, hshort⟩ | hitems
    · exact moveCoordinates_moved hf g x y rest
    · rw [moveCoordinates_short hshort, moveCoordinates_short hshort,
        moveCoordinates_short hshort]
    · have hmoved : beginsWithNumber (items.map (moveCoordinates f)) = false := by
        rw [beginsWithNumber_map, hitems]
      rw [moveCoordinates_items hitems, moveCoordinates_items hmoved,
        moveCoordinates_items hitems, List.map_map]
      exact congrArg Json.array (List.map_congr_left (moveItems_moveItems hf g items))

/-- The same for all items of an array. -/
theorem moveItems_moveItems (hf : f.KeepsFinite) (g : PointMap) (items : List Json) :
    ∀ v ∈ items, moveCoordinates g (moveCoordinates f v) = moveCoordinates (g.after f) v := by
  match items with
  | [] => exact fun v hv => absurd hv List.not_mem_nil
  | v :: rest =>
    exact List.forall_mem_cons.mpr
      ⟨moveCoordinates_moveCoordinates hf g v, moveItems_moveItems hf g rest⟩

end

/-! ## Geometries -/

theorem moveGeometry_object (f : PointMap) (members : List (String × Json)) :
    moveGeometry f (.object members) =
      .object (members.map fun m => (m.1, moveMember f m.1 m.2)) := by
  rw [moveGeometry, moveMembers_eq_map]

theorem moveGeometry_plain (f : PointMap) {v : Json} (h : ∀ members, v ≠ .object members) :
    moveGeometry f v = v := by
  cases v with
  | object members => exact absurd rfl (h members)
  | _ => rfl

theorem moveMember_plain (f : PointMap) (name : String) {v : Json}
    (h : ∀ items, v ≠ .array items) : moveMember f name v = v := by
  cases v with
  | array items => exact absurd rfl (h items)
  | _ => rfl

/-- Members called `geometries` aside, all there is to moving members is moving coordinates. The way
that a member takes is decided by its name, and names stay. -/
theorem moveMember_moveMember (hf : f.KeepsFinite) (g : PointMap) (name : String) {v : Json}
    (h : moveMember g "geometries" (moveMember f "geometries" v) =
      moveMember (g.after f) "geometries" v) :
    moveMember g name (moveMember f name v) = moveMember (g.after f) name v := by
  by_cases hcoordinates : name = "coordinates"
  · rw [hcoordinates, moveMember_coordinates, moveMember_coordinates, moveMember_coordinates]
    exact moveCoordinates_moveCoordinates hf g v
  · by_cases hgeometries : name = "geometries"
    · rw [hgeometries]
      exact h
    · rw [moveMember_other hcoordinates hgeometries, moveMember_other hcoordinates hgeometries,
        moveMember_other hcoordinates hgeometries]

/-- Members are moved each for itself, so an object is moved twice if its members are. -/
theorem moveGeometry_members (hf : f.KeepsFinite) (g : PointMap) {members : List (String × Json)}
    (h : ∀ m ∈ members, moveMember g "geometries" (moveMember f "geometries" m.2) =
      moveMember (g.after f) "geometries" m.2) :
    moveGeometry g (moveGeometry f (.object members)) =
      moveGeometry (g.after f) (.object members) := by
  rw [moveGeometry_object, moveGeometry_object, moveGeometry_object, List.map_map]
  refine congrArg Json.object (List.map_congr_left fun m hm => ?_)
  exact congrArg (m.1, ·) (moveMember_moveMember hf g m.1 (h m hm))

theorem moveMember_parts (g : PointMap) {parts : List Json}
    (h : ∀ part ∈ parts, moveGeometry g (moveGeometry f part) = moveGeometry (g.after f) part) :
    moveMember g "geometries" (moveMember f "geometries" (.array parts)) =
      moveMember (g.after f) "geometries" (.array parts) := by
  rw [moveMember_geometries, moveMember_geometries, moveMember_geometries, List.map_map]
  exact congrArg Json.array (List.map_congr_left h)

mutual

/-- **Geometries.** Moving them twice is moving them once, by both maps. The recursion of the code
is through members called `geometries` only, and so is the induction. -/
theorem moveGeometry_after (hf : f.KeepsFinite) (g : PointMap) (v : Json) :
    moveGeometry g (moveGeometry f v) = moveGeometry (g.after f) v := by
  match v with
  | .null | .bool _ | .number _ | .string _ | .array _ =>
    rw [moveGeometry_plain f, moveGeometry_plain g, moveGeometry_plain (g.after f)] <;> simp
  | .object members => exact moveGeometry_members hf g (moveMembers_after hf g members)

theorem moveMembers_after (hf : f.KeepsFinite) (g : PointMap) (members : List (String × Json)) :
    ∀ m ∈ members, moveMember g "geometries" (moveMember f "geometries" m.2) =
      moveMember (g.after f) "geometries" m.2 := by
  match members with
  | [] => exact fun m hm => absurd hm List.not_mem_nil
  | (name, v) :: rest =>
    exact List.forall_mem_cons.mpr ⟨moveMember_after hf g v, moveMembers_after hf g rest⟩

theorem moveMember_after (hf : f.KeepsFinite) (g : PointMap) (v : Json) :
    moveMember g "geometries" (moveMember f "geometries" v) =
      moveMember (g.after f) "geometries" v := by
  match v with
  | .null | .bool _ | .number _ | .string _ | .object _ =>
    rw [moveMember_plain f, moveMember_plain g, moveMember_plain (g.after f)] <;> simp
  | .array parts => exact moveMember_parts g (moveParts_after hf g parts)

theorem moveParts_after (hf : f.KeepsFinite) (g : PointMap) (parts : List Json) :
    ∀ part ∈ parts, moveGeometry g (moveGeometry f part) = moveGeometry (g.after f) part := by
  match parts with
  | [] => exact fun part hpart => absurd hpart List.not_mem_nil
  | part :: rest =>
    exact List.forall_mem_cons.mpr ⟨moveGeometry_after hf g part, moveParts_after hf g rest⟩

end

/-! ## There and back -/

/-- The double nearest to a number. -/
def nearestDouble (n : Number) : Json.Double := ⟨n.toFloat, FieldType.isFinite_toFloat n⟩

/-- A geometry has come back: where a position has its first or its second number stands that number
again, written as a double, and all other places look as before. -/
structure ComesBack (before after : Json) : Prop where
  /-- the first two numbers of positions are doubles now -/
  ordinates : ∀ place, IsOrdinate (InGeometry before) place →
    ∃ n, before.at? place = some (.number n) ∧
      after.at? place = some (.number (.double (nearestDouble n)))
  /-- all else is as it was -/
  others : ∀ place, ¬IsOrdinate (InGeometry before) place →
    after.outlineAt? place = before.outlineAt? place

section Numbers

variable {place : Place} {x y : Float}

/-- The first numbers of a position stand in it, and the point of the position is made of the
doubles nearest to them. -/
theorem InCoordinates.numbers {v : Json} (h : InCoordinates v place x y) : ∃ m n : Number,
    v.at? (place ++ [.item 0]) = some (.number m) ∧
      v.at? (place ++ [.item 1]) = some (.number n) ∧ m.toFloat = x ∧ n.toFloat = y := by
  induction h with
  | here x y rest => exact ⟨x, y, rfl, rfl, rfl, rfl⟩
  | inside hitems hitem h ih =>
    simp only [List.cons_append, Json.at?, Json.step?, hitem, Option.bind_some]
    exact ih

theorem InGeometry.numbers {v : Json} (h : InGeometry v place x y) : ∃ m n : Number,
    v.at? (place ++ [.item 0]) = some (.number m) ∧
      v.at? (place ++ [.item 1]) = some (.number n) ∧ m.toFloat = x ∧ n.toFloat = y := by
  induction h with
  | coordinates hmember h =>
    simp only [List.cons_append, Json.at?, Json.step?, hmember, Option.bind_some]
    exact h.numbers
  | part hmember hpart h ih =>
    simp only [List.cons_append, Json.at?, Json.step?, hmember, hpart, Option.bind_some]
    exact ih

end Numbers

/-- **To come back** is to be moved by the map that leaves every point in place. It is not to be the
same value, since a number that was written as an integer is written as a double now. -/
theorem comesBack_iff_moves {before after : Json} : ComesBack before after ↔
    Moves PointMap.stay (InGeometry before) before after := by
  have hdouble (n : Number) : Json.ofFloat n.toFloat = .number (.double (nearestDouble n)) :=
    Json.ofFloat_value (nearestDouble n)
  constructor
  · intro h
    refine ⟨fun {place x y} hat => ?_, h.others⟩
    obtain ⟨m, n, hm, hn, rfl, rfl⟩ := hat.numbers
    obtain ⟨k, hk, hfirst⟩ := h.ordinates (place ++ [.item 0]) ⟨place, _, _, hat, .inl rfl⟩
    obtain ⟨l, hl, hsecond⟩ := h.ordinates (place ++ [.item 1]) ⟨place, _, _, hat, .inr rfl⟩
    -- these are the numbers that the position has
    obtain rfl : m = k := Json.number.inj (Option.some.inj (hm.symm.trans hk))
    obtain rfl : n = l := Json.number.inj (Option.some.inj (hn.symm.trans hl))
    exact ⟨hfirst.trans (congrArg some (hdouble m).symm),
      hsecond.trans (congrArg some (hdouble n).symm)⟩
  · intro h
    refine ⟨?_, h.others⟩
    rintro place ⟨p, x, y, hat, hplace⟩
    obtain ⟨m, n, hm, hn, rfl, rfl⟩ := hat.numbers
    obtain ⟨hfirst, hsecond⟩ := h.moved hat
    rcases hplace with rfl | rfl
    · exact ⟨m, hm, hfirst.trans (congrArg some (hdouble m))⟩
    · exact ⟨n, hn, hsecond.trans (congrArg some (hdouble n))⟩

/-- What maps make of the points of the positions is all that counts. Elsewhere a map may do what it
likes. -/
theorem Moves.congr_map {f g : PointMap} {IsAt : Place → Float → Float → Prop} {v w : Json}
    (h : Moves f IsAt v w) (hsame : ∀ place x y, IsAt place x y → f x y = g x y) :
    Moves g IsAt v w := by
  refine ⟨fun {place x y} hat => ?_, h.others⟩
  rw [← hsame place x y hat]
  exact h.moved hat

/-- **Moving twice.** If a map leads from finite numbers to finite numbers, moving a geometry by it
and then by another map is moving it by the two in a row. If the second undoes the first on the
positions, the geometry comes back, and there is one way only in which it can. -/
theorem moveGeometry_moveGeometry (hf : f.KeepsFinite) (g : PointMap) (v : Json) :
    moveGeometry g (moveGeometry f v) = moveGeometry (g.after f) v ∧
    ((∀ place x y, InGeometry v place x y → g.after f x y = (x, y)) →
      ComesBack v (moveGeometry g (moveGeometry f v)) ∧
        (v.WellFormed → ∀ other, ComesBack v other →
          other = moveGeometry g (moveGeometry f v))) := by
  have htwice := moveGeometry_after hf g v
  refine ⟨htwice, fun hundo => ?_⟩
  have hmoves : Moves PointMap.stay (InGeometry v) v (moveGeometry g (moveGeometry f v)) := by
    rw [htwice]
    exact (moves_moveGeometry (g.after f) v).congr_map hundo
  exact ⟨comesBack_iff_moves.mpr hmoves, fun hv other hother =>
    hmoves.unique (comesBack_iff_moves.mp hother) hv⟩

/-- The map that makes the first number the second. -/
def swap : PointMap := fun x y => (y, x)

/-- Swapped twice, the point of the survey is where it was, with doubles for numbers: what was an
integer has become a double of the same value. -/
theorem moveGeometry_moveGeometry_survey : swap.KeepsFinite ∧
    (∀ place x y, InGeometry survey place x y → swap.after swap x y = (x, y)) ∧
    (moveGeometry swap (moveGeometry swap survey)).at? [.member "geometries", .item 1,
        .member "geometries", .item 0, .member "coordinates", .item 0] =
      some (.number (.double (nearestDouble (.integer (.ofInt64 16))))) := by
  have hfinite : swap.KeepsFinite := fun x y hx hy => ⟨hy, hx⟩
  have hundo : ∀ place x y, InGeometry survey place x y → swap.after swap x y = (x, y) :=
    fun place x y h => rfl
  refine ⟨hfinite, hundo, ?_⟩
  obtain ⟨hback, -⟩ := (moveGeometry_moveGeometry hfinite swap survey).2 hundo
  have hat : InGeometry survey [.member "geometries", .item 1, .member "geometries", .item 0,
      .member "coordinates"] _ _ :=
    .part rfl rfl (.part rfl rfl (.coordinates rfl (.here _ _ _)))
  obtain ⟨n, hn, hdouble⟩ := hback.ordinates _ ⟨_, _, _, hat, .inl rfl⟩
  obtain rfl : Number.integer (.ofInt64 16) = n := Json.number.inj (Option.some.inj hn)
  exact hdouble

end FeatureTransform
