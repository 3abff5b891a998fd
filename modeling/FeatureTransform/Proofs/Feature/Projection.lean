import FeatureTransform.Feature.Projection
import FeatureTransform.Proofs.Json.Place
import FeatureTransform.Proofs.Json.Portable

/-!
# What projection moves

A geometry is an untyped value, and where its positions are is guessed from what stands in it. This
is said here place by place: which places hold a position, and with which numbers. A geometry that
has been carried over has the map's answer in the first two numbers of each position; everything
else is as it was, items and members of arrays and objects of any depth included.
-/

namespace FeatureTransform

open Json (Place Step)

/-! ## Positions -/

/-- Whether some items begin with a number. -/
def beginsWithNumber (items : List Json) : Bool := items.head?.any Json.isNumber

/-- At a place in coordinates there is a position whose first numbers are `x` and `y`. -/
inductive InCoordinates : Json → Place → Float → Float → Prop where
  /-- an array that begins with two numbers is a position -/
  | here (x y : Json.Number) (rest : List Json) :
      InCoordinates (.array (.number x :: .number y :: rest)) [] x.toFloat y.toFloat
  /-- an array that does not begin with a number may hold positions in its items -/
  | inside {items : List Json} {index : Nat} {item : Json} {place : Place} {x y : Float}
      (hitems : beginsWithNumber items = false) (hitem : items[index]? = some item)
      (h : InCoordinates item place x y) :
      InCoordinates (.array items) (.item index :: place) x y

/-- At a place in a geometry there is a position whose first numbers are `x` and `y`. -/
inductive InGeometry : Json → Place → Float → Float → Prop where
  /-- it stands in the coordinates -/
  | coordinates {members : List (String × Json)} {v : Json} {place : Place} {x y : Float}
      (hmember : Json.member? "coordinates" members = some v) (h : InCoordinates v place x y) :
      InGeometry (.object members) (.member "coordinates" :: place) x y
  /-- it stands in a part of a collection -/
  | part {members : List (String × Json)} {parts : List Json} {index : Nat} {part : Json}
      {place : Place} {x y : Float}
      (hmember : Json.member? "geometries" members = some (.array parts))
      (hpart : parts[index]? = some part) (h : InGeometry part place x y) :
      InGeometry (.object members) (.member "geometries" :: .item index :: place) x y

/-- At a place there is a geometry: the whole, or a part of a collection. -/
inductive IsPart : Json → Place → Prop where
  /-- the whole -/
  | whole (members : List (String × Json)) : IsPart (.object members) []
  /-- a part of a part -/
  | part {members : List (String × Json)} {parts : List Json} {index : Nat} {part : Json}
      {place : Place} (hmember : Json.member? "geometries" members = some (.array parts))
      (hpart : parts[index]? = some part) (h : IsPart part place) :
      IsPart (.object members) (.member "geometries" :: .item index :: place)

/-! ## Moves -/

/-- What is written for a double has nothing inside it: it is a number, or `null` if the double is
not finite. -/
theorem isAtom_ofFloat (x : Float) : (Json.ofFloat x).IsAtom := by
  obtain h | ⟨n, h⟩ := Json.ofFloat_eq x <;> rw [h] <;> trivial

/-- A place where a position has its first or its second number. -/
def IsOrdinate (IsAt : Place → Float → Float → Prop) (place : Place) : Prop :=
  ∃ p x y, IsAt p x y ∧ (place = p ++ [.item 0] ∨ place = p ++ [.item 1])

theorem IsOrdinate.cons {IsAt : Place → Float → Float → Prop} {step : Step} {place : Place}
    (h : IsOrdinate (fun rest => IsAt (step :: rest)) place) : IsOrdinate IsAt (step :: place) := by
  obtain ⟨p, x, y, hp, hplace⟩ := h
  exact ⟨step :: p, x, y, hp, hplace.imp (congrArg _) (congrArg _)⟩

/-- The positions of a value, given by their places and first numbers, have been moved. -/
structure Moves (f : PointMap) (IsAt : Place → Float → Float → Prop) (before after : Json) :
    Prop where
  /-- the first numbers of each are those that the map makes of them -/
  moved : ∀ {place x y}, IsAt place x y →
    after.at? (place ++ [.item 0]) = some (.ofFloat (f x y).1) ∧
      after.at? (place ++ [.item 1]) = some (.ofFloat (f x y).2)
  /-- all other places look as before -/
  others : ∀ place, ¬IsOrdinate IsAt place → after.outlineAt? place = before.outlineAt? place

namespace Moves

variable {f : PointMap} {IsAt : Place → Float → Float → Prop} {v w : Json}

/-- Where there are no positions nothing is moved, and the value is its own image. -/
theorem refl (h : ∀ place x y, ¬IsAt place x y) : Moves f IsAt v v where
  moved hat := absurd hat (h _ _ _)
  others _ _ := rfl

/-- It is the same whichever way the positions are given, as long as they are the same positions. -/
theorem congr {Here : Place → Float → Float → Prop} (h : Moves f IsAt v w)
    (hsame : ∀ place x y, Here place x y ↔ IsAt place x y) : Moves f Here v w := by
  have heq : Here = IsAt := by
    funext place x y
    exact propext (hsame place x y)
  rwa [heq]

/-- The first two of some items are moved. All other places are those of the further items, and of
what is inside them. -/
theorem position (x y : Json.Number) (rest : List Json)
    (hat : ∀ place a b, IsAt place a b ↔ place = [] ∧ a = x.toFloat ∧ b = y.toFloat) :
    Moves f IsAt (.array (.number x :: .number y :: rest))
      (.array (.ofFloat (f x.toFloat y.toFloat).1 ::
        .ofFloat (f x.toFloat y.toFloat).2 :: rest)) where
  moved := by
    intro place a b h
    obtain ⟨rfl, rfl, rfl⟩ := (hat place a b).mp h
    exact ⟨rfl, rfl⟩
  others := by
    intro place hplace
    have hhere : IsAt [] x.toFloat y.toFloat := (hat _ _ _).mpr ⟨rfl, rfl, rfl⟩
    match place with
    | [] | .member _ :: _ | .item (_ + 2) :: _ => rfl
    | [.item 0] => exact absurd ⟨[], _, _, hhere, .inl rfl⟩ hplace
    | [.item 1] => exact absurd ⟨[], _, _, hhere, .inr rfl⟩ hplace
    -- in front of the third item stand numbers, with nothing inside them before or after
    | .item 0 :: step :: more =>
      exact ((isAtom_ofFloat _).outlineAt?_cons step more).trans
        (Json.IsAtom.outlineAt?_cons (v := .number x) trivial step more).symm
    | .item 1 :: step :: more =>
      exact ((isAtom_ofFloat _).outlineAt?_cons step more).trans
        (Json.IsAtom.outlineAt?_cons (v := .number y) trivial step more).symm

/-- Step by step: the value itself looks as before, and what stands behind each step is moved. Both
arrays and objects are moved in this way, so that places need to be taken apart only here. -/
theorem of_steps (houtline : w.outline = v.outline) (hroot : ∀ x y, ¬IsAt [] x y)
    (hsteps : ∀ step, (Json.step? step v = none ∧ Json.step? step w = none ∧
        ∀ place x y, ¬IsAt (step :: place) x y) ∨
      ∃ before after, Json.step? step v = some before ∧ Json.step? step w = some after ∧
        Moves f (fun place => IsAt (step :: place)) before after) : Moves f IsAt v w where
  moved := by
    intro place x y h
    -- a place is here or begins with a step
    cases place with
    | nil => exact absurd h (hroot x y)
    | cons step rest =>
      rcases hsteps step with ⟨-, -, hnone⟩ | ⟨before, after, -, hafter, hmoves⟩
      · exact absurd h (hnone rest x y)
      · simp only [List.cons_append, Json.at?, hafter]
        exact hmoves.moved h
  others := by
    intro place hplace
    cases place with
    | nil => exact congrArg some houtline
    | cons step rest =>
      rw [Json.outlineAt?_cons, Json.outlineAt?_cons]
      rcases hsteps step with ⟨hbefore, hafter, -⟩ | ⟨before, after, hbefore, hafter, hmoves⟩
      · rw [hbefore, hafter]
      · rw [hbefore, hafter]
        exact hmoves.others rest fun h => hplace h.cons

/-- An array is moved if its items are, each by itself. -/
theorem map_items {items : List Json} {g : Json → Json}
    (hat : ∀ place x y, IsAt place x y → ∃ index item rest, place = .item index :: rest ∧
      items[index]? = some item)
    (hitems : ∀ index item, items[index]? = some item →
      Moves f (fun place => IsAt (.item index :: place)) item (g item)) :
    Moves f IsAt (.array items) (.array (items.map g)) := by
  refine .of_steps (congrArg Json.Outline.array (List.length_map _)) ?_ ?_
  · intro x y h
    obtain ⟨index, item, rest, hplace, -⟩ := hat [] x y h
    cases hplace
  · intro step
    cases step with
    | member name =>
      refine .inl ⟨rfl, rfl, fun place x y h => ?_⟩
      obtain ⟨index, item, rest, hplace, -⟩ := hat _ x y h
      cases hplace
    | item index =>
      simp only [Json.step?, List.getElem?_map]
      -- beyond the items there is nothing, before and after
      cases hitem : items[index]? with
      | none =>
        refine .inl ⟨rfl, rfl, fun place x y h => ?_⟩
        obtain ⟨other, item, rest, hplace, hother⟩ := hat _ x y h
        cases hplace
        rw [hitem] at hother
        cases hother
      | some item => exact .inr ⟨item, g item, rfl, rfl, hitems index item hitem⟩

/-- An object is moved if its members are, each by itself; which members there are stays the same.
-/
theorem map_members {members : List (String × Json)} {g : String → Json → Json}
    (hat : ∀ place x y, IsAt place x y → ∃ name v rest, place = .member name :: rest ∧
      Json.member? name members = some v)
    (hmembers : ∀ name v, Json.member? name members = some v →
      Moves f (fun place => IsAt (.member name :: place)) v (g name v)) :
    Moves f IsAt (.object members) (.object (members.map fun m => (m.1, g m.1 m.2))) := by
  refine .of_steps ?_ ?_ ?_
  · simp only [Json.outline, List.map_map]
    rfl
  · intro x y h
    obtain ⟨name, v, rest, hplace, -⟩ := hat [] x y h
    cases hplace
  · intro step
    -- no step to an item leads into an object, and one to a member leads on if the member is there
    cases step with
    | item index =>
      refine .inl ⟨rfl, rfl, fun place x y h => ?_⟩
      obtain ⟨name, v, rest, hplace, -⟩ := hat _ x y h
      cases hplace
    | member name =>
      simp only [Json.step?, Json.member?_map]
      cases hmember : Json.member? name members with
      | none =>
        refine .inl ⟨rfl, rfl, fun place x y h => ?_⟩
        obtain ⟨other, v, rest, hplace, hother⟩ := hat _ x y h
        cases hplace
        rw [hmember] at hother
        cases hother
      | some v => exact .inr ⟨v, g name v, rfl, rfl, hmembers name v hmember⟩

/-- Where something has been moved stands a double, or what is written for one, since a map answers
in doubles. -/
theorem exists_ofFloat (h : Moves f IsAt v w) {place : Place} (hplace : IsOrdinate IsAt place) :
    ∃ x, w.at? place = some (.ofFloat x) := by
  obtain ⟨p, x, y, hat, rfl | rfl⟩ := hplace
  · exact ⟨_, (h.moved hat).1⟩
  · exact ⟨_, (h.moved hat).2⟩

/-- What has been moved is well-formed if it was before: it has the same members in the same order.
-/
theorem wellFormed (h : Moves f IsAt v w) (hv : v.WellFormed) : w.WellFormed := by
  refine Json.wellFormed_of_outlines w fun place names hnames => ?_
  by_cases hplace : IsOrdinate IsAt place
  · obtain ⟨x, hx⟩ := h.exists_ofFloat hplace
    rw [Json.outlineAt?, hx, Option.map_some, (isAtom_ofFloat x).outline_eq] at hnames
    cases hnames
  · rw [h.others place hplace] at hnames
    exact hv.pairwise_names hnames

/-- There is one way only in which the positions can have been moved. So the places say all there is
to say about the result. -/
theorem unique {other : Json} (h : Moves f IsAt v w) (hother : Moves f IsAt v other)
    (hv : v.WellFormed) : other = w := by
  refine Json.ext_outlines other w (hother.wellFormed hv) (h.wellFormed hv) fun place => ?_
  by_cases hplace : IsOrdinate IsAt place
  · obtain ⟨p, x, y, hat, rfl | rfl⟩ := hplace
    · rw [Json.outlineAt?, Json.outlineAt?, (h.moved hat).1, (hother.moved hat).1]
    · rw [Json.outlineAt?, Json.outlineAt?, (h.moved hat).2, (hother.moved hat).2]
  · rw [h.others place hplace, hother.others place hplace]

/-- What has no position inside it stays as it is, as a whole. -/
theorem kept (h : Moves f IsAt v w) (hv : v.WellFormed) {place : Place}
    (hplace : ∀ more, ¬IsOrdinate IsAt (place ++ more)) : w.at? place = v.at? place :=
  Json.at?_eq_of_outlines (h.wellFormed hv) hv fun more => h.others _ (hplace more)

end Moves

/-! ### Coordinates -/

theorem moveItems_eq_map (f : PointMap) (items : List Json) :
    moveItems f items = items.map (moveCoordinates f) := by
  induction items with
  | nil => rfl
  | cons item rest ih => rw [moveItems, ih, List.map_cons]

/-- Items that begin with two numbers, with one only, or with none. These are the three cases that
the code tells apart. -/
theorem items_cases (items : List Json) :
    (∃ x y rest, items = .number x :: .number y :: rest) ∨
    (∃ x rest, items = .number x :: rest ∧ ∀ y more, rest ≠ .number y :: more) ∨
    beginsWithNumber items = false := by
  cases items with
  | nil => exact .inr (.inr rfl)
  | cons v rest =>
    cases v with
    | number x =>
      by_cases hsecond : ∃ y more, rest = .number y :: more
      · obtain ⟨y, more, rfl⟩ := hsecond
        exact .inl ⟨x, y, more, rfl⟩
      · exact .inr (.inl ⟨x, rest, rfl, fun y more hrest => hsecond ⟨y, more, hrest⟩⟩)
    | _ => exact .inr (.inr rfl)

/-- What does not begin with a number is gone into. -/
theorem moveCoordinates_items {items : List Json} (h : beginsWithNumber items = false)
    (f : PointMap) : moveCoordinates f (.array items) = .array (items.map (moveCoordinates f)) := by
  rw [moveCoordinates.eq_def]
  dsimp only
  split
  · cases h
  · rw [moveItems_eq_map]

/-- What begins with one number only stays. It is taken for a position that is too short to be
moved, and is not gone into either. -/
theorem moveCoordinates_short {x : Json.Number} {rest : List Json}
    (h : ∀ y more, rest ≠ .number y :: more) (f : PointMap) :
    moveCoordinates f (.array (.number x :: rest)) = .array (.number x :: rest) := by
  rw [moveCoordinates.eq_def]
  dsimp only
  rw [movePosition.eq_def]
  split
  · next heq => exact absurd (List.cons.inj heq).2 (h _ _)
  · rfl

section Coordinates

variable {items : List Json} {place : Place} {a b : Float}

theorem inCoordinates_position (x y : Json.Number) (rest : List Json) :
    InCoordinates (.array (.number x :: .number y :: rest)) place a b ↔
      place = [] ∧ a = x.toFloat ∧ b = y.toFloat := by
  constructor
  · intro h
    cases h with
    | here => exact ⟨rfl, rfl, rfl⟩
    | inside hitems => cases hitems
  · rintro ⟨rfl, rfl, rfl⟩
    exact .here x y rest

theorem not_inCoordinates_short {x : Json.Number} {rest : List Json}
    (h : ∀ y more, rest ≠ .number y :: more) :
    ¬InCoordinates (.array (.number x :: rest)) place a b := by
  intro hat
  cases hat with
  | here x y more => exact h y more rfl
  | inside hitems => cases hitems

theorem inCoordinates_item (hitems : beginsWithNumber items = false) {index : Nat} {item : Json}
    (hitem : items[index]? = some item) :
    InCoordinates (.array items) (.item index :: place) a b ↔ InCoordinates item place a b := by
  constructor
  · intro h
    cases h with
    | inside _ hother h =>
      rw [hitem] at hother
      rwa [Option.some.inj hother]
  · exact .inside hitems hitem

/-- A position in items that do not begin with a number is in one of them, since the items together
are none. -/
theorem InCoordinates.exists_item (h : InCoordinates (.array items) place a b)
    (hitems : beginsWithNumber items = false) :
    ∃ index item rest, place = .item index :: rest ∧ items[index]? = some item := by
  cases h with
  | here => cases hitems
  | @inside _ index item rest _ _ _ hitem => exact ⟨index, item, rest, rfl, hitem⟩

end Coordinates

mutual

/-- **Coordinates.** Their positions are moved, at any depth. The induction goes with the recursion
of the code, through arrays that do not begin with a number. -/
theorem moves_moveCoordinates (f : PointMap) (v : Json) :
    Moves f (InCoordinates v) v (moveCoordinates f v) := by
  match v with
  | .null | .bool _ | .number _ | .string _ | .object _ =>
    rw [moveCoordinates]
    · exact .refl nofun
    · nofun
  | .array items =>
    rcases items_cases items with ⟨x, y, rest, rfl⟩ | ⟨x, rest, rfl, hshort⟩ | hitems
    · exact .position x y rest fun place a b => inCoordinates_position x y rest
    · rw [moveCoordinates_short hshort]
      exact .refl fun place a b => not_inCoordinates_short hshort
    · rw [moveCoordinates_items hitems]
      refine .map_items (fun place a b h => h.exists_item hitems) fun index item hitem => ?_
      have hmoves := moves_items f items item (List.mem_of_getElem? hitem)
      exact hmoves.congr fun place a b => inCoordinates_item hitems hitem

theorem moves_items (f : PointMap) (items : List Json) :
    ∀ v ∈ items, Moves f (InCoordinates v) v (moveCoordinates f v) := by
  match items with
  | [] => exact fun v hv => absurd hv List.not_mem_nil
  | v :: rest => exact List.forall_mem_cons.mpr ⟨moves_moveCoordinates f v, moves_items f rest⟩

end

/-! ### Geometries -/

theorem moveParts_eq_map (f : PointMap) (parts : List Json) :
    moveParts f parts = parts.map (moveGeometry f) := by
  induction parts with
  | nil => rfl
  | cons part rest ih => rw [moveParts, ih, List.map_cons]

theorem moveMembers_eq_map (f : PointMap) (members : List (String × Json)) :
    moveMembers f members = members.map fun m => (m.1, moveMember f m.1 m.2) := by
  induction members with
  | nil => rfl
  | cons m rest ih =>
    obtain ⟨name, v⟩ := m
    rw [moveMembers, ih, List.map_cons]

theorem moveMember_coordinates (f : PointMap) (v : Json) :
    moveMember f "coordinates" v = moveCoordinates f v := by
  cases v with
  | array items => rw [moveMember, if_pos rfl]
  | _ => rfl

theorem moveMember_geometries (f : PointMap) (parts : List Json) :
    moveMember f "geometries" (.array parts) = .array (parts.map (moveGeometry f)) := by
  rw [moveMember, if_neg (by decide), if_pos rfl, moveParts_eq_map]

theorem moveMember_other {name : String} (hcoordinates : name ≠ "coordinates")
    (hgeometries : name ≠ "geometries") (f : PointMap) (v : Json) : moveMember f name v = v := by
  cases v with
  | array items => rw [moveMember, if_neg hcoordinates, if_neg hgeometries]
  | _ => rfl

section Geometries

variable {members : List (String × Json)} {place : Place} {x y : Float}

/-- **Positions of a geometry** are in its coordinates or in its parts. -/
theorem InGeometry.cases (h : InGeometry (.object members) place x y) :
    (∃ v rest, place = .member "coordinates" :: rest ∧
      Json.member? "coordinates" members = some v ∧ InCoordinates v rest x y) ∨
    ∃ parts index part rest, place = .member "geometries" :: .item index :: rest ∧
      Json.member? "geometries" members = some (.array parts) ∧ parts[index]? = some part ∧
      InGeometry part rest x y := by
  cases h with
  | coordinates hmember h => exact .inl ⟨_, _, rfl, hmember, h⟩
  | part hmember hpart h => exact .inr ⟨_, _, _, _, rfl, hmember, hpart, h⟩

theorem InGeometry.exists_member (h : InGeometry (.object members) place x y) :
    ∃ name v rest, place = .member name :: rest ∧ Json.member? name members = some v := by
  rcases h.cases with ⟨v, rest, rfl, hmember, -⟩ | ⟨parts, index, part, rest, rfl, hmember, -, -⟩
  · exact ⟨_, _, _, rfl, hmember⟩
  · exact ⟨_, _, _, rfl, hmember⟩

/-- The positions in the member `coordinates` of a geometry are those of the coordinates. -/
theorem inGeometry_coordinates {v : Json}
    (hmember : Json.member? "coordinates" members = some v) :
    InGeometry (.object members) (.member "coordinates" :: place) x y ↔
      InCoordinates v place x y := by
  refine ⟨fun h => ?_, .coordinates hmember⟩
  rcases h.cases with ⟨w, rest, hplace, hother, hat⟩ | ⟨_, _, _, _, hplace, -⟩
  · obtain ⟨-, rfl⟩ := List.cons.inj hplace
    rw [hmember] at hother
    rwa [Option.some.inj hother]
  · exact absurd (List.cons.inj hplace).1 (by decide)

/-- At a place in the parts of a collection there is a position. -/
def InParts (v : Json) (place : Place) (x y : Float) : Prop :=
  ∃ parts index part rest, v = .array parts ∧ place = .item index :: rest ∧
    parts[index]? = some part ∧ InGeometry part rest x y

theorem inParts_item {parts : List Json} {index : Nat} {part : Json}
    (hpart : parts[index]? = some part) :
    InParts (.array parts) (.item index :: place) x y ↔ InGeometry part place x y := by
  constructor
  · rintro ⟨others, other, found, rest, hothers, hplace, hfound, hat⟩
    obtain rfl := Json.array.inj hothers
    cases hplace
    rw [hpart] at hfound
    rwa [Option.some.inj hfound]
  · exact fun hat => ⟨parts, index, part, place, rfl, rfl, hpart, hat⟩

/-- The positions in the member `geometries` are those of the parts of the collection. -/
theorem inGeometry_geometries {v : Json}
    (hmember : Json.member? "geometries" members = some v) :
    InGeometry (.object members) (.member "geometries" :: place) x y ↔ InParts v place x y := by
  constructor
  · intro h
    rcases h.cases with ⟨_, _, hplace, -⟩ | ⟨parts, index, part, rest, hplace, hother, hpart, hat⟩
    · exact absurd (List.cons.inj hplace).1 (by decide)
    · rw [hmember] at hother
      exact ⟨parts, index, part, rest, Option.some.inj hother, (List.cons.inj hplace).2, hpart, hat⟩
  · rintro ⟨parts, index, part, rest, rfl, rfl, hpart, hat⟩
    exact .part hmember hpart hat

/-- Other members of a geometry hold no positions, even if they look like coordinates. -/
theorem not_inGeometry_other {name : String} (hcoordinates : name ≠ "coordinates")
    (hgeometries : name ≠ "geometries") :
    ¬InGeometry (.object members) (.member name :: place) x y := by
  intro h
  rcases h.cases with ⟨_, _, hplace, -⟩ | ⟨_, _, _, _, hplace, -⟩
  · exact hcoordinates (Step.member.inj (List.cons.inj hplace).1)
  · exact hgeometries (Step.member.inj (List.cons.inj hplace).1)

end Geometries

mutual

/-- **Geometries.** Their positions are moved, those of parts of collections included. What kind of
geometry it claims to be does not matter. -/
theorem moves_moveGeometry (f : PointMap) (g : Json) :
    Moves f (InGeometry g) g (moveGeometry f g) := by
  match g with
  | .null | .bool _ | .number _ | .string _ | .array _ =>
    rw [moveGeometry]
    · exact .refl nofun
    · nofun
  | .object members =>
    rw [moveGeometry, moveMembers_eq_map]
    refine .map_members (fun place x y h => h.exists_member) fun name v hmember => ?_
    by_cases hcoordinates : name = "coordinates"
    · subst hcoordinates
      rw [moveMember_coordinates]
      exact (moves_moveCoordinates f v).congr fun place x y => inGeometry_coordinates hmember
    · by_cases hgeometries : name = "geometries"
      · subst hgeometries
        have hmoves := moves_members f members _ (Json.mem_of_member? hmember)
        exact hmoves.congr fun place x y => inGeometry_geometries hmember
      · rw [moveMember_other hcoordinates hgeometries]
        exact .refl fun place x y => not_inGeometry_other hcoordinates hgeometries

theorem moves_members (f : PointMap) (members : List (String × Json)) :
    ∀ m ∈ members, Moves f (InParts m.2) m.2 (moveMember f "geometries" m.2) := by
  match members with
  | [] => exact fun m hm => absurd hm List.not_mem_nil
  | (name, v) :: rest =>
    exact List.forall_mem_cons.mpr ⟨moves_moveMember f v, moves_members f rest⟩

theorem moves_moveMember (f : PointMap) (v : Json) :
    Moves f (InParts v) v (moveMember f "geometries" v) := by
  match v with
  | .null | .bool _ | .number _ | .string _ | .object _ =>
    rw [moveMember]
    · refine .refl ?_
      rintro place x y ⟨parts, index, part, rest, hparts, -⟩
      cases hparts
    · nofun
  | .array parts =>
    rw [moveMember_geometries]
    refine .map_items ?_ fun index part hpart => ?_
    · rintro place x y ⟨others, index, part, rest, hothers, hplace, hpart, -⟩
      obtain rfl := Json.array.inj hothers
      exact ⟨index, part, rest, hplace, hpart⟩
    · have hmoves := moves_parts f parts part (List.mem_of_getElem? hpart)
      exact hmoves.congr fun place x y => inParts_item hpart

theorem moves_parts (f : PointMap) (parts : List Json) :
    ∀ part ∈ parts, Moves f (InGeometry part) part (moveGeometry f part) := by
  match parts with
  | [] => exact fun part hpart => absurd hpart List.not_mem_nil
  | part :: rest =>
    exact List.forall_mem_cons.mpr ⟨moves_moveGeometry f part, moves_parts f rest⟩

end

/-! ## What stays -/

/-- An array that is a position is not gone into, so that no position stands inside another. -/
theorem InCoordinates.not_inside {v : Json} {place more : Place} {x y a b : Float}
    (h : InCoordinates v place x y) (hmore : InCoordinates v (place ++ more) a b) : more = [] := by
  induction h with
  | here x y rest => exact ((inCoordinates_position x y rest).mp hmore).1
  | inside hitems hitem _ ih => exact ih ((inCoordinates_item hitems hitem).mp hmore)

theorem InGeometry.not_inside {g : Json} {place more : Place} {x y a b : Float}
    (h : InGeometry g place x y) (hmore : InGeometry g (place ++ more) a b) : more = [] := by
  induction h with
  | coordinates hmember h => exact h.not_inside ((inGeometry_coordinates hmember).mp hmore)
  | part hmember hpart _ ih =>
    exact ih ((inParts_item hpart).mp ((inGeometry_geometries hmember).mp hmore))

/-- No position is at a member of a geometry but `coordinates` and `geometries`; so its extent, say,
is never moved. -/
theorem IsPart.not_inGeometry {g : Json} {place : Place} (h : IsPart g place) {name : String}
    (hcoordinates : name ≠ "coordinates") (hgeometries : name ≠ "geometries") (more : Place)
    (x y : Float) : ¬InGeometry g (place ++ .member name :: more) x y := by
  induction h with
  | whole members => exact not_inGeometry_other hcoordinates hgeometries
  | part hmember hpart _ ih =>
    exact fun hat => ih ((inParts_item hpart).mp ((inGeometry_geometries hmember).mp hat))

/-- What a map makes of a geometry. -/
structure CarriesOver (f : PointMap) (before after : Json) : Prop where
  /-- its positions are moved -/
  moves : Moves f (InGeometry before) before after
  /-- which says all that there is to say -/
  only : ∀ other, Moves f (InGeometry before) before other → other = after
  /-- of a geometry or a part, only the coordinates and the parts change -/
  members : ∀ place name, IsPart before place → name ≠ "coordinates" → name ≠ "geometries" →
    after.at? (place ++ [.member name]) = before.at? (place ++ [.member name])
  /-- of a position, only the first two numbers change -/
  further : ∀ place x y index, InGeometry before place x y →
    after.at? (place ++ [.item (index + 2)]) = before.at? (place ++ [.item (index + 2)])

/-- At a step that is not to a first or second number, and with no positions behind it, nothing is
moved, nor is anything behind it. -/
theorem not_isOrdinate_behind {IsAt : Place → Float → Float → Prop} {place : Place} (step : Step)
    (hstep : step ≠ .item 0 ∧ step ≠ .item 1)
    (hat : ∀ more x y, ¬IsAt (place ++ step :: more) x y) (more : Place) :
    ¬IsOrdinate IsAt (place ++ [step] ++ more) := by
  rintro ⟨p, x, y, hp, hplace⟩
  -- the place of a number ends with its own step: that is the step here, or it stands behind
  rcases List.eq_nil_or_concat more with rfl | ⟨inside, last, rfl⟩
  · rw [List.append_nil] at hplace
    rcases hplace with hplace | hplace
    · exact hstep.1 (List.singleton_inj.mp (List.append_inj' hplace rfl).2)
    · exact hstep.2 (List.singleton_inj.mp (List.append_inj' hplace rfl).2)
  · have hfront : p = place ++ step :: inside := by
      rw [List.concat_eq_append, ← List.append_assoc] at hplace
      rcases hplace with hplace | hplace <;>
        rw [← (List.append_inj' hplace rfl).1, List.append_assoc, List.singleton_append]
    exact hat inside x y (hfront ▸ hp)

/-- Moving a geometry carries it over: the positions are moved, and everything that is not a
position is kept. -/
theorem carriesOver_moveGeometry {g : Json} (hg : g.WellFormed) (f : PointMap) :
    CarriesOver f g (moveGeometry f g) where
  moves := moves_moveGeometry f g
  only _ hother := (moves_moveGeometry f g).unique hother hg
  members place name hpart hcoordinates hgeometries := by
    refine (moves_moveGeometry f g).kept hg fun more => ?_
    refine not_isOrdinate_behind (.member name) (by simp) (fun inside x y => ?_) more
    exact hpart.not_inGeometry hcoordinates hgeometries inside x y
  further place x y index hat := by
    refine (moves_moveGeometry f g).kept hg fun more => ?_
    refine not_isOrdinate_behind (.item (index + 2)) (by simp) (fun inside a b hinside => ?_) more
    cases hat.not_inside hinside

/-! ## Reference systems -/

/-- The map that leads from one reference system to another. -/
inductive Way : ReferenceSystem → ReferenceSystem → PointMap → Prop where
  /-- from degrees to metres -/
  | out : Way .wgs84 .webMercator toMercator
  /-- from metres to degrees -/
  | back : Way .webMercator .wgs84 fromMercator

/-- Where a map leads from one system to another, it is the map by which geometries are moved. -/
theorem reproject_of_way {source target : ReferenceSystem} {f : PointMap} (h : Way source target f)
    (geometry : Json) : reproject source target geometry = .ok (moveGeometry f geometry) := by
  cases h <;> rfl

/-- Between two systems without a map nothing is carried over, whatever the geometry is, even one
without positions. -/
theorem reproject_of_no_way {source target : ReferenceSystem} (hne : source ≠ target)
    (hway : ∀ f, ¬Way source target f) (geometry : Json) :
    reproject source target geometry = .error ⟨source, target⟩ := by
  have hout : ¬(source = .wgs84 ∧ target = .webMercator) := by
    rintro ⟨rfl, rfl⟩
    exact hway _ .out
  have hback : ¬(source = .webMercator ∧ target = .wgs84) := by
    rintro ⟨rfl, rfl⟩
    exact hway _ .back
  rw [reproject, if_neg hne, if_neg hout, if_neg hback]

/-- **Reprojection.** Within one system a geometry stays as it is, whichever system it is. Where
there is a way to another system, the positions of the geometry are moved by its map, with `null` in
the place of a number that is not finite, and nothing else changes. Between all other systems a
geometry cannot be carried over. As places determine a value, this leaves no choice of what the
result is. -/
theorem reproject_moves (geometry : Json) (hgeometry : geometry.WellFormed) :
    (∀ system, reproject system system geometry = .ok geometry) ∧
    (∀ source target f, Way source target f → ∃ moved,
      reproject source target geometry = .ok moved ∧ CarriesOver f geometry moved) ∧
    (∀ source target, source ≠ target → (∀ f, ¬Way source target f) →
      reproject source target geometry = .error ⟨source, target⟩) ∧
    (∀ x : Float, x.isFinite = false → Json.ofFloat x = .null) ∧
    ∀ d : Json.Double, Json.ofFloat d.value = .number (.double d) := by
  refine ⟨fun system => ?_, fun source target f hway => ?_, fun source target hne hway => ?_, ?_,
    Json.ofFloat_value⟩
  · rw [reproject, if_pos rfl]
  · exact ⟨_, reproject_of_way hway geometry, carriesOver_moveGeometry hgeometry f⟩
  · exact reproject_of_no_way hne hway geometry
  · intro x hx
    rw [Json.ofFloat, Json.Number.ofFloat?, dif_neg (by rw [hx]; exact Bool.false_ne_true)]

/-- A point at a height, with its extent. -/
def tower : Json :=
  .object [("bbox", .array [.number (.integer (.ofInt64 16)), .number (.integer (.ofInt64 48))]),
    ("coordinates", .array [.number (.integer (.ofInt64 16)), .number (.integer (.ofInt64 48)),
      .number (.integer (.ofInt64 200))]),
    ("type", .string "Point")]

/-- A line that has too short a position. -/
def broken : Json :=
  .object [("coordinates", .array [.array [.number (.integer (.ofInt64 16))], .array []]),
    ("type", .string "LineString")]

/-- A collection that holds the line and, in another collection, the point. -/
def survey : Json :=
  .object [("geometries", .array [broken, .object [("geometries", .array [tower])]]),
    ("type", .string "GeometryCollection")]

theorem wellFormed_survey : survey.WellFormed := by
  have htower : ["bbox", "coordinates", "type"].Pairwise (· < ·) := by decide
  have hbroken : ["coordinates", "type"].Pairwise (· < ·) := by decide
  have hnames : ["geometries", "type"].Pairwise (· < ·) := by decide
  have hpoint : tower.WellFormed :=
    ⟨(Json.sorted_iff _).mpr htower, ⟨trivial, trivial, trivial⟩,
      ⟨trivial, trivial, trivial, trivial⟩,
      trivial, trivial⟩
  have hline : broken.WellFormed :=
    ⟨(Json.sorted_iff _).mpr hbroken, ⟨⟨trivial, trivial⟩, trivial, trivial⟩, trivial, trivial⟩
  have hinner : (Json.object [("geometries", .array [tower])]).WellFormed :=
    ⟨List.pairwise_singleton _ _, ⟨hpoint, trivial⟩, trivial⟩
  exact ⟨(Json.sorted_iff _).mpr hnames, ⟨hline, hinner, trivial⟩, trivial, trivial⟩

/-- The point in the survey is moved; its height, its extent and the short position stay. -/
theorem reproject_moves_survey : survey.WellFormed ∧
    ∃ moved, reproject .wgs84 .webMercator survey = .ok moved ∧
      moved.at? [.member "geometries", .item 1, .member "geometries", .item 0,
          .member "coordinates", .item 1] =
        some (.ofFloat (toMercator (Json.Number.integer (.ofInt64 16)).toFloat
          (Json.Number.integer (.ofInt64 48)).toFloat).2) ∧
      moved.at? [.member "geometries", .item 1, .member "geometries", .item 0,
          .member "coordinates", .item 2] = some (.number (.integer (.ofInt64 200))) ∧
      moved.at? [.member "geometries", .item 1, .member "geometries", .item 0, .member "bbox"] =
        some (.array [.number (.integer (.ofInt64 16)), .number (.integer (.ofInt64 48))]) ∧
      moved.outlineAt? [.member "geometries", .item 0, .member "coordinates", .item 0, .item 0] =
        some (.scalar (.number (.integer (.ofInt64 16)))) := by
  obtain ⟨-, hmoved, -⟩ := reproject_moves survey wellFormed_survey
  obtain ⟨moved, hok, hcarried⟩ := hmoved _ _ _ .out
  -- the point is the only part of the collection inside the collection
  have hpart : IsPart survey [.member "geometries", .item 1, .member "geometries", .item 0] :=
    .part rfl rfl (.part rfl rfl (.whole _))
  have hat : InGeometry survey [.member "geometries", .item 1, .member "geometries", .item 0,
      .member "coordinates"] _ _ :=
    .part rfl rfl (.part rfl rfl (.coordinates rfl (.here _ _ _)))
  refine ⟨wellFormed_survey, moved, hok, (hcarried.moves.moved hat).2, ?_, ?_, ?_⟩
  · exact hcarried.further _ _ _ 0 hat
  · exact hcarried.members _ _ hpart (by decide) (by decide)
  · -- the position of the line is too short: no position is at its place
    refine hcarried.moves.others _ ?_
    rintro ⟨place, x, y, hplace, h⟩
    have hshort : place = [.member "geometries", .item 0, .member "coordinates", .item 0] := by
      rcases h with h | h
      · exact (List.append_inj' (show [_, _, _, _] ++ [_] = place ++ [.item 0] from h) rfl).1.symm
      · exact (List.append_inj' (show [_, _, _, _] ++ [_] = place ++ [.item 1] from h) rfl).1.symm
    subst hshort
    have hline : InGeometry broken [.member "coordinates", .item 0] x y :=
      (inParts_item rfl).mp ((inGeometry_geometries rfl).mp hplace)
    have hitem : InCoordinates (.array [.number (.integer (.ofInt64 16))]) [] x y :=
      (inCoordinates_item rfl rfl).mp ((inGeometry_coordinates rfl).mp hline)
    exact not_inCoordinates_short (fun _ _ => (List.cons_ne_nil _ _).symm) hitem

end FeatureTransform
