import FeatureTransform.Proofs.Json.Portable
import FeatureTransform.Proofs.Json.Reader

/-!
# Places in values

A place is where some steps lead, to a member by its name and to an item by its position. What
stands at a place has an outline: how many items, the names of which members, or the value itself
if nothing stands inside it. The outlines at all places make up the value.
-/

namespace FeatureTransform.Json

/-- A step into a value. -/
inductive Step where
  /-- to the member of that name -/
  | member (name : String)
  /-- to the item at that position, counted from zero -/
  | item (index : Nat)
deriving DecidableEq

/-- The steps that lead to a place. -/
abbrev Place := List Step

/-- What stands behind a step. -/
def step? : Step → Json → Option Json
  | .member name, .object members => member? name members
  | .item index, .array items => items[index]?
  | _, _ => none

/-- Members whose values are changed keep their names, so that under each name the changed value is
found. -/
theorem member?_map (g : String → Json → Json) (members : List (String × Json)) (name : String) :
    member? name (members.map fun m => (m.1, g m.1 m.2)) = (member? name members).map (g name) := by
  induction members with
  | nil => rfl
  | cons m rest ih =>
    obtain ⟨other, v⟩ := m
    rw [List.map_cons, member?_cons, member?_cons, ih]
    by_cases h : name = other
    · subst h
      rw [if_pos rfl, if_pos rfl]
      rfl
    · rw [if_neg h, if_neg h]

/-- What stands at a place. -/
def at? : Place → Json → Option Json
  | [], v => some v
  | step :: rest, v => (step? step v).bind (at? rest)

/-- A place behind another is reached from there. -/
theorem at?_append (v : Json) (place more : Place) :
    v.at? (place ++ more) = (v.at? place).bind (at? more) := by
  induction place generalizing v with
  | nil => rfl
  | cons step rest ih =>
    rw [List.cons_append, at?, at?, Option.bind_assoc]
    exact congrArg _ (funext ih)

/-! ## Outlines -/

/-- What a value is without what stands inside it. -/
inductive Outline where
  /-- a value in which nothing stands -/
  | scalar (v : Json)
  /-- an array of so many items -/
  | array (length : Nat)
  /-- an object whose members have these names -/
  | object (names : List String)

/-- The outline of a value. -/
def outline : Json → Outline
  | .array items => .array items.length
  | .object members => .object (members.map Prod.fst)
  | v => .scalar v

/-- The outline of what stands at a place. -/
def outlineAt? (v : Json) (place : Place) : Option Outline := (v.at? place).map outline

/-- The outline behind a step is that of what the step leads to. -/
theorem outlineAt?_cons (v : Json) (step : Step) (rest : Place) :
    v.outlineAt? (step :: rest) = (step? step v).bind fun inside => inside.outlineAt? rest := by
  rw [outlineAt?, at?, Option.map_bind]
  rfl

theorem outlineAt?_append (v : Json) (place more : Place) :
    v.outlineAt? (place ++ more) = (v.at? place).bind fun inside => inside.outlineAt? more := by
  rw [outlineAt?, at?_append, Option.map_bind]
  rfl

theorem IsAtom.outline_eq {v : Json} (h : v.IsAtom) : outline v = .scalar v := by
  cases v with
  | array items => cases h
  | object members => cases h
  | _ => rfl

/-- Nothing stands inside an atom, so that it has an outline at its own place only. -/
theorem IsAtom.outlineAt?_cons {v : Json} (h : v.IsAtom) (step : Step) (rest : Place) :
    v.outlineAt? (step :: rest) = none := by
  rw [Json.outlineAt?_cons]
  cases v with
  | array items => cases h
  | object members => cases h
  | _ => cases step <;> rfl

/-! ## Well-formed values -/

section WellFormed

variable {v : Json} {items : List Json} {members : List (String × Json)}

theorem wellFormedItems_iff : WellFormedItems items ↔ ∀ v ∈ items, v.WellFormed := by
  induction items with
  | nil => simp [WellFormedItems]
  | cons v rest ih => rw [WellFormedItems, ih, List.forall_mem_cons]

/-- Of the values of members it is asked one by one; the order of the members is asked of the
object. -/
theorem wellFormedMembers_iff : WellFormedMembers members ↔ ∀ m ∈ members, m.2.WellFormed := by
  induction members with
  | nil => simp [WellFormedMembers]
  | cons m rest ih =>
    obtain ⟨name, v⟩ := m
    rw [WellFormedMembers, ih, List.forall_mem_cons]

theorem WellFormed.step? (hv : v.WellFormed) {step : Step} {inside : Json}
    (h : Json.step? step v = some inside) : inside.WellFormed := by
  unfold Json.step? at h
  split at h
  · exact wellFormedMembers_iff.mp hv.2 _ (mem_of_member? h)
  · exact wellFormedItems_iff.mp hv _ (List.mem_of_getElem? h)
  · cases h

/-- What stands inside a well-formed value, at any depth, is well-formed. -/
theorem WellFormed.at? (hv : v.WellFormed) {place : Place} {inside : Json}
    (h : v.at? place = some inside) : inside.WellFormed := by
  induction place generalizing v with
  | nil =>
    cases h
    exact hv
  | cons step rest ih =>
    obtain ⟨behind, hstep, hrest⟩ := Option.bind_eq_some_iff.mp h
    exact ih (hv.step? hstep) hrest

end WellFormed

/-! ### Values by their outlines -/

mutual

/-- **Outlines.** Two values with the same outline at every place are one. The induction is over the
first value: the outline at the root tells what kind of value the second one is and how many parts
it has, and those behind it are the outlines of the parts. -/
theorem ext_outlines (v w : Json) (hv : v.WellFormed) (hw : w.WellFormed)
    (h : ∀ place, v.outlineAt? place = w.outlineAt? place) : v = w := by
  -- the whole has an outline too: the same kind, the same length or the same names
  have hroot : outline v = outline w := Option.some.inj (h [])
  match v with
  | .null | .bool _ | .number _ | .string _ =>
    cases w <;> first | exact Outline.scalar.inj hroot | cases hroot
  | .array items =>
    cases w with
    | array others =>
      refine congrArg Json.array (ext_items items others hv hw (Outline.array.inj hroot) ?_)
      intro index place
      have hplace := h (.item index :: place)
      rwa [outlineAt?_cons, outlineAt?_cons] at hplace
    | _ => cases hroot
  | .object members =>
    cases w with
    | object others =>
      refine congrArg Json.object
        (ext_members members others hv.1.distinct hv.2 hw.2 (Outline.object.inj hroot) ?_)
      intro name place
      have hplace := h (.member name :: place)
      rwa [outlineAt?_cons, outlineAt?_cons] at hplace
    | _ => cases hroot

theorem ext_items (items others : List Json) (hitems : WellFormedItems items)
    (hothers : WellFormedItems others) (hlength : items.length = others.length)
    (h : ∀ (index : Nat) (place : Place), (items[index]?.bind fun v => v.outlineAt? place) =
      others[index]?.bind fun v => v.outlineAt? place) : items = others := by
  match items, others with
  | [], [] => rfl
  | v :: items, w :: others =>
    rw [ext_outlines v w hitems.1 hothers.1 (h 0),
      ext_items items others hitems.2 hothers.2 (Nat.succ.inj hlength) fun index => h (index + 1)]

theorem ext_members (members others : List (String × Json)) (hdistinct : Distinct members)
    (hmembers : WellFormedMembers members) (hothers : WellFormedMembers others)
    (hnames : members.map Prod.fst = others.map Prod.fst)
    (h : ∀ (name : String) (place : Place),
      ((member? name members).bind fun v => v.outlineAt? place) =
        (member? name others).bind fun v => v.outlineAt? place) : members = others := by
  match members, others with
  | [], [] => rfl
  | (name, v) :: members, (other, w) :: others =>
    obtain ⟨rfl, hrest⟩ := List.cons.inj hnames
    obtain ⟨hnew, hdistinct⟩ := List.nodup_cons.mp hdistinct
    have hhead : v = w := by
      refine ext_outlines v w hmembers.1 hothers.1 fun place => ?_
      have hplace := h name place
      rwa [member?_cons, member?_cons, if_pos rfl, if_pos rfl] at hplace
    rw [hhead, ext_members members others hdistinct hmembers.2 hothers.2 hrest]
    intro query place
    -- the name comes once, so it is not found among the others
    by_cases hquery : query = name
    · subst hquery
      rw [member?_eq_none hnew, member?_eq_none (hrest ▸ hnew)]
    · have hplace := h query place
      rwa [member?_cons, member?_cons, if_neg hquery, if_neg hquery] at hplace

end

mutual

/-- Whether a value is well-formed shows in its outlines: they tell the names of the members of each
object, in the order in which these stand. -/
theorem wellFormed_of_outlines (v : Json) (h : ∀ place names,
    v.outlineAt? place = some (.object names) → names.Pairwise (· < ·)) : v.WellFormed := by
  match v with
  | .null | .bool _ | .number _ | .string _ => trivial
  | .array items =>
    refine wellFormedItems_of_outlines items fun index place names hnames => ?_
    refine h (.item index :: place) names ?_
    rwa [outlineAt?_cons]
  | .object members =>
    have hsorted : Sorted members := (sorted_iff members).mpr (h [] _ rfl)
    refine ⟨hsorted, wellFormedMembers_of_outlines members hsorted.distinct ?_⟩
    intro name place names hnames
    refine h (.member name :: place) names ?_
    rwa [outlineAt?_cons]

theorem wellFormedItems_of_outlines (items : List Json) (h : ∀ (index : Nat) place names,
    (items[index]?.bind fun v => v.outlineAt? place) = some (.object names) →
      names.Pairwise (· < ·)) : WellFormedItems items := by
  match items with
  | [] => trivial
  | v :: rest =>
    exact ⟨wellFormed_of_outlines v (h 0), wellFormedItems_of_outlines rest fun index =>
      h (index + 1)⟩

theorem wellFormedMembers_of_outlines (members : List (String × Json))
    (hdistinct : Distinct members) (h : ∀ (name : String) place names,
      ((member? name members).bind fun v => v.outlineAt? place) = some (.object names) →
        names.Pairwise (· < ·)) : WellFormedMembers members := by
  match members with
  | [] => trivial
  | (name, v) :: rest =>
    obtain ⟨hnew, hdistinct⟩ := List.nodup_cons.mp hdistinct
    refine ⟨wellFormed_of_outlines v fun place names hnames => ?_,
      wellFormedMembers_of_outlines rest hdistinct fun query place names hnames => ?_⟩
    · refine h name place names ?_
      rwa [member?_cons, if_pos rfl]
    · have hquery : query ≠ name := by
        rintro rfl
        rw [member?_eq_none hnew] at hnames
        cases hnames
      refine h query place names ?_
      rwa [member?_cons, if_neg hquery]

end

theorem WellFormed.pairwise_names {v : Json} (hv : v.WellFormed) {place : Place}
    {names : List String} (h : v.outlineAt? place = some (.object names)) :
    names.Pairwise (· < ·) := by
  obtain ⟨inside, hinside, houtline⟩ := Option.map_eq_some_iff.mp h
  have hwell := hv.at? hinside
  cases inside with
  | object members =>
    obtain rfl := Outline.object.inj houtline
    exact (sorted_iff members).mp hwell.1
  | _ => cases houtline

/-- What stands at a place is known from the outlines there and behind it, and does not depend on
the rest of the value. -/
theorem at?_eq_of_outlines {v w : Json} (hv : v.WellFormed) (hw : w.WellFormed) {place : Place}
    (h : ∀ more, v.outlineAt? (place ++ more) = w.outlineAt? (place ++ more)) :
    v.at? place = w.at? place := by
  have hplace := h []
  simp only [List.append_nil, outlineAt?] at hplace
  cases hfirst : v.at? place with
  | none =>
    rw [hfirst] at hplace
    exact (Option.map_eq_none_iff.mp hplace.symm).symm
  | some inside =>
    rw [hfirst] at hplace
    obtain ⟨other, hother, -⟩ := Option.map_eq_some_iff.mp hplace.symm
    rw [hother, ext_outlines inside other (hv.at? hfirst) (hw.at? hother) fun more => ?_]
    have hmore := h more
    rwa [outlineAt?_append, outlineAt?_append, hfirst, hother] at hmore

end FeatureTransform.Json
