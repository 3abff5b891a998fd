import FeatureTransform.Json.Basic
import Mathlib.Data.List.Nodup
import Mathlib.Data.List.Perm.Basic
import Mathlib.Data.String.Basic

/-!
# The order of members

Members with distinct names are brought into one order, whatever order they come in.
-/

namespace FeatureTransform.Json

/-- The names of the members increase. -/
def Sorted (members : List (String × Json)) : Prop := members.Pairwise fun a b => a.1 < b.1

theorem sorted_iff (members : List (String × Json)) :
    Sorted members ↔ (members.map Prod.fst).Pairwise (· < ·) := by
  rw [Sorted, List.pairwise_map]

/-- No two members have one name. -/
def Distinct (members : List (String × Json)) : Prop := (members.map Prod.fst).Nodup

/-- Names that increase are distinct. -/
theorem Sorted.distinct {members : List (String × Json)} (h : Sorted members) :
    Distinct members := by
  rw [Distinct, List.Nodup, List.pairwise_map]
  exact h.imp fun hless => ne_of_lt hless

theorem Distinct.perm {members others : List (String × Json)} (h : Distinct members)
    (hperm : members.Perm others) : Distinct others :=
  (hperm.map Prod.fst).nodup_iff.mp h

theorem member?_cons (query name : String) (v : Json) (rest : List (String × Json)) :
    member? query ((name, v) :: rest) = if query = name then some v else member? query rest := by
  by_cases h : query = name
  · subst h
    rw [member?, List.lookup_cons, beq_self_eq_true, if_pos rfl]
  · rw [member?, List.lookup_cons, beq_eq_false_iff_ne.mpr h, if_neg h]
    rfl

/-- A member is found under its name. Without distinct names only the first of a name would be. -/
theorem Distinct.member? {members : List (String × Json)} (h : Distinct members) {name : String}
    {v : Json} (hmem : (name, v) ∈ members) : member? name members = some v := by
  induction members with
  | nil => cases hmem
  | cons m rest ih =>
    obtain ⟨other, w⟩ := m
    obtain ⟨hnew, hrest⟩ := List.nodup_cons.mp h
    rcases List.mem_cons.mp hmem with heq | hlater
    · obtain ⟨rfl, rfl⟩ := Prod.mk.inj heq
      rw [member?_cons, if_pos rfl]
    · have hne : name ≠ other := by
        rintro rfl
        exact hnew (List.mem_map.mpr ⟨_, hlater, rfl⟩)
      rw [member?_cons, if_neg hne]
      exact ih hrest hlater

/-- Under other names there is nothing. -/
theorem member?_eq_none {members : List (String × Json)} {name : String}
    (h : name ∉ members.map Prod.fst) : member? name members = none := by
  rw [Json.member?, List.lookup_eq_none_iff]
  intro m hm
  rw [bne_iff_ne]
  rintro rfl
  exact h (List.mem_map.mpr ⟨m, hm, rfl⟩)

/-! ## Insertion -/

section Insertion

variable {members : List (String × Json)} {name : String} {value : Json}

theorem mem_insertMember {m : String × Json} (h : m ∈ insertMember name value members) :
    m = (name, value) ∨ m ∈ members := by
  induction members with
  | nil => exact .inl (List.mem_singleton.mp h)
  | cons first rest ih =>
    obtain ⟨other, old⟩ := first
    rw [insertMember] at h
    by_cases hless : name < other
    · rw [if_pos hless] at h
      exact List.mem_cons.mp h
    · rw [if_neg hless] at h
      by_cases heq : name = other
      · rw [if_pos heq] at h
        exact (List.mem_cons.mp h).imp_right (List.mem_cons_of_mem _)
      · rw [if_neg heq] at h
        rcases List.mem_cons.mp h with rfl | h
        · exact .inr List.mem_cons_self
        · exact (ih h).imp_right (List.mem_cons_of_mem _)

/-- A member goes to its place, so that names go on increasing. -/
theorem Sorted.insertMember (h : Sorted members) : Sorted (insertMember name value members) := by
  induction members with
  | nil => exact List.pairwise_singleton _ _
  | cons m rest ih =>
    obtain ⟨other, old⟩ := m
    obtain ⟨hhead, hrest⟩ := List.pairwise_cons.mp h
    rw [Json.insertMember]
    by_cases hless : name < other
    · rw [if_pos hless]
      refine List.pairwise_cons.mpr ⟨?_, h⟩
      intro m hm
      rcases List.mem_cons.mp hm with rfl | hm
      · exact hless
      · exact hless.trans (hhead m hm)
    · rw [if_neg hless]
      by_cases heq : name = other
      · rw [if_pos heq]
        subst heq
        exact List.pairwise_cons.mpr ⟨hhead, hrest⟩
      · -- what is inserted behind is greater, and so is what stood there
        have hgreater : other < name := lt_of_le_of_ne (not_lt.mp hless) (Ne.symm heq)
        rw [if_neg heq]
        refine List.pairwise_cons.mpr ⟨?_, ih hrest⟩
        intro m hm
        rcases mem_insertMember hm with rfl | hm
        · exact hgreater
        · exact hhead m hm

/-- A new name displaces no other: all members that were there are there, and the new one. -/
theorem perm_insertMember (hnew : name ∉ members.map Prod.fst) :
    (insertMember name value members).Perm ((name, value) :: members) := by
  induction members with
  | nil => exact List.Perm.refl _
  | cons m rest ih =>
    obtain ⟨other, old⟩ := m
    rw [List.map_cons, List.mem_cons, not_or] at hnew
    rw [insertMember]
    by_cases hless : name < other
    · rw [if_pos hless]
    · rw [if_neg hless, if_neg hnew.1]
      exact ((ih hnew.2).cons _).trans (List.Perm.swap _ _ _)

/-- Under its name the new value is found, under the others what was there. A value that had the
name is replaced. -/
theorem member?_insertMember (query : String) :
    member? query (insertMember name value members) =
      if query = name then some value else member? query members := by
  induction members with
  | nil => rw [insertMember, member?_cons]
  | cons m rest ih =>
    obtain ⟨other, old⟩ := m
    rw [insertMember]
    by_cases hless : name < other
    · rw [if_pos hless, member?_cons]
    · rw [if_neg hless]
      by_cases heq : name = other
      · rw [if_pos heq, member?_cons, member?_cons]
        subst heq
        by_cases hquery : query = name <;> simp [hquery]
      · rw [if_neg heq, member?_cons, member?_cons, ih]
        by_cases hother : query = other
        · subst hother
          simp [Ne.symm heq]
        · simp [hother]

end Insertion

/-! ## Sorting -/

section Sorting

variable {members sorted : List (String × Json)}

/-- The members that have been put in their place, and those still to come. -/
abbrev insertAll (members sorted : List (String × Json)) : List (String × Json) :=
  members.foldl (fun sorted (name, value) => insertMember name value sorted) sorted

theorem Sorted.insertAll (h : Sorted sorted) : Sorted (insertAll members sorted) := by
  induction members generalizing sorted with
  | nil => exact h
  | cons m rest ih => exact ih h.insertMember

theorem mem_insertAll {m : String × Json} (h : m ∈ insertAll members sorted) :
    m ∈ members ∨ m ∈ sorted := by
  induction members generalizing sorted with
  | nil => exact .inr h
  | cons first rest ih =>
    rcases ih h with hrest | hinserted
    · exact .inl (List.mem_cons_of_mem _ hrest)
    · rcases mem_insertMember hinserted with rfl | hsorted
      · exact .inl List.mem_cons_self
      · exact .inr hsorted

/-- Members with distinct names are all there when they have been put in their places. -/
theorem perm_insertAll (hdistinct : Distinct (members ++ sorted)) :
    (insertAll members sorted).Perm (members ++ sorted) := by
  induction members generalizing sorted with
  | nil => exact List.Perm.refl _
  | cons m rest ih =>
    obtain ⟨name, value⟩ := m
    have hnew : name ∉ sorted.map Prod.fst := fun hmem => by
      have hnodup := List.nodup_cons.mp hdistinct
      exact hnodup.1 (by simp [List.map_append, List.mem_append.mpr (.inr hmem)])
    have hmiddle :
        (rest ++ insertMember name value sorted).Perm ((name, value) :: rest ++ sorted) :=
      ((perm_insertMember hnew).append_left rest).trans List.perm_middle
    exact (ih (hdistinct.perm hmiddle.symm)).trans hmiddle

/-- Of the members with one name the last counts, and all count before those that were there: each
insertion replaces what was inserted under the name before. -/
theorem member?_insertAll (query : String) : member? query (insertAll members sorted) =
    (member? query members.reverse).or (member? query sorted) := by
  induction members generalizing sorted with
  | nil => rfl
  | cons m rest ih =>
    obtain ⟨name, value⟩ := m
    have hlast : member? query (rest.reverse ++ [(name, value)]) =
        (member? query rest.reverse).or (member? query [(name, value)]) := List.lookup_append
    rw [List.reverse_cons, hlast, member?_cons, Option.or_assoc]
    refine ih.trans ?_
    rw [member?_insertMember]
    by_cases hquery : query = name <;> simp [hquery, member?]

/-- Sorting puts members in order, whatever names they have. -/
theorem sorted_sortMembers (members : List (String × Json)) : Sorted (sortMembers members) :=
  Sorted.insertAll List.Pairwise.nil

theorem mem_of_mem_sortMembers {m : String × Json} (h : m ∈ sortMembers members) : m ∈ members :=
  (mem_insertAll h).resolve_right List.not_mem_nil

theorem member?_sortMembers (members : List (String × Json)) (query : String) :
    member? query (sortMembers members) = member? query members.reverse := by
  refine (member?_insertAll query).trans ?_
  simp [member?]

/-- **Sorting** brings members into the one order in which their names increase. So it undoes any
change of their order, such as a table makes when it is gone through. -/
theorem sortMembers_of_perm (hperm : members.Perm sorted) (hsorted : Sorted sorted) :
    sortMembers members = sorted := by
  have hdistinct : Distinct (members ++ []) := by
    rw [List.append_nil]
    exact hsorted.distinct.perm hperm.symm
  have hall := perm_insertAll hdistinct
  rw [List.append_nil] at hall
  refine (hall.trans hperm).eq_of_pairwise ?_ (sorted_sortMembers members) hsorted
  rintro a b - - hab hba
  exact absurd hba (lt_asymm hab)

/-- Members that stand in order stay as they are. -/
theorem sortMembers_of_sorted (h : Sorted members) : sortMembers members = members :=
  sortMembers_of_perm (List.Perm.refl _) h

end Sorting

/-- What is found under a name is a member of that name. -/
theorem mem_of_member? {members : List (String × Json)} {name : String} {v : Json}
    (h : member? name members = some v) : (name, v) ∈ members := by
  induction members with
  | nil => cases h
  | cons m rest ih =>
    obtain ⟨other, w⟩ := m
    rw [member?_cons] at h
    by_cases hname : name = other
    · rw [if_pos hname] at h
      cases h
      rw [hname]
      exact List.mem_cons_self
    · rw [if_neg hname] at h
      exact List.mem_cons_of_mem _ (ih h)

/-- **One order.** Members that stand in order are told by what is found under each name. This is
why objects can be compared by looking members up. -/
theorem Sorted.ext {members others : List (String × Json)} (hmembers : Sorted members)
    (hothers : Sorted others) (h : ∀ name, member? name members = member? name others) :
    members = others := by
  have hiff : ∀ m, m ∈ members ↔ m ∈ others := by
    rintro ⟨name, v⟩
    constructor
    · intro hm
      exact mem_of_member? ((h name).symm.trans (hmembers.distinct.member? hm))
    · intro hm
      exact mem_of_member? ((h name).trans (hothers.distinct.member? hm))
  have hperm : members.Perm others :=
    (List.perm_ext_iff_of_nodup (List.Nodup.of_map Prod.fst hmembers.distinct)
      (List.Nodup.of_map Prod.fst hothers.distinct)).mpr hiff
  exact (sortMembers_of_sorted hmembers).symm.trans (sortMembers_of_perm hperm hothers)

end FeatureTransform.Json
