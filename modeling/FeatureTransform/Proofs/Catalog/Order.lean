import FeatureTransform.Catalog
import Mathlib.Data.List.Basic
import Mathlib.Data.String.Basic

/-!
# The order of the catalog

Scripts come by group and name. Scripts of one group and one name stay in the order in which they
were found, and whatever is left out does not change the order of the others.
-/

namespace FeatureTransform.Catalog

variable {a b c : Script} {found sorted : List Script}

/-- The order of the catalog in words: by group, and within a group by name. -/
theorem precedes_iff : precedes a b = true ↔
    a.group < b.group ∨ a.group = b.group ∧ a.displayName ≤ b.displayName := by
  rw [precedes, Bool.or_eq_true, Bool.and_eq_true, decide_eq_true_eq, beq_iff_eq,
    decide_eq_true_eq]

theorem precedes_trans (hab : precedes a b = true) (hbc : precedes b c = true) :
    precedes a c = true := by
  rw [precedes_iff] at hab hbc ⊢
  rcases hab with hab | ⟨hgroup, hab⟩
  · rcases hbc with hbc | ⟨hgroup', -⟩
    · exact .inl (hab.trans hbc)
    · exact .inl (hgroup' ▸ hab)
  · rw [hgroup]
    exact hbc.imp_right fun ⟨hgroup', hbc⟩ => ⟨hgroup', hab.trans hbc⟩

theorem precedes_total (a b : Script) : (precedes a b || precedes b a) = true := by
  rw [Bool.or_eq_true, precedes_iff, precedes_iff]
  rcases lt_trichotomy a.group b.group with hless | hsame | hless
  · exact .inl (.inl hless)
  · exact (le_total a.displayName b.displayName).imp (fun h => .inr ⟨hsame, h⟩)
      fun h => .inr ⟨hsame.symm, h⟩
  · exact .inr (.inl hless)

/-- Whether a script is in that group and has that name. -/
def isCalled (group name : String) (script : Script) : Bool :=
  script.group == group && script.displayName == name

theorem isCalled_iff {group name : String} :
    isCalled group name a = true ↔ a.group = group ∧ a.displayName = name := by
  rw [isCalled, Bool.and_eq_true, beq_iff_eq, beq_iff_eq]

/-- The second list has the scripts of the first in the order of the catalog. -/
structure InOrder (found sorted : List Script) : Prop where
  /-- each as often -/
  perm : sorted.Perm found
  /-- by group and name -/
  ordered : sorted.Pairwise fun a b => precedes a b = true
  /-- of one group and one name, the one found first comes first -/
  ties : ∀ group name, sorted.filter (isCalled group name) = found.filter (isCalled group name)

/-- **Sorting** leaves ties as they were. Scripts of one group and one name are sorted already, and
what is sorted already is a sublist of what comes out. -/
theorem inOrder_mergeSort (found : List Script) : InOrder found (found.mergeSort precedes) := by
  have htrans (a b c : Script) (hab : precedes a b = true) (hbc : precedes b c = true) :
      precedes a c = true := precedes_trans hab hbc
  have hperm := List.mergeSort_perm found precedes
  refine ⟨hperm, List.pairwise_mergeSort htrans precedes_total found, fun group name => ?_⟩
  -- the scripts that are called so are sorted already, and so they stand there as they did
  have hties : (found.filter (isCalled group name)).Pairwise fun a b => precedes a b = true := by
    refine List.pairwise_of_forall_mem_list fun a ha b hb => ?_
    obtain ⟨hgroup, hname⟩ := isCalled_iff.mp (List.mem_filter.mp ha).2
    obtain ⟨hgroup', hname'⟩ := isCalled_iff.mp (List.mem_filter.mp hb).2
    exact precedes_iff.mpr (.inr ⟨hgroup.trans hgroup'.symm, (hname.trans hname'.symm).le⟩)
  have hsub := (List.sublist_mergeSort htrans precedes_total hties List.filter_sublist).filter
    (isCalled group name)
  rw [List.filter_filter] at hsub
  simp only [Bool.and_self] at hsub
  exact (hsub.eq_of_length (hperm.filter _).length_eq.symm).symm

/-- What is left out changes nothing for the others, so that a listing of some scripts is the
listing of all with lines taken out. -/
theorem InOrder.filter (h : InOrder found sorted) (p : Script → Bool) :
    InOrder (found.filter p) (sorted.filter p) where
  perm := h.perm.filter p
  ordered := h.ordered.filter p
  ties group name := by
    rw [List.filter_filter, List.filter_filter]
    simp only [Bool.and_comm _ (p _)]
    rw [← List.filter_filter, ← List.filter_filter, h.ties]

end FeatureTransform.Catalog
