import FeatureTransform.Folder.Path
import FeatureTransform.Proofs.Text.Split
import Mathlib.Logic.Relation

/-!
# Spellings of a path

Paths with the same steps are spellings of one another: one is got from the other by putting in and
taking out slashes behind slashes, a `.` behind a slash, and a slash at the end. So no two paths are
taken for the same that differ in more than this.
-/

namespace FeatureTransform.Path

open Relation (EqvGen)

variable {s front piece : List UInt8} {pieces : List (List UInt8)} {c : Component}

/-- The first spelling has one slash or one `.` more than the second, which counts for nothing. -/
inductive Redundant : List UInt8 → List UInt8 → Prop where
  /-- a slash behind a slash -/
  | slash (front back : List UInt8) :
      Redundant (front ++ slash :: slash :: back) (front ++ slash :: back)
  /-- a `.` between two slashes -/
  | current (front back : List UInt8) :
      Redundant (front ++ slash :: dot :: slash :: back) (front ++ slash :: back)
  /-- a `.` behind the last slash -/
  | currentLast (front : List UInt8) : Redundant (front ++ [slash, dot]) (front ++ [slash])
  /-- a slash at the end, which is not the slash in front -/
  | slashLast {front : List UInt8} (h : front ≠ []) : Redundant (front ++ [slash]) front

/-- The paths are spellings of one another. -/
def Respelt (p q : Path) : Prop := EqvGen Redundant p.bytes q.bytes

/-! ## The steps of a spelling -/

/-- The steps that some bytes stand for. -/
def stepsOf (s : List UInt8) : List Component := (ofBytes s).components

/-- The step that the first piece stands for: before a slash, an empty one stands for the root. -/
def firstStep? (first : List UInt8) (more : List (List UInt8)) : Option Component :=
  if first = [] then if more = [] then none else some .root
  else if first = [dot] then some .current
  else component? first

theorem stepsOf_eq {first : List UInt8} {more : List (List UInt8)}
    (h : Text.splitAll slash s = first :: more) :
    stepsOf s = (firstStep? first more).toList ++ more.filterMap component? := by
  rw [stepsOf, components, h, firstStep?]
  by_cases hfirst : first = []
  · subst hfirst
    cases more <;> rfl
  by_cases hdot : first = [dot]
  · subst hdot
    rfl
  · rw [if_neg hfirst, if_neg hdot]
    simp only [hfirst, hdot, false_and, if_false]
    cases hstep : component? first with
    | none => rw [List.nil_append, List.filterMap_cons_none hstep]; rfl
    | some c => rw [List.nil_append, List.filterMap_cons_some hstep]; rfl

/-- A spelling is its pieces with slashes between them, so that to change a piece is to change the
spelling between two slashes. -/
theorem eq_append_flatMap {first : List UInt8} {more : List (List UInt8)}
    (h : Text.splitAll slash s = first :: more) : s = first ++ more.flatMap (slash :: ·) := by
  have hjoin := Text.join_splitAll slash s
  rw [h] at hjoin
  rw [← hjoin]
  clear h hjoin
  induction more generalizing first with
  | nil => exact (List.append_nil first).symm
  | cons next rest ih =>
    rw [List.flatMap_cons, List.cons_append, ← ih]
    exact List.append_assoc first [slash] _

theorem firstStep?_of_ne_nil (first : List UInt8) {more others : List (List UInt8)}
    (hmore : more ≠ []) (hothers : others ≠ []) :
    firstStep? first more = firstStep? first others := by
  rw [firstStep?, firstStep?, if_neg hmore, if_neg hothers]

/-- Steps go on behind a slash: what follows adds names and no root, as the root can only be in
front of everything. -/
theorem exists_stepsOf_slash (front : List UInt8) : ∃ before,
    (∀ s, stepsOf (front ++ slash :: s) = before ++ (Text.splitAll slash s).filterMap component?) ∧
      (front ≠ [] → stepsOf front = before) := by
  have hsplit : ∀ s : List UInt8, Text.splitAll slash s ≠ [] := fun s =>
    Text.splitAll_eq slash s ▸ List.splitOn_ne_nil slash s
  obtain ⟨first, more, hfront⟩ := List.exists_cons_of_ne_nil (hsplit front)
  -- of what stands behind the first piece it matters only that there is something
  refine ⟨(firstStep? first [[]]).toList ++ more.filterMap component?, fun s => ?_, fun hne => ?_⟩
  · have hpieces : Text.splitAll slash (front ++ slash :: s) =
        first :: (more ++ Text.splitAll slash s) := by
      rw [Text.splitAll_eq, List.splitOn_append_cons_self, ← Text.splitAll_eq, ← Text.splitAll_eq,
        hfront, List.cons_append]
    rw [stepsOf_eq hpieces, List.filterMap_append, ← List.append_assoc,
      firstStep?_of_ne_nil first (List.append_ne_nil_of_right_ne_nil _ (hsplit s))
        (List.cons_ne_nil [] [])]
  · rw [stepsOf_eq hfront]
    by_cases hmore : more = []
    · subst hmore
      have hfirst : first ≠ [] := by
        rintro rfl
        exact hne (eq_append_flatMap hfront)
      rw [firstStep?, firstStep?, if_neg hfirst, if_neg hfirst]
    · rw [firstStep?_of_ne_nil first hmore (List.cons_ne_nil [] [])]

/-- What is redundant stands for no step. This is one direction of the main result; the other goes
through the plainest spelling. -/
theorem Redundant.stepsOf_eq {s t : List UInt8} (h : Redundant s t) : stepsOf s = stepsOf t := by
  cases h with
  | slash front back | current front back | currentLast front =>
    obtain ⟨before, hslash, -⟩ := exists_stepsOf_slash front
    rw [hslash, hslash]
    rfl
  | slashLast hfront =>
    obtain ⟨before, hslash, hfirst⟩ := exists_stepsOf_slash t
    rw [hslash, hfirst hfront]
    exact List.append_nil before

/-! ## The plainest spelling -/

/-- The bytes that stand for a step. -/
def word : Component → List UInt8
  | .root => []
  | .current => [dot]
  | .parent => [dot, dot]
  | .normal name => name.bytes

/-- The shortest spelling of some steps. -/
def spell : List Component → List UInt8
  | [] => []
  | [.root] => [slash]
  | c :: rest => word c ++ rest.flatMap fun d => slash :: word d

theorem word_of_component? (h : component? piece = some c) : word c = piece := by
  unfold component? at h
  split at h
  · cases h
  · split at h
    · next heq =>
      cases h
      exact heq.symm
    · cases h
      rfl

theorem spell_cons (hc : c ≠ .root) (rest : List Component) :
    spell (c :: rest) = word c ++ rest.flatMap fun d => slash :: word d := by
  cases c with
  | root => exact absurd rfl hc
  | current | parent | normal _ => rfl

theorem spell_root_cons (d : Component) (rest : List Component) : spell (.root :: d :: rest) =
    slash :: word d ++ rest.flatMap fun d => slash :: word d := rfl

/-- Only the empty piece and `.` stand for no step. -/
theorem component?_eq_none_iff : component? piece = none ↔ piece = [] ∨ piece = [dot] := by
  unfold component?
  split
  · next h => exact iff_of_true rfl h
  · next h => split <;> exact iff_of_false (Option.some_ne_none _) h

theorem component?_ne_root : component? piece ≠ some .root := by
  unfold component?
  split
  · simp
  · split <;> simp

/-- A piece that stands for no step is redundant between slashes, together with one of them. -/
theorem respelt_between (h : component? piece = none) (front back : List UInt8) :
    EqvGen Redundant (front ++ slash :: (piece ++ slash :: back)) (front ++ slash :: back) := by
  rcases component?_eq_none_iff.mp h with rfl | rfl
  · exact .rel _ _ (.slash front back)
  · exact .rel _ _ (.current front back)

/-- A piece that stands for no step is redundant behind the last slash. -/
theorem respelt_last (h : component? piece = none) (front : List UInt8) :
    EqvGen Redundant (front ++ slash :: piece) (front ++ [slash]) := by
  rcases component?_eq_none_iff.mp h with rfl | rfl
  · exact .refl _
  · exact .rel _ _ (.currentLast front)

/-- Behind something, pieces are the steps that they stand for. The induction takes the pieces from
the first one on, each behind those that are plain already. -/
theorem respelt_pieces (hfront : front ≠ []) (pieces : List (List UInt8)) :
    EqvGen Redundant (front ++ pieces.flatMap (slash :: ·))
      (front ++ (pieces.filterMap component?).flatMap fun d => slash :: word d) := by
  induction pieces generalizing front with
  | nil => exact .refl _
  | cons piece rest ih =>
    cases hstep : component? piece with
    | some c =>
      have hfront : front ++ slash :: piece ≠ [] := by simp
      have hnext := ih hfront
      rw [List.filterMap_cons_some hstep, List.flatMap_cons, List.flatMap_cons,
        word_of_component? hstep, ← List.append_assoc, ← List.append_assoc]
      exact hnext
    | none =>
      rw [List.filterMap_cons_none hstep]
      -- a piece that is no step is given up together with the slash at one of its sides
      cases rest with
      | nil =>
        rw [List.flatMap_singleton]
        have hslash : EqvGen Redundant (front ++ [slash]) front := .rel _ _ (.slashLast hfront)
        have hlast := (respelt_last hstep front).trans _ _ _ hslash
        simpa using hlast
      | cons next others =>
        have hbetween := respelt_between hstep front (next ++ others.flatMap (slash :: ·))
        refine .trans _ _ _ ?_ (ih hfront)
        simpa using hbetween

/-- Behind the root, pieces are the steps that they stand for, where the root itself is the slash in
front of the first of them. -/
theorem respelt_root (hpieces : pieces ≠ []) : EqvGen Redundant (pieces.flatMap (slash :: ·))
    (spell (.root :: pieces.filterMap component?)) := by
  induction pieces with
  | nil => exact absurd rfl hpieces
  | cons piece rest ih =>
    cases hstep : component? piece with
    -- the first piece is the first name, with the slash of the root in front
    | some c =>
      rw [List.filterMap_cons_some hstep, List.flatMap_cons, spell_root_cons,
        word_of_component? hstep]
      exact respelt_pieces (List.cons_ne_nil _ _) rest
    -- the first piece is redundant, and the slash behind it becomes that of the root
    | none =>
      rw [List.filterMap_cons_none hstep]
      cases rest with
      | nil =>
        rw [List.flatMap_singleton]
        exact respelt_last hstep []
      | cons next others =>
        have hbetween := respelt_between hstep [] (next ++ others.flatMap (slash :: ·))
        refine .trans _ _ _ ?_ (ih (List.cons_ne_nil _ _))
        simpa using hbetween

/-- Every spelling is one of what the plainest for its steps spells. So two spellings of the same
steps meet there. -/
theorem respelt_spell (s : List UInt8) : EqvGen Redundant s (spell (stepsOf s)) := by
  obtain ⟨first, more, hpieces⟩ := List.exists_cons_of_ne_nil
    (Text.splitAll_eq slash s ▸ List.splitOn_ne_nil slash s)
  rw [stepsOf_eq hpieces, eq_append_flatMap hpieces, firstStep?]
  -- the first piece may be nothing, in front of the root, or a dot, which counts only there
  by_cases hfirst : first = []
  · subst hfirst
    by_cases hmore : more = []
    · subst hmore
      exact .refl _
    · rw [if_pos rfl, if_neg hmore]
      exact respelt_root hmore
  rw [if_neg hfirst]
  by_cases hdot : first = [dot]
  · subst hdot
    exact respelt_pieces hfirst more
  rw [if_neg hdot]
  cases hstep : component? first with
  | none => exact absurd (component?_eq_none_iff.mp hstep) (not_or.mpr ⟨hfirst, hdot⟩)
  | some c =>
    have hroot : c ≠ .root := fun hroot => component?_ne_root (hroot ▸ hstep)
    rw [Option.toList_some, List.singleton_append, spell_cons hroot, word_of_component? hstep]
    exact respelt_pieces hfirst more

theorem stepsOf_of_respelt {s t : List UInt8} (h : EqvGen Redundant s t) :
    stepsOf s = stepsOf t := by
  induction h with
  | rel s t h => exact h.stepsOf_eq
  | refl s => rfl
  | symm s t _ ih => exact ih.symm
  | trans s t u _ _ ih ih' => exact ih.trans ih'

/-- **Spellings.** Two paths have the same steps exactly if one is a spelling of the other: nothing
but redundant slashes and `.` has been put in or taken out. In particular `..` is a step like any
other, and a path without the root never equals one with it. -/
theorem same_iff_respelt (p q : Path) : p.same q = true ↔ p.Respelt q := by
  rw [same, decide_eq_true_iff]
  constructor
  · intro h
    have hsteps : stepsOf p.bytes = stepsOf q.bytes := h
    have hback : EqvGen Redundant (spell (stepsOf p.bytes)) q.bytes :=
      hsteps ▸ .symm _ _ (respelt_spell q.bytes)
    exact .trans _ _ _ (respelt_spell p.bytes) hback
  · exact stepsOf_of_respelt

/-- A `.` in front is a step of its own, everywhere else it is redundant. -/
example : (ofText "/srv//maps/./").same "/srv/maps" = true ∧
    (ofText "./maps").same "maps" = false := by
  decide +kernel

end FeatureTransform.Path
