import FeatureTransform.Proofs.Text.Blank
import FeatureTransform.Proofs.Text.Case
import Mathlib

/-!
# Upper case

The upper case of a text goes character by character. A character may become several, but none of
these changes when upper case is taken again, so that a text in upper case stays as it is. No
character becomes white space or a colon that was none before, and the case of a letter of ASCII
makes no difference. For the characters above ASCII this is a fact about the tables: it is checked
row by row that what they lead to is not a row of their own.
-/

namespace FeatureTransform

/-! ## Rows of code points -/

/-- A row of code points, all of them equally far apart. -/
structure CodeRow where
  /-- the first of them -/
  first : Nat
  /-- the last of them -/
  last : Nat
  /-- how far apart they are -/
  step : Nat

namespace CodeRow

/-- Whether the row holds a code point. -/
def Holds (row : CodeRow) (n : Nat) : Prop :=
  row.first ≤ n ∧ n ≤ row.last ∧ (n - row.first) % row.step = 0

/-- The row of one code point. -/
def single (n : Nat) : CodeRow := ⟨n, n, 1⟩

/-- Whether the rows lie behind one another, or one takes the even and the other the odd places. -/
def isApart (row other : CodeRow) : Bool :=
  row.last.blt other.first || other.last.blt row.first ||
    ((row.step.beq 2 || row.first.beq row.last) && other.step.beq 2 &&
      ((row.first + other.first) % 2).beq 1)

theorem holds_single (n : Nat) : (single n).Holds n :=
  ⟨le_rfl, le_rfl, Nat.mod_one _⟩

/-- Rows that are apart have no code point in common. Comparing rows takes a few steps where
comparing code points would take thousands. -/
theorem not_holds_of_isApart {row other : CodeRow} (h : row.isApart other = true) {n : Nat}
    (hrow : row.Holds n) : ¬other.Holds n := by
  rintro ⟨hfirst, hlast, hplace⟩
  obtain ⟨hrowFirst, hrowLast, hrowPlace⟩ := hrow
  simp only [isApart, Bool.or_eq_true, Bool.and_eq_true, Nat.blt_eq, Nat.beq_eq] at h
  rcases h with (hbehind | hbehind) | ⟨⟨hstep | hone, hother⟩, hodd⟩
  · omega
  · omega
  · rw [hstep] at hrowPlace
    rw [hother] at hplace
    omega
  · rw [hother] at hplace
    omega

end CodeRow

/-! ## Where the tables lead -/

/-- The code points of a run. -/
def domainOf (run : Nat × Nat × Nat × Int) : CodeRow := ⟨run.1, run.2.1, run.2.2.1⟩

/-- The code points that a run leads to. -/
def imageOf (run : Nat × Nat × Nat × Int) : CodeRow :=
  ⟨(run.1 + run.2.2.2).toNat, (run.2.1 + run.2.2.2).toNat, run.2.2.1⟩

/-- The white space among the code points. -/
def blankRows : List CodeRow :=
  [⟨0x9, 0xD, 1⟩, .single 0x20, .single 0x85, .single 0xA0, .single 0x1680, ⟨0x2000, 0x200A, 1⟩,
    ⟨0x2028, 0x2029, 1⟩, .single 0x202F, .single 0x205F, .single 0x3000]

/-- The code points that upper case does not lead to: those that it moves itself, white space and
the colon. -/
def avoidedRows : List CodeRow :=
  ⟨0x61, 0x7A, 1⟩ :: .single 0x3A :: blankRows ++ upperRuns.map domainOf ++
    upperExpansions.map fun expansion => .single expansion.1

/-- Whether none of the avoided rows meets a row. -/
def isAvoiding (row : CodeRow) : Bool := avoidedRows.all row.isApart

/-- A code point that is in none of the avoided rows. -/
def IsSettled (n : Nat) : Prop := ∀ row ∈ avoidedRows, ¬row.Holds n

theorem isSettled_of_isAvoiding {row : CodeRow} (h : isAvoiding row = true) {n : Nat}
    (hn : row.Holds n) : IsSettled n := fun other hother =>
  CodeRow.not_holds_of_isApart (List.all_eq_true.mp h other hother) hn

theorem isAvoiding_imageOf : ∀ run ∈ upperRuns, isAvoiding (imageOf run) = true := by
  decide +kernel

theorem isAvoiding_expansions : ∀ expansion ∈ upperExpansions, ∀ n ∈ expansion.2,
    isAvoiding (.single n) = true := by
  decide +kernel

theorem isSettled_zero : IsSettled 0 :=
  isSettled_of_isAvoiding (by decide +kernel) (CodeRow.holds_single 0)

/-- No run leads below zero, so that moving a code point gives a code point. -/
theorem upperRuns_nonneg : ∀ run ∈ upperRuns, 0 ≤ (run.1 : Int) + run.2.2.2 := by
  decide +kernel

/-- What a run leads to is one of the code points that it should lead to, a row as long as the run.
-/
theorem holds_of_inRuns? {n m : Nat} (h : inRuns? upperRuns n = some m) :
    ∃ run ∈ upperRuns, (imageOf run).Holds m := by
  obtain ⟨⟨first, last, step, offset⟩, hmem, hrun⟩ := List.exists_of_findSome?_eq_some h
  have hnonneg := upperRuns_nonneg _ hmem
  simp only [Option.ite_none_right_eq_some, Bool.and_eq_true, decide_eq_true_eq, beq_iff_eq,
    Option.some.injEq] at hrun hnonneg
  obtain ⟨⟨⟨hfirst, hlast⟩, hplace⟩, rfl⟩ := hrun
  refine ⟨_, hmem, ?_, ?_, ?_⟩
  · simp only [imageOf]
    omega
  · simp only [imageOf]
    omega
  · have hsame : ((n : Int) + offset).toNat - ((first : Int) + offset).toNat = n - first := by
      omega
    simp only [imageOf]
    rwa [hsame]

theorem inRuns?_eq_none {n : Nat} (h : IsSettled n) : inRuns? upperRuns n = none := by
  rw [inRuns?, List.findSome?_eq_none_iff]
  rintro ⟨first, last, step, offset⟩ hmem
  have hnot := h (domainOf (first, last, step, offset)) (by
    rw [avoidedRows, List.mem_append, List.mem_append]
    exact .inl (.inr (List.mem_map_of_mem hmem)))
  simp only [ite_eq_right_iff, Bool.and_eq_true, decide_eq_true_eq, beq_iff_eq, reduceCtorEq,
    imp_false]
  rintro ⟨⟨hfirst, hlast⟩, hplace⟩
  exact hnot ⟨hfirst, hlast, hplace⟩

theorem lookup_eq_none {n : Nat} (h : IsSettled n) : upperExpansions.lookup n = none := by
  rw [List.lookup_eq_none_iff]
  intro expansion hmem
  have hnot := h (.single expansion.1) (by
    rw [avoidedRows, List.mem_append]
    exact .inr (List.mem_map_of_mem hmem))
  rw [bne_iff_ne]
  rintro rfl
  exact hnot (CodeRow.holds_single _)

/-! ## Single characters -/

variable {c d : Char}

theorem toNat_of_isLower (h : c.isLower = true) : 97 ≤ c.toNat ∧ c.toNat ≤ 122 :=
  ⟨of_decide_eq_true (Bool.and_eq_true_iff.mp h).1, of_decide_eq_true (Bool.and_eq_true_iff.mp h).2⟩

/-- A settled character stays as it is. -/
theorem upper_of_isSettled (h : IsSettled c.toNat) : Char.upper c = [c] := by
  unfold Char.upper
  by_cases hc : c.toNat < 0x80
  · have hlower : ¬c.isLower = true := by
      intro hlower
      obtain ⟨hfirst, hlast⟩ := toNat_of_isLower hlower
      exact h ⟨0x61, 0x7A, 1⟩ List.mem_cons_self ⟨hfirst, hlast, Nat.mod_one _⟩
    rw [if_pos hc, Char.toUpper_eq_of_not_isLower hlower]
  · rw [if_neg hc, mapCase, lookup_eq_none h]
    simp only
    rw [inRuns?_eq_none h]

theorem isBlank_of_isSettled (h : IsSettled c.toNat) : Char.isBlank c = false := by
  have hnone : ∀ row ∈ blankRows, ¬row.Holds c.toNat := by
    intro row hrow
    refine h row ?_
    rw [avoidedRows, List.mem_append, List.mem_append]
    exact .inl (.inl (List.mem_cons_of_mem _ (List.mem_cons_of_mem _ hrow)))
  simp only [blankRows, List.forall_mem_cons, CodeRow.Holds, CodeRow.single, Nat.mod_one,
    and_true] at hnone
  rw [← Bool.not_eq_true]
  intro hblank
  simp only [Char.isBlank, Bool.or_eq_true, Bool.and_eq_true, decide_eq_true_eq,
    beq_iff_eq] at hblank
  omega

theorem ne_colon_of_isSettled (h : IsSettled c.toNat) : c ≠ ':' := by
  rintro rfl
  exact h (.single 0x3A) (List.mem_cons_of_mem _ List.mem_cons_self) (CodeRow.holds_single _)

/-- A small letter of ASCII becomes a settled character, a capital letter. -/
theorem isSettled_toUpper (h : c.isLower = true) : IsSettled c.toUpper.toNat := by
  have hupper : c.toUpper.isUpper = true := by
    rw [Char.isUpper_toUpper_eq_isAlpha, Char.isAlpha, h, Bool.or_true]
  obtain ⟨hfirst, hlast⟩ := (isUpper_iff _).mp hupper
  have hletters : isAvoiding ⟨65, 90, 1⟩ = true := by decide +kernel
  exact isSettled_of_isAvoiding hletters ⟨hfirst, hlast, Nat.mod_one _⟩

/-- What upper case makes of a character: it stays, or it becomes settled characters, one or
several. -/
theorem cases_of_mem_upper (h : d ∈ Char.upper c) :
    d = c ∧ Char.upper c = [c] ∨ IsSettled d.toNat := by
  -- a number that is no code point stands for the character zero, which is settled too
  have hofNat (n : Nat) (hn : IsSettled n) : IsSettled (Char.ofNat n).toNat := by
    rcases toNat_ofNat_cases n with hpoint | hzero
    · rwa [hpoint]
    · rw [hzero]
      exact isSettled_zero
  unfold Char.upper at h ⊢
  by_cases hc : c.toNat < 0x80
  · rw [if_pos hc] at h ⊢
    obtain rfl := List.mem_singleton.mp h
    cases hlower : c.isLower with
    | true => exact .inr (isSettled_toUpper hlower)
    | false =>
      have hsame := Char.toUpper_eq_of_not_isLower (Bool.eq_false_iff.mp hlower)
      exact .inl ⟨hsame, by rw [hsame]⟩
  · rw [if_neg hc] at h ⊢
    rcases mapCase_cases upperExpansions upperRuns c with ⟨codes, hcodes, heq⟩ | ⟨n, hn, heq⟩ | heq
    · rw [heq] at h
      obtain ⟨n, hn, rfl⟩ := List.mem_map.mp h
      exact .inr (hofNat n (isSettled_of_isAvoiding (isAvoiding_expansions _ hcodes n hn)
        (CodeRow.holds_single n)))
    · rw [heq] at h
      obtain rfl := List.mem_singleton.mp h
      obtain ⟨run, hrun, hholds⟩ := holds_of_inRuns? hn
      exact .inr (hofNat n (isSettled_of_isAvoiding (isAvoiding_imageOf run hrun) hholds))
    · rw [heq] at h
      exact .inl ⟨List.mem_singleton.mp h, heq⟩

/-- What has become of a character in upper case does not change again. This is the reason for the
same of texts. -/
theorem upper_of_mem_upper (h : d ∈ Char.upper c) : Char.upper d = [d] := by
  rcases cases_of_mem_upper h with ⟨rfl, hone⟩ | hsettled
  · exact hone
  · exact upper_of_isSettled hsettled

/-- White space comes from white space only, so that upper-casing a trimmed text leaves it trimmed.
-/
theorem isBlank_of_mem_upper (h : d ∈ Char.upper c) (hd : Char.isBlank d = true) :
    Char.isBlank c = true := by
  rcases cases_of_mem_upper h with ⟨rfl, -⟩ | hsettled
  · exact hd
  · rw [isBlank_of_isSettled hsettled] at hd
    cases hd

/-- A colon comes from a colon only, so that a text is divided at the same place in upper case. -/
theorem colon_of_mem_upper (h : ':' ∈ Char.upper c) : c = ':' := by
  rcases cases_of_mem_upper h with ⟨hsame, -⟩ | hsettled
  · exact hsame.symm
  · exact absurd rfl (ne_colon_of_isSettled hsettled)

theorem upper_ne_nil (c : Char) : Char.upper c ≠ [] := by
  have hexpansions : ∀ expansion ∈ upperExpansions, expansion.2 ≠ [] := by decide
  unfold Char.upper
  split
  · exact List.cons_ne_nil _ _
  · rcases mapCase_cases upperExpansions upperRuns c with ⟨codes, hcodes, heq⟩ | ⟨n, -, heq⟩ | heq
    · rw [heq, Ne, List.map_eq_nil_iff]
      exact hexpansions (c.toNat, codes) hcodes
    · rw [heq]
      exact List.cons_ne_nil _ _
    · rw [heq]
      exact List.cons_ne_nil _ _

/-- The case of a letter of ASCII makes no difference to its upper case. -/
theorem upper_toLower (c : Char) : Char.upper c.toLower = Char.upper c := by
  rcases toLower_cases c with ⟨-, hsame⟩ | ⟨hupper, hmoved⟩
  · rw [hsame]
  · have hbounds := (isUpper_iff c).mp hupper
    unfold Char.upper
    rw [if_pos (by omega), if_pos (by omega), Char.toUpper_toLower_eq_toUpper]

namespace Text

variable {s t : Text}

/-! ## Texts -/

/-- **Upper case** is taken once for all: in upper case again, a text stays as it is. -/
theorem upper_upper (s : Text) : upper (upper s) = upper s := by
  have hkept : ∀ d ∈ upper s, Char.upper d = [d] := by
    intro d hd
    obtain ⟨c, -, hc⟩ := List.mem_flatMap.mp hd
    exact upper_of_mem_upper hc
  calc (upper s).flatMap Char.upper
    _ = (upper s).flatMap fun d => [d] := List.flatMap_congr hkept
    _ = upper s := List.flatMap_singleton' (upper s)

/-- Upper case is taken character by character, and so piece by piece. -/
theorem upper_append (s t : Text) : upper (s ++ t) = upper s ++ upper t := List.flatMap_append

theorem colon_not_mem_upper (h : ':' ∉ s) : ':' ∉ upper s := by
  intro hmem
  obtain ⟨c, hc, hcolon⟩ := List.mem_flatMap.mp hmem
  exact h (colon_of_mem_upper hcolon ▸ hc)

theorem upper_eq_nil_iff : upper s = [] ↔ s = [] := by
  rw [upper, List.flatMap_eq_nil_iff]
  constructor
  · intro h
    exact List.eq_nil_iff_forall_not_mem.mpr fun c hc => upper_ne_nil c (h c hc)
  · rintro rfl c hc
    exact absurd hc List.not_mem_nil

/-- A text that does not begin with white space does not in upper case. -/
theorem head?_upper (h : ∀ c ∈ s.head?, Char.isBlank c = false) :
    ∀ c ∈ (upper s).head?, Char.isBlank c = false := by
  cases s with
  | nil => exact h
  | cons c rest =>
    intro d hd
    rw [upper, List.flatMap_cons, List.head?_append_of_ne_nil _ (upper_ne_nil c)] at hd
    rw [← Bool.not_eq_true]
    intro hblank
    have hfirst := isBlank_of_mem_upper (List.mem_of_mem_head? hd) hblank
    rw [h c rfl] at hfirst
    cases hfirst

/-- The case of letters of ASCII makes no difference to the upper case of a text, as it makes none
to that of a character. -/
theorem upper_congr (h : s.map Char.toLower = t.map Char.toLower) : upper s = upper t := by
  have hlower (s : Text) : upper (s.map Char.toLower) = upper s := by
    rw [upper, List.flatMap_map]
    exact List.flatMap_congr fun c _ => upper_toLower c
  rw [← hlower s, h, hlower t]

end Text

end FeatureTransform
