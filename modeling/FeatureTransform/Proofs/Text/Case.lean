import FeatureTransform.Text.Case
import Mathlib.Data.List.Basic

/-!
# Lower case

The lower case of a text goes character by character. Only the capital sigma looks around itself,
so that where no sigma comes out, what stands in front of a text comes out in front. Lower case has
no capital letter of ASCII, and an underscore only where there was one: what the tables send a
character above ASCII to lies behind both.
-/

namespace FeatureTransform

/-! ## Single characters -/

theorem isUpper_iff (c : Char) : c.isUpper = true ↔ 65 ≤ c.toNat ∧ c.toNat ≤ 90 :=
  decide_eq_true_iff

theorem toNat_lt_of_isAlphanum {c : Char} (h : c.isAlphanum = true) : c.toNat < 0x80 := by
  have hkinds : (c.isUpper = true ∨ c.isLower = true) ∨ c.isDigit = true := by
    rwa [← Bool.or_eq_true, ← Bool.or_eq_true]
  have hlower (h : c.isLower = true) : c.toNat ≤ 122 :=
    of_decide_eq_true (Bool.and_eq_true_iff.mp h).2
  have hdigit (h : c.isDigit = true) : c.toNat ≤ 57 :=
    of_decide_eq_true (Bool.and_eq_true_iff.mp h).2
  rcases hkinds with (hupper | hsmall) | hdec
  · have := (isUpper_iff c).mp hupper
    omega
  · have := hlower hsmall
    omega
  · have := hdigit hdec
    omega

/-- A capital letter of ASCII moves 32 places up, and every other character stays. -/
theorem toLower_cases (c : Char) : (c.isUpper = false ∧ c.toLower = c) ∨
    (c.isUpper = true ∧ c.toLower.toNat = c.toNat + 32) := by
  cases hupper : c.isUpper with
  | false => exact .inl ⟨rfl, dif_neg (of_decide_eq_false hupper)⟩
  | true =>
    have hmoved : c.toLower.val = c.val + 32 :=
      congrArg Char.val (dif_pos (of_decide_eq_true hupper))
    have hgreatest : c.val.toNat ≤ 90 := ((isUpper_iff c).mp hupper).2
    refine .inr ⟨rfl, ?_⟩
    calc c.toLower.val.toNat
      _ = (c.val.toNat + 32) % 2 ^ 32 := by rw [hmoved, UInt32.toNat_add]; rfl
      _ = c.val.toNat + 32 := Nat.mod_eq_of_lt (by omega)

/-- A code point that is none stands for zero. -/
theorem toNat_ofNat_cases (n : Nat) : (Char.ofNat n).toNat = n ∨ (Char.ofNat n).toNat = 0 := by
  by_cases hvalid : n.isValidChar
  · have hpoint : Char.ofNat n = Char.ofNatAux n hvalid := dif_pos hvalid
    exact .inl (by rw [hpoint]; rfl)
  · have hzero : Char.ofNat n = '\x00' := dif_neg hvalid
    exact .inr (by rw [hzero]; rfl)

/-- A character above ASCII is expanded, or moved by a run, or kept. These are the three parts of
the tables of Unicode as they are kept here. -/
theorem mapCase_cases (expansions : List (Nat × List Nat)) (runs : List (Nat × Nat × Nat × Int))
    (c : Char) :
    (∃ codes, (c.toNat, codes) ∈ expansions ∧
      mapCase expansions runs c = codes.map Char.ofNat) ∨
    (∃ n, inRuns? runs c.toNat = some n ∧ mapCase expansions runs c = [Char.ofNat n]) ∨
    mapCase expansions runs c = [c] := by
  unfold mapCase
  split
  · next codes hcodes =>
    obtain ⟨front, back, htable, -⟩ := List.lookup_eq_some_iff.mp hcodes
    exact .inl ⟨codes, by simp [htable], rfl⟩
  · split
    · next n hn => exact .inr (.inl ⟨n, hn, rfl⟩)
    · exact .inr (.inr rfl)

/-- No run of the table leads to a capital letter of ASCII or to the underscore, which is seen by
going through the table once. -/
theorem lowerRuns_behind : ∀ run ∈ lowerRuns, 96 < (run.1 : Int) + run.2.2.2 := by
  decide +kernel

theorem lt_of_inRuns? {n m : Nat} (h : inRuns? lowerRuns n = some m) : 96 < m := by
  obtain ⟨⟨first, last, step, offset⟩, hmem, hrun⟩ := List.exists_of_findSome?_eq_some h
  have hbehind := lowerRuns_behind _ hmem
  simp only [Option.ite_none_right_eq_some, Bool.and_eq_true, decide_eq_true_eq,
    Option.some.injEq] at hrun hbehind
  omega

/-- What the lower case of a character consists of. -/
theorem cases_of_mem_lower {c d : Char} (h : d ∈ Char.lower c) :
    (c.toNat < 0x80 ∧ d = c.toLower) ∨ (0x80 ≤ c.toNat ∧ (d.toNat = 0 ∨ 96 < d.toNat)) := by
  unfold Char.lower at h
  by_cases hc : c.toNat < 0x80
  · rw [if_pos hc, List.mem_singleton] at h
    exact .inl ⟨hc, h⟩
  · refine .inr ⟨by omega, ?_⟩
    -- a number that is no code point stands for the character zero
    have hofNat (n : Nat) (hn : 96 < n) : (Char.ofNat n).toNat = 0 ∨ 96 < (Char.ofNat n).toNat := by
      rcases toNat_ofNat_cases n with hpoint | hzero
      · exact .inr (by rw [hpoint]; exact hn)
      · exact .inl hzero
    rw [if_neg hc] at h
    rcases mapCase_cases lowerExpansions lowerRuns c with ⟨codes, hcodes, heq⟩ | ⟨n, hn, heq⟩ | heq
    · have hlarge : ∀ entry ∈ lowerExpansions, ∀ n ∈ entry.2, 96 < n := by decide
      rw [heq] at h
      obtain ⟨n, hn, rfl⟩ := List.mem_map.mp h
      exact hofNat n (hlarge (c.toNat, codes) hcodes n hn)
    · rw [heq] at h
      obtain rfl := List.mem_singleton.mp h
      exact hofNat n (lt_of_inRuns? hn)
    · rw [heq] at h
      obtain rfl := List.mem_singleton.mp h
      exact .inr (by omega)

namespace Text

/-! ## What lower case consists of -/

/-- A character of a lower case comes from one of the text, or it is one of the two forms of the
sigma, which depend on what stands around. -/
theorem exists_of_mem_lowerAfter {s before : Text} {c : Char} (h : c ∈ lowerAfter before s) :
    c = 'σ' ∨ c = 'ς' ∨ ∃ d ∈ s, c ∈ Char.lower d := by
  induction s generalizing before with
  | nil => exact absurd h List.not_mem_nil
  | cons d rest ih =>
    rw [lowerAfter, List.mem_append] at h
    rcases h with h | h
    · split at h
      · split at h
        · exact .inr (.inl (List.mem_singleton.mp h))
        · exact .inl (List.mem_singleton.mp h)
      · exact .inr (.inr ⟨d, List.mem_cons_self, h⟩)
    · rcases ih h with h | h | ⟨e, he, h⟩
      · exact .inl h
      · exact .inr (.inl h)
      · exact .inr (.inr ⟨e, List.mem_cons_of_mem _ he, h⟩)

/-- Lower case has no capital letter of ASCII. -/
theorem isUpper_of_mem_lower {s : Text} {c : Char} (h : c ∈ lower s) : c.isUpper = false := by
  rcases exists_of_mem_lowerAfter h with rfl | rfl | ⟨d, -, h⟩
  · decide
  · decide
  · rw [← Bool.not_eq_true, isUpper_iff]
    rcases cases_of_mem_lower h with ⟨-, rfl⟩ | ⟨-, hc⟩
    · rcases toLower_cases d with ⟨hupper, hlower⟩ | ⟨hupper, hlower⟩
      · rwa [hlower, ← isUpper_iff, Bool.not_eq_true]
      · have := (isUpper_iff d).mp hupper
        omega
    · omega

/-- Lower case has an underscore only where there was one, as none of the tables leads to it. -/
theorem underscore_mem_of_mem_lower {s : Text} (h : '_' ∈ lower s) : '_' ∈ s := by
  rcases exists_of_mem_lowerAfter h with h | h | ⟨d, hd, h⟩
  · exact absurd h (by decide)
  · exact absurd h (by decide)
  · rcases cases_of_mem_lower h with ⟨-, hunderscore⟩ | ⟨-, hc⟩
    · rcases toLower_cases d with ⟨-, hlower⟩ | ⟨hupper, hlower⟩
      · rwa [hunderscore, hlower]
      · have hplace : '_'.toNat = 95 := rfl
        have := (isUpper_iff d).mp hupper
        rw [← hunderscore] at hlower
        omega
    · exact absurd hc (by decide)

/-- Of the letters and digits of ASCII in a lower case each comes from its character alone: the
two forms of the sigma are none. -/
theorem filter_lowerAfter (before s : Text) : (lowerAfter before s).filter Char.isAlphanum =
    s.flatMap fun c => (Char.lower c).filter Char.isAlphanum := by
  induction s generalizing before with
  | nil => rfl
  | cons c rest ih =>
    rw [lowerAfter, List.filter_append, List.flatMap_cons, ih]
    congr 1
    by_cases hc : c = 'Σ'
    · subst hc
      rw [if_pos rfl]
      split <;> decide
    · rw [if_neg hc]

theorem filter_lower (s : Text) : (lower s).filter Char.isAlphanum =
    s.flatMap fun c => (Char.lower c).filter Char.isAlphanum :=
  filter_lowerAfter [] s

/-- In ASCII the lower case of a text is that of its characters, since there is no sigma. -/
theorem lowerAfter_of_ascii {s : Text} (before : Text) (h : ∀ c ∈ s, c.toNat < 0x80) :
    lowerAfter before s = s.map Char.toLower := by
  induction s generalizing before with
  | nil => rfl
  | cons c rest ih =>
    have hascii := h c List.mem_cons_self
    have hc : c ≠ 'Σ' := by
      rintro rfl
      exact absurd hascii (by decide)
    rw [lowerAfter, if_neg hc, Char.lower, if_pos hascii,
      ih (c :: before) fun d hd => h d (List.mem_cons_of_mem _ hd)]
    rfl

/-- Small letters and digits of ASCII are in lower case already, as are all its other characters but
capital letters. -/
theorem lowerAfter_eq_self {s : Text} (before : Text)
    (h : ∀ c ∈ s, c.toNat < 0x80 ∧ c.isUpper = false) : lowerAfter before s = s := by
  have hself : ∀ c ∈ s, c.toLower = id c := fun c hc => dif_neg (of_decide_eq_false (h c hc).2)
  rw [lowerAfter_of_ascii before fun c hc => (h c hc).1, List.map_congr_left hself, List.map_id]

/-- Characters of ASCII that are no capital letters are kept. -/
theorem mem_lowerAfter {s : Text} {c : Char} (before : Text) (hascii : c.toNat < 0x80)
    (hupper : c.isUpper = false) (h : c ∈ s) : c ∈ lowerAfter before s := by
  induction s generalizing before with
  | nil => exact h
  | cons d rest ih =>
    rw [lowerAfter, List.mem_append]
    rcases List.mem_cons.mp h with rfl | h
    · have hc : c ≠ 'Σ' := by
        rintro rfl
        exact absurd hascii (by decide)
      have hself : c.toLower = c := dif_neg (of_decide_eq_false hupper)
      rw [if_neg hc, Char.lower, if_pos hascii, hself]
      exact .inl (List.mem_singleton.mpr rfl)
    · exact .inr (ih (d :: before) h)

/-! ## Parts in front -/

theorem front_lowerAfter {front back before : Text}
    (hsigma : ∀ c ∈ lowerAfter before (front ++ back), c ≠ 'σ' ∧ c ≠ 'ς') :
    lowerAfter before front <+: lowerAfter before (front ++ back) := by
  induction front generalizing before with
  | nil => exact List.nil_prefix
  | cons c rest ih =>
    rw [List.cons_append, lowerAfter] at hsigma
    have hc : c ≠ 'Σ' := by
      rintro rfl
      rw [if_pos rfl] at hsigma
      split at hsigma
      · exact (hsigma 'ς' (by simp)).2 rfl
      · exact (hsigma 'σ' (by simp)).1 rfl
    rw [List.cons_append, lowerAfter, lowerAfter, if_neg hc, if_neg hc,
      List.prefix_append_right_inj]
    exact ih fun d hd => hsigma d (List.mem_append_right _ hd)

/-- **In front.** What stands in front of a text without a sigma has the lower case that stands in
front of the whole: only a sigma looks at what follows it. -/
theorem front_lower {front back : Text} (hsigma : ∀ c ∈ lower (front ++ back), c ≠ 'σ' ∧ c ≠ 'ς') :
    lower front <+: lower (front ++ back) :=
  front_lowerAfter hsigma

end Text

end FeatureTransform
