import FeatureTransform.Text.Blank
import Mathlib.Data.List.Basic
import Mathlib.Data.List.TakeWhile

/-!
# Trimmed texts

Trimming leaves a text that has no white space at its ends, and leaves such a text as it is. A
trimmed text in front of another stays whole when both are trimmed together.
-/

namespace FeatureTransform.Text

theorem dropWhile_of_head? {p : Char → Bool} {s : Text} (h : ∀ c ∈ s.head?, p c = false) :
    s.dropWhile p = s := by
  cases s with
  | nil => rfl
  | cons c rest => rw [List.dropWhile_cons_of_neg (by simp [h c rfl])]

theorem trim_of_ends {s : Text} (hfirst : ∀ c ∈ s.head?, Char.isBlank c = false)
    (hlast : ∀ c ∈ s.getLast?, Char.isBlank c = false) : trim s = s := by
  rw [trim, trimStart, dropWhile_of_head? hfirst, trimEnd, trimEndBy,
    dropWhile_of_head? (by rwa [List.head?_reverse]), List.reverse_reverse]

/-- A text without white space is trimmed, as there is nothing to take off. -/
theorem trim_of_forall {s : Text} (h : ∀ c ∈ s, Char.isBlank c = false) : trim s = s :=
  trim_of_ends (fun c hc => h c (List.mem_of_mem_head? hc))
    fun c hc => h c (List.mem_of_getLast? hc)

theorem head?_dropWhile {p : Char → Bool} {s : Text} :
    ∀ c ∈ (s.dropWhile p).head?, p c = false := by
  intro c hc
  have hnot := List.head?_dropWhile_not p s
  rw [Option.mem_def.mp hc] at hnot
  exact hnot

/-- What is taken off the end leaves what stands in front, whichever characters are taken off. -/
theorem front_trimEndBy (p : Char → Bool) (s : Text) : trimEndBy p s <+: s := by
  rw [← List.reverse_suffix, trimEndBy, List.reverse_reverse]
  exact List.dropWhile_suffix p

theorem mem_of_mem_trim {c : Char} {s : Text} (h : c ∈ trim s) : c ∈ s :=
  (List.dropWhile_suffix _).subset ((front_trimEndBy _ _).subset h)

/-- Trimming takes off white space only, so that every other character is still there. -/
theorem mem_trim_of_mem {c : Char} {s : Text} (hc : Char.isBlank c = false) (h : c ∈ s) :
    c ∈ trim s := by
  have hkept : ∀ s : Text, c ∈ s → c ∈ s.dropWhile Char.isBlank := by
    intro s hs
    rw [← List.takeWhile_append_dropWhile (p := Char.isBlank) (l := s), List.mem_append] at hs
    rcases hs with hs | hs
    · rw [List.mem_takeWhile_imp hs] at hc
      cases hc
    · exact hs
  rw [trim, trimEnd, trimEndBy, List.mem_reverse]
  exact hkept _ (List.mem_reverse.mpr (hkept s h))

/-- What is first in a text without its end was first before. -/
theorem head?_trimEnd {s : Text} {c : Char} (h : c ∈ (trimEnd s).head?) : c ∈ s.head? := by
  obtain ⟨back, hback⟩ := front_trimEndBy Char.isBlank s
  change trimEnd s ++ back = s at hback
  rw [← hback, List.head?_append, Option.mem_def.mp h]
  rfl

/-- No white space stands at the ends of a trimmed text. Together with `trim_of_ends` this says
which texts are trimmed. -/
theorem ends_trim (s : Text) : (∀ c ∈ (trim s).head?, Char.isBlank c = false) ∧
    ∀ c ∈ (trim s).getLast?, Char.isBlank c = false := by
  constructor
  · exact fun c hc => head?_dropWhile c (head?_trimEnd hc)
  · intro c hc
    rw [trim, trimEnd, trimEndBy, List.getLast?_reverse] at hc
    exact head?_dropWhile c hc

/-- A text that has been trimmed stays as it is, so that trimming again on the way does no harm. -/
theorem trim_trim (s : Text) : trim (trim s) = trim s :=
  trim_of_ends (ends_trim s).1 (ends_trim s).2

theorem trim_eq_self_iff {s : Text} : trim s = s ↔
    (∀ c ∈ s.head?, Char.isBlank c = false) ∧ ∀ c ∈ s.getLast?, Char.isBlank c = false := by
  constructor
  · intro h
    rw [← h]
    exact ends_trim s
  · rintro ⟨hfirst, hlast⟩
    exact trim_of_ends hfirst hlast

/-- White space in front is gone when a text is trimmed. -/
theorem trim_cons_of_blank {c : Char} (hc : Char.isBlank c = true) (s : Text) :
    trim (c :: s) = trim s := by
  rw [trim, trim, trimStart, trimStart, List.dropWhile_cons_of_pos hc]

theorem trim_cons_of_not_blank {c : Char} (hc : Char.isBlank c = false) (s : Text) :
    trim (c :: s) = trimEnd (c :: s) := by
  rw [trim, trimStart, List.dropWhile_cons_of_neg (by simp [hc])]

/-- Taking white space off the end of two texts reaches the first only if the second is all white
space. -/
theorem trimEnd_append (s t : Text) :
    trimEnd (s ++ t) = if trimEnd t = [] then trimEnd s else s ++ trimEnd t := by
  unfold trimEnd trimEndBy
  rw [List.reverse_append, List.dropWhile_append]
  simp only [List.reverse_eq_nil_iff, List.isEmpty_iff]
  split
  · rfl
  · rw [List.reverse_append, List.reverse_reverse]

/-- What has been taken off the end is not there a second time. -/
theorem trimEndBy_trimEndBy (p : Char → Bool) (s : Text) :
    trimEndBy p (trimEndBy p s) = trimEndBy p s := by
  rw [trimEndBy, trimEndBy, List.reverse_reverse, dropWhile_of_head? head?_dropWhile]

/-- Nor are such characters that follow. -/
theorem trimEndBy_append {p : Char → Bool} {back : Text} (h : ∀ c ∈ back, p c = true) (s : Text) :
    trimEndBy p (s ++ back) = trimEndBy p s := by
  have hback : ∀ c ∈ back.reverse, p c = true := fun c hc => h c (List.mem_reverse.mp hc)
  rw [trimEndBy, trimEndBy, List.reverse_append, List.dropWhile_append_of_pos hback]

theorem trimEnd_trimEnd (s : Text) : trimEnd (trimEnd s) = trimEnd s :=
  trimEndBy_trimEndBy Char.isBlank s

theorem trimEnd_cons_of_not_blank {c : Char} (hc : Char.isBlank c = false) (s : Text) :
    trimEnd (c :: s) = c :: trimEnd s := by
  have hone : trimEnd [c] = [c] := by simp [trimEnd, trimEndBy, hc]
  have hsplit := trimEnd_append [c] s
  rw [hone] at hsplit
  rw [← List.singleton_append, hsplit]
  split
  · rename_i hnone
    rw [hnone]
  · rfl

/-- What is taken off at the end makes no difference to trimming, which would have taken it off. -/
theorem trim_trimEnd (s : Text) : trim (trimEnd s) = trim s := by
  induction s with
  | nil => rfl
  | cons c rest ih =>
    cases hc : Char.isBlank c with
    | true =>
      have hnone : trimEnd [c] = [] := by simp [trimEnd, trimEndBy, hc]
      have hsplit := trimEnd_append [c] rest
      rw [hnone, List.singleton_append] at hsplit
      rw [trim_cons_of_blank hc, ← ih, hsplit]
      split
      · rename_i hrest
        rw [hrest]
      · rw [List.singleton_append, trim_cons_of_blank hc]
    | false =>
      rw [trimEnd_cons_of_not_blank hc, trim_cons_of_not_blank hc, trim_cons_of_not_blank hc,
        ← trimEnd_cons_of_not_blank hc, trimEnd_trimEnd]

theorem trim_append_of_blank {back : Text} (h : ∀ c ∈ back, Char.isBlank c = true) (s : Text) :
    trim (s ++ back) = trim s := by
  rw [← trim_trimEnd (s ++ back), trimEnd, trimEndBy_append h]
  exact trim_trimEnd s

theorem trim_blank_append {front : Text} (h : ∀ c ∈ front, Char.isBlank c = true) (s : Text) :
    trim (front ++ s) = trim s := by
  rw [trim, trim, trimStart, trimStart, List.dropWhile_append_of_pos h]

/-- White space that has been taken off the end is not missed; carriage returns are a case of this.
-/
theorem trim_trimEndBy {p : Char → Bool} (h : ∀ c, p c = true → Char.isBlank c = true) (s : Text) :
    trim (trimEndBy p s) = trim s := by
  have hwhole : trimEndBy p s ++ (s.reverse.takeWhile p).reverse = s := by
    rw [trimEndBy, ← List.reverse_append, List.takeWhile_append_dropWhile, List.reverse_reverse]
  have hblank : ∀ c ∈ (s.reverse.takeWhile p).reverse, Char.isBlank c = true :=
    fun c hc => h c (List.mem_takeWhile_imp (List.mem_reverse.mp hc))
  calc trim (trimEndBy p s)
    _ = trim (trimEndBy p s ++ (s.reverse.takeWhile p).reverse) :=
      (trim_append_of_blank hblank _).symm
    _ = trim s := by rw [hwhole]

/-- A trimmed text in front of another stays whole, and only the end of the other can lose anything.
-/
theorem trim_append {s : Text} (hs : trim s = s) (hne : s ≠ []) (t : Text) :
    trim (s ++ t) = s ++ trimEnd t := by
  obtain ⟨hfirst, hlast⟩ := trim_eq_self_iff.mp hs
  have hend : trimEnd s = s := by
    rw [trimEnd, trimEndBy, dropWhile_of_head? (by rwa [List.head?_reverse]), List.reverse_reverse]
  have hstart : trimStart (s ++ t) = s ++ t := by
    apply dropWhile_of_head?
    rwa [List.head?_append_of_ne_nil _ hne]
  rw [trim, hstart, trimEnd_append, hend]
  split
  · rename_i hnone
    rw [hnone, List.append_nil]
  · rfl

end FeatureTransform.Text
