import FeatureTransform.Proofs.Text.Blank
import FeatureTransform.Text.Split
import FeatureTransform.Text.Utf8
import Mathlib.Data.List.Basic

/-!
# Pieces and bytes of texts

Cutting a text at a separator is undone by putting the separator between the pieces again, and the
other way round for pieces that do not hold it. No piece holds the separator, and no line of a text
holds a newline. All but the lines is the same for byte strings, since paths are cut as well. The
bytes of a text are read as that text, and different texts have different bytes.
-/

namespace FeatureTransform.Text

variable {α : Type}

/-! ## Pieces one after another -/

theorem join_eq (sep : List α) (pieces : List (List α)) :
    join sep pieces = sep.intercalate pieces := by
  fun_induction join sep pieces with
  | case1 => rfl
  | case2 s => rw [List.intercalate_singleton]
  | case3 s rest hne ih =>
    obtain ⟨next, others, rfl⟩ := List.exists_cons_of_ne_nil hne
    rw [ih, List.intercalate_cons_cons]

/-- Pieces between separators are pieces with the separator behind each of them, but for the last.
In the second form pieces can be read one after another. -/
theorem join_concat (sep : List α) (pieces : List (List α)) (last : List α) :
    join sep (pieces ++ [last]) = pieces.flatMap (· ++ sep) ++ last := by
  induction pieces with
  | nil => rfl
  | cons piece rest ih =>
    rw [List.flatMap_cons, List.append_assoc, ← ih, join_eq, join_eq]
    obtain ⟨next, others, heq⟩ := List.exists_cons_of_ne_nil
      (List.append_ne_nil_of_right_ne_nil rest (List.cons_ne_nil last []))
    rw [List.cons_append, heq, List.intercalate_cons_cons]

theorem join_concat_nil (sep : List α) (pieces : List (List α)) :
    join sep (pieces ++ [[]]) = pieces.flatMap (· ++ sep) := by
  rw [join_concat, List.append_nil]

/-- An empty piece behind others adds one separator. -/
theorem join_append_nil (sep : List α) {pieces : List (List α)} (h : pieces ≠ []) :
    join sep (pieces ++ [[]]) = join sep pieces ++ sep := by
  induction pieces with
  | nil => exact absurd rfl h
  | cons s rest ih =>
    cases rest with
    | nil => exact List.append_nil _
    | cons next others =>
      change s ++ sep ++ join sep (next :: others ++ [[]]) =
        s ++ sep ++ join sep (next :: others) ++ sep
      rw [ih (List.cons_ne_nil _ _), List.append_assoc (s ++ sep)]

section Cutting

variable [DecidableEq α] {sep : α} {s before after : List α}

/-! ## The first separator -/

theorem splitOnce?_eq_some (h : splitOnce? sep s = some (before, after)) :
    s = before ++ sep :: after ∧ sep ∉ before := by
  induction s generalizing before with
  | nil => cases h
  | cons d rest ih =>
    rw [splitOnce?] at h
    by_cases hd : d = sep
    · rw [if_pos hd] at h
      cases h
      exact ⟨by rw [hd, List.nil_append], List.not_mem_nil⟩
    · rw [if_neg hd] at h
      obtain ⟨⟨front, back⟩, hrest, heq⟩ := Option.map_eq_some_iff.mp h
      cases heq
      obtain ⟨rfl, hfront⟩ := ih hrest
      refine ⟨rfl, ?_⟩
      rw [List.mem_cons, not_or]
      exact ⟨Ne.symm hd, hfront⟩

theorem splitOnce?_append (h : sep ∉ before) (after : List α) :
    splitOnce? sep (before ++ sep :: after) = some (before, after) := by
  induction before with
  | nil => rw [List.nil_append, splitOnce?, if_pos rfl]
  | cons d rest ih =>
    rw [List.mem_cons, not_or] at h
    rw [List.cons_append, splitOnce?, if_neg (Ne.symm h.1), ih h.2]
    rfl

/-- **The first separator** is the one that no other stands before. So cutting there is undone in
one way only. -/
theorem splitOnce?_eq_some_iff : splitOnce? sep s = some (before, after) ↔
    s = before ++ sep :: after ∧ sep ∉ before := by
  constructor
  · exact splitOnce?_eq_some
  · rintro ⟨rfl, hbefore⟩
    exact splitOnce?_append hbefore after

/-! ## The last separator -/

theorem splitLast?_eq_none_iff : splitLast? sep s = none ↔ sep ∉ s := by
  induction s with
  | nil => simp [splitLast?]
  | cons d rest ih =>
    rw [splitLast?, List.mem_cons, not_or, ← ih]
    cases splitLast? sep rest with
    | some parts => simp
    | none => simp [eq_comm]

theorem splitLast?_eq_some (h : splitLast? sep s = some (before, after)) :
    s = before ++ sep :: after ∧ sep ∉ after := by
  induction s generalizing before with
  | nil => cases h
  | cons d rest ih =>
    rw [splitLast?] at h
    cases hrest : splitLast? sep rest with
    | some parts =>
      rw [hrest] at h
      cases h
      obtain ⟨rfl, hback⟩ := ih hrest
      exact ⟨rfl, hback⟩
    | none =>
      rw [hrest] at h
      by_cases hd : d = sep
      · rw [if_pos hd] at h
        cases h
        exact ⟨by rw [hd, List.nil_append], splitLast?_eq_none_iff.mp hrest⟩
      · rw [if_neg hd] at h
        cases h

theorem splitLast?_append (before : List α) (h : sep ∉ after) :
    splitLast? sep (before ++ sep :: after) = some (before, after) := by
  induction before with
  | nil => rw [List.nil_append, splitLast?, splitLast?_eq_none_iff.mpr h, if_pos rfl]
  | cons d rest ih => rw [List.cons_append, splitLast?, ih]

/-- **The last separator** is the one that no other stands behind. So cutting there is undone in one
way only. -/
theorem splitLast?_eq_some_iff : splitLast? sep s = some (before, after) ↔
    s = before ++ sep :: after ∧ sep ∉ after := by
  constructor
  · exact splitLast?_eq_some
  · rintro ⟨rfl, hafter⟩
    exact splitLast?_append before hafter

/-! ## All separators -/

theorem splitAll_eq (sep : α) (s : List α) : splitAll sep s = s.splitOn sep := by
  induction s with
  | nil => rfl
  | cons d rest ih =>
    have hnext := List.splitOnP_cons_eq_if_modifyHead (p := fun c => c == sep) d rest
    change (d :: rest).splitOn sep = if (d == sep) = true then [] :: rest.splitOn sep
      else List.modifyHead (List.cons d) (rest.splitOn sep) at hnext
    rw [hnext, splitAll, ih]
    by_cases hd : d = sep
    · rw [if_pos hd, if_pos (beq_iff_eq.mpr hd)]
    · rw [if_neg hd, if_neg fun heq => hd (beq_iff_eq.mp heq)]
      obtain ⟨piece, pieces, hpieces⟩ := List.exists_cons_of_ne_nil (List.splitOn_ne_nil sep rest)
      rw [hpieces]
      rfl

/-- Pieces without the separator are found again. An empty list of pieces is not, since cutting
always gives one. -/
theorem splitAll_join {pieces : List (List α)} (h : ∀ piece ∈ pieces, sep ∉ piece)
    (hpieces : pieces ≠ []) : splitAll sep (join [sep] pieces) = pieces := by
  rw [splitAll_eq, join_eq]
  exact List.splitOn_intercalate sep h hpieces

/-- The pieces with separators between them are the text again, whatever the text is. -/
theorem join_splitAll (sep : α) (s : List α) : join [sep] (splitAll sep s) = s := by
  rw [splitAll_eq, join_eq]
  exact List.intercalate_splitOn sep

/-- The pieces between separators hold none, or they would have been cut there. -/
theorem not_mem_of_mem_splitAll {piece : List α} (h : piece ∈ splitAll sep s) : sep ∉ piece := by
  induction s generalizing piece with
  | nil =>
    obtain rfl := List.mem_singleton.mp h
    exact List.not_mem_nil
  | cons d rest ih =>
    rw [splitAll] at h
    by_cases hd : d = sep
    · rw [if_pos hd] at h
      rcases List.mem_cons.mp h with rfl | h
      · exact List.not_mem_nil
      · exact ih h
    · rw [if_neg hd] at h
      -- a character that is no separator stands in front of the first piece
      have hnew : ∀ front : List α, sep ∉ front → sep ∉ d :: front := by
        intro front hfront
        rw [List.mem_cons, not_or]
        exact ⟨Ne.symm hd, hfront⟩
      split at h
      · obtain rfl := List.mem_singleton.mp h
        exact hnew [] List.not_mem_nil
      · rename_i first others hsplit
        rcases List.mem_cons.mp h with rfl | h
        · exact hnew first (ih (hsplit ▸ List.mem_cons_self))
        · exact ih (hsplit ▸ List.mem_cons_of_mem _ h)

end Cutting

/-- Trimmed pieces with a separator between them are trimmed as a whole, as long as the separator is
no white space itself. -/
theorem trim_join {sep : Char} (hsep : Char.isBlank sep = false) {pieces : List Text}
    (h : ∀ piece ∈ pieces, trim piece = piece) : trim (join [sep] pieces) = join [sep] pieces := by
  fun_induction join [sep] pieces with
  | case1 => rfl
  | case2 s => exact h s List.mem_cons_self
  | case3 s rest hne ih =>
    obtain ⟨hfirst, -⟩ := trim_eq_self_iff.mp (h s List.mem_cons_self)
    obtain ⟨-, hlast⟩ :=
      trim_eq_self_iff.mp (ih fun piece hp => h piece (List.mem_cons_of_mem _ hp))
    -- a piece that is empty leaves the separator at the end, which is not trimmed either
    apply trim_of_ends
    · cases s with
      | nil =>
        rintro c ⟨⟩
        exact hsep
      | cons d s => exact hfirst
    · intro c hc
      cases hback : join [sep] rest with
      | nil =>
        rw [hback, List.append_nil, List.getLast?_concat] at hc
        cases hc
        exact hsep
      | cons d back =>
        rw [List.getLast?_append_of_ne_nil _ (by simp [hback])] at hc
        exact hlast c hc

/-- What stands behind a mark that a text begins with. -/
theorem dropStart?_eq_some_iff {s start rest : Text} :
    dropStart? start s = some rest ↔ s = start ++ rest := by
  fun_induction dropStart? start s with
  | case1 s => simp
  | case2 => simp
  | case3 start d s ih => simp [ih]
  | case4 c start d s hne => simp [Ne.symm hne]

/-- No line holds a newline, as lines end there. -/
theorem newline_not_mem_lines {s line : Text} (h : line ∈ lines s) : '\n' ∉ line := by
  have hended : ∀ line ∈ (splitAll '\n' s).dropLast.map fun line =>
      if line.getLast? = some '\r' then line.dropLast else line, '\n' ∉ line := by
    intro line hline
    obtain ⟨piece, hpiece, rfl⟩ := List.mem_map.mp hline
    have hnone := not_mem_of_mem_splitAll (List.dropLast_subset _ hpiece)
    split
    · exact fun hmem => hnone (List.dropLast_subset _ hmem)
    · exact hnone
  rw [lines] at h
  split at h
  · exact hended line h
  · exact hended line h
  · rename_i last hnonempty hlast
    rcases List.mem_append.mp h with h | h
    · exact hended line h
    · obtain rfl := List.mem_singleton.mp h
      exact not_mem_of_mem_splitAll (List.mem_of_getLast? hlast)

end FeatureTransform.Text

namespace FeatureTransform.Utf8

/-! ## Bytes -/

/-- Bytes are those of one text, or of none. So a text can be told from its bytes, and there are
bytes without a text. -/
theorem fromUTF8?_eq_some_iff {content : ByteArray} {s : String} :
    String.fromUTF8? content = some s ↔ content = s.toUTF8 := by
  have hvalid : s.toUTF8.IsValidUTF8 := s.isValidUTF8
  constructor
  · intro h
    rw [String.fromUTF8?] at h
    split at h
    · cases h
      rfl
    · cases h
  · rintro rfl
    rw [String.fromUTF8?, dif_pos hvalid]
    rfl

/-- The bytes of a text are read as that text. -/
theorem read_toUTF8 (s : String) : read s.toUTF8 = .ok s := by
  rw [read, fromUTF8?_eq_some_iff.mpr rfl]

/-- Nothing is replaced in the bytes of a text. -/
theorem lossy_toUTF8 (s : String) : lossy s.toUTF8 = s := by
  rw [lossy, fromUTF8?_eq_some_iff.mpr rfl]

end FeatureTransform.Utf8
