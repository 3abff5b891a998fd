import FeatureTransform.Proofs.Text.Split
import FeatureTransform.Script.Header
import Mathlib.Data.List.Infix

/-!
# The lines of a script

Of the lines of a text those up to ten empty ones in a row are read. The run of empty lines that
the reading counts is a run at the end of what has been read, so that what is read is told by the
lines alone: `IsExtent` says it without a counter.

The lines read fall into two kinds, by the mark they begin with or do not begin with. Those with the
mark make up the header and those without it the body, and neither kind has to do with the other.
-/

namespace FeatureTransform

/-! ## How far a script is read -/

/-- The last ten lines are empty. -/
def EndsBlank (lines : List Text) : Prop := List.replicate 10 [] <:+ lines

/-- What is read of some lines: the shortest part in front of them that ends with ten empty lines,
or everything if there are no ten empty lines in a row. -/
structure IsExtent (read lines : List Text) : Prop where
  /-- it stands in front -/
  front : read <+: lines
  /-- there is a reason to stop -/
  ends : EndsBlank read ∨ read = lines ∧ ¬ List.replicate 10 [] <:+: lines
  /-- there was none before -/
  shortest : ∀ part, part <+: lines → EndsBlank part → read <+: part

/-- Only one part in front is the one that is read. -/
theorem IsExtent.unique {read other lines : List Text} (h : IsExtent read lines)
    (hother : IsExtent other lines) : read = other := by
  have hlength : ∀ {a b : List Text}, IsExtent a lines → IsExtent b lines →
      a.length ≤ b.length := by
    intro a b ha hb
    rcases hb.ends with hends | ⟨rfl, -⟩
    · exact (ha.shortest b hb.front hends).length_le
    · exact ha.front.length_le
  have hle := List.prefix_of_prefix_length_le h.front hother.front (hlength h hother)
  exact hle.eq_of_length_le (hlength hother h)

section Runs

variable {run : Nat} {line : Text} {read lines part : List Text}

theorem EndsBlank.le_length (h : EndsBlank part) : 10 ≤ part.length := by
  have hle := h.length_le
  rwa [List.length_replicate] at hle

/-- A line that is not empty breaks the run: the ten empty lines stand behind it, as the part ends
with them. -/
theorem EndsBlank.behind {front : List Text} (hline : line ≠ [])
    (h : EndsBlank (front ++ line :: part)) : EndsBlank part := by
  have hpart : part <:+ front ++ line :: part :=
    (List.suffix_cons line part).trans (List.suffix_append front _)
  rcases Nat.lt_or_ge part.length 10 with hshort | hlong
  · -- else the run would reach back to the line
    have hreach : line :: part <:+ List.replicate 10 [] := by
      apply List.suffix_of_suffix_length_le (List.suffix_append front _) h
      rw [List.length_cons, List.length_replicate]
      omega
    have hmem : line ∈ List.replicate 10 ([] : Text) := hreach.subset List.mem_cons_self
    exact absurd (List.eq_of_mem_replicate hmem) hline
  · exact List.suffix_of_suffix_length_le h hpart (by rwa [List.length_replicate])

theorem EndsBlank.append (h : EndsBlank part) (front : List Text) : EndsBlank (front ++ part) :=
  h.trans (List.suffix_append front part)

/-- Some empty lines, fewer than ten, and a line that is not empty hold no reason to stop. -/
theorem exists_of_endsBlank (hrun : run < 10) (hline : line ≠ [])
    (hpart : part <+: List.replicate run [] ++ line :: lines) (h : EndsBlank part) :
    ∃ later, part = List.replicate run [] ++ line :: later ∧ later <+: lines ∧ EndsBlank later := by
  have hfront : List.replicate run [] <+: List.replicate run [] ++ line :: lines :=
    List.prefix_append _ _
  have hlength := h.le_length
  rcases List.prefix_or_prefix_of_prefix hpart hfront with hless | ⟨back, rfl⟩
  · have hle := hless.length_le
    rw [List.length_replicate] at hle
    omega
  · rw [List.prefix_append_right_inj] at hpart
    rcases List.prefix_cons_iff.mp hpart with rfl | ⟨later, rfl, hlater⟩
    · rw [List.append_nil, List.length_replicate] at hlength
      omega
    · exact ⟨later, rfl, hlater, h.behind hline⟩

/-- A run of ten empty lines ends some part in front. So to look for a run is to look at parts in
front. -/
theorem infix_iff_exists : List.replicate 10 [] <:+: lines ↔
    ∃ part, part <+: lines ∧ EndsBlank part := by
  constructor
  · rintro ⟨front, back, hlines⟩
    exact ⟨front ++ List.replicate 10 [], ⟨back, hlines⟩, List.suffix_append _ _⟩
  · rintro ⟨part, hpart, hends⟩
    exact hends.isInfix.trans hpart.isInfix

/-- **One line** that is not empty, with fewer than ten empty ones before it, is read like any
other: the count starts again behind it. -/
theorem IsExtent.behind (hrun : run < 10) (hline : line ≠ []) (h : IsExtent read lines) :
    IsExtent (List.replicate run [] ++ line :: read) (List.replicate run [] ++ line :: lines) := by
  have hcons : ∀ part, EndsBlank part → EndsBlank (List.replicate run [] ++ line :: part) :=
    fun part hpart => (hpart.append [line]).append _
  refine ⟨?_, ?_, ?_⟩
  · rw [List.prefix_append_right_inj, List.prefix_cons_inj]
    exact h.front
  · rcases h.ends with hends | ⟨rfl, hnone⟩
    · exact .inl (hcons read hends)
    · refine .inr ⟨rfl, fun hten => hnone ?_⟩
      obtain ⟨part, hpart, hends⟩ := infix_iff_exists.mp hten
      obtain ⟨later, -, hlater, hlaterEnds⟩ := exists_of_endsBlank hrun hline hpart hends
      exact infix_iff_exists.mpr ⟨later, hlater, hlaterEnds⟩
  · intro part hpart hends
    obtain ⟨later, rfl, hlater, hlaterEnds⟩ := exists_of_endsBlank hrun hline hpart hends
    rw [List.prefix_append_right_inj, List.prefix_cons_inj]
    exact h.shortest later hlater hlaterEnds

/-- Ten empty lines in front are read and nothing behind them. -/
theorem isExtent_ten (lines : List Text) :
    IsExtent (List.replicate 10 []) (List.replicate 10 [] ++ lines) := by
  refine ⟨List.prefix_append _ _, .inl (List.suffix_refl _), ?_⟩
  intro part hpart hends
  apply List.prefix_of_prefix_length_le (List.prefix_append _ _) hpart
  rw [List.length_replicate]
  exact hends.le_length

/-- Fewer than ten empty lines are all read. -/
theorem isExtent_replicate (hrun : run < 10) :
    IsExtent (List.replicate run []) (List.replicate run []) := by
  have hnone : ∀ part, part <+: List.replicate run ([] : Text) → ¬ EndsBlank part := by
    intro part hpart hends
    have hle := hpart.length_le
    have hlength := hends.le_length
    rw [List.length_replicate] at hle
    omega
  refine ⟨List.prefix_refl _, .inr ⟨rfl, fun hten => ?_⟩, ?_⟩
  · obtain ⟨part, hpart, hends⟩ := infix_iff_exists.mp hten
    exact hnone part hpart hends
  · intro part hpart hends
    exact absurd hends (hnone part hpart)

end Runs

/-- **Reading on.** The lines that have been counted stand in front of those still to come. The
induction is on the lines, with the count of empty ones as the invariant: they are the end of what
has been read. -/
theorem isExtent_consumedAfter {run : Nat} (hrun : run < 10) (lines : List Text) :
    IsExtent (List.replicate run [] ++ consumedAfter run lines)
      (List.replicate run [] ++ lines) := by
  induction lines generalizing run with
  | nil =>
    rw [consumedAfter, List.append_nil]
    exact isExtent_replicate hrun
  | cons line rest ih =>
    rw [consumedAfter, maxBlankRun]
    by_cases hline : line = []
    · subst hline
      have hone : ∀ more : List Text, List.replicate run [] ++ [] :: more =
          List.replicate (run + 1) [] ++ more := by
        intro more
        rw [List.replicate_succ', List.append_assoc, List.singleton_append]
      rw [if_pos rfl, hone rest]
      -- nine empty lines before this one and the script ends here
      by_cases hten : 10 ≤ run + 1
      · obtain rfl : run = 9 := by omega
        rw [if_pos hten, hone []]
        exact isExtent_ten rest
      · rw [if_neg hten, hone (consumedAfter (run + 1) rest)]
        exact ih (by omega)
    · rw [if_neg hline, if_neg (by omega)]
      have hrest := ih (show 0 < 10 by decide)
      rw [List.replicate_zero, List.nil_append, List.nil_append] at hrest
      exact hrest.behind hrun hline

theorem isExtent_consumed (lines : List Text) : IsExtent (consumed lines) lines :=
  isExtent_consumedAfter (show 0 < 10 by decide) lines

/-- A header line among empty ones is not empty, so the count starts again behind it. -/
example : consumed (List.replicate 9 [] ++ [['-', '-', '#']] ++ List.replicate 12 []) =
    List.replicate 9 [] ++ [['-', '-', '#']] ++ List.replicate 10 [] := by decide

/-- What is read is read again, and so is each part of it that stands in front: no run of ten has
ended inside. -/
theorem consumed_of_front {front lines : List Text} (h : front <+: consumed lines) :
    consumed front = front := by
  have hall := isExtent_consumed lines
  refine (isExtent_consumed front).unique ⟨List.prefix_refl _, ?_, ?_⟩
  · by_cases hends : EndsBlank front
    · exact .inl hends
    · refine .inr ⟨rfl, fun hten => hends ?_⟩
      obtain ⟨part, hpart, hpartEnds⟩ := infix_iff_exists.mp hten
      have hback := hall.shortest part (hpart.trans (h.trans hall.front)) hpartEnds
      rwa [hpart.eq_of_length_le (h.trans hback).length_le] at hpartEnds
  · intro part hpart hends
    exact h.trans (hall.shortest part (hpart.trans (h.trans hall.front)) hends)

/-- Behind ten empty lines nothing is read, whatever comes. -/
theorem consumed_append_of_endsBlank {lines : List Text} (h : EndsBlank (consumed lines))
    (more : List Text) : consumed (consumed lines ++ more) = consumed lines := by
  have hall := isExtent_consumed lines
  refine (isExtent_consumed _).unique ⟨List.prefix_append _ _, .inl h, fun part hpart hends => ?_⟩
  rcases List.prefix_or_prefix_of_prefix hpart (List.prefix_append _ more) with hless | hmore
  · exact hall.shortest part (hless.trans hall.front) hends
  · exact hmore

/-- Where no ten empty lines have been read, one more line is read. -/
theorem consumed_concat_of_not_endsBlank {lines : List Text} (h : ¬ EndsBlank (consumed lines))
    (line : Text) : consumed (consumed lines ++ [line]) = consumed lines ++ [line] := by
  have hall := isExtent_consumed lines
  have hnone : ∀ part, part <+: consumed lines → ¬ EndsBlank part := by
    intro part hpart hends
    have hback := hall.shortest part (hpart.trans hall.front) hends
    exact h (hback.eq_of_length_le hpart.length_le ▸ hends)
  -- so the whole is the only part in front that may end with ten empty lines
  have hwhole : ∀ part, part <+: consumed lines ++ [line] → EndsBlank part →
      part = consumed lines ++ [line] := by
    intro part hpart hends
    rcases List.prefix_concat_iff.mp hpart with rfl | hfront
    · rfl
    · exact absurd hends (hnone part hfront)
  refine (isExtent_consumed _).unique ⟨List.prefix_refl _, ?_, ?_⟩
  · by_cases hends : EndsBlank (consumed lines ++ [line])
    · exact .inl hends
    · refine .inr ⟨rfl, fun hten => ?_⟩
      obtain ⟨part, hpart, hpartEnds⟩ := infix_iff_exists.mp hten
      exact hends (hwhole part hpart hpartEnds ▸ hpartEnds)
  · intro part hpart hends
    rw [hwhole part hpart hends]

/-- Lines that are not read make no difference to what is read on behind them. -/
theorem consumed_append (lines more : List Text) :
    consumed (consumed lines ++ more) = consumed (lines ++ more) := by
  have hall := isExtent_consumed lines
  rcases hall.ends with hends | ⟨hwhole, -⟩
  · rw [consumed_append_of_endsBlank hends]
    have hfront : consumed lines <+: lines ++ more := hall.front.trans (List.prefix_append _ _)
    refine IsExtent.unique ⟨hfront, .inl hends, fun part hpart hpartEnds => ?_⟩
      (isExtent_consumed _)
    rcases List.prefix_or_prefix_of_prefix hpart (List.prefix_append lines more) with hless | hmore
    · exact hall.shortest part hless hpartEnds
    · exact hall.front.trans hmore
  · rw [hwhole]

/-! ## Header and body -/

/-- The line belongs to the header. -/
def IsHeaderLine (line : Text) : Prop := ['-', '-', '#'] <+: line

instance : DecidablePred IsHeaderLine := fun line =>
  inferInstanceAs (Decidable (['-', '-', '#'] <+: line))

theorem headerContent?_eq_some_iff {line content : Text} :
    headerContent? line = some content ↔ line = ['-', '-', '#'] ++ content :=
  Text.dropStart?_eq_some_iff

theorem headerContent?_mark (content : Text) :
    headerContent? (['-', '-', '#'] ++ content) = some content :=
  headerContent?_eq_some_iff.mpr rfl

theorem headerContent?_isNone_iff (line : Text) :
    (headerContent? line).isNone = true ↔ ¬ IsHeaderLine line := by
  rw [Option.isNone_iff_eq_none, Option.eq_none_iff_forall_not_mem, IsHeaderLine]
  constructor
  · rintro hnone ⟨content, hcontent⟩
    exact hnone content (headerContent?_eq_some_iff.mpr hcontent.symm)
  · intro hplain content hcontent
    exact hplain ⟨content, (headerContent?_eq_some_iff.mp hcontent).symm⟩

/-- Lines of the body mean nothing to the header, wherever they stand among its lines. -/
theorem Header.feed_of_not_isHeaderLine (header : Header) {line : Text}
    (h : ¬ IsHeaderLine line) : header.feed line = header := by
  have hnone := Option.isNone_iff_eq_none.mp ((headerContent?_isNone_iff line).mpr h)
  rw [Header.feed, hnone]

theorem Header.foldl_feed_filter (header : Header) (lines : List Text) :
    (lines.filter (IsHeaderLine ·)).foldl Header.feed header = lines.foldl Header.feed header := by
  induction lines generalizing header with
  | nil => rfl
  | cons line rest ih =>
    by_cases hline : IsHeaderLine line
    · simp [hline, ih]
    · simp [hline, ih, header.feed_of_not_isHeaderLine hline]

namespace Script

/-- What the header of a script says. -/
def header (script : Script) : Header where
  id := script.id
  displayName := script.displayName
  group := script.group
  parameters := script.parameters
  outputs := script.outputs
  rejected := script.rejected

/-- The script is made of the lines that have been read, each of which is there once for the header
or for the body. -/
structure IsMadeOf (script : Script) (start : Header) (read : List Text) : Prop where
  /-- the whole text is the lines, each ended by a newline -/
  text : script.text.toList = read.flatMap (· ++ ['\n'])
  /-- the body is the lines without the mark, with newlines between them -/
  body : script.body.toList = Text.join ['\n'] (read.filter (¬ IsHeaderLine ·))
  /-- the header is what the lines with the mark say -/
  header : script.header = (read.filter (IsHeaderLine ·)).foldl Header.feed start
  /-- no line is lost or taken twice -/
  kinds : ∀ line ∈ read, Xor (line ∈ read.filter (IsHeaderLine ·))
    (line ∈ read.filter (¬ IsHeaderLine ·))
  /-- lines are what stands between newlines -/
  lines : (∀ line ∈ read, '\n' ∉ line) → Text.splitAll '\n' script.text.toList = read ++ [[]]
  /-- no line of the body has the mark -/
  plain : (∀ line ∈ read, '\n' ∉ line) →
    ∀ line ∈ Text.splitAll '\n' script.body.toList, ¬ IsHeaderLine line

section Lines

variable (id displayName : String) (origin : Origin) (lines : List Text)

theorem text_ofLines : (ofLines id displayName origin lines).text.toList =
    (consumed lines).flatMap (· ++ ['\n']) :=
  String.toList_ofList

theorem body_ofLines : (ofLines id displayName origin lines).body.toList =
    Text.join ['\n'] ((consumed lines).filter (¬ IsHeaderLine ·)) := by
  refine String.toList_ofList.trans ?_
  congr 1
  refine List.filter_congr fun line _ => ?_
  rw [Bool.eq_iff_iff, headerContent?_isNone_iff, decide_eq_true_iff]

/-- Where no line holds a newline, the lines of the body are lines without the mark: joining them
makes no others. -/
theorem not_isHeaderLine_of_body (h : ∀ line ∈ consumed lines, '\n' ∉ line) {line : Text}
    (hline : line ∈ Text.splitAll '\n' (ofLines id displayName origin lines).body.toList) :
    ¬ IsHeaderLine line := by
  have hread : ∀ line ∈ (consumed lines).filter (¬ IsHeaderLine ·), '\n' ∉ line :=
    fun line hmem => h line (List.mem_of_mem_filter hmem)
  rw [body_ofLines] at hline
  by_cases hbody : (consumed lines).filter (¬ IsHeaderLine ·) = []
  · -- an empty body is one empty line
    rw [hbody] at hline
    obtain rfl := List.mem_singleton.mp hline
    decide
  · rw [Text.splitAll_join hread hbody] at hline
    exact of_decide_eq_true (List.mem_filter.mp hline).2

/-- **The lines of a script.** Read is the shortest part in front that ends with ten empty lines, or
everything if there is none; the script is made of what is read: the header of all lines, the body
of those without the mark, the text of all of them. -/
theorem extent_isMadeOf : IsExtent (consumed lines) lines ∧
    (ofLines id displayName origin lines).IsMadeOf (Header.initial id displayName)
      (consumed lines) := by
  refine ⟨isExtent_consumed lines, ?_⟩
  exact
    { text := text_ofLines id displayName origin lines
      body := body_ofLines id displayName origin lines
      header := (Header.foldl_feed_filter _ _).symm
      kinds := by
        intro line hline
        by_cases hmark : IsHeaderLine line
        · exact .inl ⟨by simp [hline, hmark], by simp [hmark]⟩
        · exact .inr ⟨by simp [hline, hmark], by simp [hmark]⟩
      lines := by
        intro h
        rw [text_ofLines, ← Text.join_concat_nil]
        refine Text.splitAll_join (fun line hline => ?_) (by simp)
        rcases List.mem_append.mp hline with hline | hline
        · exact h line hline
        · obtain rfl := List.mem_singleton.mp hline
          exact List.not_mem_nil
      plain := fun h _ hline => not_isHeaderLine_of_body id displayName origin lines h hline }

end Lines

/-! ## Scripts that are given as a text -/

theorem newline_not_mem_sourceLines {source line : Text} (h : line ∈ sourceLines source) :
    '\n' ∉ line := by
  obtain ⟨piece, hpiece, rfl⟩ := List.mem_map.mp h
  intro hmem
  exact Text.not_mem_of_mem_splitAll hpiece ((Text.front_trimEndBy _ piece).subset hmem)

/-- The lines of a text hold no newline, so that its body has no line with the mark. -/
theorem not_isHeaderLine_of_ofSource (source : String) {line : Text}
    (h : line ∈ Text.splitAll '\n' (ofSource source).body.toList) : ¬ IsHeaderLine line := by
  refine not_isHeaderLine_of_body _ _ _ _ (fun other hother => ?_) h
  exact newline_not_mem_sourceLines ((isExtent_consumed _).front.subset hother)

/-- Nor has the body of a named text, whose lines are trimmed. -/
theorem not_isHeaderLine_of_ofNamed (fileName text : String) (origin : Origin) {line : Text}
    (h : line ∈ Text.splitAll '\n' (ofNamed fileName text origin).body.toList) :
    ¬ IsHeaderLine line := by
  refine not_isHeaderLine_of_body _ _ _ _ (fun other hother => ?_) h
  obtain ⟨whole, hwhole, rfl⟩ := List.mem_map.mp ((isExtent_consumed _).front.subset hother)
  exact fun hmem => Text.newline_not_mem_lines hwhole (Text.mem_of_mem_trim hmem)

end Script

end FeatureTransform
