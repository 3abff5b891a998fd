import FeatureTransform.Proofs.Declaration.Wording

/-!
# What follows the words of a type

A word of a type is divided from what follows by a colon or by white space, unless nothing follows.
Of a type that declares something this is so for each word but the last. The last word ends before
any character that does not belong to words, and what begins with that character is its constraint:
the type is read as if a blank stood between. Only the constraints that are words themselves cannot
begin like that.

## Main results

* `resolveText_run_on` — a blank between a word and a character that ends it makes no difference;
* `exists_words_of_resolveText` — how the words stand in a line that declares something.
-/

namespace FeatureTransform

/-! ## Words in front of a text -/

/-- The lists of words that name a kind. -/
def Kind.wordings : Kind → List (List String)
  | .choice _ => [["enum"], ["selection"]]
  | .rasterDestination => [["output", "raster"]]
  | .vectorDestination => [["output", "vector"]]
  | .fileDestination _ => [["output", "file"]]
  | kind => [[kind.keyword]]

/-- Whether the constraint of a kind is a word, too, unless it is left out. -/
def Kind.takesWord : Kind → Bool
  | .vector _ | .boolean _ | .layers _ => true
  | _ => false

namespace Declaration

/-- The words name what is declared, behind `optional` or without. That is the flag of a parameter;
an output has none. -/
def IsNamedBy : Declaration → Bool → List String → Prop
  | .parameter p, optional, words => p.optional = optional ∧ words ∈ p.kind.wordings
  | .output o, _, words => words = ["output", o.kind.label]

/-- The lists of words that a type of the declaration begins with. -/
def wordings : Declaration → List (List String)
  | .parameter p =>
    if p.optional then p.kind.wordings.map ("optional" :: ·) else p.kind.wordings
  | .output o => [["output", o.kind.label], ["optional", "output", o.kind.label]]

/-- Whether the constraint of what is declared is a word, too. -/
def takesWord : Declaration → Bool
  | .parameter p => p.kind.takesWord
  | .output _ => false

/-- The words of a declaration, with the flag in front where it is set, are one of the lists of
words that its type may begin with. -/
theorem IsNamedBy.mem_wordings {d : Declaration} {optional : Bool} {words : List String}
    (h : d.IsNamedBy optional words) :
    (if optional then "optional" :: words else words) ∈ d.wordings := by
  cases d with
  | parameter p =>
    obtain ⟨rfl, hwords⟩ := h
    rw [wordings]
    split
    · exact List.mem_map_of_mem hwords
    · exact hwords
  | output o =>
    obtain rfl : words = ["output", o.kind.label] := h
    cases optional <;> simp [wordings]

end Declaration

/-- The text is the word in any letter case. -/
structure Writes (word : String) (text : Text) : Prop where
  /-- there is something -/
  something : text ≠ []
  /-- the word goes on to the end of the text -/
  characters : ∀ c ∈ text, Char.isWord c = true
  /-- it is the word in lower case -/
  lower : String.ofList (Text.lower text) = word

/-- The text is the words one after another, each divided from the next. -/
inductive WritesAll : List String → Text → Prop where
  /-- one word -/
  | last {word : String} {text : Text} (h : Writes word text) : WritesAll [word] text
  /-- a word in front of others -/
  | more {word : String} {words : List String} {text divider rest : Text} (h : Writes word text)
      (hdivider : IsDivider divider) (hrest : WritesAll words rest) :
      WritesAll (word :: words) (text ++ (divider ++ rest))

/-- A word does not go on with the text. -/
def EndsWord (back : Text) : Prop := ∀ c ∈ back.head?, Char.isWord c = false

/-- The text is empty or begins with a colon or with white space. -/
def IsDivided (back : Text) : Prop := ∀ c ∈ back.head?, c = ':' ∨ Char.isBlank c = true

/-- Of a text that is not empty only the first character counts. -/
theorem isDivided_cons {c : Char} {rest : Text} :
    IsDivided (c :: rest) ↔ c = ':' ∨ Char.isBlank c = true := by
  simp [IsDivided]

/-- How the words of a declaration stand in the text of its type: each of them is divided from the
next, and the last ends where the back begins. -/
structure Declaration.StandsIn (d : Declaration) (words : List String) (front back : Text) :
    Prop where
  /-- they name the declaration -/
  named : words ∈ d.wordings
  /-- they are the front -/
  written : WritesAll words front
  /-- the last of them does not go on -/
  ends : EndsWord back
  /-- it is divided from another word -/
  divided : d.takesWord = true → IsDivided back

/-! ## One word -/

namespace EndsWord

variable {back : Text}

theorem dropWhile (s : Text) : EndsWord (s.dropWhile Char.isWord) := Text.head?_dropWhile

theorem trimEnd (h : EndsWord back) : EndsWord (Text.trimEnd back) :=
  fun c hc => h c (Text.head?_trimEnd hc)

/-- No word stands in front of it. -/
theorem splitKeyword_fst (h : EndsWord back) : (splitKeyword back).1 = "" := by
  have hsplit : splitKeyword ([] ++ back) = _ :=
    splitKeyword_append (fun c hc => absurd hc List.not_mem_nil) h
  rw [List.nil_append] at hsplit
  rw [hsplit]
  rfl

/-- Nothing but a colon is taken off in front of the rest, apart from white space. This is why a
character that ends a word becomes part of the constraint. -/
theorem splitKeyword_snd {c : Char} (hc : Char.isWord c = false) (hcolon : c ≠ ':') (rest : Text) :
    (splitKeyword (c :: rest)).2 = Text.trim (c :: rest) := by
  rw [splitKeyword, List.dropWhile_cons_of_neg (by simp [hc])]
  dsimp only
  split
  · rename_i heq
    exact absurd (List.cons.inj heq).1 hcolon
  · rfl

/-- White space behind everything makes no difference, since the rest is trimmed anyway. -/
theorem splitKeyword_trimEnd (h : EndsWord back) :
    (splitKeyword (Text.trimEnd back)).2 = (splitKeyword back).2 := by
  cases back with
  | nil => rfl
  | cons c rest =>
    by_cases hcolon : c = ':'
    · subst hcolon
      rw [Text.trimEnd_cons_of_not_blank (by decide)]
      exact Text.trim_trimEnd rest
    · have hword := h c rfl
      have hsame := Text.trim_trimEnd (c :: rest)
      rw [splitKeyword_snd hword hcolon, ← hsame]
      cases htrim : Text.trimEnd (c :: rest) with
      | nil => rfl
      | cons d more =>
        have hfirst : d ∈ (Text.trimEnd (c :: rest)).head? := by rw [htrim]; rfl
        obtain rfl : c = d := Option.some.inj (Text.head?_trimEnd hfirst)
        exact splitKeyword_snd hword hcolon more

/-- A blank in front of it makes no difference, unless it begins with a colon: then the blank would
divide the words, and the colon would be left to the constraint. -/
theorem splitKeyword_blank (h : EndsWord back) (hdivided : ¬IsDivided back) :
    (splitKeyword (' ' :: back)).2 = (splitKeyword back).2 := by
  cases back with
  | nil => rfl
  | cons c rest =>
    rw [isDivided_cons, not_or] at hdivided
    rw [splitKeyword_snd (h c rfl) hdivided.1, splitKeyword_snd (by decide) (by decide),
      Text.trim_cons_of_blank rfl]

end EndsWord

theorem endsWord_blank (s : Text) : EndsWord (' ' :: s) := by
  rintro c ⟨⟩
  decide

theorem isBlank_of_isWord {c : Char} (h : Char.isWord c = true) : Char.isBlank c = false := by
  rw [← Bool.not_eq_true]
  intro hblank
  rw [isWord_of_isBlank hblank] at h
  cases h

namespace Writes

variable {word : String} {text back : Text} (h : Writes word text)
include h

/-- Only the end of a text that begins with a word can lose white space, since a word begins with
none. -/
theorem trim_append (back : Text) : Text.trim (text ++ back) = text ++ Text.trimEnd back :=
  Text.trim_append (Text.trim_of_forall fun c hc => isBlank_of_isWord (h.characters c hc))
    h.something back

/-- **One word** is read apart from whatever ends it, whether that is a colon, white space or a
character that no one thought of as a separator. -/
theorem splitKeyword_trim (hback : EndsWord back) :
    splitKeyword (Text.trim (text ++ back)) = (word, (splitKeyword back).2) := by
  rw [h.trim_append, splitKeyword_append h.characters hback.trimEnd, h.lower,
    hback.splitKeyword_trimEnd]

/-- It is the word characters in front. So the place where a word ends is determined by the text
alone. -/
theorem eq_takeWhile {s : Text} (hback : EndsWord back) (hs : text ++ back = s) :
    text = s.takeWhile Char.isWord ∧ back = s.dropWhile Char.isWord := by
  have hnone : back.takeWhile Char.isWord = [] := by
    cases back with
    | nil => rfl
    | cons c rest => exact List.takeWhile_cons_of_neg (by simp [hback c rfl])
  rw [← hs, List.takeWhile_append_of_pos h.characters, List.dropWhile_append_of_pos h.characters,
    hnone, List.append_nil, Text.dropWhile_of_head? hback]
  exact ⟨rfl, rfl⟩

/-- A word in front of another text, divided from it. -/
theorem splitKeyword_divided {divider : Text} (hdivider : IsDivider divider) (rest : Text) :
    splitKeyword (Text.trim (text ++ (divider ++ rest))) = (word, Text.trim rest) := by
  have hfollows : Follows rest (divider ++ rest) := .divided hdivider
  rw [h.splitKeyword_trim hfollows.stops, hfollows.splitKeyword_snd]

end Writes

/-! ## Running on -/

namespace TypeText

/-- The type whose words, `optional` apart, begin with a text. -/
def read (optional : Bool) (s : Text) : TypeText :=
  { optional := optional, keyword := (splitKeyword s).1, constraint := (splitKeyword s).2 }

/-- A type is read with the flag exactly if its first word is `optional` and something stands behind
it; otherwise `optional` is a word like any other. -/
theorem of_eq (s : Text) : of s =
    if (splitKeyword (Text.trim s)).1 = "optional" ∧ (splitKeyword (Text.trim s)).2 ≠ [] then
      read true (splitKeyword (Text.trim s)).2
    else read false (Text.trim s) := rfl

/-- White space around a type makes no difference, so that types may be taken to be trimmed. -/
theorem of_trim (s : Text) : of (Text.trim s) = of s := by
  rw [of, of, Text.trim_trim]

end TypeText

/-- White space around the type of a line makes no difference. -/
theorem resolveText_trim {token : Text} (htoken : '=' ∉ token) (type : Text) :
    resolveText (token ++ '=' :: Text.trim type) = resolveText (token ++ '=' :: type) := by
  rw [resolveText, resolveText, splitDeclaration, splitDeclaration,
    Text.splitOnce?_append htoken, Text.splitOnce?_append htoken]
  simp only [bind, Except.bind, TypeText.of_trim]

/-- The words in front of the last one. -/
def leadingWords : List (List String) :=
  [[], ["output"], ["optional"], ["optional", "output"]]

/-- In front of the last word there are only `optional` and `output`, one of them, both or neither.
-/
theorem Declaration.dropLast_mem_leadingWords {d : Declaration} {words : List String}
    (h : words ∈ d.wordings) : words.dropLast ∈ leadingWords := by
  cases d with
  | output o =>
    simp only [wordings, List.mem_cons, List.not_mem_nil, or_false] at h
    rcases h with rfl | rfl <;> simp [leadingWords]
  | parameter p =>
    have hkind : ∀ words ∈ p.kind.wordings,
        words.dropLast ∈ leadingWords ∧ ("optional" :: words).dropLast ∈ leadingWords := by
      cases p.kind <;> simp [Kind.wordings, leadingWords]
    rw [wordings] at h
    split at h
    · obtain ⟨names, hnames, rfl⟩ := List.mem_map.mp h
      exact (hkind names hnames).2
    · exact (hkind words h).1

/-- A text that begins with a word begins with a word character, so that it is neither empty nor
does it begin with a separator. -/
theorem Writes.exists_head {word : String} {text : Text} (h : Writes word text) (back : Text) :
    ∃ c rest, text ++ back = c :: rest ∧ Char.isWord c = true := by
  obtain ⟨c, rest, rfl⟩ := List.exists_cons_of_ne_nil h.something
  exact ⟨c, rest ++ back, rfl, h.characters c List.mem_cons_self⟩

namespace WritesAll

variable {words : List String} {front : Text} (h : WritesAll words front)
include h

theorem ne_nil : words ≠ [] := by
  cases h <;> exact List.cons_ne_nil _ _

theorem exists_head : ∃ c rest, front = c :: rest ∧ Char.isWord c = true := by
  cases h with
  | last h =>
    have hhead := h.exists_head []
    rwa [List.append_nil] at hhead
  | more h => exact h.exists_head _

end WritesAll

/-- Behind `output` only the next word counts, and what follows it. What is written in between does
not reach the declaration. -/
theorem declare_output_eq (name : Text) (optional : Bool) {rest other : Text}
    (h : splitKeyword rest = splitKeyword other) :
    declare name { optional := optional, keyword := "output", constraint := rest } =
      declare name { optional := optional, keyword := "output", constraint := other } := by
  simp only [declare, outputOf?, if_true, h]
  rfl

section RunOn

variable {words : List String} {front back : Text} (hback : EndsWord back)
  (hdivided : ¬IsDivided back)
include hback hdivided

/-- A word is read in the same way with a blank behind it or without, as long as what follows ends
it and is no colon. -/
theorem Writes.splitKeyword_run_on {word : String} {text : Text} (h : Writes word text) :
    splitKeyword (Text.trim (text ++ back)) = splitKeyword (Text.trim (text ++ ' ' :: back)) := by
  rw [h.splitKeyword_trim hback, h.splitKeyword_trim (endsWord_blank back),
    hback.splitKeyword_blank hdivided]

/-- Behind the flag, a type declares the same with a blank behind its words or without. -/
theorem declare_read_run_on (name : Text) (optional : Bool) (hfront : WritesAll words front)
    (hwords : words.dropLast = [] ∨ words.dropLast = ["output"]) :
    declare name (.read optional (Text.trim (front ++ back))) =
      declare name (.read optional (Text.trim (front ++ ' ' :: back))) := by
  cases hfront with
  | last h => rw [TypeText.read, TypeText.read, h.splitKeyword_run_on hback hdivided]
  | @more word words text divider rest h hdivider hrest =>
    rw [List.dropLast_cons_of_ne_nil hrest.ne_nil] at hwords
    obtain ⟨rfl, hlast⟩ : word = "output" ∧ words.dropLast = [] := by simpa using hwords
    rw [List.append_assoc, List.append_assoc, List.append_assoc, List.append_assoc,
      TypeText.read, TypeText.read, h.splitKeyword_divided hdivider,
      h.splitKeyword_divided hdivider]
    cases hrest with
    | last h => exact declare_output_eq name optional (h.splitKeyword_run_on hback hdivided)
    | more h hdivider hrest =>
      rw [List.dropLast_cons_of_ne_nil hrest.ne_nil] at hlast
      cases hlast

/-- A type declares the same with a blank behind its words or without. The flag and `output` are
divided from what follows them, so that only the last word can run on. -/
theorem declare_run_on (name : Text) (hfront : WritesAll words front)
    (hwords : words.dropLast ∈ leadingWords) :
    declare name (.of (front ++ back)) = declare name (.of (front ++ ' ' :: back)) := by
  cases hfront with
  | last h => rw [TypeText.of, TypeText.of, h.splitKeyword_run_on hback hdivided]
  | @more word words text divider rest h hdivider hrest =>
    have hsome : ∀ back, Text.trim (rest ++ back) ≠ [] := by
      obtain ⟨c, more, rfl, hc⟩ := hrest.exists_head
      intro back hnone
      have hmem : c ∈ Text.trim (c :: more ++ back) :=
        Text.mem_trim_of_mem (isBlank_of_isWord hc) List.mem_cons_self
      rw [hnone] at hmem
      cases hmem
    rw [List.dropLast_cons_of_ne_nil hrest.ne_nil] at hwords
    by_cases hoptional : word = "optional"
    · subst hoptional
      have hlast : words.dropLast = [] ∨ words.dropLast = ["output"] := by
        simpa [leadingWords] using hwords
      -- the flag is set, and what follows it is read again
      have hread := declare_read_run_on hback hdivided name true hrest hlast
      simp only [List.append_assoc, TypeText.of_eq, h.splitKeyword_divided hdivider, hsome, ne_eq,
        not_false_eq_true, and_self, if_true, hread]
    · have hlast : word = "output" ∧ words.dropLast = [] := by
        simpa [leadingWords, hoptional] using hwords
      have hsame := declare_read_run_on hback hdivided name false (.more h hdivider hrest)
        (.inr (by rw [List.dropLast_cons_of_ne_nil hrest.ne_nil, hlast.1, hlast.2]))
      simp only [List.append_assoc] at hsame
      simp only [List.append_assoc, TypeText.of_eq, h.splitKeyword_divided hdivider, hoptional,
        false_and, if_false, hsame]

/-- **Running on.** A line in which the words of a type run into a character that ends the last of
them is read as if a blank stood between. It is not refused, although neither a colon nor white
space divides the word from its constraint. -/
theorem resolveText_run_on {token : Text} (htoken : '=' ∉ token) (hfront : WritesAll words front)
    (hwords : words.dropLast ∈ leadingWords) :
    resolveText (token ++ '=' :: (front ++ back)) =
      resolveText (token ++ '=' :: (front ++ ' ' :: back)) := by
  rw [resolveText, resolveText, splitDeclaration, splitDeclaration,
    Text.splitOnce?_append htoken, Text.splitOnce?_append htoken]
  simp only [bind, Except.bind, declare_run_on hback hdivided _ hfront hwords]

end RunOn

/-! ## Words that declare something -/

section Parts

variable {s : Text}

/-- The end of a text without white space behind it has none, either. The lemmas on what follows a
word all ask for such a text, and this is how it is handed on. -/
theorem trimEnd_of_append (front : Text) {back : Text}
    (h : Text.trimEnd (front ++ back) = front ++ back) : Text.trimEnd back = back := by
  rw [Text.trimEnd_append] at h
  split at h
  · rename_i hnone
    have hfront := (Text.front_trimEndBy Char.isBlank front).length_le
    change (Text.trimEnd front).length ≤ _ at hfront
    rw [h, List.length_append] at hfront
    obtain rfl := List.eq_nil_of_length_eq_zero (by omega : back.length = 0)
    rfl
  · exact List.append_cancel_left h

/-- Only white space in front is taken off such a text. -/
theorem exists_blank_append_trim (h : Text.trimEnd s = s) :
    ∃ blanks, IsBlankText blanks ∧ s = blanks ++ Text.trim s := by
  have hwhole := List.takeWhile_append_dropWhile (p := Char.isBlank) (l := s)
  have hback : Text.trimEnd (Text.trimStart s) = Text.trimStart s := by
    apply trimEnd_of_append (s.takeWhile Char.isBlank)
    rw [Text.trimStart, hwhole, h]
  refine ⟨s.takeWhile Char.isBlank, fun c hc => List.mem_takeWhile_imp hc, ?_⟩
  rw [Text.trim, hback, Text.trimStart, hwhole]

/-- What follows a word is its divider, if there is one, and the rest. Without a divider the rest
begins with the character that ended the word. -/
theorem EndsWord.exists_divider (hends : EndsWord s) (h : Text.trimEnd s = s) :
    ∃ divider, s = divider ++ (splitKeyword s).2 ∧ (divider = [] ∨ IsDivider divider) := by
  cases s with
  | nil => exact ⟨[], rfl, .inl rfl⟩
  | cons c rest =>
    by_cases hcolon : c = ':'
    · subst hcolon
      obtain ⟨blanks, hblanks, hrest⟩ := exists_blank_append_trim (trimEnd_of_append [':'] h)
      exact ⟨':' :: blanks, congrArg (':' :: ·) hrest, .inr (.colon hblanks)⟩
    · obtain ⟨blanks, hblanks, hwhole⟩ := exists_blank_append_trim h
      rw [EndsWord.splitKeyword_snd (hends c rfl) hcolon]
      refine ⟨blanks, hwhole, ?_⟩
      by_cases hsome : blanks = []
      · exact .inl hsome
      · exact .inr (.blank hsome hblanks)

/-- What is left behind the first word has no white space at its end if the whole text has none. -/
theorem trimEnd_dropWhile_isWord (h : Text.trimEnd s = s) :
    Text.trimEnd (s.dropWhile Char.isWord) = s.dropWhile Char.isWord := by
  apply trimEnd_of_append (s.takeWhile Char.isWord)
  rw [List.takeWhile_append_dropWhile, h]

/-- The first word has no part in what follows it, so that the rest of a text can be read without
the word. -/
theorem splitKeyword_dropWhile (s : Text) :
    (splitKeyword (s.dropWhile Char.isWord)).2 = (splitKeyword s).2 := by
  have hcharacters : ∀ c ∈ s.takeWhile Char.isWord, Char.isWord c = true :=
    fun c hc => List.mem_takeWhile_imp hc
  have hsplit := splitKeyword_append hcharacters (EndsWord.dropWhile s)
  rw [List.takeWhile_append_dropWhile] at hsplit
  rw [hsplit]

/-- **The first word** of a text, and what follows it. The text is taken apart here as it was
written, in its own letter case; the word that is read is its lower case. -/
theorem exists_word (h : Text.trimEnd s = s) (hword : (splitKeyword s).1 ≠ "") :
    ∃ text back, s = text ++ back ∧ Writes (splitKeyword s).1 text ∧ EndsWord back ∧
      Text.trimEnd back = back ∧ (splitKeyword back).2 = (splitKeyword s).2 := by
  refine ⟨s.takeWhile Char.isWord, s.dropWhile Char.isWord,
    List.takeWhile_append_dropWhile.symm, ⟨?_, fun c hc => List.mem_takeWhile_imp hc, rfl⟩,
    EndsWord.dropWhile s, trimEnd_dropWhile_isWord h, splitKeyword_dropWhile s⟩
  intro hnone
  apply hword
  rw [splitKeyword, hnone]
  rfl

/-- **A word in front of others** is divided from them. If the words ran together, they would have
been read as one. -/
theorem exists_word_divided (h : Text.trimEnd s = s) (hword : (splitKeyword s).1 ≠ "")
    (hnext : ¬EndsWord (splitKeyword s).2) : ∃ text divider,
      s = text ++ (divider ++ (splitKeyword s).2) ∧ Writes (splitKeyword s).1 text ∧
      IsDivider divider := by
  obtain ⟨text, back, hwhole, htext, hends, hback, hrest⟩ := exists_word h hword
  obtain ⟨divider, hparts, hdivider⟩ := hends.exists_divider hback
  rw [hrest] at hparts
  refine ⟨text, divider, hparts ▸ hwhole, htext, hdivider.resolve_left ?_⟩
  -- without a divider the next word would go on with the first
  rintro rfl
  rw [List.nil_append] at hparts
  exact hnext (hparts ▸ hends)

end Parts

/-! ## Constraints that are words -/

/-- A run of the table lies in one range of word characters, or at least its steps lie in some. -/
theorem lowerRuns_within : (lowerRuns.all fun run =>
    wordRanges.any (fun range => Nat.ble range.1 run.1 && Nat.ble run.2.1 range.2) ||
      (List.range ((run.2.1 - run.1) / run.2.2.1 + 1)).all
        fun k => inRanges wordRanges (run.1 + k * run.2.2.1)) = true := by
  decide +kernel

theorem isWord_of_inRuns? {n m : Nat} (h : inRuns? lowerRuns n = some m) :
    inRanges wordRanges n = true := by
  obtain ⟨⟨first, last, step, offset⟩, hmem, hrun⟩ := List.exists_of_findSome?_eq_some h
  have hwithin := List.all_eq_true.mp lowerRuns_within _ hmem
  simp only [Option.ite_none_right_eq_some, Bool.and_eq_true, decide_eq_true_eq, beq_iff_eq]
    at hrun
  obtain ⟨⟨⟨hfirst, hlast⟩, hstep⟩, -⟩ := hrun
  rcases Bool.or_eq_true_iff.mp hwithin with hwhole | hsteps
  · obtain ⟨range, hrange, hbounds⟩ := List.any_eq_true.mp hwhole
    rw [Bool.and_eq_true, Nat.ble_eq, Nat.ble_eq] at hbounds
    refine List.any_eq_true.mpr ⟨range, hrange, ?_⟩
    rw [Bool.and_eq_true, decide_eq_true_iff, decide_eq_true_iff]
    exact ⟨hbounds.1.trans hfirst, hlast.trans hbounds.2⟩
  · have hk : (n - first) / step < (last - first) / step + 1 :=
      Nat.lt_succ_of_le (Nat.div_le_div_right (by omega))
    have hplace : first + (n - first) / step * step = n := by
      rw [Nat.div_mul_cancel (Nat.dvd_of_mod_eq_zero hstep)]
      omega
    have hword := List.all_eq_true.mp hsteps _ (List.mem_range.mpr hk)
    rwa [hplace] at hword

/-- What has another form in lower case belongs to words. So a character that ends a word is its own
lower case, and a comparison of lower cases finds it again. -/
theorem lower_of_isWord {c : Char} (h : Char.isWord c = false) : Char.lower c = [c] := by
  have hexpansions : ∀ entry ∈ lowerExpansions, inRanges wordRanges entry.1 = true := by
    decide +kernel
  unfold Char.lower
  unfold Char.isWord at h
  by_cases hascii : c.toNat < 0x80
  · rw [if_pos hascii] at h ⊢
    -- in ASCII only capital letters change, which belong to words
    rcases toLower_cases c with ⟨-, hself⟩ | ⟨hupper, -⟩
    · rw [hself]
    · have halpha : (c.isUpper || c.isLower) = true := Bool.or_eq_true_iff.mpr (.inl hupper)
      have halphanum : c.isAlphanum = true := Bool.or_eq_true_iff.mpr (.inl halpha)
      rw [halphanum, Bool.true_or] at h
      cases h
  · rw [if_neg hascii] at h ⊢
    -- above it, whatever the tables change belongs to words
    rcases mapCase_cases lowerExpansions lowerRuns c with ⟨codes, hcodes, -⟩ | ⟨n, hn, -⟩ | heq
    · have hword := hexpansions (c.toNat, codes) hcodes
      rw [h] at hword
      cases hword
    · rw [isWord_of_inRuns? hn] at h
      cases h
    · exact heq

/-- A text that does not begin with a word is no word, in any letter case. -/
theorem lower_ne_word {c : Char} (hc : Char.isWord c = false) (rest : Text) {word : String}
    (hword : word.toList.head?.all Char.isWord = true) :
    String.ofList (Text.lower (c :: rest)) ≠ word := by
  have hsigma : c ≠ 'Σ' := by
    rintro rfl
    exact absurd hc (by decide +kernel)
  rintro rfl
  rw [String.toList_ofList, Text.lower, Text.lowerAfter, if_neg hsigma, lower_of_isWord hc] at hword
  have hfirst : Char.isWord c = true := hword
  rw [hc] at hfirst
  cases hfirst

section Constraints

variable {keyword : String} {s : Text} {kind : Kind}

/-- A number has been read from its three parts at most: the default, the least and the greatest
value, each of which may be missing. -/
theorem numberKind_eq_ok (h : numberKind s = .ok kind) : ∃ default? min? max?,
    kind = .number default? min? max? ∧ ∃ parts : List Text,
      (parts = [] ∨ parts = Text.splitAll ';' s) ∧ parts.length ≤ 3 ∧
      numberPart parts[0]? = .ok default? ∧ numberPart parts[1]? = .ok min? ∧
      numberPart parts[2]? = .ok max? := by
  have hparts : (if (Text.trim s).isEmpty then [] else Text.splitAll ';' s) = [] ∨
      (if (Text.trim s).isEmpty then [] else Text.splitAll ';' s) = Text.splitAll ';' s := by
    split
    · exact .inl rfl
    · exact .inr rfl
  simp only [numberKind] at h
  -- a constraint without any text has no parts, not one empty part
  generalize (if (Text.trim s).isEmpty then [] else Text.splitAll ';' s) = parts at h hparts
  split at h
  · cases h
  · rename_i hlength
    obtain ⟨default?, hdefault, h⟩ := Attempt.bind_eq_ok h
    obtain ⟨min?, hmin, h⟩ := Attempt.bind_eq_ok h
    obtain ⟨max?, hmax, h⟩ := Attempt.bind_eq_ok h
    have hkind : kind = .number default? min? max? := by
      split at h
      · split at h <;> cases h
        rfl
      · cases h
        rfl
    exact ⟨default?, min?, max?, hkind, parts, hparts, by omega, hdefault, hmin, hmax⟩

/-- The word that leads to a kind is the word of that kind, and no destination is reached without
`output`. -/
theorem keyword_of_kindOf? (h : kindOf? keyword s = some (.ok kind)) :
    kind.keyword = keyword ∧ kind.isDestination = false := by
  unfold kindOf? at h
  -- the cases are the words in the order in which they are tried, and the last is no word
  split at h
  case h_1 | h_3 | h_4 | h_5 | h_6 | h_7 =>
    cases h
    exact ⟨rfl, rfl⟩
  case h_2 | h_11 =>
    split at h <;> cases h
    exact ⟨rfl, rfl⟩
  case h_8 =>
    obtain ⟨default?, min?, max?, rfl, -⟩ := numberKind_eq_ok (Option.some.inj h)
    exact ⟨rfl, rfl⟩
  case h_9 =>
    rw [Option.some.injEq, choiceKind] at h
    split at h <;> cases h
    exact ⟨rfl, rfl⟩
  case h_10 =>
    rw [Option.some.injEq, booleanKind] at h
    split at h <;> cases h <;> exact ⟨rfl, rfl⟩
  case h_12 => cases h

/-- One word names such a kind, or its former word: `selection` still names a choice. -/
theorem mem_wordings_of_kindOf? (h : kindOf? (currentKeyword keyword) s = some (.ok kind)) :
    [keyword] ∈ kind.wordings := by
  obtain ⟨hkeyword, hkind⟩ := keyword_of_kindOf? h
  rw [currentKeyword] at hkeyword
  split at hkeyword
  · rename_i hformer
    subst hformer
    cases kind <;> simp [Kind.keyword, Kind.wordings] at hkeyword ⊢
  · subst hkeyword
    cases kind <;> simp [Kind.keyword, Kind.wordings, Kind.isDestination] at hkind ⊢

/-- A kind that takes a word does not take what does not begin with one. So for these kinds a
constraint that runs on behind the keyword is refused. -/
theorem takesWord_of_kindOf? {c : Char} (hc : Char.isWord c = false)
    (hblank : Char.isBlank c = false) (h : kindOf? keyword (c :: s) = some (.ok kind)) :
    kind.takesWord = false := by
  have hword : ∀ {word : String}, word.toList.head?.all Char.isWord = true →
      String.ofList (Text.lower (Text.trim (c :: s))) ≠ word := by
    intro word hfirst
    rw [Text.trim_cons_of_not_blank hblank, Text.trimEnd_cons_of_not_blank hblank]
    exact lower_ne_word hc _ hfirst
  -- no word that these kinds know begins like this
  have hgeometry : Geometry.parse? (c :: s) = none := by
    unfold Geometry.parse?
    split
    case h_1 heq | h_2 heq | h_3 heq | h_4 heq | h_5 heq => exact absurd heq (hword rfl)
    case h_6 => rfl
  have hlayers : LayerType.parse? (c :: s) = none := by
    unfold LayerType.parse?
    split
    case h_1 heq | h_2 heq | h_3 heq => exact absurd heq (hword rfl)
    case h_4 => rfl
  have hboolean : ∀ kind, booleanKind (c :: s) ≠ .ok kind := by
    unfold booleanKind
    split
    case h_1 heq | h_2 heq | h_3 heq => exact absurd heq (hword rfl)
    case h_4 => exact fun kind heq => nomatch heq
  obtain ⟨rfl, -⟩ := keyword_of_kindOf? h
  cases kind with
  | vector geometry => simp [kindOf?, Kind.keyword, hgeometry] at h
  | boolean default => exact absurd (Option.some.inj h) (hboolean _)
  | layers type => simp [kindOf?, Kind.keyword, hlayers] at h
  | _ => rfl

end Constraints

/-! ## Lines -/

section Lines

variable {name : Text} {d : Declaration}

/-- Behind `output` a second word names an output or a destination. Its constraint is no word, so
that it may run on. -/
theorem isNamedBy_of_outputOf? {type : TypeText} (h : outputOf? name type = some d) :
    type.keyword = "output" ∧ (splitKeyword type.constraint).1 ≠ "" ∧
      d.IsNamedBy type.optional ["output", (splitKeyword type.constraint).1] ∧
      d.takesWord = false := by
  rw [outputOf?] at h
  split at h
  · rename_i hkeyword
    refine ⟨hkeyword, ?_⟩
    dsimp only at h
    split at h
    case h_1 heq | h_2 heq | h_3 heq =>
      cases h
      rw [heq]
      exact ⟨by decide, ⟨rfl, List.mem_singleton.mpr rfl⟩, rfl⟩
    case h_4 heq | h_5 heq | h_6 heq =>
      cases h
      rw [heq]
      exact ⟨by decide, rfl, rfl⟩
    case h_7 => cases h
  · cases h

/-- **The words behind the flag** of a type that declares something: one word, or `output` and
another. Whatever ends the last of them is kept as the rest, and only where a word is expected it
has to be divided. -/
theorem exists_words_of_declare {optional : Bool} {s : Text} (hs : Text.trimEnd s = s)
    (h : declare name (.read optional s) = .ok d) : ∃ words front back,
      s = front ++ back ∧ WritesAll words front ∧ d.IsNamedBy optional words ∧ EndsWord back ∧
      (d.takesWord = true → IsDivided back) := by
  rw [declare] at h
  split at h
  · rename_i output houtput
    cases h
    obtain ⟨hkeyword, hsome, hnamed, htakes⟩ := isNamedBy_of_outputOf? houtput
    have hfirst : (splitKeyword s).1 = "output" := hkeyword
    obtain ⟨text, divider, hwhole, htext, hdivider⟩ :=
      exists_word_divided hs (by rw [hfirst]; decide) (mt EndsWord.splitKeyword_fst hsome)
    have hrest : Text.trimEnd (splitKeyword s).2 = (splitKeyword s).2 := by
      apply trimEnd_of_append (text ++ divider)
      rw [List.append_assoc, ← hwhole, hs]
    obtain ⟨next, back, hparts, hnext, hends, -⟩ := exists_word hrest hsome
    refine ⟨_, text ++ (divider ++ next), back, ?_, .more (hfirst ▸ htext) hdivider (.last hnext),
      hnamed, hends, fun htrue => absurd htrue (by rw [htakes]; decide)⟩
    rw [List.append_assoc, List.append_assoc, ← hparts, ← hwhole]
  · dsimp only at h
    split at h <;> cases h
    rename_i kind hkind
    have hsome : (splitKeyword s).1 ≠ "" := by
      intro hnone
      have hnothing : kindOf? (currentKeyword "") (splitKeyword s).2 = none := rfl
      rw [TypeText.read, hnone, hnothing] at hkind
      cases hkind
    obtain ⟨text, back, hwhole, htext, hends, hend, hback⟩ := exists_word hs hsome
    refine ⟨_, text, back, hwhole, .last htext, ⟨rfl, mem_wordings_of_kindOf? hkind⟩, hends, ?_⟩
    intro htakes
    cases back with
    | nil => exact fun c hc => absurd hc (Option.not_mem_none c)
    | cons c rest =>
      by_contra hdivided
      have hc := hends c rfl
      have hnone : c ≠ ':' ∧ Char.isBlank c = false := by
        rwa [isDivided_cons, not_or, Bool.not_eq_true] at hdivided
      -- the constraint begins where the word ends
      have hconstraint : (splitKeyword s).2 = c :: rest := by
        rw [← hback, EndsWord.splitKeyword_snd hc hnone.1,
          Text.trim_cons_of_not_blank hnone.2, hend]
      rw [TypeText.read, hconstraint] at hkind
      have hfree := takesWord_of_kindOf? hc hnone.2 hkind
      rw [Declaration.takesWord, hfree] at htakes
      cases htakes

/-- **The words** of a type that declares something, those of the flag among them. All that is left
over is white space around the type. -/
theorem exists_words_of_type {type : Text} (h : declare name (.of type) = .ok d) :
    ∃ words front back, Text.trim type = front ++ back ∧ d.StandsIn words front back := by
  have hs : Text.trimEnd (Text.trim type) = Text.trim type := Text.trimEnd_trimEnd _
  rw [TypeText.of_eq] at h
  split at h
  · -- the flag is a word of its own, in front of those of the type
    rename_i hoptional
    obtain ⟨hfirst, -⟩ := hoptional
    have hrest : Text.trimEnd (splitKeyword (Text.trim type)).2 =
        (splitKeyword (Text.trim type)).2 := Text.trimEnd_trimEnd _
    obtain ⟨words, front, back, hparts, hwords, hnamed, hends, hdivided⟩ :=
      exists_words_of_declare hrest h
    -- behind the flag stands another word, so that the flag is divided from it
    have hnext : ¬EndsWord (splitKeyword (Text.trim type)).2 := by
      obtain ⟨c, more, rfl, hc⟩ := hwords.exists_head
      rw [hparts]
      intro hnone
      have hend : Char.isWord c = false := hnone c rfl
      rw [hc] at hend
      cases hend
    obtain ⟨text, divider, hwhole, htext, hdivider⟩ :=
      exists_word_divided hs (by rw [hfirst]; decide) hnext
    refine ⟨_, text ++ (divider ++ front), back, ?_,
      hnamed.mem_wordings, .more (hfirst ▸ htext) hdivider hwords, hends, hdivided⟩
    rw [List.append_assoc, List.append_assoc, ← hparts, ← hwhole]
  · obtain ⟨words, front, back, hparts, hwords, hnamed, hends, hdivided⟩ :=
      exists_words_of_declare hs h
    exact ⟨words, front, back, hparts, hnamed.mem_wordings, hwords, hends, hdivided⟩

/-- **Lines that declare something.** The words of the declaration stand at the front of the type.
Each of them but the last is divided from the next by a colon or by white space. The last ends
where the rest begins, and if that begins with neither, the line declares what it declares with a
blank in between; then it is no kind whose constraint is a word. -/
theorem exists_words_of_resolveText {line : Text} (h : resolveText line = .ok d) :
    ∃ token type words front back, line = token ++ '=' :: type ∧ '=' ∉ token ∧
      Text.trim type = front ++ back ∧ d.StandsIn words front back ∧
      (¬IsDivided back → resolveText (token ++ '=' :: (front ++ ' ' :: back)) = .ok d) := by
  obtain ⟨token, type, hsplit, -, -, hdeclare⟩ := resolveText_eq_ok h
  obtain ⟨hline, htoken⟩ := Text.splitOnce?_eq_some hsplit
  obtain ⟨words, front, back, hwhole, hwords⟩ := exists_words_of_type hdeclare
  refine ⟨token, type, words, front, back, hline, htoken, hwhole, hwords, fun hdivided => ?_⟩
  have hleading := Declaration.dropLast_mem_leadingWords hwords.named
  rw [← resolveText_run_on hwords.ends hdivided htoken hwords.written hleading, ← hwhole,
    resolveText_trim htoken, ← hline, h]

/-- A default that runs on behind `string`: no separator stands in the line, and yet it declares
what it declares with a blank in between. -/
theorem exists_words_of_resolveText_title : ∃ d,
    resolveText "title=string-a".toList = .ok d ∧
      d.StandsIn ["string"] "string".toList "-a".toList ∧ ¬IsDivided "-a".toList ∧
      resolveText "title=string -a".toList = .ok d := by
  let d : Declaration := .parameter
    { name := "title", description := "title", optional := false, kind := .string (some "-a") }
  have hread : resolveText "title=string-a".toList = .ok d := by decide +kernel
  have hrun : ¬IsDivided "-a".toList := by
    change ¬IsDivided ['-', 'a']
    rw [isDivided_cons]
    decide
  obtain ⟨token, type, words, front, back, hline, htoken, hwhole, hwords, hsame⟩ :=
    exists_words_of_resolveText hread
  -- the line and the type are taken apart in one way only, so the parts are these
  have hsplit := Text.splitOnce?_append htoken type
  rw [← hline] at hsplit
  obtain ⟨rfl, rfl⟩ : "title".toList = token ∧ "string-a".toList = type :=
    Prod.mk.inj (Option.some.inj hsplit)
  obtain rfl : words = ["string"] := List.mem_singleton.mp hwords.named
  have hfront : front = "string".toList ∧ back = "-a".toList := by
    have hwritten := hwords.written
    cases hwritten with
    | last h => exact h.eq_takeWhile hwords.ends hwhole.symm
    | more h hdivider hrest => exact absurd rfl hrest.ne_nil
  obtain ⟨rfl, rfl⟩ := hfront
  exact ⟨d, hread, hwords, hrun, hsame hrun⟩

end Lines

end FeatureTransform
