import FeatureTransform.Proofs.Declaration.Resolve

/-!
# Ways to write a declaration

A header line can be written in many ways. What it says is its token, whether it is optional, the
words of its type and the text behind them; how it is written is the letter case of the words, what
divides them from what follows, the white space around token and type, and the former word
`selection` for `enum`. `Wording` is the first, and `Wording.Spells` leaves the second open.

However a line is written, it declares the same or fails in the same way. The reading takes off one
word after another, and each of the words is read apart from what follows.
-/

namespace FeatureTransform

/-! ## What is written, and how -/

/-- The words of a type, in lower case, and the text behind them. -/
inductive TypeWords where
  /-- a word and its constraint -/
  | kind (word constraint : Text)
  /-- `output`, the word for what is put out, and its constraint -/
  | output (word constraint : Text)

/-- What a header line says. -/
structure Wording where
  /-- what stands in front of the `=` -/
  token : Text
  /-- whether the first word is `optional` -/
  optional : Bool
  /-- the further words -/
  words : TypeWords

/-- The word `optional`. -/
def optionalWord : Text := ['o', 'p', 't', 'i', 'o', 'n', 'a', 'l']

/-- The word `output`. -/
def outputWord : Text := ['o', 'u', 't', 'p', 'u', 't']

/-- The word for a choice. -/
def enumWord : Text := ['e', 'n', 'u', 'm']

/-- The former word for a choice. -/
def selectionWord : Text := ['s', 'e', 'l', 'e', 'c', 't', 'i', 'o', 'n']

/-- The text is white space, or empty. -/
def IsBlankText (s : Text) : Prop := ∀ c ∈ s, Char.isBlank c = true

instance : DecidablePred IsBlankText := fun s =>
  List.decidableBAll (fun c => Char.isBlank c = true) s

/-- The text is the word, which consists of small letters of ASCII, in any letter case. -/
structure WritesWord (word text : Text) : Prop where
  /-- there is something -/
  something : word ≠ []
  /-- the word consists of letters -/
  letters : word.all Char.isLower = true
  /-- capital letters are the same letters -/
  lower : text.map Char.toLower = word

/-- What divides a word from what follows: a colon, with white space behind it or not, or white
space. -/
inductive IsDivider : Text → Prop where
  /-- a colon -/
  | colon {blanks : Text} (h : IsBlankText blanks) : IsDivider (':' :: blanks)
  /-- white space -/
  | blank {blanks : Text} (hsome : blanks ≠ []) (h : IsBlankText blanks) : IsDivider blanks

/-- A text stands behind a word, divided from it; nothing needs no divider. -/
inductive Follows (rest : Text) : Text → Prop where
  /-- behind a divider -/
  | divided {divider : Text} (h : IsDivider divider) : Follows rest (divider ++ rest)
  /-- nothing follows -/
  | nothing (h : rest = []) : Follows rest []

/-- The text begins with the word and goes on with the rest. -/
inductive Leads (word rest : Text) : Text → Prop where
  /-- the word as it is written, and what follows -/
  | intro {text back : Text} (hword : WritesWord word text) (hback : Follows rest back) :
      Leads word rest (text ++ back)

/-- White space stands around the text, or nothing does. -/
inductive Surrounds (s : Text) : Text → Prop where
  /-- white space in front and behind -/
  | intro {before behind : Text} (hbefore : IsBlankText before) (hbehind : IsBlankText behind) :
      Surrounds s (before ++ s ++ behind)

/-- The text is a way to write the words. -/
inductive TypeWords.Spells : TypeWords → Text → Prop where
  /-- the word of a kind -/
  | kind {word constraint s : Text} (h : Leads word constraint s) : Spells (.kind word constraint) s
  /-- the former word for a choice -/
  | former {constraint s : Text} (h : Leads selectionWord constraint s) :
      Spells (.kind enumWord constraint) s
  /-- `output` and a further word -/
  | output {word constraint rest s : Text} (hrest : Leads word constraint rest)
      (h : Leads outputWord rest s) : Spells (.output word constraint) s

/-- The text is a way to write the type. -/
inductive Wording.SpellsType (wording : Wording) : Text → Prop where
  /-- without the word `optional` -/
  | needed {s : Text} (h : wording.optional = false) (hwords : wording.words.Spells s) :
      SpellsType wording s
  /-- with the word `optional` -/
  | optional {rest s : Text} (h : wording.optional = true) (hwords : wording.words.Spells rest)
      (hrest : Leads optionalWord rest s) : SpellsType wording s

/-- The line is a way to write what the wording says. -/
inductive Wording.Spells (wording : Wording) : Text → Prop where
  /-- token and type, with white space around them -/
  | intro {token type s : Text} (hundivided : '=' ∉ wording.token)
      (htoken : Surrounds wording.token token) (hwords : wording.SpellsType s)
      (htype : Surrounds s type) : Spells wording (token ++ '=' :: type)

/-! ## What is said -/

namespace TypeText

/-- The type that begins with a word. `optional` in front of something is no kind, but marks what
follows it. -/
def ofWord (optional : Bool) (word rest : Text) : TypeText :=
  if optional = false ∧ word = optionalWord ∧ Text.trim rest ≠ [] then
    let (keyword, constraint) := splitKeyword (Text.trim rest)
    { optional := true, keyword := keyword, constraint := constraint }
  else { optional := optional, keyword := String.ofList word, constraint := Text.trim rest }

end TypeText

namespace TypeWords

/-- The type of the words. -/
def type (optional : Bool) : TypeWords → TypeText
  | kind word constraint => TypeText.ofWord optional word constraint
  | output word constraint =>
    TypeText.ofWord optional outputWord (word ++ ' ' :: constraint)

end TypeWords

/-- What is declared by what is said. -/
def Wording.declared (wording : Wording) : Except DeclarationError Declaration :=
  match Text.nonEmpty? wording.token with
  | none => .error .emptyName
  | some name =>
    if String.ofList name ∈ reservedNames then .error (.reservedName (String.ofList name))
    else declare name (wording.words.type wording.optional)

/-! ## Words -/

namespace WritesWord

variable {word text : Text} (h : WritesWord word text)
include h

theorem isAlphanum {c : Char} (hc : c ∈ text) : c.isAlphanum = true := by
  have hlower : c.toLower.isLower = true :=
    List.all_eq_true.mp h.letters _ (h.lower ▸ List.mem_map_of_mem hc)
  have halpha : (c.isUpper || c.isLower) = true := by
    rcases toLower_cases c with ⟨-, hself⟩ | ⟨hupper, -⟩
    · rw [hself] at hlower
      rw [hlower, Bool.or_true]
    · rw [hupper, Bool.true_or]
  exact Bool.or_eq_true_iff.mpr (.inl halpha)

/-- The letters of ASCII belong to words. -/
theorem isWord {c : Char} (hc : c ∈ text) : Char.isWord c = true := by
  have hascii := toNat_lt_of_isAlphanum (h.isAlphanum hc)
  rw [Char.isWord, if_pos hascii, h.isAlphanum hc, Bool.true_or]

theorem isBlank {c : Char} (hc : c ∈ text) : Char.isBlank c = false := by
  rw [← Bool.not_eq_true]
  intro hblank
  have hnone := isWord_of_isBlank hblank
  rw [h.isWord hc] at hnone
  cases hnone

/-- A word is what the text that writes it is in lower case. That is all that the reading looks at.
-/
theorem lower_eq : Text.lower text = word := by
  rw [← h.lower]
  exact Text.lowerAfter_of_ascii [] fun c hc => toNat_lt_of_isAlphanum (h.isAlphanum hc)

theorem ne_nil : text ≠ [] := by
  rintro rfl
  exact h.something h.lower.symm

/-- A word is a way to write it, so that the canonical line is one of the ways. -/
theorem self : WritesWord word word := by
  have hself : ∀ c ∈ word, c.toLower = id c := by
    intro c hc
    rcases toLower_cases c with ⟨-, hself⟩ | ⟨hupper, -⟩
    · exact hself
    · have hcapital := (isUpper_iff c).mp hupper
      have hlower := List.all_eq_true.mp h.letters c hc
      have hsmall : 97 ≤ c.toNat := of_decide_eq_true (Bool.and_eq_true_iff.mp hlower).1
      omega
  refine ⟨h.something, h.letters, ?_⟩
  rw [List.map_congr_left hself, List.map_id]

end WritesWord

namespace Follows

variable {rest back : Text} (h : Follows rest back)
include h

/-- What follows a word does not go on with it, since a divider is a colon or white space. -/
theorem stops : ∀ c ∈ back.head?, Char.isWord c = false := by
  cases h with
  | nothing => exact fun c hc => absurd hc (Option.not_mem_none c)
  | divided hdivider =>
    cases hdivider with
    | colon =>
      rintro c ⟨⟩
      decide
    | blank hsome hblank =>
      rw [List.head?_append_of_ne_nil _ hsome]
      exact fun c hc => isWord_of_isBlank (hblank c (List.mem_of_mem_head? hc))

/-- The divider is taken off: a colon once, and white space altogether. -/
theorem splitKeyword_snd : (splitKeyword back).2 = Text.trim rest := by
  cases h with
  | nothing h =>
    rw [h]
    rfl
  | divided hdivider =>
    cases hdivider with
    | colon hblank => exact Text.trim_blank_append hblank rest
    -- behind white space no colon is taken off, as the divider does not begin with one
    | @blank blanks hsome hblank =>
      obtain ⟨c, more, rfl⟩ := List.exists_cons_of_ne_nil hsome
      have hc := hblank c List.mem_cons_self
      have hcolon : c ≠ ':' := by
        rintro rfl
        exact absurd hc (by decide)
      rw [← Text.trim_blank_append hblank rest, List.cons_append, splitKeyword,
        List.dropWhile_cons_of_neg (by simp [isWord_of_isBlank hc])]
      dsimp only
      split
      · rename_i heq
        exact absurd (List.cons.inj heq).1 hcolon
      · rfl

/-- White space behind everything makes no difference to what follows, so that types may be trimmed
first. -/
theorem trimEnd : Follows (Text.trimEnd rest) (Text.trimEnd back) := by
  have hnothing : ∀ {blanks : Text}, IsBlankText blanks → Text.trimEnd blanks = [] :=
    fun hblank => Text.trimEndBy_append hblank []
  cases h with
  | nothing h =>
    rw [h]
    exact .nothing rfl
  | divided hdivider =>
    -- if nothing but white space is behind the divider, it goes with it, unless it is a colon
    cases hdivider with
    | colon hblank =>
      rw [List.cons_append, Text.trimEnd_cons_of_not_blank (by decide), Text.trimEnd_append]
      split
      · rename_i hrest
        rw [hnothing hblank, hrest]
        exact .divided (.colon fun c hc => absurd hc List.not_mem_nil)
      · exact .divided (.colon hblank)
    | blank hsome hblank =>
      rw [Text.trimEnd_append]
      split
      · rename_i hrest
        rw [hnothing hblank, hrest]
        exact .nothing rfl
      · exact .divided (.blank hsome hblank)

end Follows

namespace Leads

variable {word rest s : Text} (h : Leads word rest s)
include h

/-- **One word** is read apart from what follows, in lower case and without its divider. All lemmas
on types rest on this one. -/
theorem splitKeyword : splitKeyword s = (String.ofList word, Text.trim rest) := by
  obtain ⟨hword, hback⟩ := h
  rw [splitKeyword_append (fun c hc => hword.isWord hc) hback.stops, hword.lower_eq,
    hback.splitKeyword_snd]

/-- What a text begins with, it begins with when it is trimmed, as no word begins with white space.
-/
theorem trim : Leads word (Text.trimEnd rest) (Text.trim s) := by
  obtain ⟨hword, hback⟩ := h
  rw [Text.trim_append (Text.trim_of_forall fun c hc => hword.isBlank hc) hword.ne_nil]
  exact .intro hword hback.trimEnd

theorem ne_nil : s ≠ [] := by
  obtain ⟨hword, -⟩ := h
  exact List.append_ne_nil_of_left_ne_nil hword.ne_nil _

theorem splitKeyword_trim :
    FeatureTransform.splitKeyword (Text.trim s) = (String.ofList word, Text.trim rest) := by
  rw [h.trim.splitKeyword, Text.trim_trimEnd]

end Leads

/-! ## Types -/

namespace TypeText

variable {word rest s : Text}

/-- **A type** that begins with a word. If the word is `optional`, what follows decides whether it
is the flag. -/
theorem of_leads (h : Leads word rest s) : of s = ofWord false word rest := by
  have hoptional : String.ofList word = "optional" ↔ word = optionalWord := String.ofList_inj
  simp only [of, h.splitKeyword_trim, ofWord, hoptional, true_and]

/-- **A type** that begins with `optional` and goes on with a word: the flag is set, and the rest is
read as if it stood alone. -/
theorem of_leads_optional (h : Leads word rest s) {whole : Text}
    (hwhole : Leads optionalWord s whole) : of whole = ofWord true word rest := by
  have hsome : Text.trim s ≠ [] := h.trim.ne_nil
  have hoptional : String.ofList optionalWord = "optional" := rfl
  simp only [of, hwhole.splitKeyword_trim, hoptional, h.splitKeyword_trim, ofWord, hsome, ne_eq,
    not_false_eq_true, and_self, if_true, Bool.true_eq_false, false_and, if_false]

/-- Only white space inside counts, not around the type. -/
theorem of_surrounds {type : Text} (h : Surrounds s type) : of type = of s := by
  obtain ⟨hbefore, hbehind⟩ := h
  rw [of, of, Text.trim_append_of_blank hbehind, Text.trim_blank_append hbefore]

/-- Every word but one is the word of a kind, known or not, with all that follows as its constraint.
-/
theorem ofWord_of_ne (h : word ≠ optionalWord) (optional : Bool) (rest : Text) :
    ofWord optional word rest =
      { optional := optional, keyword := String.ofList word, constraint := Text.trim rest } :=
  if_neg fun hall => h hall.2.1

end TypeText

/-- The former word for a choice declares the same, under any name and with any constraint; an error
names the word of today, too. -/
theorem declare_former (name : Text) (optional : Bool) (constraint : Text) :
    declare name (TypeText.ofWord optional selectionWord constraint) =
      declare name (TypeText.ofWord optional enumWord constraint) := by
  rw [TypeText.ofWord_of_ne (by decide), TypeText.ofWord_of_ne (by decide)]
  rfl

/-- Behind `output` only the next word counts, and what follows it, so that it may be written in any
way. -/
theorem declare_output_congr (name : Text) (optional : Bool) {rest other : Text}
    (h : splitKeyword (Text.trim rest) = splitKeyword (Text.trim other)) :
    declare name (TypeText.ofWord optional outputWord rest) =
      declare name (TypeText.ofWord optional outputWord other) := by
  rw [TypeText.ofWord_of_ne (by decide), TypeText.ofWord_of_ne (by decide)]
  have houtput : String.ofList outputWord = "output" := rfl
  simp only [declare, outputOf?, houtput, if_true, h]
  rfl

/-- **The words of a type** lead it, and what they declare does not depend on how they are written.
The first of them is the one that is read first; if it is `output`, the second is left to its
constraint. -/
theorem TypeWords.Spells.exists_leads {words : TypeWords} {s : Text} (h : words.Spells s) :
    ∃ word rest, Leads word rest s ∧ ∀ name optional,
      declare name (TypeText.ofWord optional word rest) = declare name (words.type optional) := by
  cases h with
  | kind h => exact ⟨_, _, h, fun _ _ => rfl⟩
  | former h => exact ⟨_, _, h, fun name optional => declare_former name optional _⟩
  | @output word constraint rest s hrest h =>
    refine ⟨_, _, h, fun name optional => declare_output_congr name optional ?_⟩
    have hword : WritesWord word word := by
      obtain ⟨hword, -⟩ := hrest
      exact hword.self
    have hplain : Leads word constraint (word ++ ([' '] ++ constraint)) := by
      refine .intro hword (.divided (.blank (by simp) fun c hc => ?_))
      rw [List.mem_singleton.mp hc]
      decide
    exact hrest.splitKeyword_trim.trans hplain.splitKeyword_trim.symm

/-! ## Lines -/

namespace Wording

variable {wording : Wording}

/-- What a type declares does not depend on how it is written, with the flag in front or without. -/
theorem SpellsType.declare_eq {s : Text} (h : wording.SpellsType s) (name : Text) :
    declare name (TypeText.of s) = declare name (wording.words.type wording.optional) := by
  cases h with
  | needed h hwords =>
    obtain ⟨word, rest, hleads, hsame⟩ := hwords.exists_leads
    rw [TypeText.of_leads hleads, h]
    exact hsame name false
  | optional h hwords hrest =>
    obtain ⟨word, rest, hleads, hsame⟩ := hwords.exists_leads
    rw [TypeText.of_leads_optional hleads hrest, h]
    exact hsame name true

/-- A line is read as what it says. Its token is trimmed, and its type declares what the words
declare. -/
theorem Spells.resolveText_eq {line : Text} (h : wording.Spells line) :
    resolveText line = wording.declared := by
  obtain ⟨hundivided, ⟨hbefore, hbehind⟩, hwords, htype⟩ := h
  rename_i type s before behind
  have hblank : ∀ {blanks : Text}, IsBlankText blanks → '=' ∉ blanks :=
    fun hblanks hmem => absurd (hblanks '=' hmem) (by decide)
  have htoken : '=' ∉ before ++ wording.token ++ behind := by
    simp only [List.mem_append, not_or]
    exact ⟨⟨hblank hbefore, hundivided⟩, hblank hbehind⟩
  have hname : Text.nonEmpty? (before ++ wording.token ++ behind) =
      Text.nonEmpty? wording.token := by
    rw [Text.nonEmpty?, Text.nonEmpty?, Text.trim_append_of_blank hbehind,
      Text.trim_blank_append hbefore]
  rw [resolveText, splitDeclaration, Text.splitOnce?_append htoken, declared]
  cases hsome : Text.nonEmpty? wording.token with
  | none => simp only [bind, Except.bind, hname, hsome]
  | some name =>
    simp only [bind, Except.bind, hname, hsome, TypeText.of_surrounds htype, hwords.declare_eq]

end Wording

/-- **All ways to write a line** declare the same or fail in the same way: as the words say. The
letter case of the words, their dividers, white space around token and type, and the former word are
thus no part of the meaning, of errors as little as of declarations. -/
theorem resolveText_spells {wording : Wording} {line other : Text} (h : wording.Spells line)
    (hother : wording.Spells other) :
    resolveText line = resolveText other ∧ resolveText line = wording.declared := by
  refine ⟨?_, h.resolveText_eq⟩
  rw [h.resolveText_eq, hother.resolveText_eq]

/-- An optional choice of two ways. -/
def ways : Wording where
  token := ['w', 'a', 'y', 's']
  optional := true
  words := .kind enumWord ['a', ';', ' ', 'b']

/-- Written with the former word, in capital letters and with white space to spare. -/
theorem spells_ways_former : ways.Spells "\tways =  OPTIONAL:\tSelection  a; b ".toList := by
  have hwords : Leads selectionWord "a; b".toList
      ("Selection".toList ++ ([' ', ' '] ++ "a; b".toList)) :=
    .intro ⟨by decide, by decide, by decide⟩ (.divided (.blank (by decide) (by decide)))
  have hrest : Leads optionalWord "Selection  a; b".toList
      ("OPTIONAL".toList ++ ([':', '\t'] ++ "Selection  a; b".toList)) :=
    .intro ⟨by decide, by decide, by decide⟩ (.divided (.colon (by decide)))
  have htype : Surrounds "OPTIONAL:\tSelection  a; b".toList
      ([' ', ' '] ++ "OPTIONAL:\tSelection  a; b".toList ++ [' ']) :=
    .intro (by decide) (by decide)
  have htoken : Surrounds ways.token (['\t'] ++ ways.token ++ [' ']) :=
    .intro (by decide) (by decide)
  have hundivided : '=' ∉ ways.token := by decide
  exact Wording.Spells.intro hundivided htoken (.optional rfl (.former hwords) hrest) htype

/-- Written with as little as there can be. -/
theorem spells_ways : ways.Spells "ways=optional enum:a; b".toList := by
  have hwords : Leads enumWord "a; b".toList ("enum".toList ++ ([':'] ++ "a; b".toList)) :=
    .intro ⟨by decide, by decide, by decide⟩ (.divided (.colon (by decide)))
  have hrest : Leads optionalWord "enum:a; b".toList
      ("optional".toList ++ ([' '] ++ "enum:a; b".toList)) :=
    .intro ⟨by decide, by decide, by decide⟩ (.divided (.blank (by decide) (by decide)))
  have htype : Surrounds "optional enum:a; b".toList
      ([] ++ "optional enum:a; b".toList ++ []) :=
    .intro (by decide) (by decide)
  have htoken : Surrounds ways.token ([] ++ ways.token ++ []) :=
    .intro (by decide) (by decide)
  have hundivided : '=' ∉ ways.token := by decide
  exact Wording.Spells.intro hundivided htoken (.optional rfl (.kind hwords) hrest) htype

/-- Two ways to write one line, and what both declare. -/
theorem resolveText_spells_ways :
    ways.Spells "\tways =  OPTIONAL:\tSelection  a; b ".toList ∧
      ways.Spells "ways=optional enum:a; b".toList ∧
      resolveText "\tways =  OPTIONAL:\tSelection  a; b ".toList =
        resolveText "ways=optional enum:a; b".toList ∧
      resolveText "\tways =  OPTIONAL:\tSelection  a; b ".toList =
        .ok (.parameter
          { name := "ways", description := "ways", optional := true
            kind := .choice ["a", "b"] }) := by
  obtain ⟨hsame, hdeclared⟩ := resolveText_spells spells_ways_former spells_ways
  refine ⟨spells_ways_former, spells_ways, hsame, ?_⟩
  rw [hdeclared]
  decide +kernel

end FeatureTransform
