import FeatureTransform.Proofs.Decimal.Plain
import FeatureTransform.Proofs.Declaration.Resolve

/-!
# How declarations are spelt

Many header lines declare the same. One of them is canonical: the name, `optional` where it holds,
the word of the kind, and the constraint with nothing to spare. What a line declares is what its
canonical line declares.

* **words** — a word of a type is read apart from whatever stands behind it;
* **constraints** — what a kind reads from a constraint can be spelt, and the spelling is read as
  the same kind;
* **lines** — name, words and constraint put together.
-/

namespace FeatureTransform

/-! ## The canonical line -/

/-- A number of a constraint; nothing stands for no number. -/
def numberText : Option Float → Text
  | some f => Decimal.plain.write f
  | none => []

namespace Kind

/-- The constraint of a kind. -/
def constraintText : Kind → Text
  | .vector geometry => geometry.label.toList
  | .crs text? | .field text? | .string text? | .file text? | .fileDestination text? =>
    (text?.getD "").toList
  | .number default? min? max? => Text.join [';'] ([default?, min?, max?].map numberText)
  | .choice choices => Text.join [';'] (choices.map String.toList)
  | .boolean default => if default then ['t', 'r', 'u', 'e'] else ['f', 'a', 'l', 's', 'e']
  | .layers type => type.label.toList
  | .raster | .extent | .rasterDestination | .vectorDestination => []

end Kind

/-- What stands behind the `=` of a declaration. -/
def Declaration.typeText : Declaration → Text
  | .parameter p =>
    (if p.optional then "optional ".toList else []) ++
      (p.kind.keyword.toList ++ ' ' :: p.kind.constraintText)
  | .output o => "output ".toList ++ o.kind.label.toList

/-- The canonical type of a parameter is its flag, where it is set, its word, and its constraint
behind a blank. -/
theorem Declaration.typeText_parameter (p : Parameter) : (Declaration.parameter p).typeText =
    (if p.optional then "optional ".toList else []) ++
      (p.kind.keyword.toList ++ ' ' :: p.kind.constraintText) := rfl

/-- The canonical header line of a declaration, without the mark in front. -/
def Declaration.spelling (d : Declaration) : String :=
  String.ofList (d.name.toList ++ '=' :: d.typeText)

/-! ## Words -/

/-- A word as types have them: word characters in lower case. -/
structure IsKeyword (word : String) : Prop where
  /-- there is something -/
  something : word.toList ≠ []
  /-- the word goes on to its end, and white space does not count for it -/
  characters : ∀ c ∈ word.toList, Char.isWord c = true ∧ Char.isBlank c = false
  /-- it is in lower case -/
  lower : Text.lower word.toList = word.toList

/-- The words of the parameters that are no destinations. -/
def inputWords : List String :=
  ["raster", "vector", "extent", "crs", "field", "string", "file", "number", "enum", "boolean",
    "multiple"]

/-- The words of canonical lines. -/
def keywords : List String := "optional" :: "output" :: "html" :: inputWords

/-- The words of canonical lines are words as types have them, so that each is read apart from what
follows. -/
theorem isKeyword_of_mem {word : String} (h : word ∈ keywords) : IsKeyword word := by
  have hall : ∀ word ∈ keywords, word.toList ≠ [] ∧
      (word.toList.all fun c => Char.isWord c && !Char.isBlank c) = true ∧
      Text.lower word.toList = word.toList := by decide
  obtain ⟨hsomething, hcharacters, hlower⟩ := hall word h
  refine ⟨hsomething, fun c hc => ?_, hlower⟩
  simpa using List.all_eq_true.mp hcharacters c hc

/-- The word of a kind that is no destination is a single word. -/
theorem Kind.keyword_mem {kind : Kind} (h : kind.isDestination = false) :
    kind.keyword ∈ inputWords := by
  cases kind with
  | rasterDestination | vectorDestination | fileDestination => cases h
  | _ => simp [Kind.keyword, inputWords]

/-- These words are current, and lead to no destination. None of them is mistaken for the flag or
for `output`, nor replaced as a former word. -/
theorem inputWords_spec {word : String} (h : word ∈ inputWords) :
    word ∈ keywords ∧ word ≠ "optional" ∧ word ≠ "output" ∧ currentKeyword word = word := by
  have hall : ∀ word ∈ inputWords, word ≠ "optional" ∧ word ≠ "output" ∧
      currentKeyword word = word := by decide
  exact ⟨by simp [keywords, h], hall word h⟩

/-- The text, if there is any, begins with a blank. -/
def StartsBlank (s : Text) : Prop := ∀ c ∈ s.head?, c = ' '

theorem startsBlank_nil : StartsBlank [] := fun c hc => absurd hc (Option.not_mem_none c)

theorem startsBlank_cons (s : Text) : StartsBlank (' ' :: s) := by
  rintro c ⟨⟩
  rfl

namespace IsKeyword

variable {word : String} {rest : Text}

theorem trim_append (h : IsKeyword word) (rest : Text) :
    Text.trim (word.toList ++ rest) = word.toList ++ Text.trimEnd rest :=
  Text.trim_append (Text.trim_of_forall fun c hc => (h.characters c hc).2) h.something rest

/-- A word ends where a blank follows, or nothing. The canonical line has no other separators. -/
theorem splitKeyword_append (h : IsKeyword word) (hrest : StartsBlank rest) :
    splitKeyword (word.toList ++ rest) = (word, Text.trim rest) := by
  have hword : ∀ c ∈ word.toList, Char.isWord c = true := fun c hc => (h.characters c hc).1
  have hstops : ∀ c ∈ rest.head?, Char.isWord c = false := by
    intro c hc
    rw [hrest c hc]
    rfl
  have hback : (splitKeyword rest).2 = Text.trim rest := by
    cases rest with
    | nil => rfl
    | cons c rest =>
      obtain rfl := hrest c rfl
      rfl
  rw [FeatureTransform.splitKeyword_append hword hstops, hback, h.lower, String.ofList_toList]

theorem splitKeyword_trim (h : IsKeyword word) (hrest : StartsBlank rest) :
    splitKeyword (Text.trim (word.toList ++ rest)) = (word, Text.trim rest) := by
  rw [h.trim_append, h.splitKeyword_append fun c hc => hrest c (Text.head?_trimEnd hc),
    Text.trim_trimEnd]

end IsKeyword

/-- The type of a canonical line is taken apart into the flag, the word and the trimmed constraint.
-/
theorem TypeText.of_word {word : String} {rest : Text} (h : IsKeyword word)
    (hrest : StartsBlank rest) (hword : word ≠ "optional") (optional : Bool) :
    TypeText.of ((if optional then "optional ".toList else []) ++ (word.toList ++ rest)) =
      { optional := optional, keyword := word, constraint := Text.trim rest } := by
  unfold TypeText.of
  cases optional with
  | false =>
    rw [if_neg Bool.false_ne_true, List.nil_append, h.splitKeyword_trim hrest]
    simp only [hword, false_and, if_false]
  | true =>
    have hoptional : IsKeyword "optional" := isKeyword_of_mem (by decide)
    have htext : "optional ".toList ++ (word.toList ++ rest) =
        "optional".toList ++ (' ' :: (word.toList ++ rest)) := by simp
    have hblank : Text.trim (' ' :: (word.toList ++ rest)) = Text.trim (word.toList ++ rest) :=
      Text.trim_cons_of_blank rfl _
    have hmore : Text.trim (word.toList ++ rest) ≠ [] := by
      rw [h.trim_append]
      exact List.append_ne_nil_of_left_ne_nil h.something _
    rw [if_pos rfl, htext, hoptional.splitKeyword_trim (startsBlank_cons _), hblank]
    simp only [hmore, ne_eq, not_false_eq_true, and_self, if_true, h.splitKeyword_trim hrest]

/-! ## Constraints -/

/-- A text that is all of a constraint or of a part of one: something, without white space around
it. -/
def IsTight (s : String) : Prop := s ≠ "" ∧ Text.trim s.toList = s.toList

/-- A text that was read from a part is not empty and has no white space around it: it is the part,
trimmed. -/
theorem textOrNone_eq_some {s : Text} {t : String} (h : textOrNone s = some t) :
    IsTight t ∧ t.toList = Text.trim s := by
  rw [textOrNone, Text.nonEmpty?] at h
  split at h
  · cases h
  · rename_i trimmed hne
    obtain rfl := Option.some.inj h
    rw [IsTight, String.toList_ofList, Text.trim_trim]
    refine ⟨⟨fun hempty => hne ?_, rfl⟩, rfl⟩
    exact String.ofList_injective hempty

theorem nonEmpty?_of_trim {s : Text} (hs : Text.trim s = s) (hne : s ≠ []) :
    Text.nonEmpty? s = some s := by
  rw [Text.nonEmpty?, hs]
  split
  · exact absurd rfl hne
  · rfl

theorem IsTight.toList_ne_nil {s : String} (h : IsTight s) : s.toList ≠ [] :=
  fun hnil => h.1 (String.toList_eq_nil_iff.mp hnil)

theorem IsTight.textOrNone {s : String} (h : IsTight s) : textOrNone s.toList = some s := by
  rw [FeatureTransform.textOrNone, nonEmpty?_of_trim h.2 h.toList_ne_nil, Option.map_some,
    String.ofList_toList]

/-- A text that may be left out is read as it is spelt, the empty text standing for none. -/
theorem textOrNone_getD {text? : Option String} (h : ∀ s ∈ text?, IsTight s) :
    textOrNone (text?.getD "").toList = text? := by
  cases text? with
  | none => rfl
  | some s => exact (h s rfl).textOrNone

namespace Kind

/-- What the constraints of a kind are like when they come from a line. -/
def IsSpelt : Kind → Prop
  | .crs text? | .field text? | .string text? | .file text? | .fileDestination text? =>
    ∀ s ∈ text?, IsTight s
  | .number _ min? max? => ∀ low ∈ min?, ∀ high ∈ max?, ¬high < low
  | .choice choices => choices ≠ [] ∧ ∀ s ∈ choices, IsTight s ∧ ';' ∉ s.toList
  | _ => True

end Kind

/-! ### Numbers -/

/-- What was read as a number can be spelt: its bounds, where there are two, have passed the check
of their order. -/
theorem isSpelt_of_numberKind {s : Text} {kind : Kind} (h : numberKind s = .ok kind) :
    kind.IsSpelt ∧ kind.isDestination = false := by
  simp only [numberKind] at h
  generalize (if (Text.trim s).isEmpty then [] else Text.splitAll ';' s) = parts at h
  split at h
  · cases h
  · obtain ⟨default?, -, h⟩ := Attempt.bind_eq_ok h
    obtain ⟨min?, -, h⟩ := Attempt.bind_eq_ok h
    obtain ⟨max?, -, h⟩ := Attempt.bind_eq_ok h
    split at h
    · -- bounds that are not in order were refused
      rename_i low high
      split at h
      · cases h
      · rename_i horder
        cases h
        refine ⟨?_, rfl⟩
        rintro low ⟨⟩ high ⟨⟩
        exact horder
    · -- with one bound or none there is no order to keep
      rename_i hopen
      cases h
      refine ⟨?_, rfl⟩
      rintro low rfl high rfl
      exact absurd rfl (hopen low high rfl)

theorem trim_numberText (f? : Option Float) : Text.trim (numberText f?) = numberText f? := by
  cases f? with
  | none => rfl
  | some f => exact Text.trim_of_forall fun c hc => (Decimal.plain_undivided f c hc).1

/-- A number of a constraint is read back from its shortest text. An infinite number and NaN are
read back as well, since their words are. -/
theorem numberPart_numberText (f? : Option Float) :
    numberPart (some (numberText f?)) = .ok f? := by
  cases f? with
  | none => rfl
  | some f =>
    have hsome := nonEmpty?_of_trim (trim_numberText (some f)) (Decimal.plain_ne_nil f)
    have hread : Decimal.read? (numberText (some f)) = some f := Decimal.read?_plain f
    rw [numberPart, Option.bind_some, hsome]
    simp only [hread]

/-- The constraint of a number is read back, whether parts are left out at its end, in the middle or
everywhere. -/
theorem numberKind_constraintText {default? min? max? : Option Float}
    (h : (Kind.number default? min? max?).IsSpelt) :
    numberKind (Kind.number default? min? max?).constraintText =
      .ok (.number default? min? max?) := by
  have hundivided : ∀ piece ∈ [default?, min?, max?].map numberText, ';' ∉ piece := by
    intro piece hpiece
    obtain ⟨f?, -, rfl⟩ := List.mem_map.mp hpiece
    cases f? with
    | none => exact List.not_mem_nil
    | some f => exact fun hmem => (Decimal.plain_undivided f ';' hmem).2 rfl
  have hpieces := Text.splitAll_join hundivided (List.cons_ne_nil _ _)
  -- two semicolons are there even if no number is, so the parts are read
  have hsomething : (Text.trim (Text.join [';'] ([default?, min?, max?].map numberText))).isEmpty =
      false := by
    rw [Text.trim_join rfl fun piece hpiece => ?_]
    · simp [Text.join]
    · obtain ⟨f?, -, rfl⟩ := List.mem_map.mp hpiece
      exact trim_numberText f?
  simp only [Kind.constraintText, numberKind, hsomething, Bool.false_eq_true, if_false, hpieces]
  simp only [List.map_cons, List.map_nil, List.getElem?_cons_zero, List.getElem?_cons_succ,
    numberPart_numberText]
  cases min? with
  | none => rfl
  | some low =>
    cases max? with
    | none => rfl
    | some high => exact if_neg (h low rfl high rfl)

/-! ### Choices -/

/-- What was read as a choice can be spelt: no way contains the separator, and none is empty. -/
theorem isSpelt_of_choiceKind {s : Text} {kind : Kind} (h : choiceKind s = .ok kind) :
    kind.IsSpelt ∧ kind.isDestination = false := by
  rw [choiceKind] at h
  split at h
  · cases h
  · rename_i hsome
    cases h
    refine ⟨⟨hsome, fun t ht => ?_⟩, rfl⟩
    obtain ⟨piece, hpiece, htext⟩ := List.mem_filterMap.mp ht
    obtain ⟨htight, htrim⟩ := textOrNone_eq_some htext
    refine ⟨htight, fun hmem => Text.not_mem_of_mem_splitAll hpiece ?_⟩
    rw [htrim] at hmem
    exact Text.mem_of_mem_trim hmem

/-- The ways of a choice are read back in their order, as none of them contains the character that
divides them. -/
theorem choiceKind_constraintText {choices : List String} (h : (Kind.choice choices).IsSpelt) :
    choiceKind (Kind.choice choices).constraintText = .ok (.choice choices) := by
  obtain ⟨hsome, htexts⟩ := h
  have hundivided : ∀ piece ∈ choices.map String.toList, ';' ∉ piece := by
    intro piece hpiece
    obtain ⟨s, hs, rfl⟩ := List.mem_map.mp hpiece
    exact (htexts s hs).2
  have hpieces := Text.splitAll_join hundivided (by simpa using hsome)
  have hread : (choices.map String.toList).filterMap textOrNone = choices := by
    have hself : ∀ s ∈ choices, (textOrNone ∘ String.toList) s = some s :=
      fun s hs => (htexts s hs).1.textOrNone
    rw [List.filterMap_map, List.filterMap_congr hself, List.filterMap_some]
  rw [choiceKind, Kind.constraintText, hpieces, hread]
  split
  · exact absurd rfl hsome
  · rfl

/-! ### All kinds -/

/-- What was read as a kind can be spelt. Nothing else is known of the declarations of which the
round trip is proved. -/
theorem isSpelt_of_kindOf? {keyword : String} {s : Text} {kind : Kind}
    (h : kindOf? keyword s = some (.ok kind)) : kind.IsSpelt ∧ kind.isDestination = false := by
  have htext : ∀ t ∈ textOrNone s, IsTight t := fun t ht => (textOrNone_eq_some ht).1
  unfold kindOf? at h
  -- the cases are the words in the order in which they are tried, and the last is no word
  split at h
  case h_1 | h_3 =>
    cases h
    exact ⟨trivial, rfl⟩
  case h_2 | h_11 =>
    split at h <;> cases h
    exact ⟨trivial, rfl⟩
  case h_4 | h_5 | h_6 | h_7 =>
    cases h
    exact ⟨htext, rfl⟩
  case h_8 => exact isSpelt_of_numberKind (Option.some.inj h)
  case h_9 => exact isSpelt_of_choiceKind (Option.some.inj h)
  case h_10 =>
    rw [Option.some.injEq, booleanKind] at h
    split at h <;> cases h <;> exact ⟨trivial, rfl⟩
  case h_12 => cases h

namespace Kind

/-- Nothing is to spare in the spelling of a constraint, so that trimming the type leaves it whole.
-/
theorem trim_constraintText {kind : Kind} (h : kind.IsSpelt) :
    Text.trim kind.constraintText = kind.constraintText := by
  -- a text that was read is trimmed already
  have htext : ∀ text? : Option String, (∀ s ∈ text?, IsTight s) →
      Text.trim (text?.getD "").toList = (text?.getD "").toList := by
    intro text? htight
    cases text? with
    | none => rfl
    | some s => exact (htight s rfl).2
  cases kind with
  | raster | extent | rasterDestination | vectorDestination => rfl
  | vector geometry => cases geometry <;> decide
  | layers type => cases type <;> decide
  | boolean default => cases default <;> decide
  | crs text? | field text? | string text? | file text? | fileDestination text? =>
    exact htext text? h
  | number default? min? max? =>
    refine Text.trim_join rfl fun piece hpiece => ?_
    obtain ⟨f?, -, rfl⟩ := List.mem_map.mp hpiece
    exact trim_numberText f?
  | choice choices =>
    refine Text.trim_join rfl fun piece hpiece => ?_
    obtain ⟨s, hs, rfl⟩ := List.mem_map.mp hpiece
    exact (h.2 s hs).1.2

/-- **Constraints.** A kind that is no destination is read from its word and its constraint. Each
kind is spelt in its own way, and so the cases are the kinds. -/
theorem kindOf?_constraintText {kind : Kind} (h : kind.IsSpelt)
    (hkind : kind.isDestination = false) :
    kindOf? kind.keyword kind.constraintText = some (.ok kind) := by
  cases kind with
  | raster | extent => rfl
  | vector geometry => cases geometry <;> rfl
  | layers type => cases type <;> rfl
  | boolean default => cases default <;> rfl
  | crs text? | field text? | string text? | file text? =>
    simp only [keyword, constraintText, kindOf?, textOrNone_getD h]
  | number default? min? max? => exact congrArg some (numberKind_constraintText h)
  | choice choices => exact congrArg some (choiceKind_constraintText h)
  | rasterDestination | vectorDestination | fileDestination => cases hkind

end Kind

/-! ## Lines -/

namespace Declaration

/-- What declarations are like, their names apart, when they come from a line. -/
def IsSpelt : Declaration → Prop
  | .parameter p => p.description = labelOf p.name.toList ∧ p.kind.IsSpelt
  | .output o => o.description = labelOf o.name.toList

end Declaration

section Reading

variable {name : Text} {type : TypeText} {d : Declaration}

/-- What stands behind `output` can be spelt. Only a file has anything behind its word, and that has
been trimmed. -/
theorem isSpelt_of_outputOf? (h : outputOf? name type = some d) : d.IsSpelt := by
  have hlabel : labelOf name = labelOf (String.ofList name).toList := by
    rw [String.toList_ofList]
  rw [outputOf?] at h
  split at h
  · dsimp only at h
    split at h
    case h_1 | h_2 =>
      cases h
      exact ⟨hlabel, trivial⟩
    case h_3 =>
      cases h
      exact ⟨hlabel, fun t ht => (textOrNone_eq_some ht).1⟩
    case h_4 | h_5 | h_6 =>
      cases h
      exact hlabel
    case h_7 => cases h
  · cases h

/-- What lines declare can be spelt, so that the round trip asks for nothing more than an accepted
line. -/
theorem isSpelt_of_declare (h : declare name type = .ok d) : d.IsSpelt := by
  rw [declare] at h
  split at h
  · rename_i output houtput
    cases h
    exact isSpelt_of_outputOf? houtput
  · dsimp only at h
    split at h <;> cases h
    rename_i kind hkind
    exact ⟨by rw [String.toList_ofList], (isSpelt_of_kindOf? hkind).1⟩

end Reading

/-- What stands behind `output` is read apart, as the constraint of the word `output`; its own word
is taken off later. -/
theorem TypeText.of_output (rest : Text) (optional : Bool) :
    TypeText.of
        ((if optional then "optional ".toList else []) ++ ("output".toList ++ ' ' :: rest)) =
      { optional := optional, keyword := "output", constraint := Text.trim rest } := by
  rw [TypeText.of_word (isKeyword_of_mem (by decide)) (startsBlank_cons _) (by decide),
    Text.trim_cons_of_blank rfl]

/-- **Outputs** are read from their canonical types. -/
theorem declare_output {o : Output} (h : (Declaration.output o).IsSpelt) :
    declare o.name.toList (TypeText.of (Declaration.output o).typeText) = .ok (.output o) := by
  obtain ⟨name, description, kind⟩ := o
  obtain rfl : description = labelOf name.toList := h
  have hword : IsKeyword kind.label := by cases kind <;> exact isKeyword_of_mem (by decide)
  have htype := TypeText.of_output kind.label.toList false
  have hsplit := hword.splitKeyword_trim startsBlank_nil
  rw [List.append_nil] at hsplit
  have htext : (Declaration.output ⟨name, labelOf name.toList, kind⟩).typeText =
      (if false then "optional ".toList else []) ++ ("output".toList ++ ' ' :: kind.label.toList) :=
    rfl
  rw [htext, htype, declare, outputOf?, if_pos rfl]
  simp only [hsplit, String.ofList_toList]
  cases kind <;> rfl

section Parameters

variable {p : Parameter}

/-- The words of a destination are read apart. -/
theorem typeText_destination (h : p.kind.IsSpelt) {word : String} (hword : IsKeyword word)
    (hkeyword : p.kind.keyword = "output " ++ word) : ∃ constraint,
      TypeText.of (Declaration.parameter p).typeText =
        { optional := p.optional, keyword := "output", constraint := constraint } ∧
      splitKeyword constraint = (word, p.kind.constraintText) := by
  have htext : (Declaration.parameter p).typeText =
      (if p.optional then "optional ".toList else []) ++
        ("output".toList ++ ' ' :: (word.toList ++ ' ' :: p.kind.constraintText)) := by
    have hblank : "output ".toList = "output".toList ++ [' '] := rfl
    rw [Declaration.typeText_parameter, hkeyword, String.toList_append, hblank]
    simp only [List.append_assoc, List.cons_append, List.nil_append]
  rw [htext]
  refine ⟨_, TypeText.of_output _ p.optional, ?_⟩
  rw [hword.splitKeyword_trim (startsBlank_cons _), Text.trim_cons_of_blank rfl,
    Kind.trim_constraintText h]

/-- **Destinations** are read from their canonical types. -/
theorem declare_destination (h : (Declaration.parameter p).IsSpelt)
    (hkind : p.kind.isDestination = true) :
    declare p.name.toList (TypeText.of (Declaration.parameter p).typeText) =
      .ok (.parameter p) := by
  have hread : ∀ word ∈ keywords, p.kind.keyword = "output " ++ word → ∃ constraint,
      TypeText.of (Declaration.parameter p).typeText =
        { optional := p.optional, keyword := "output", constraint := constraint } ∧
      splitKeyword constraint = (word, p.kind.constraintText) :=
    fun word hword => typeText_destination h.2 (isKeyword_of_mem hword)
  obtain ⟨name, description, optional, kind⟩ := p
  obtain ⟨rfl, hspelt⟩ : description = labelOf name.toList ∧ kind.IsSpelt := h
  cases kind with
  | rasterDestination =>
    obtain ⟨constraint, htype, hsplit⟩ := hread "raster" (by decide) rfl
    rw [htype, declare, outputOf?, if_pos rfl]
    simp only [hsplit, String.ofList_toList]
  | vectorDestination =>
    obtain ⟨constraint, htype, hsplit⟩ := hread "vector" (by decide) rfl
    rw [htype, declare, outputOf?, if_pos rfl]
    simp only [hsplit, String.ofList_toList]
  | fileDestination extension? =>
    obtain ⟨constraint, htype, hsplit⟩ := hread "file" (by decide) rfl
    rw [htype, declare, outputOf?, if_pos rfl]
    simp only [hsplit, String.ofList_toList, Kind.constraintText, textOrNone_getD hspelt]
  | _ => cases hkind

/-- **Other parameters** are read from their canonical types. These are all that need not begin with
`output`. -/
theorem declare_input (h : (Declaration.parameter p).IsSpelt)
    (hkind : p.kind.isDestination = false) :
    declare p.name.toList (TypeText.of (Declaration.parameter p).typeText) =
      .ok (.parameter p) := by
  obtain ⟨hmem, hoptional, houtput, hcurrent⟩ := inputWords_spec (Kind.keyword_mem hkind)
  have htype := TypeText.of_word (isKeyword_of_mem hmem) (startsBlank_cons p.kind.constraintText)
    hoptional p.optional
  rw [Declaration.typeText_parameter, htype, Text.trim_cons_of_blank rfl,
    Kind.trim_constraintText h.2, declare, outputOf?, if_neg houtput]
  simp only [hcurrent, Kind.kindOf?_constraintText h.2 hkind, String.ofList_toList, ← h.1]

end Parameters

/-- What lines declare is read from its canonical type: an output, a destination or another
parameter. -/
theorem declare_typeText {d : Declaration} (h : d.IsSpelt) :
    declare d.name.toList (TypeText.of d.typeText) = .ok d := by
  cases d with
  | output o => exact declare_output h
  | parameter p =>
    cases hkind : p.kind.isDestination with
    | true => exact declare_destination h hkind
    | false => exact declare_input h hkind

/-- A proper name in front of the first `=` is the name that is declared. It contains no `=` itself,
so that the line is divided where it should be. -/
theorem resolveText_of_isProperName {name : String} (h : IsProperName name) (type : Text) :
    resolveText (name.toList ++ '=' :: type) = declare name.toList (TypeText.of type) := by
  have hsome : name.toList ≠ [] := fun hnil => h.something (String.toList_eq_nil_iff.mp hnil)
  have hname := nonEmpty?_of_trim h.trimmed hsome
  rw [resolveText, splitDeclaration, Text.splitOnce?_append h.undivided]
  simp only [bind, Except.bind, hname, String.ofList_toList, h.free, if_false]

/-- **Round trip.** What a header line declares, its canonical line declares: the same name, label
and kind on the same side, with the same flag and the same constraints. So the canonical line can be
kept in place of the line that was written, and its own canonical line is itself. -/
theorem resolve_spelling {line : String} {d : Declaration} (h : resolve line = .ok d) :
    resolve d.spelling = .ok d := by
  obtain ⟨token, type, -, -, -, hdeclare⟩ := resolveText_eq_ok h
  rw [resolve, Declaration.spelling, String.toList_ofList,
    resolveText_of_isProperName (isProperName_of_resolveText h)]
  exact declare_typeText (isSpelt_of_declare hdeclare)

/-- A line with blanks, a capital, a colon, a missing part and an exponent, and its canonical
line. -/
theorem resolve_spelling_lanes : ∃ d, resolve "lanes =optional Number: 2; ;8e0 " = .ok d ∧
    d.spelling = "lanes=optional number 2;;8" ∧ resolve "lanes=optional number 2;;8" = .ok d := by
  let d : Declaration := .parameter
    { name := "lanes", description := "lanes", optional := true
      kind := .number (some 2.0) none (some 8.0) }
  have hread : resolve "lanes =optional Number: 2; ;8e0 " = .ok d := by decide +kernel
  have hline : d.spelling = "lanes=optional number 2;;8" := by decide +kernel
  refine ⟨d, hread, hline, ?_⟩
  rw [← hline]
  exact resolve_spelling hread

end FeatureTransform
