import FeatureTransform.Proofs.Script.Header
import Mathlib.Data.List.Forall2

/-!
# Keys on either side

The group and the name of a script are given by a line with the key behind the `=` or in front of
it: `--#value=name` or `--#name=value`. The two lines do the same to any state, unless the second
declares something. It does so if the value can be read as a type, and then the name that is
declared is the key as it is written.

What one line does is done by all of them: scripts mean the same if their lines give the same keys
the same values, on whichever side the keys are.
-/

namespace FeatureTransform

/-- What a header line gives a script, other than a declaration. -/
inductive HeaderKey where
  /-- the group -/
  | group
  /-- the name -/
  | name

/-- The word for it. -/
def HeaderKey.word : HeaderKey → Text
  | group => groupKey
  | name => nameKey

/-- What a line means that gives it. -/
def HeaderKey.entry : HeaderKey → Text → HeaderEntry
  | group, value => .group value
  | name, value => .name value

namespace Header

/-- The header with a group or a name, from which the id is made. -/
def give (header : Header) (key : HeaderKey) (value : Text) : Header :=
  match key with
  | .group => { header with group := String.ofList value }
  | .name => { header with id := idOf value, displayName := labelOf value }

/-- The header after a line that declares this: a name that is taken puts the line aside. -/
def take (header : Header) (line : Text) (d : Declaration) : Header :=
  if header.declares d.name then
    { header with rejected := header.rejected ++ [(String.ofList line, .duplicate d.name)] }
  else
    { header with
      parameters := header.parameters ++ d.parameter?.toList
      outputs := header.outputs ++ d.output?.toList }

end Header

/-- One value for a key, with the key behind the `=` in `value=behind` and in front of it in
`front=other`. -/
structure EitherSide (key : HeaderKey) (value behind front other : Text) : Prop where
  /-- the key, in any letter case, with any white space around it -/
  behind : Text.lower (Text.trim behind) = key.word
  /-- the key once more, as it may be written -/
  front : Text.lower (Text.trim front) = key.word
  /-- the value is the same but for the white space around it -/
  same : Text.trim other = Text.trim value
  /-- it may stand in front of the `=` -/
  undivided : '=' ∉ value
  /-- it is no key itself -/
  noKey : Text.lower (Text.trim value) ∉ headerKeys

/-! ## What lines do -/

section Lines

variable {key : HeaderKey} {line value behind front other : Text}

/-- What lines mean by a key is what they give it, on whichever side the key stands. -/
theorem meaningOf?_eq_entry_iff :
    meaningOf? line = some (key.entry value) ↔ Gives line key.word value := by
  cases key with
  | group =>
    exact meaningOf?_eq_keyed_iff .group (fun _ _ => nofun)
      (by simp [entryOfKey_eq_some_iff, HeaderKey.word])
  | name =>
    exact meaningOf?_eq_keyed_iff .name (fun _ _ => nofun)
      (by simp [entryOfKey_eq_some_iff, HeaderKey.word])

/-- A line that gives a key a value does that and nothing else; what the key had before is replaced.
-/
theorem Header.feed_of_gives (header : Header) (h : Gives line key.word value) :
    header.feed line = header.give key value := by
  obtain ⟨content, rfl, hentry⟩ := meaningOf?_eq_some_iff.mp (meaningOf?_eq_entry_iff.mpr h)
  have hcontent := headerContent?_mark content
  cases key with
  | group => simp only [feed, hcontent, accept, hentry, HeaderKey.entry, give]
  | name => simp only [feed, hcontent, accept, hentry, HeaderKey.entry, give]

/-- A line that declares something does that and nothing else, or is put aside because of its name.
-/
theorem Header.feed_of_resolveText (header : Header) {content : Text} {d : Declaration}
    (h : resolveText content = .ok d) : header.feed (['-', '-', '#'] ++ content) =
      header.take (['-', '-', '#'] ++ content) d := by
  have hcontent := headerContent?_mark content
  have hentry := of_eq_declaration_iff.mpr h
  cases hknown : header.declares d.name with
  | true => simp only [feed, hcontent, accept, hentry, add, take, hknown, if_true]
  | false =>
    simp only [feed, hcontent, accept, hentry, add, take, hknown, Bool.false_eq_true, if_false]
    cases d <;> simp [Declaration.parameter?, Declaration.output?]

/-- A key as it is written holds no `=`, which lower case would keep. -/
theorem separator_not_mem_of_key (h : Text.lower (Text.trim front) = key.word) :
    '=' ∉ front := by
  intro hmem
  have hkept : '=' ∈ key.word := by
    rw [← h]
    exact Text.mem_lowerAfter [] (by decide) (by decide) (Text.mem_trim_of_mem (by decide) hmem)
  cases key with
  | group => exact absurd hkept (by decide)
  | name => exact absurd hkept (by decide)

namespace EitherSide

variable (h : EitherSide key value behind front other)
include h

theorem gives_behind :
    Gives (['-', '-', '#'] ++ (value ++ '=' :: behind)) key.word (Text.trim value) :=
  ⟨value, behind, rfl, h.undivided, .inl ⟨h.behind, rfl⟩⟩

/-- With the key in front the line gives it the value unless it declares something, because
declarations are tried first. -/
theorem gives_front (hnone : ∀ d, resolveText (front ++ '=' :: other) ≠ .ok d) :
    Gives (['-', '-', '#'] ++ (front ++ '=' :: other)) key.word (Text.trim value) := by
  refine ⟨front, other, rfl, separator_not_mem_of_key h.front, .inr ⟨?_, ?_, h.front, h.same.symm⟩⟩
  · rw [h.same]
    exact h.noKey
  · exact declarationOf?_eq_none_iff.mpr hnone

/-- What it declares is called as the key is written, letter case included. -/
theorem name_of_front {d : Declaration} (hdeclared : resolveText (front ++ '=' :: other) = .ok d) :
    d.name = String.ofList (Text.trim front) := by
  obtain ⟨token, type, hsplit, -, -, hdeclare⟩ := resolveText_eq_ok hdeclared
  rw [Text.splitOnce?_eq_some_iff.mpr ⟨rfl, separator_not_mem_of_key h.front⟩] at hsplit
  cases hsplit
  exact name_of_declare hdeclare

end EitherSide

/-- **Either side.** In any state, a line with the key behind the `=` gives the key the value. So
does a line with the key in front, unless it declares something: then it declares the key as it is
written, or is put aside if that name is taken, and gives nothing. -/
theorem Header.feed_either_side (header : Header)
    (h : EitherSide key value behind front other) :
    let first := ['-', '-', '#'] ++ (value ++ '=' :: behind)
    let second := ['-', '-', '#'] ++ (front ++ '=' :: other)
    header.feed first = header.give key (Text.trim value) ∧
      match resolveText (front ++ '=' :: other) with
      | .error _ => header.feed second = header.give key (Text.trim value)
      | .ok d => d.name = String.ofList (Text.trim front) ∧
          header.feed second = header.take second d := by
  refine ⟨header.feed_of_gives h.gives_behind, ?_⟩
  split
  · rename_i e herror
    refine header.feed_of_gives (h.gives_front fun d hdeclared => ?_)
    rw [herror] at hdeclared
    cases hdeclared
  · rename_i d hdeclared
    exact ⟨h.name_of_front hdeclared, header.feed_of_resolveText hdeclared⟩

/-- A value that begins like a type, but is none. -/
theorem Header.feed_either_side_cruncher :
    let header := initial "s" "S"
    let value := "Number cruncher".toList
    EitherSide .name value "name".toList " NaMe ".toList ('\t' :: value) ∧
      header.feed "--#Number cruncher=name".toList = header.give .name value ∧
      header.feed "--# NaMe =\tNumber cruncher".toList = header.give .name value := by
  have hsides : EitherSide .name "Number cruncher".toList "name".toList " NaMe ".toList
      ('\t' :: "Number cruncher".toList) :=
    ⟨by decide, by decide, by decide, by decide, by decide⟩
  have herror : resolveText (" NaMe ".toList ++ '=' :: '\t' :: "Number cruncher".toList) =
      .error (.invalidConstraint "number" (.notANumber "cruncher")) := by
    decide +kernel
  have hfeed := feed_either_side (initial "s" "S") hsides
  rw [herror] at hfeed
  exact ⟨hsides, hfeed⟩

/-- A value that is a type makes a parameter of the key in front of it, and is a group all the same
if the key stands behind it. -/
example : let script := Script.ofLines "s" "S" (.inline "") (["--#Group=vector line",
      "--#vector line=Group"].map String.toList)
    script.names = ["Group"] ∧ script.group = "vector line" ∧ script.error? = none := by
  decide +kernel

end Lines

/-! ## What scripts mean -/

/-- Two lines are the same, or give the same key the same value. -/
inductive GiveTheSame : Text → Text → Prop where
  /-- the same line -/
  | same (line : Text) : GiveTheSame line line
  /-- the same gift -/
  | given {line other value : Text} {key : HeaderKey} (h : Gives line key.word value)
      (hother : Gives other key.word value) : GiveTheSame line other

section Scripts

variable {line other : Text} {lines others : List Text}

theorem isHeaderLine_of_gives {key value : Text} (h : Gives line key value) :
    IsHeaderLine line := by
  obtain ⟨token, type, rfl, -, -⟩ := h
  exact ⟨token ++ '=' :: type, rfl⟩

namespace GiveTheSame

/-- Neither of two lines is empty, or both are. -/
theorem eq_nil_iff (h : GiveTheSame line other) : line = [] ↔ other = [] := by
  have hsome : ∀ {line}, IsHeaderLine line → line ≠ [] := by
    rintro line hline rfl
    exact absurd hline (by decide)
  cases h with
  | same => rfl
  | given h hother =>
    exact iff_of_false (hsome (isHeaderLine_of_gives h)) (hsome (isHeaderLine_of_gives hother))

/-- **One line** may stand for the other in any state. -/
theorem feed_eq (h : GiveTheSame line other) (header : Header) :
    header.feed line = header.feed other := by
  cases h with
  | same => rfl
  | given h hother => rw [header.feed_of_gives h, header.feed_of_gives hother]

end GiveTheSame

/-- The reading of such lines stops at the same place. -/
theorem giveTheSame_consumedAfter (run : Nat) (h : List.Forall₂ GiveTheSame lines others) :
    List.Forall₂ GiveTheSame (consumedAfter run lines) (consumedAfter run others) := by
  induction h generalizing run with
  | nil => exact .nil
  | @cons line other rest others hline _ ih =>
    simp only [consumedAfter, hline.eq_nil_iff]
    generalize (if other = [] then run + 1 else 0) = count
    by_cases hstop : maxBlankRun ≤ count
    · rw [if_pos hstop, if_pos hstop]
      exact .cons hline .nil
    · rw [if_neg hstop, if_neg hstop]
      exact .cons hline (ih count)

theorem foldl_feed_of_giveTheSame (h : List.Forall₂ GiveTheSame lines others) (header : Header) :
    lines.foldl Header.feed header = others.foldl Header.feed header := by
  induction h generalizing header with
  | nil => rfl
  | cons hline _ ih => rw [List.foldl_cons, List.foldl_cons, hline.feed_eq, ih]

/-- Where two of them differ they do not belong to the body. -/
theorem filter_of_giveTheSame (h : List.Forall₂ GiveTheSame lines others) :
    (lines.filter fun l => (headerContent? l).isNone) =
      others.filter fun l => (headerContent? l).isNone := by
  have hmark : ∀ {line key value}, Gives line key value → ¬ (headerContent? line).isNone = true :=
    fun h hnone => (headerContent?_isNone_iff _).mp hnone (isHeaderLine_of_gives h)
  induction h with
  | nil => rfl
  | cons hline _ ih =>
    cases hline with
    | same => rw [List.filter_cons, List.filter_cons, ih]
    | given h hother =>
      rw [List.filter_cons, List.filter_cons, if_neg (hmark h), if_neg (hmark hother), ih]

/-- **All lines.** Scripts with such lines are the same, but for the whole text. -/
theorem Script.ofLines_of_giveTheSame (id displayName : String) (origin : Origin)
    (h : List.Forall₂ GiveTheSame lines others) :
    ofLines id displayName origin others =
      { ofLines id displayName origin lines with
        text := (ofLines id displayName origin others).text } := by
  have hread := giveTheSame_consumedAfter 0 h
  rw [ofLines, ofLines]
  simp only [consumed, foldl_feed_of_giveTheSame hread, filter_of_giveTheSame hread]

/-- A line with the key behind the `=` stands for one with the key in front that declares nothing,
wherever it is found. -/
theorem Script.ofLines_either_side (id displayName : String) (origin : Origin) {key : HeaderKey}
    {value behind front : Text} (h : EitherSide key value behind front other)
    (hnone : ∀ d, resolveText (front ++ '=' :: other) ≠ .ok d) (before after : List Text) :
    let first := ['-', '-', '#'] ++ (value ++ '=' :: behind)
    let second := ['-', '-', '#'] ++ (front ++ '=' :: other)
    ofLines id displayName origin (before ++ second :: after) =
      { ofLines id displayName origin (before ++ first :: after) with
        text := (ofLines id displayName origin (before ++ second :: after)).text } := by
  have hsame : ∀ lines, List.Forall₂ GiveTheSame lines lines :=
    fun lines => List.forall₂_same.mpr fun line _ => .same line
  have hline := GiveTheSame.given h.gives_behind (h.gives_front hnone)
  exact ofLines_of_giveTheSame id displayName origin
    (List.rel_append (hsame before) (.cons hline (hsame after)))

end Scripts

end FeatureTransform
