import FeatureTransform.Proofs.Declaration.Resolve
import FeatureTransform.Proofs.Script.Extent
import Mathlib.Data.List.Nodup
import Mathlib.Data.List.Perm.Basic

/-!
# What a header says

A header is read line by line, and each line is taken up in the state that the lines before it have
left behind. What the whole header says is read off the lines alone:

* **declarations** — those of the lines that declare something, of one name the first;
* **name and group** — those of the last line that gives their key a value, on either side of `=`;
* **rejection** — a header line that says nothing of these, or declares a name once more, is put
  aside with its text and changes nothing else.

`Header.Tells` is what the state must say of the lines read so far; a line carries it on, so that it
holds of all lines.
-/

namespace FeatureTransform

/-! ## Lines by what they say -/

/-- What a line of the script declares. -/
def declarationOf? (line : Text) : Option Declaration :=
  (headerContent? line).bind fun content => (resolveText content).toOption

/-- What a line means as a header line. -/
def meaningOf? (line : Text) : Option HeaderEntry :=
  (headerContent? line).bind fun content => (HeaderEntry.of content).toOption

namespace HeaderEntry

/-- The declaration that is meant. -/
def declaration? : HeaderEntry → Option Declaration
  | declaration d => some d
  | _ => none

/-- The group that is meant. -/
def group? : HeaderEntry → Option Text
  | group text => some text
  | _ => none

/-- The name that is meant. -/
def name? : HeaderEntry → Option Text
  | name text => some text
  | _ => none

end HeaderEntry

/-- The group that a line sets. -/
def groupOf? (line : Text) : Option Text := (meaningOf? line).bind HeaderEntry.group?

/-- The name that a line sets. -/
def nameOf? (line : Text) : Option Text := (meaningOf? line).bind HeaderEntry.name?

/-- A header line is rejected behind others if it sets neither group nor name and declares nothing,
or only what has a name that one of the others declares. -/
def Rejects (before : List Text) (line : Text) : Prop :=
  IsHeaderLine line ∧ groupOf? line = none ∧ nameOf? line = none ∧
    ∀ d, declarationOf? line = some d →
      d.name ∈ (before.filterMap declarationOf?).map Declaration.name

/-! ## What a line means -/

/-- The key of the group. -/
def groupKey : Text := ['g', 'r', 'o', 'u', 'p']

/-- The key of the name. -/
def nameKey : Text := ['n', 'a', 'm', 'e']

section Entries

variable {content key value : Text} {d : Declaration}

/-- A key makes an entry of its own kind of a value, and no other word makes one. The letter case of
the key and the white space around both do not matter. -/
theorem entryOfKey_eq_some_iff {entry : HeaderEntry} : entryOfKey key value = some entry ↔
    Text.lower (Text.trim key) = groupKey ∧ entry = .group (Text.trim value) ∨
      Text.lower (Text.trim key) = nameKey ∧ entry = .name (Text.trim value) := by
  have hword : ∀ word : Text, Text.lower (Text.trim key) = word ↔
      String.ofList (Text.lower (Text.trim key)) = String.ofList word :=
    fun word => String.ofList_inj.symm
  rw [hword groupKey, hword nameKey, entryOfKey]
  have hgroup : String.ofList groupKey = "group" := rfl
  have hname : String.ofList nameKey = "name" := rfl
  rw [hgroup, hname]
  split
  · rename_i hkey
    simp [hkey, eq_comm]
  · rename_i hkey
    simp [hkey, eq_comm]
  · rename_i hnoGroup hnoName
    constructor
    · nofun
    · rintro (⟨hkey, -⟩ | ⟨hkey, -⟩)
      · exact absurd hkey hnoGroup
      · exact absurd hkey hnoName

theorem entryOfKey_eq_none_iff :
    entryOfKey key value = none ↔ Text.lower (Text.trim key) ∉ headerKeys := by
  have hkeys : Text.lower (Text.trim key) ∈ headerKeys ↔
      Text.lower (Text.trim key) = groupKey ∨ Text.lower (Text.trim key) = nameKey := by
    rw [headerKeys, List.mem_cons, List.mem_singleton]
    rfl
  rw [hkeys, Option.eq_none_iff_forall_ne_some]
  simp only [ne_eq, entryOfKey_eq_some_iff]
  constructor
  · rintro hnone (hgroup | hname)
    · exact hnone _ (.inl ⟨hgroup, rfl⟩)
    · exact hnone _ (.inr ⟨hname, rfl⟩)
  · rintro hkey entry (⟨hgroup, -⟩ | ⟨hname, -⟩)
    · exact hkey (.inl hgroup)
    · exact hkey (.inr hname)

theorem entryOfKey_ne_declaration : entryOfKey key value ≠ some (.declaration d) := by
  intro h
  rcases entryOfKey_eq_some_iff.mp h with ⟨-, heq⟩ | ⟨-, heq⟩
  · cases heq
  · cases heq

/-- **Meaning.** A line means a declaration exactly if it declares something: no key stands in the
place of the type of a line that does, so that the order of the two tests does not matter. -/
theorem of_eq_declaration_iff :
    HeaderEntry.of content = .ok (.declaration d) ↔ resolveText content = .ok d := by
  constructor
  · intro h
    obtain ⟨⟨token, type⟩, -, h⟩ := Attempt.bind_eq_ok h
    simp only at h
    split at h
    · rename_i entry hentry
      cases h
      exact absurd hentry entryOfKey_ne_declaration
    · split at h
      · rename_i other hother
        cases h
        exact hother
      · rename_i entry herror hentry
        cases h
        exact absurd hentry entryOfKey_ne_declaration
      · cases h
  · intro h
    -- keys are tried first, but no key is the type of something that is declared
    obtain ⟨token, type, hsplit, -, -, hdeclare⟩ := resolveText_eq_ok h
    have hnone : entryOfKey type token = none :=
      entryOfKey_eq_none_iff.mpr fun hkey => declare_of_key _ hkey d hdeclare
    have hparts : splitDeclaration content = .ok (token, type) := by
      rw [splitDeclaration, hsplit]
    simp only [HeaderEntry.of, hparts, bind, Except.bind, hnone, h, pure, Except.pure]

/-- **Keys.** Any other entry is made by a key behind the `=`, or by one in front of it if there is
none behind it and the line declares nothing. -/
theorem of_eq_keyed_iff {entry : HeaderEntry} (hentry : ∀ d, entry ≠ .declaration d) :
    HeaderEntry.of content = .ok entry ↔ ∃ token type,
      content = token ++ '=' :: type ∧ '=' ∉ token ∧
        (entryOfKey type token = some entry ∨
          entryOfKey type token = none ∧ (∀ d, resolveText content ≠ .ok d) ∧
            entryOfKey token type = some entry) := by
  simp only [← and_assoc, ← Text.splitOnce?_eq_some_iff]
  cases hsplit : Text.splitOnce? '=' content with
  | none =>
    have hparts : splitDeclaration content = .error .missingSeparator := by
      rw [splitDeclaration, hsplit]
    simp [HeaderEntry.of, hparts, bind, Except.bind]
  | some parts =>
    obtain ⟨token, type⟩ := parts
    have hparts : splitDeclaration content = .ok (token, type) := by
      rw [splitDeclaration, hsplit]
    simp only [HeaderEntry.of, hparts, bind, Except.bind]
    cases htype : entryOfKey type token with
    | some other => simp [htype, pure, Except.pure]
    -- without a key behind the separator the line may declare something, and only then a key in
    -- front counts
    | none =>
      cases hresolve : resolveText content with
      | ok d => simp [htype, pure, Except.pure, Ne.symm (hentry d)]
      | error e =>
        cases htoken : entryOfKey token type with
        | none => simp [htype, htoken, throw]
        | some other => simp [htype, htoken, pure, Except.pure]

end Entries

/-- A header line gives a key a value: it is `value=key`, or `key=value` if no key stands behind the
`=` and the line declares nothing. -/
def Gives (line key value : Text) : Prop :=
  ∃ token type, line = ['-', '-', '#'] ++ (token ++ '=' :: type) ∧ '=' ∉ token ∧
    (Text.lower (Text.trim type) = key ∧ value = Text.trim token ∨
      Text.lower (Text.trim type) ∉ headerKeys ∧ declarationOf? line = none ∧
        Text.lower (Text.trim token) = key ∧ value = Text.trim type)

theorem meaningOf?_eq_some_iff {line : Text} {entry : HeaderEntry} :
    meaningOf? line = some entry ↔
      ∃ content, line = ['-', '-', '#'] ++ content ∧ HeaderEntry.of content = .ok entry := by
  have hok : ∀ content, (HeaderEntry.of content).toOption = some entry ↔
      HeaderEntry.of content = .ok entry := by
    intro content
    cases HeaderEntry.of content <;> simp [Except.toOption]
  rw [meaningOf?, Option.bind_eq_some_iff]
  simp only [headerContent?_eq_some_iff, hok]

theorem declarationOf?_eq_none_iff {content : Text} :
    declarationOf? (['-', '-', '#'] ++ content) = none ↔ ∀ d, resolveText content ≠ .ok d := by
  rw [declarationOf?, headerContent?_mark, Option.bind_some]
  cases resolveText content <;> simp [Except.toOption]

/-- What lines give a key is what they mean by it. -/
theorem meaningOf?_eq_keyed_iff {key value line : Text} (keyed : Text → HeaderEntry)
    (hkeyed : ∀ value d, keyed value ≠ .declaration d)
    (hkey : ∀ {other text : Text}, entryOfKey other text = some (keyed value) ↔
      Text.lower (Text.trim other) = key ∧ value = Text.trim text) :
    meaningOf? line = some (keyed value) ↔ Gives line key value := by
  rw [meaningOf?_eq_some_iff]
  simp only [of_eq_keyed_iff (hkeyed value), hkey, entryOfKey_eq_none_iff,
    ← declarationOf?_eq_none_iff]
  constructor
  · rintro ⟨content, rfl, token, type, rfl, htoken, hgives⟩
    exact ⟨token, type, rfl, htoken, hgives⟩
  · rintro ⟨token, type, rfl, htoken, hgives⟩
    exact ⟨_, rfl, token, type, rfl, htoken, hgives⟩

theorem groupOf?_eq_some_iff {line group : Text} :
    groupOf? line = some group ↔ Gives line groupKey group := by
  rw [← meaningOf?_eq_keyed_iff .group (fun _ _ => nofun)
    (by simp [entryOfKey_eq_some_iff]), groupOf?]
  cases hmeaning : meaningOf? line with
  | none => simp
  | some entry => cases entry <;> simp [HeaderEntry.group?]

theorem nameOf?_eq_some_iff {line name : Text} :
    nameOf? line = some name ↔ Gives line nameKey name := by
  rw [← meaningOf?_eq_keyed_iff .name (fun _ _ => nofun)
    (by simp [entryOfKey_eq_some_iff]), nameOf?]
  cases hmeaning : meaningOf? line with
  | none => simp
  | some entry => cases entry <;> simp [HeaderEntry.name?]

/-! ## The first declaration of each name -/

namespace Declaration

/-- The parameter that is declared, if it is one. -/
def parameter? : Declaration → Option Parameter
  | .parameter p => some p
  | .output _ => none

/-- The output that is declared, if it is one. -/
def output? : Declaration → Option Output
  | .parameter _ => none
  | .output o => some o

/-- Of the declarations of one name the first. -/
def firstOfEach : List Declaration → List Declaration
  | [] => []
  | d :: rest => d :: (firstOfEach rest).filter (·.name ≠ d.name)

/-- No name is lost when only the first declaration of each is kept. -/
theorem mem_names_firstOfEach {ds : List Declaration} {name : String} :
    name ∈ (firstOfEach ds).map Declaration.name ↔ name ∈ ds.map Declaration.name := by
  induction ds with
  | nil => rfl
  | cons d rest ih =>
    rw [firstOfEach, List.map_cons, List.map_cons, List.mem_cons, List.mem_cons, ← ih]
    by_cases hname : name = d.name
    · simp [hname]
    · simp only [hname, false_or, List.mem_map, List.mem_filter, decide_eq_true_eq]
      constructor
      · rintro ⟨other, ⟨hother, -⟩, rfl⟩
        exact ⟨other, hother, rfl⟩
      · rintro ⟨other, hother, rfl⟩
        exact ⟨other, ⟨hother, hname⟩, rfl⟩

/-- No name is there twice. -/
theorem nodup_names_firstOfEach (ds : List Declaration) :
    ((firstOfEach ds).map Declaration.name).Nodup := by
  induction ds with
  | nil => exact List.nodup_nil
  | cons d rest ih =>
    rw [firstOfEach, List.map_cons, List.nodup_cons]
    constructor
    · intro hmem
      obtain ⟨other, hother, hname⟩ := List.mem_map.mp hmem
      exact of_decide_eq_true (List.mem_filter.mp hother).2 hname
    · exact ih.sublist (List.filter_sublist.map Declaration.name)

theorem mem_of_mem_firstOfEach {ds : List Declaration} {d : Declaration}
    (h : d ∈ firstOfEach ds) : d ∈ ds := by
  induction ds with
  | nil => exact h
  | cons first rest ih =>
    rw [firstOfEach] at h
    rcases List.mem_cons.mp h with rfl | h
    · exact List.mem_cons_self
    · exact List.mem_cons_of_mem _ (ih (List.mem_filter.mp h).1)

/-- **One more** declaration counts if its name is new; otherwise the earlier one stays. -/
theorem firstOfEach_concat (ds : List Declaration) (d : Declaration) :
    firstOfEach (ds ++ [d]) = if d.name ∈ ds.map Declaration.name then firstOfEach ds
      else firstOfEach ds ++ [d] := by
  induction ds with
  | nil => rfl
  | cons first rest ih =>
    rw [List.cons_append, firstOfEach, firstOfEach, ih, List.map_cons]
    by_cases hrest : d.name ∈ rest.map Declaration.name
    · rw [if_pos hrest, if_pos (List.mem_cons_of_mem _ hrest)]
    · rw [if_neg hrest, List.filter_append]
      by_cases hfirst : d.name = first.name
      · simp [hfirst]
      · simp [hfirst, hrest]

/-- The names of parameters and outputs are those of all declarations, so that a name can be used on
one side only. -/
theorem names_perm (ds : List Declaration) :
    ((ds.filterMap parameter?).map (·.name) ++ (ds.filterMap output?).map (·.name)).Perm
      (ds.map Declaration.name) := by
  induction ds with
  | nil => exact List.Perm.refl _
  | cons d rest ih =>
    cases d with
    | parameter p => exact ih.cons p.name
    | output o => exact List.perm_middle.trans (ih.cons o.name)

end Declaration

/-! ## Reading on -/

/-- The declarations that count among those of some lines. -/
def declarationsOf (lines : List Text) : List Declaration :=
  Declaration.firstOfEach (lines.filterMap declarationOf?)

namespace Header

variable {id displayName : String}

/-- A header says what the lines say of which it is the header. -/
structure Tells (header : Header) (id displayName : String) (lines : List Text) : Prop where
  /-- the parameters are declared, of one name the first -/
  parameters : header.parameters = (declarationsOf lines).filterMap Declaration.parameter?
  /-- the outputs are declared, of one name the first -/
  outputs : header.outputs = (declarationsOf lines).filterMap Declaration.output?
  /-- the group is the last one, or none -/
  group : header.group = ((lines.filterMap groupOf?).getLast?.map String.ofList).getD ""
  /-- the id is that of the last name, or the given one -/
  id : header.id = ((lines.filterMap nameOf?).getLast?.map idOf).getD id
  /-- so is the name for people -/
  displayName : header.displayName =
    ((lines.filterMap nameOf?).getLast?.map labelOf).getD displayName

variable {header : Header} {lines before : List Text} {line : Text}

theorem tells_initial (id displayName : String) :
    (initial id displayName).Tells id displayName [] :=
  ⟨rfl, rfl, rfl, rfl, rfl⟩

/-- The names that are declared are the names of all declarations so far, on either side. -/
theorem Tells.declares_iff (h : header.Tells id displayName lines) (name : String) :
    header.declares name = true ↔
      name ∈ (lines.filterMap declarationOf?).map Declaration.name := by
  have hdeclared : header.declares name = true ↔
      name ∈ header.parameters.map (·.name) ++ header.outputs.map (·.name) := by
    simp [declares]
  have hnames := Declaration.names_perm (declarationsOf lines)
  rw [hdeclared, h.parameters, h.outputs, hnames.mem_iff, declarationsOf,
    Declaration.mem_names_firstOfEach]

/-- A line says this and nothing else: a declaration, a group or a name. -/
structure Says (line : Text) (d? : Option Declaration) (group? name? : Option Text) : Prop where
  /-- what it declares -/
  declaration : declarationOf? line = d?
  /-- the group that it sets -/
  group : groupOf? line = group?
  /-- the name that it sets -/
  name : nameOf? line = name?

theorem says_of_not_isHeaderLine (h : ¬ IsHeaderLine line) : Says line none none none := by
  have hnone := Option.isNone_iff_eq_none.mp ((headerContent?_isNone_iff line).mpr h)
  have hmeaning : meaningOf? line = none := by rw [meaningOf?, hnone, Option.bind_none]
  constructor
  · rw [declarationOf?, hnone, Option.bind_none]
  · rw [groupOf?, hmeaning, Option.bind_none]
  · rw [nameOf?, hmeaning, Option.bind_none]

section Content

variable {content : Text} (h : headerContent? line = some content)
include h

theorem declarationOf?_eq_some_iff {d : Declaration} : declarationOf? line = some d ↔
    HeaderEntry.of content = .ok (.declaration d) := by
  rw [of_eq_declaration_iff, declarationOf?, h, Option.bind_some]
  cases resolveText content <;> simp [Except.toOption]

/-- A header line without a meaning says nothing. -/
theorem says_of_error {e : DeclarationError} (hentry : HeaderEntry.of content = .error e) :
    Says line none none none := by
  have hmeaning : meaningOf? line = none := by
    rw [meaningOf?, h, Option.bind_some, hentry]
    rfl
  constructor
  · refine Option.eq_none_iff_forall_not_mem.mpr fun d hd => ?_
    rw [(declarationOf?_eq_some_iff h).mp hd] at hentry
    cases hentry
  · rw [groupOf?, hmeaning, Option.bind_none]
  · rw [nameOf?, hmeaning, Option.bind_none]

/-- A header line with a meaning says that and nothing else. -/
theorem says_of_ok {entry : HeaderEntry} (hentry : HeaderEntry.of content = .ok entry) :
    Says line entry.declaration? entry.group? entry.name? := by
  have hmeaning : meaningOf? line = some entry := by
    rw [meaningOf?, h, Option.bind_some, hentry]
    rfl
  constructor
  · ext d
    rw [declarationOf?_eq_some_iff h, hentry]
    cases entry <;> simp [HeaderEntry.declaration?]
  · rw [groupOf?, hmeaning, Option.bind_some]
  · rw [nameOf?, hmeaning, Option.bind_some]

end Content

/-- The header with one more line put aside. -/
def PutsAside (header : Header) (line : Text) : Prop :=
  ∃ e, header.feed line = { header with rejected := header.rejected ++ [(String.ofList line, e)] }

/-- **One line**, by what it says: the state changes in that and nothing else. There is no line that
says two things. -/
theorem feed_cases (header : Header) (line : Text) :
    (¬ IsHeaderLine line ∧ Says line none none none ∧ header.feed line = header) ∨
    (IsHeaderLine line ∧ Says line none none none ∧ header.PutsAside line) ∨
    (∃ group, Says line none (some group) none ∧
      header.feed line = { header with group := String.ofList group }) ∨
    (∃ name, Says line none none (some name) ∧
      header.feed line = { header with id := idOf name, displayName := labelOf name }) ∨
    (∃ d, IsHeaderLine line ∧ Says line (some d) none none ∧ header.declares d.name = true ∧
      header.PutsAside line) ∨
    (∃ d, Says line (some d) none none ∧ header.declares d.name = false ∧
      header.feed line =
        { header with
          parameters := header.parameters ++ d.parameter?.toList
          outputs := header.outputs ++ d.output?.toList }) := by
  by_cases hline : IsHeaderLine line
  · obtain ⟨content, hcontent⟩ := hline
    have hmark : IsHeaderLine line := ⟨content, hcontent⟩
    replace hcontent := headerContent?_eq_some_iff.mpr hcontent.symm
    -- the cases follow what a line can mean, and a declaration can come too late
    cases hentry : HeaderEntry.of content with
    | error e =>
      refine .inr (.inl ⟨hmark, says_of_error hcontent hentry, .declaration e, ?_⟩)
      simp only [Header.feed, hcontent, accept, hentry]
    | ok entry =>
      have htold := says_of_ok hcontent hentry
      cases entry with
      | group group =>
        refine .inr (.inr (.inl ⟨group, htold, ?_⟩))
        simp only [Header.feed, hcontent, accept, hentry]
      | name name =>
        refine .inr (.inr (.inr (.inl ⟨name, htold, ?_⟩)))
        simp only [Header.feed, hcontent, accept, hentry]
      | declaration d =>
        cases hknown : header.declares d.name with
        | true =>
          refine .inr (.inr (.inr (.inr (.inl ⟨d, hmark, htold, hknown, .duplicate d.name, ?_⟩))))
          simp only [Header.feed, hcontent, accept, hentry, add, hknown, if_true]
        | false =>
          refine .inr (.inr (.inr (.inr (.inr ⟨d, htold, hknown, ?_⟩))))
          simp only [Header.feed, hcontent, accept, hentry, add, hknown, Bool.false_eq_true,
            if_false]
          cases d <;> simp [Declaration.parameter?, Declaration.output?]
  · exact .inl ⟨hline, says_of_not_isHeaderLine hline, header.feed_of_not_isHeaderLine hline⟩

/-- **Rejection.** A line that is rejected is put aside; any other leaves those put aside as they
are. Rejected are lines without a meaning and declarations of a name that is there. -/
theorem Tells.rejects_cases (h : header.Tells id displayName lines) (line : Text) :
    (Rejects lines line ∧ header.PutsAside line) ∨
      (¬ Rejects lines line ∧ (header.feed line).rejected = header.rejected) := by
  -- only lines without a meaning and names that are taken are put aside
  rcases header.feed_cases line with ⟨hline, -, hfeed⟩ | ⟨hline, htold, haside⟩ |
    ⟨group, htold, hfeed⟩ | ⟨name, htold, hfeed⟩ | ⟨d, hline, htold, hknown, haside⟩ |
    ⟨d, htold, hnew, hfeed⟩
  · refine .inr ⟨fun hrejects => hline hrejects.1, ?_⟩
    rw [hfeed]
  · refine .inl ⟨⟨hline, htold.group, htold.name, fun d hd => ?_⟩, haside⟩
    exact nomatch htold.declaration.symm.trans hd
  · refine .inr ⟨fun hrejects => ?_, ?_⟩
    · exact nomatch htold.group.symm.trans hrejects.2.1
    · rw [hfeed]
  · refine .inr ⟨fun hrejects => ?_, ?_⟩
    · exact nomatch htold.name.symm.trans hrejects.2.2.1
    · rw [hfeed]
  · refine .inl ⟨⟨hline, htold.group, htold.name, fun other hother => ?_⟩, haside⟩
    obtain rfl := Option.some.inj (htold.declaration.symm.trans hother)
    exact (h.declares_iff d.name).mp hknown
  · refine .inr ⟨fun hrejects => ?_, ?_⟩
    · have hknown := (h.declares_iff d.name).mpr (hrejects.2.2.2 d htold.declaration)
      rw [hnew] at hknown
      cases hknown
    · rw [hfeed]

theorem filterMap_concat {α β : Type} (f : α → Option β) (as : List α) (a : α) :
    (as ++ [a]).filterMap f = as.filterMap f ++ (f a).toList := by
  rw [List.filterMap_append, List.filterMap_cons]
  cases f a <;> rfl

/-- What is said last is said by the last line, or before it if that line does not say it. -/
theorem getLast?_filterMap_concat {α : Type} (f : Text → Option α) (lines : List Text)
    (line : Text) : ((lines ++ [line]).filterMap f).getLast? =
      (f line).or (lines.filterMap f).getLast? := by
  rw [filterMap_concat, List.getLast?_append]
  cases f line <;> rfl

theorem declarationsOf_concat (lines : List Text) (line : Text) :
    declarationsOf (lines ++ [line]) = match declarationOf? line with
      | none => declarationsOf lines
      | some d => if d.name ∈ (lines.filterMap declarationOf?).map Declaration.name
          then declarationsOf lines else declarationsOf lines ++ [d] := by
  rw [declarationsOf, filterMap_concat]
  cases declarationOf? line with
  | none => rw [Option.toList_none, List.append_nil, declarationsOf]
  | some d => rw [Option.toList_some, Declaration.firstOfEach_concat, declarationsOf]

/-- A line that says nothing new is told of by a state that differs in the lines put aside only. -/
theorem Tells.silent (h : header.Tells id displayName lines) {other : Header}
    (hdeclarations : declarationsOf (lines ++ [line]) = declarationsOf lines)
    (hgroup : groupOf? line = none) (hname : nameOf? line = none)
    (hsame : other = { header with rejected := other.rejected }) :
    other.Tells id displayName (lines ++ [line]) := by
  rw [hsame]
  constructor
  · rw [hdeclarations]
    exact h.parameters
  · rw [hdeclarations]
    exact h.outputs
  · rw [getLast?_filterMap_concat, hgroup, Option.none_or]
    exact h.group
  · rw [getLast?_filterMap_concat, hname, Option.none_or]
    exact h.id
  · rw [getLast?_filterMap_concat, hname, Option.none_or]
    exact h.displayName

/-- **One more line** is told of. This is the step of the induction over all lines. -/
theorem Tells.feed (h : header.Tells id displayName lines) (line : Text) :
    (header.feed line).Tells id displayName (lines ++ [line]) := by
  have hdeclarations := declarationsOf_concat lines line
  have hgroup := getLast?_filterMap_concat groupOf? lines line
  have hname := getLast?_filterMap_concat nameOf? lines line
  rcases header.feed_cases line with ⟨-, htold, hfeed⟩ | ⟨-, htold, e, hfeed⟩ |
    ⟨group, htold, hfeed⟩ | ⟨name, htold, hfeed⟩ | ⟨d, -, htold, hknown, e, hfeed⟩ |
    ⟨d, htold, hnew, hfeed⟩
  -- what the line says is said last, behind what the lines before it said
  all_goals
    rw [htold.declaration] at hdeclarations
    rw [htold.group] at hgroup
    rw [htold.name] at hname
  · exact h.silent hdeclarations htold.group htold.name (by rw [hfeed])
  · exact h.silent hdeclarations htold.group htold.name (by rw [hfeed])
  · rw [hfeed]
    constructor
    · exact hdeclarations ▸ h.parameters
    · exact hdeclarations ▸ h.outputs
    · rw [hgroup]
      rfl
    · rw [hname]
      exact h.id
    · rw [hname]
      exact h.displayName
  · rw [hfeed]
    constructor
    · exact hdeclarations ▸ h.parameters
    · exact hdeclarations ▸ h.outputs
    · rw [hgroup]
      exact h.group
    · rw [hname]
      rfl
    · rw [hname]
      rfl
  · simp only [if_pos ((h.declares_iff d.name).mp hknown)] at hdeclarations
    exact h.silent hdeclarations htold.group htold.name (by rw [hfeed])
  · have hfresh : d.name ∉ (lines.filterMap declarationOf?).map Declaration.name := fun hmem => by
      rw [(h.declares_iff d.name).mpr hmem] at hnew
      cases hnew
    simp only [if_neg hfresh] at hdeclarations
    rw [hfeed]
    constructor
    · rw [hdeclarations, filterMap_concat, h.parameters]
    · rw [hdeclarations, filterMap_concat, h.outputs]
    · rw [hgroup]
      exact h.group
    · rw [hname]
      exact h.id
    · rw [hname]
      exact h.displayName

/-! ## Whole headers -/

/-- The header of some lines. -/
abbrev read (id displayName : String) (lines : List Text) : Header :=
  lines.foldl Header.feed (initial id displayName)

theorem read_concat (id displayName : String) (lines : List Text) (line : Text) :
    read id displayName (lines ++ [line]) = (read id displayName lines).feed line :=
  List.foldl_concat ..

/-- **All lines.** The header says what they say. -/
theorem tells_read (id displayName : String) (lines : List Text) :
    (read id displayName lines).Tells id displayName lines := by
  induction lines using List.reverseRecOn with
  | nil => exact tells_initial id displayName
  | append_singleton lines line ih =>
    rw [read_concat]
    exact ih.feed line

/-! ## Lines put aside -/

theorem rejected_concat (id displayName : String) (lines : List Text) (line : Text) :
    (read id displayName lines).rejected <+:
      (read id displayName (lines ++ [line])).rejected := by
  rw [read_concat]
  rcases (tells_read id displayName lines).rejects_cases line with ⟨-, e, hfeed⟩ | ⟨-, hsame⟩
  · rw [hfeed]
    exact List.prefix_append _ _
  · rw [hsame]

/-- What has been put aside stays in front, so that the first error is never replaced by a later
one. -/
theorem rejected_append (id displayName : String) (before after : List Text) :
    (read id displayName before).rejected <+:
      (read id displayName (before ++ after)).rejected := by
  induction after using List.reverseRecOn with
  | nil => rw [List.append_nil]
  | append_singleton after line ih =>
    rw [← List.append_assoc]
    exact ih.trans (rejected_concat id displayName _ line)

/-- The line is rejected where it stands among the lines. -/
def RejectsAmong (lines before : List Text) (line : Text) : Prop :=
  (∃ after, lines = before ++ line :: after) ∧ Rejects before line

theorem rejectsAmong_concat {other : Text} (h : RejectsAmong lines before line) :
    RejectsAmong (lines ++ [other]) before line := by
  obtain ⟨⟨after, rfl⟩, hrejects⟩ := h
  exact ⟨⟨after ++ [other], by rw [List.append_assoc, List.cons_append]⟩, hrejects⟩

/-- Where no line is rejected, none is put aside. -/
theorem rejected_eq_nil (id displayName : String)
    (h : ∀ before line, ¬ RejectsAmong lines before line) :
    (read id displayName lines).rejected = [] := by
  induction lines using List.reverseRecOn with
  | nil => rfl
  | append_singleton lines line ih =>
    rw [read_concat]
    rcases (tells_read id displayName lines).rejects_cases line with ⟨hrejects, -⟩ | ⟨-, hsame⟩
    · exact absurd ⟨⟨[], rfl⟩, hrejects⟩ (h lines line)
    · rw [hsame]
      exact ih fun before other hother => h before other (rejectsAmong_concat hother)

/-- A line that is rejected is put aside behind those before it, with an error of its own. -/
theorem RejectsAmong.front (id displayName : String) (h : RejectsAmong lines before line) :
    ∃ e, (read id displayName before).rejected ++ [(String.ofList line, e)] <+:
      (read id displayName lines).rejected := by
  obtain ⟨⟨after, rfl⟩, hrejects⟩ := h
  rcases (tells_read id displayName before).rejects_cases line with ⟨-, e, hfeed⟩ | ⟨hnot, -⟩
  · have hfront := rejected_append id displayName (before ++ [line]) after
    rw [read_concat, hfeed, List.append_assoc] at hfront
    exact ⟨e, hfront⟩
  · exact absurd hrejects hnot

/-- **The first** line that is rejected is the first that is put aside. -/
theorem head?_rejected (id displayName : String) (hline : RejectsAmong lines before line)
    (hfirst : ∀ earlier other, ¬ RejectsAmong before earlier other) :
    ∃ e, (read id displayName lines).rejected.head? = some (String.ofList line, e) := by
  obtain ⟨e, more, hmore⟩ := hline.front id displayName
  rw [rejected_eq_nil id displayName hfirst, List.nil_append] at hmore
  exact ⟨e, by rw [← hmore]; rfl⟩

end Header

/-! ## Scripts -/

namespace Script

open Header (RejectsAmong)

/-- The sentence about a header line that is rejected. -/
def syntaxError (line : Text) : String :=
  "This script has a syntax error.\nProblem with line: " ++ String.ofList line

/-- The names that a script declares. -/
def names (script : Script) : List String :=
  script.parameters.map (·.name) ++ script.outputs.map (·.name)

/-- A script means what the header lines say among the lines read, and holds the first of them that
is rejected. -/
structure Means (script : Script) (id displayName : String) (read : List Text) : Prop where
  /-- declarations, group and name are those that the lines say -/
  tells : script.header.Tells id displayName read
  /-- no name is declared twice -/
  distinct : script.names.Nodup
  /-- the names are such as a declaration may have -/
  proper : ∀ name ∈ script.names, IsProperName name
  /-- there is an error if some line is rejected -/
  error : script.error?.isSome = true ↔ ∃ before line, RejectsAmong read before line
  /-- the error quotes the first of them -/
  quoted : ∀ before line, RejectsAmong read before line →
    (∀ earlier other, ¬ RejectsAmong before earlier other) →
      script.error? = some (syntaxError line)

/-- A line changes nothing in what the lines before it have made but the whole text, the lines put
aside and, if there was none, the error. -/
structure ChangesNothing (before after : Script) (line : Text) : Prop where
  /-- the line goes to the text and is put aside -/
  same : ∃ e, after = { before with
    text := before.text ++ String.ofList (line ++ ['\n'])
    rejected := before.rejected ++ [(String.ofList line, e)] }
  /-- the error that was there stays -/
  error : after.error? = before.error?.or (some (syntaxError line))

section Reading

variable (id displayName : String) (origin : Origin) (lines : List Text)

theorem header_ofLines : (ofLines id displayName origin lines).header =
    Header.read id displayName (consumed lines) :=
  rfl

theorem error?_eq (script : Script) : script.error? =
    script.rejected.head?.map fun rejected =>
      "This script has a syntax error.\nProblem with line: " ++ rejected.1 := by
  rw [error?]
  congr 1

variable {id displayName lines}

/-- Every name that is declared is the name of a line that declares it, and so a proper one. -/
theorem exists_of_mem_names {script : Script} {read : List Text}
    (h : script.header.Tells id displayName read) {name : String} (hname : name ∈ script.names) :
    ∃ content d, resolveText content = .ok d ∧ d.name = name := by
  have hperm := Declaration.names_perm (declarationsOf read)
  rw [← h.parameters, ← h.outputs] at hperm
  obtain ⟨d, hd, rfl⟩ := List.mem_map.mp (hperm.subset hname)
  obtain ⟨line, -, hline⟩ := List.mem_filterMap.mp (Declaration.mem_of_mem_firstOfEach hd)
  obtain ⟨content, -, hcontent⟩ := Option.bind_eq_some_iff.mp hline
  refine ⟨content, d, ?_, rfl⟩
  cases hresolve : resolveText content with
  | error e =>
    rw [hresolve] at hcontent
    cases hcontent
  | ok other =>
    rw [hresolve] at hcontent
    rw [Option.some.inj hcontent]

variable (id displayName lines)

theorem means_ofLines :
    (ofLines id displayName origin lines).Means id displayName (consumed lines) := by
  have htells : (ofLines id displayName origin lines).header.Tells id displayName
      (consumed lines) := by
    rw [header_ofLines]
    exact Header.tells_read id displayName (consumed lines)
  have hrejected : (ofLines id displayName origin lines).rejected =
      (Header.read id displayName (consumed lines)).rejected := rfl
  refine ⟨htells, ?_, ?_, ?_, ?_⟩
  · have hperm := Declaration.names_perm (declarationsOf (consumed lines))
    rw [← htells.parameters, ← htells.outputs] at hperm
    exact hperm.nodup_iff.mpr (Declaration.nodup_names_firstOfEach _)
  · intro name hname
    obtain ⟨content, d, hresolve, rfl⟩ := exists_of_mem_names htells hname
    exact isProperName_of_resolveText hresolve
  · rw [error?_eq, hrejected, Option.isSome_map, List.isSome_head?]
    constructor
    · intro hsome
      -- with no line to be rejected there is nothing put aside
      by_contra hnone
      refine hsome (Header.rejected_eq_nil id displayName fun before line h => hnone ?_)
      exact ⟨before, line, h⟩
    · rintro ⟨before, line, hline⟩ hnil
      obtain ⟨e, more, hmore⟩ := hline.front id displayName
      rw [hnil] at hmore
      simp at hmore
  · intro before line hline hfirst
    obtain ⟨e, he⟩ := Header.head?_rejected id displayName hline hfirst
    rw [error?_eq, hrejected, he]
    rfl

/-- A line that is rejected changes nothing else: without it the script would say the same. -/
theorem changesNothing_ofLines {before : List Text} {line : Text}
    (h : RejectsAmong (consumed lines) before line) :
    ChangesNothing (ofLines id displayName origin before)
      (ofLines id displayName origin (before ++ [line])) line := by
  obtain ⟨⟨after, hlines⟩, hrejects⟩ := h
  -- the lines before it are read to the end, and so is the line itself
  have hbefore : consumed before = before :=
    consumed_of_front ⟨line :: after, hlines.symm⟩
  have hline : consumed (before ++ [line]) = before ++ [line] := by
    have hfront : before ++ [line] <+: consumed lines :=
      ⟨after, by rw [List.append_assoc, hlines, List.singleton_append]⟩
    exact consumed_of_front hfront
  rcases (Header.tells_read id displayName before).rejects_cases line with
    ⟨-, e, hfeed⟩ | ⟨hnot, -⟩
  · have hmark : (headerContent? line).isNone = false := by
      rw [Bool.eq_false_iff]
      exact fun hnone => (headerContent?_isNone_iff line).mp hnone hrejects.1
    have hsame : ofLines id displayName origin (before ++ [line]) =
        { ofLines id displayName origin before with
          text := (ofLines id displayName origin before).text ++ String.ofList (line ++ ['\n'])
          rejected := (ofLines id displayName origin before).rejected ++
            [(String.ofList line, e)] } := by
      have hread : (before ++ [line]).foldl Header.feed (Header.initial id displayName) =
          { before.foldl Header.feed (Header.initial id displayName) with
            rejected := (before.foldl Header.feed (Header.initial id displayName)).rejected ++
              [(String.ofList line, e)] } :=
        (Header.read_concat id displayName before line).trans hfeed
      simp [ofLines, hbefore, hline, hread, hmark]
    refine ⟨⟨e, hsame⟩, ?_⟩
    rw [hsame, error?_eq, error?_eq, List.head?_append, Option.map_or]
    rfl
  · exact absurd hrejects hnot

/-- **The header of a script.** A line sets group or name if it gives their key a value. The script
means what the lines of its header say among the lines read, and a line that is rejected changes
nothing else. Of groups and names the last counts, of declarations of one name the first, and of
errors the first. -/
theorem header_means :
    (∀ line value, (groupOf? line = some value ↔ Gives line groupKey value) ∧
      (nameOf? line = some value ↔ Gives line nameKey value)) ∧
    (ofLines id displayName origin lines).Means id displayName (consumed lines) ∧
    ∀ before line, RejectsAmong (consumed lines) before line →
      ChangesNothing (ofLines id displayName origin before)
        (ofLines id displayName origin (before ++ [line])) line := by
  refine ⟨fun line value => ⟨groupOf?_eq_some_iff, nameOf?_eq_some_iff⟩, ?_, ?_⟩
  · exact means_ofLines id displayName origin lines
  · intro before line h
    exact changesNothing_ofLines id displayName origin lines h

/-- A second declaration of a name is rejected, a second name counts. -/
example : let script := ofLines "s" "S" (.inline "") (["--#size=string", "--#Old=name",
      "--#size=raster", "--#New_one=name", "--#size"].map String.toList)
    script.names = ["size"] ∧ script.id = "newone" ∧ script.displayName = "New one" ∧
      script.error? = some (syntaxError "--#size=raster".toList) := by
  decide +kernel

end Reading

end Script

end FeatureTransform
