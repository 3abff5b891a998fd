import FeatureTransform.Proofs.Script.Naming
import FeatureTransform.Proofs.Text.Blank
import FeatureTransform.Script.Help

/-!
# What a help shows

A help may have texts for any names at all, but only some of them are shown: those for the names
that the script declares, and those for the four names about the script as a whole. So two helps
that agree on these look the same. What is shown is a sheet of three sections, each of them left out
if it has nothing to show; the white space behind it is taken off, even if it belongs to a text.
-/

namespace FeatureTransform

namespace Text

/-- The text without all the white space at its end, and without anything else. -/
structure IsTrimEnd (s t : Text) : Prop where
  /-- only white space is missing -/
  blank : ∃ back, s = t ++ back ∧ ∀ c ∈ back, Char.isBlank c = true
  /-- no more of it is at the end -/
  last : ∀ c ∈ t.getLast?, Char.isBlank c = false

theorem isTrimEnd_trimEnd (s : Text) : IsTrimEnd s (trimEnd s) where
  blank := by
    refine ⟨(s.reverse.takeWhile Char.isBlank).reverse, ?_, fun c hc => ?_⟩
    · rw [trimEnd, trimEndBy, ← List.reverse_append, List.takeWhile_append_dropWhile,
        List.reverse_reverse]
    · exact List.mem_takeWhile_imp (List.mem_reverse.mp hc)
  last := by
    intro c hc
    rw [trimEnd, trimEndBy, List.getLast?_reverse] at hc
    exact head?_dropWhile c hc

end Text

namespace Help

variable {help other : Help} {script : Script}

/-! ## Texts -/

/-- The help has a text for a name; an empty text is none. -/
def Has (help : Help) (name text : String) : Prop :=
  help.entries.lookup name = some text ∧ text ≠ ""

/-- A text is found under a name exactly if the help has it there. -/
theorem get?_eq_some_iff {name text : String} :
    help.get? name = some text ↔ help.Has name text := by
  rw [get?, Has]
  split
  · next hnone =>
    rw [hnone]
    simp
  · next hempty =>
    rw [hempty]
    simp +contextual [eq_comm]
  · next found hne hfound =>
    rw [hfound, Option.some.injEq]
    exact ⟨fun h => ⟨h, fun hempty => hne (h.trans hempty)⟩, And.left⟩

theorem get?_eq_none_iff {name : String} :
    help.get? name = none ↔ ∀ text, ¬ help.Has name text := by
  simp only [Option.eq_none_iff_forall_ne_some, ne_eq, get?_eq_some_iff]

theorem Has.unique {name text found : String} (h : help.Has name text) (h' : help.Has name found) :
    text = found :=
  Option.some.inj (h.1.symm.trans h'.1)

/-- The helps have the same text for a name, or both have none. -/
def AgreeOn (help other : Help) (name : String) : Prop :=
  ∀ text, help.Has name text ↔ other.Has name text

/-- The names about the script as a whole. -/
def ownNames : List String := ["ALG_DESC", "ALG_CREATOR", "ALG_HELP_CREATOR", "ALG_VERSION"]

/-! ## Lines -/

/-- The lines for some names, of which each goes with a label: in the order of the names there is
one line, of the label and the text, for each name that has a text. -/
inductive Lists (help : Help) : List (String × String) → List (String × String) → Prop where
  /-- there are no more names -/
  | done : Lists help [] []
  /-- the name has a text -/
  | line {name label text : String} {names lines : List (String × String)}
      (has : help.Has name text) (rest : Lists help names lines) :
      Lists help ((name, label) :: names) ((label, text) :: lines)
  /-- the name has none -/
  | nothing {name label : String} {names lines : List (String × String)}
      (has : ∀ text, ¬ help.Has name text) (rest : Lists help names lines) :
      Lists help ((name, label) :: names) lines

/-- The lines as they are written. -/
def written (before : String) (lines : List (String × String)) : String :=
  String.join (lines.map fun line => before ++ line.1 ++ ": " ++ line.2 ++ "\n")

/-- Nothing is written exactly if there are no lines. -/
theorem written_eq_empty_iff {before : String} {lines : List (String × String)} :
    written before lines = "" ↔ lines = [] := by
  cases lines with
  | nil => simp [written]
  | cons line rest => simp [written, String.join_cons]

theorem exists_lists (help : Help) (names : List (String × String)) :
    ∃ lines, help.Lists names lines := by
  induction names with
  | nil => exact ⟨[], .done⟩
  | cons name rest ih =>
    obtain ⟨lines, hlines⟩ := ih
    by_cases htext : ∃ text, help.Has name.1 text
    · obtain ⟨text, htext⟩ := htext
      exact ⟨_, .line htext hlines⟩
    · exact ⟨_, .nothing (not_exists.mp htext) hlines⟩

namespace Lists

variable {names lines : List (String × String)}

/-- Only the texts for these names matter, whatever other names the help has texts for. -/
theorem congr (h : help.Lists names lines) (hsame : ∀ name ∈ names, help.AgreeOn other name.1) :
    other.Lists names lines := by
  induction h with
  | done => exact .done
  | line has _ ih =>
    rw [List.forall_mem_cons] at hsame
    exact .line ((hsame.1 _).mp has) (ih hsame.2)
  | nothing has _ ih =>
    rw [List.forall_mem_cons] at hsame
    exact .nothing (fun text htext => has text ((hsame.1 text).mpr htext)) (ih hsame.2)

/-- A text is in the lines if the help has it for a name with that label, and in no other way. -/
theorem mem_iff (h : help.Lists names lines) {label text : String} :
    (label, text) ∈ lines ↔ ∃ name, (name, label) ∈ names ∧ help.Has name text := by
  induction h with
  | done => simp
  | @line name _ found _ _ has _ ih =>
    have hfound : ∀ text, help.Has name text ↔ text = found :=
      fun text => ⟨fun h => h.unique has, fun h => h ▸ has⟩
    simp only [List.mem_cons, Prod.mk.injEq, ih, or_and_right, exists_or, and_assoc,
      exists_eq_left, hfound]
  | nothing has _ ih =>
    simp only [List.mem_cons, Prod.mk.injEq, ih, or_and_right, exists_or, and_assoc,
      exists_eq_left, has, and_false, false_or]

/-- The lines follow the order of the names; names without a text are left out. -/
theorem sublist (h : help.Lists names lines) :
    (lines.map Prod.fst).Sublist (names.map Prod.snd) := by
  induction h with
  | done => exact .slnil
  | line _ _ ih => exact ih.cons_cons _
  | nothing _ _ ih => exact ih.cons _

/-- What is written of lines is their labels and texts, one pair on each line. -/
theorem linesOf_eq (h : help.Lists names lines) (before : String) :
    help.linesOf names before ": " = written before lines := by
  rw [linesOf, written]
  congr 1
  induction h with
  | done => rfl
  | line has _ ih =>
    rw [List.map_cons, ← ih]
    simp only [List.filterMap_cons, get?_eq_some_iff.mpr has, Option.map_some]
  | nothing has _ ih =>
    rw [← ih]
    simp only [List.filterMap_cons, get?_eq_none_iff.mpr has, Option.map_none]

end Lists

/-! ## Sheets -/

/-- What is shown of a help. -/
structure Sheet where
  /-- the description of the script -/
  description? : Option String
  /-- declared names with their texts -/
  declared : List (String × String)
  /-- labels for the authors and the version, with the texts -/
  colophon : List (String × String)

/-- The sections of a sheet one after another, before the white space at the end is taken off. -/
def Sheet.text (sheet : Sheet) : String :=
  sheet.description?.elim "" (· ++ "\n\n") ++
  (if sheet.declared = [] then "" else "Parameters:\n" ++ written "  " sheet.declared ++ "\n") ++
  written "" sheet.colophon

/-- The sheet is the one that a help gives for a script. -/
structure Fills (help : Help) (script : Script) (sheet : Sheet) : Prop where
  /-- the description is the text for the script -/
  description : ∀ text, sheet.description? = some text ↔ help.Has "ALG_DESC" text
  /-- the names are those that the script declares, parameters first -/
  declared : help.Lists (script.names.map fun name => (name, name)) sheet.declared
  /-- the rest is about the authors and the version -/
  colophon : help.Lists
    [("ALG_CREATOR", "Algorithm author"), ("ALG_HELP_CREATOR", "Help author"),
      ("ALG_VERSION", "Algorithm version")] sheet.colophon

theorem exists_fills (help : Help) (script : Script) : ∃ sheet, help.Fills script sheet := by
  obtain ⟨declared, hdeclared⟩ := help.exists_lists (script.names.map fun name => (name, name))
  obtain ⟨colophon, hcolophon⟩ := help.exists_lists
    [("ALG_CREATOR", "Algorithm author"), ("ALG_HELP_CREATOR", "Help author"),
      ("ALG_VERSION", "Algorithm version")]
  exact ⟨⟨help.get? "ALG_DESC", declared, colophon⟩,
    fun _ => get?_eq_some_iff, hdeclared, hcolophon⟩

namespace Fills

variable {sheet : Sheet}

/-- Only texts for declared names and for the script as a whole matter. -/
theorem congr (h : help.Fills script sheet)
    (hsame : ∀ name ∈ ownNames ++ script.names, help.AgreeOn other name) :
    other.Fills script sheet := by
  rw [List.forall_mem_append, ownNames] at hsame
  obtain ⟨hown, hnames⟩ := hsame
  refine ⟨fun text => ?_, h.declared.congr ?_, h.colophon.congr ?_⟩
  · exact (h.description text).trans (hown "ALG_DESC" (by simp) text)
  · exact List.forall_mem_map.mpr hnames
  · exact fun name hname => hown name.1 (List.mem_cons_of_mem _ (List.mem_map_of_mem hname))

/-- The sections are shown as they stand on the sheet, and white space at the end is taken off. -/
theorem format_eq (h : help.Fills script sheet) :
    help.format script = String.ofList (Text.trimEnd sheet.text.toList) := by
  have hdescription : help.get? "ALG_DESC" = sheet.description? :=
    Option.ext fun text => get?_eq_some_iff.trans (h.description text).symm
  have hdeclared := h.declared.linesOf_eq "  "
  rw [Script.names] at hdeclared
  rw [format, Sheet.text, hdescription, hdeclared, Help.colophon, h.colophon.linesOf_eq ""]
  simp only [written_eq_empty_iff]
  cases sheet.description? <;> rfl

/-- Each declared name with a text has one line, since no script declares a name twice. -/
theorem nodup (h : help.Fills script sheet) (hscript : script.ComesAbout) :
    (sheet.declared.map Prod.fst).Nodup := by
  have hnames : (script.names.map fun name => (name, name)).map Prod.snd = script.names := by
    rw [List.map_map]
    exact List.map_id _
  exact (hnames ▸ h.declared.sublist).nodup hscript.nodup_names

end Fills

/-- **Help.** What is shown depends only on the texts for the names that the script declares and for
those about the script as a whole. It is the sheet of these texts without the white space at its
end: the description, one line for each declared name that has a text, and the lines for the authors
and the version. -/
theorem format_shows (help : Help) (script : Script) :
    (∀ other : Help, (∀ name ∈ ownNames ++ script.names, help.AgreeOn other name) →
      other.format script = help.format script) ∧
    ∃ sheet, help.Fills script sheet ∧
      Text.IsTrimEnd sheet.text.toList (help.format script).toList ∧
      (∀ name text, (name, text) ∈ sheet.declared ↔ name ∈ script.names ∧ help.Has name text) ∧
      (script.ComesAbout → (sheet.declared.map Prod.fst).Nodup) := by
  obtain ⟨sheet, hsheet⟩ := help.exists_fills script
  refine ⟨fun other hsame => ?_, sheet, hsheet, ?_, fun name text => ?_, hsheet.nodup⟩
  · rw [hsheet.format_eq, (hsheet.congr hsame).format_eq]
  · rw [hsheet.format_eq, String.toList_ofList]
    exact Text.isTrimEnd_trimEnd _
  · rw [hsheet.declared.mem_iff]
    simp only [List.mem_map, Prod.mk.injEq]
    constructor
    · rintro ⟨_, ⟨_, hname, rfl, rfl⟩, htext⟩
      exact ⟨hname, htext⟩
    · rintro ⟨hname, htext⟩
      exact ⟨name, ⟨name, hname, rfl, rfl⟩, htext⟩

/-- An empty text is not shown, nor one for a name that is not declared, nor a blank at the end. -/
example : (Help.mk [("ALG_DESC", "Renames roads."), ("ALG_VERSION", "2 "), ("name", "The name."),
      ("total", ""), ("unknown", "ignored")]).format
        (Script.ofSource "--#name=string\n--#total=output number") =
      "Renames roads.\n\nParameters:\n  name: The name.\n\nAlgorithm version: 2" := by
  decide +kernel

end Help

end FeatureTransform
