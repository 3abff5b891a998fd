import FeatureTransform.Proofs.Script.Header
import FeatureTransform.Proofs.Text.Case
import FeatureTransform.Script.File

/-!
# The names of a script

A script has a name for people and an id for commands. Both come from one text: the stem of the
file name, the last name the header gives, or neither. They are made apart, the name by turning
underscores into blanks, the id by leaving out all but letters and digits of ASCII in lower case;
but the id can always be made again from the name, since neither of the two counts in it.
-/

namespace FeatureTransform

/-! ## Ids -/

/-- An id consists of small letters and digits of ASCII; all other characters are left out. -/
theorem of_mem_idOf {name : Text} {c : Char} (h : c ∈ (idOf name).toList) :
    c.isAlphanum = true ∧ c.isUpper = false := by
  rw [idOf, String.toList_ofList, List.mem_filter] at h
  exact ⟨h.2, Text.isUpper_of_mem_lower h.1⟩

theorem underscore_not_mem_idOf (name : Text) : '_' ∉ (idOf name).toList :=
  fun h => absurd (of_mem_idOf h).1 (by decide)

/-- An id is in lower case. -/
theorem lower_idOf (name : Text) : Text.lower (idOf name).toList = (idOf name).toList := by
  refine Text.lowerAfter_eq_self [] fun c hc => ?_
  obtain ⟨halphanum, hupper⟩ := of_mem_idOf hc
  exact ⟨toNat_lt_of_isAlphanum halphanum, hupper⟩

/-- An id is its own id, so that it may be looked for by itself. -/
theorem idOf_idOf (name : Text) : idOf (idOf name).toList = idOf name := by
  have hall : (idOf name).toList.filter Char.isAlphanum = (idOf name).toList :=
    List.filter_eq_self.mpr fun c hc => (of_mem_idOf hc).1
  rw [idOf, lower_idOf, hall, String.ofList_toList]

/-- Texts that are the same in lower case have the same id, as an id is made of the lower case. -/
theorem idOf_congr {name other : Text} (h : Text.lower name = Text.lower other) :
    idOf name = idOf other := by
  rw [idOf, idOf, h]

/-- The id of a label is that of the name: underscore and blank both count for nothing. -/
theorem idOf_labelOf (name : Text) : idOf (labelOf name).toList = idOf name := by
  rw [idOf, idOf, Text.filter_lower, Text.filter_lower, labelOf, String.toList_ofList,
    List.flatMap_map]
  congr 2
  funext c
  split
  · next hc =>
    subst hc
    decide
  · rfl

theorem underscore_not_mem_labelOf (name : Text) : '_' ∉ (labelOf name).toList := by
  rw [labelOf, String.toList_ofList, List.mem_map]
  rintro ⟨c, -, hc⟩
  split at hc
  · exact absurd hc (by decide)
  · next hne => exact hne hc

/-! ## A name and its id -/

/-- A name for people and the id it belongs to. -/
structure IsNamed (id displayName : String) : Prop where
  /-- the id can be made from the name -/
  id_eq : id = idOf displayName.toList
  /-- the name has blanks for underscores -/
  no_underscore : '_' ∉ displayName.toList

namespace IsNamed

variable {id displayName : String}

theorem lower_id (h : IsNamed id displayName) : Text.lower id.toList = id.toList := by
  rw [h.id_eq]
  exact lower_idOf _

theorem idOf_id (h : IsNamed id displayName) : idOf id.toList = id := by
  rw [h.id_eq]
  exact idOf_idOf _

theorem no_underscore_id (h : IsNamed id displayName) : '_' ∉ id.toList := by
  rw [h.id_eq]
  exact underscore_not_mem_idOf _

end IsNamed

theorem isNamed_of_text (name : Text) : IsNamed (idOf name) (labelOf name) where
  id_eq := (idOf_labelOf name).symm
  no_underscore := underscore_not_mem_labelOf name

/-- **One line** of a header keeps the id and the name together. -/
theorem Header.isNamed_feed {header : Header} (h : IsNamed header.id header.displayName)
    (line : Text) : IsNamed (header.feed line).id (header.feed line).displayName := by
  rcases header.feed_cases line with ⟨-, -, hfeed⟩ | ⟨-, -, e, hfeed⟩ | ⟨group, -, hfeed⟩ |
    ⟨name, -, hfeed⟩ | ⟨d, -, -, -, e, hfeed⟩ | ⟨d, -, -, hfeed⟩
  · rwa [hfeed]
  · rwa [hfeed]
  · rwa [hfeed]
  · rw [hfeed]
    exact isNamed_of_text name
  · rwa [hfeed]
  · rwa [hfeed]

/-- **All lines** of a header do. -/
theorem Header.isNamed_foldl {header : Header} (h : IsNamed header.id header.displayName)
    (lines : List Text) :
    IsNamed (lines.foldl Header.feed header).id (lines.foldl Header.feed header).displayName := by
  induction lines generalizing header with
  | nil => exact h
  | cons line rest ih => exact ih (Header.isNamed_feed h line)

namespace Script

variable {tree : FileTree} {script : Script}

theorem isNamed_ofLines {id displayName : String} (h : IsNamed id displayName) (origin : Origin)
    (lines : List Text) :
    IsNamed (ofLines id displayName origin lines).id
      (ofLines id displayName origin lines).displayName :=
  Header.isNamed_foldl h (consumed lines)

/-! ## Where scripts come from -/

/-- The ways in which scripts come about. -/
inductive ComesAbout : Script → Prop where
  /-- from a text given directly -/
  | inline (source : String) : ComesAbout (ofSource source)
  /-- from a file of the program -/
  | builtin {name : String} {script : Script} (h : ofBuiltin? name = some script) :
      ComesAbout script
  /-- from a file found in a folder -/
  | content {names : List FileName} {content : ByteArray} {script : Script}
      (h : ofContent names content = .ok script) : ComesAbout script
  /-- from a file by its path -/
  | file {tree : FileTree} {path : Path} {script : Script} (h : load tree path = .ok script) :
      ComesAbout script

theorem exists_of_ofBuiltin? {name : String} (h : ofBuiltin? name = some script) :
    ∃ text, script = ofNamed name text (.builtin name) := by
  obtain ⟨text, -, rfl⟩ := Option.map_eq_some_iff.mp h
  exact ⟨text, rfl⟩

theorem exists_of_ofContent {names : List FileName} {content : ByteArray}
    (h : ofContent names content = .ok script) :
    ∃ text, script = ofNamed (shownName names.getLast?) text (.file (Path.ofNames names)) := by
  unfold ofContent at h
  split at h
  · cases h
  · next text _ =>
    cases h
    exact ⟨text, rfl⟩

theorem exists_of_load {path : Path} (h : load tree path = .ok script) :
    ∃ fileName text full, script = ofNamed fileName text (.file full) := by
  unfold load at h
  split at h
  · cases h
  · next text _ =>
    cases h
    exact ⟨_, text, _, rfl⟩

/-- However a script comes about, it is read from lines, and begins with a name and its id. So what
every line keeps holds of every script. -/
theorem ComesAbout.exists_ofLines (h : script.ComesAbout) : ∃ id displayName origin lines,
    IsNamed id displayName ∧ script = ofLines id displayName origin lines := by
  cases h with
  | inline source => exact ⟨_, _, _, _, ⟨by decide, by decide⟩, rfl⟩
  | builtin h =>
    obtain ⟨text, rfl⟩ := exists_of_ofBuiltin? h
    exact ⟨_, _, _, _, isNamed_of_text _, rfl⟩
  | content h =>
    obtain ⟨text, rfl⟩ := exists_of_ofContent h
    exact ⟨_, _, _, _, isNamed_of_text _, rfl⟩
  | file h =>
    obtain ⟨fileName, text, full, rfl⟩ := exists_of_load h
    exact ⟨_, _, _, _, isNamed_of_text _, rfl⟩

/-- **Names.** However a script comes about, its id is that of its name. They start from one text,
and each line that changes one of them changes both. -/
theorem ComesAbout.isNamed (h : script.ComesAbout) : IsNamed script.id script.displayName := by
  obtain ⟨id, displayName, origin, lines, hnamed, rfl⟩ := h.exists_ofLines
  exact isNamed_ofLines hnamed origin lines

/-- However a script comes about, it declares no name twice, since the second declaration of a name
is rejected. -/
theorem ComesAbout.nodup_names (h : script.ComesAbout) : script.names.Nodup := by
  obtain ⟨id, displayName, origin, lines, -, rfl⟩ := h.exists_ofLines
  exact (means_ofLines id displayName origin lines).distinct

end Script

end FeatureTransform
