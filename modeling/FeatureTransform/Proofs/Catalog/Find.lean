import FeatureTransform.Catalog
import FeatureTransform.Proofs.Script.Naming

/-!
# Finding scripts

A query means the first script in the order of the catalog that it fits by id, by name or, for a
script of the program, by file name. Of several that fit, the order may put any first. It does not
matter: names that are the same in lower case have the same id, and what fits by its file name
alone is no id and no name, since the file names of the program have an underscore.
-/

namespace FeatureTransform.Catalog

variable {tree : FileTree} {folders : List Path} {path : Path} {names : List FileName}
  {script : Script}

/-! ## What is in the catalog -/

theorem value_bind {α β : Type} (x : Noted α) (f : α → Noted β) :
    (x >>= f).value = (f x.value).value :=
  rfl

theorem ofContent_of_mem_scanFile {content : ByteArray}
    (h : script ∈ (scanFile path names content).value) :
    Script.ofContent names content = .ok script := by
  unfold scanFile at h
  split at h
  · exact absurd h List.not_mem_nil
  · next found hfound =>
    rw [value_bind] at h
    split at h
    · exact absurd h List.not_mem_nil
    · have hvalue : script ∈ [found] := by
        split at h <;> exact h
      rwa [List.mem_singleton.mp hvalue]

mutual

/-- What is found at or below a place was read from a file. Nothing is said of which: for names and
ids it only matters how the script came about. -/
theorem exists_of_mem_scan : ∀ (node : Node) (path : Path) (names : List FileName),
    script ∈ (scan path names node).value →
      ∃ names content, Script.ofContent names content = .ok script
  | .file content, path, names, h => by
    rw [scan] at h
    split at h
    · exact ⟨names, content, ofContent_of_mem_scanFile h⟩
    · exact absurd h List.not_mem_nil
  | .folder entries, path, names, h => by
    rw [scan] at h
    obtain ⟨found, hfound, hscript⟩ := List.mem_flatMap.mp h
    obtain ⟨entry, hentry, rfl⟩ := List.mem_map.mp hfound
    exact exists_of_mem_scanEntries entries path names entry (List.mem_mergeSort.mp hentry) hscript

/-- What is found at or below an entry of a folder was, too; the two statements go down the tree
together. -/
theorem exists_of_mem_scanEntries : ∀ (entries : List (FileName × Node)) (path : Path)
    (names : List FileName), ∀ found ∈ scanEntries path names entries, script ∈ found.2.value →
      ∃ names content, Script.ofContent names content = .ok script
  | [], _, _, _, hfound, _ => absurd hfound List.not_mem_nil
  | (name, node) :: rest, path, names, found, hfound, h => by
    rw [scanEntries] at hfound
    rcases List.mem_cons.mp hfound with rfl | hrest
    · exact exists_of_mem_scan node (path.join (.ofName name)) (names ++ [name]) h
    · exact exists_of_mem_scanEntries rest path names found hrest h

end

theorem exists_of_mem_discover (h : script ∈ (discover tree folders).value) :
    ∃ names content, Script.ofContent names content = .ok script := by
  obtain ⟨found, hfound, hscript⟩ := List.mem_flatMap.mp h
  obtain ⟨folder, -, rfl⟩ := List.mem_map.mp hfound
  unfold discoverIn at hscript
  split at hscript
  · next entries names _ _ => exact exists_of_mem_scan (.folder entries) folder names hscript
  · exact absurd hscript List.not_mem_nil

/-- A script of the catalog is one of the program or was found in a folder. Sorting adds nothing and
loses nothing. -/
theorem mem_all_iff : script ∈ (all tree folders).value ↔
    script ∈ builtins ∨ script ∈ (discover tree folders).value := by
  change script ∈ (builtins ++ (discover tree folders).value).mergeSort precedes ↔ _
  rw [List.mem_mergeSort, List.mem_append]

/-- Every script of the catalog came about in one of the known ways, so its id is the one of its
name. -/
theorem comesAbout_of_mem_all (h : script ∈ (all tree folders).value) : script.ComesAbout := by
  rcases mem_all_iff.mp h with h | h
  · obtain ⟨file, -, hfile⟩ := List.mem_filterMap.mp h
    exact .builtin hfile
  · obtain ⟨names, content, hcontent⟩ := exists_of_mem_discover h
    exact .content hcontent

/-- The file names of the program have an underscore. No id and no name has one, so a file name is
never taken for either. -/
theorem underscore_mem_of_origin (h : script ∈ (all tree folders).value) {name : String}
    (horigin : script.origin = .builtin name) : '_' ∈ (lowered name).toList := by
  rcases mem_all_iff.mp h with h | h
  · obtain ⟨file, hmem, hfile⟩ := List.mem_filterMap.mp h
    obtain ⟨text, rfl⟩ := Script.exists_of_ofBuiltin? hfile
    obtain rfl : file.name = name := Origin.builtin.inj horigin
    have hall : ∀ file ∈ Script.builtins, '_' ∈ (lowered file.name).toList := by decide
    exact hall file hmem
  · obtain ⟨names, content, hcontent⟩ := exists_of_mem_discover h
    obtain ⟨text, rfl⟩ := Script.exists_of_ofContent hcontent
    cases horigin

/-! ## What a query means -/

variable {query : String}

/-- Unless a file stands there, a query means the first script that answers to it. -/
theorem find_eq_ok_iff (hfile : tree.isFile query = false) :
    (find tree folders query).value = .ok script ↔
      (all tree folders).value.find? (answers (lowered query)) = some script := by
  simp only [find, hfile, Bool.false_eq_true, if_false, value_bind]
  split
  · next found hfound =>
    rw [hfound]
    change Except.ok found = Except.ok script ↔ _
    rw [Except.ok.injEq, Option.some.injEq]
  · next hnone =>
    rw [hnone]
    exact ⟨nofun, nofun⟩

/-- The three ways in which a script answers to a query, each by itself. -/
theorem answers_iff {wanted : String} : answers wanted script = true ↔
    script.id = wanted ∨ lowered script.displayName = wanted ∨
      ∃ name, script.origin = .builtin name ∧ lowered name = wanted := by
  rw [answers, Bool.or_eq_true, Bool.or_eq_true, beq_iff_eq, beq_iff_eq, or_assoc]
  cases script.origin <;> simp

theorem lowered_inj {s t : String} (h : lowered s = lowered t) :
    Text.lower s.toList = Text.lower t.toList :=
  String.ofList_injective h

/-- A script that a query fits has the id of the query, unless the query is its file name: an id is
its own id, and names that are the same in lower case have the same. -/
theorem id_of_answers (hnamed : IsNamed script.id script.displayName)
    (h : answers (lowered query) script = true) : script.id = idOf query.toList ∨
      ∃ name, script.origin = .builtin name ∧ lowered name = lowered query := by
  rcases answers_iff.mp h with hid | hname | hfile
  · left
    have hlower : lowered script.id = lowered query := by
      rw [lowered, hnamed.lower_id, String.ofList_toList, hid]
    rw [← idOf_congr (lowered_inj hlower), hnamed.idOf_id]
  · left
    rw [← idOf_congr (lowered_inj hname), ← hnamed.id_eq]
  · exact .inr hfile

/-- A script fits its id and its name, whatever the case in which they are written. -/
theorem answers_of_named (hnamed : IsNamed script.id script.displayName)
    (hquery : query = script.id ∨ query = script.displayName) :
    answers (lowered query) script = true := by
  rcases hquery with rfl | rfl
  · exact answers_iff.mpr (.inl (by rw [lowered, hnamed.lower_id, String.ofList_toList]))
  · exact answers_iff.mpr (.inr (.inl rfl))

theorem idOf_of_named (hnamed : IsNamed script.id script.displayName)
    (hquery : query = script.id ∨ query = script.displayName) : idOf query.toList = script.id := by
  rcases hquery with rfl | rfl
  · exact hnamed.idOf_id
  · exact hnamed.id_eq.symm

theorem underscore_not_mem_of_named (hnamed : IsNamed script.id script.displayName)
    (hquery : query = script.id ∨ query = script.displayName) : '_' ∉ query.toList := by
  rcases hquery with rfl | rfl
  · exact hnamed.no_underscore_id
  · exact hnamed.no_underscore

/-- What a script's id or name finds has its id. Another script may stand in front and fit as well,
by its id or by its name, but then its id is the same; only a file name could lead elsewhere, and
the query has no underscore. -/
theorem exists_find_of_named (hfile : tree.isFile query = false)
    (hscript : script ∈ (all tree folders).value)
    (hquery : query = script.id ∨ query = script.displayName) :
    ∃ found, (find tree folders query).value = .ok found ∧ found.id = script.id := by
  have hnamed := (comesAbout_of_mem_all hscript).isNamed
  have hsome : ((all tree folders).value.find? (answers (lowered query))).isSome := by
    rw [List.find?_isSome]
    exact ⟨script, hscript, answers_of_named hnamed hquery⟩
  obtain ⟨found, hfound⟩ := Option.isSome_iff_exists.mp hsome
  refine ⟨found, (find_eq_ok_iff hfile).mpr hfound, ?_⟩
  have hmem : found ∈ (all tree folders).value := List.mem_of_find?_eq_some hfound
  -- what answers first need not be the script itself, but by all it can answer to it has its id
  rcases id_of_answers (comesAbout_of_mem_all hmem).isNamed (List.find?_some hfound) with
    hid | ⟨name, horigin, hname⟩
  · rw [hid, idOf_of_named hnamed hquery]
  · have hunderscore := underscore_mem_of_origin hmem horigin
    rw [hname, lowered, String.toList_ofList] at hunderscore
    exact absurd (Text.underscore_mem_of_mem_lower hunderscore)
      (underscore_not_mem_of_named hnamed hquery)

/-- **Finding scripts.** However a script comes about, its id is that of its name. A query that is
no file therefore finds a script of its own id, or one of the program by its file name; and the id
and the name of any script in the catalog find a script of that id, whatever else they fit. -/
theorem find_keeps_ids (tree : FileTree) (folders : List Path) :
    (∀ script : Script, script.ComesAbout → script.id = idOf script.displayName.toList) ∧
      ∀ query : String, tree.isFile query = false →
        (∀ found, (find tree folders query).value = .ok found →
          found.id = idOf query.toList ∨
            ∃ name, found.origin = .builtin name ∧ lowered name = lowered query) ∧
        ∀ script ∈ (all tree folders).value, query = script.id ∨ query = script.displayName →
          ∃ found, (find tree folders query).value = .ok found ∧ found.id = script.id := by
  refine ⟨fun script h => h.isNamed.id_eq, fun query hfile => ⟨fun found hfind => ?_, ?_⟩⟩
  · have hfound := (find_eq_ok_iff hfile).mp hfind
    have hmem : found ∈ (all tree folders).value := List.mem_of_find?_eq_some hfound
    exact id_of_answers (comesAbout_of_mem_all hmem).isNamed (List.find?_some hfound)
  · exact fun script hscript hquery => exists_find_of_named hfile hscript hquery

/-- A folder with a script that is called as one of the program is. -/
def namesakes : FileTree where
  root := .folder [("scripts", .folder [("roads.lua", .file "--#rename_roads=name".toUTF8)])]
  workingFolder := []

/-- The script in that folder. -/
def namesake : Script :=
  .ofNamed "roads.lua" "--#rename_roads=name" (.file (Path.ofNames ["scripts", "roads.lua"]))

/-- The script is in the catalog beside the one of the program that has the same name. -/
theorem namesake_mem_all : namesake ∈ (all namesakes ["scripts"]).value := by
  have hfound : (discover namesakes ["scripts"]).value = [namesake] := by decide +kernel
  refine mem_all_iff.mpr (.inr ?_)
  rw [hfound]
  exact List.mem_singleton_self namesake

/-- The name leads to one of the two, and to their common id whichever it is. -/
theorem find_keeps_ids_namesakes : namesakes.isFile "rename roads" = false ∧
    namesake ∈ (all namesakes ["scripts"]).value ∧ namesake.displayName = "rename roads" ∧
    namesake.id = idOf namesake.displayName.toList ∧
    ∃ found, (find namesakes ["scripts"] "rename roads").value = .ok found ∧
      found.id = "renameroads" ∧
      (found.id = idOf "rename roads".toList ∨
        ∃ name, found.origin = .builtin name ∧ lowered name = lowered "rename roads") := by
  have hfile : namesakes.isFile "rename roads" = false := by decide +kernel
  have hname : namesake.displayName = "rename roads" := by decide +kernel
  obtain ⟨hids, hfind⟩ := find_keeps_ids namesakes ["scripts"]
  obtain ⟨hfits, hnamed⟩ := hfind "rename roads" hfile
  obtain ⟨found, hfound, hid⟩ := hnamed namesake namesake_mem_all (.inr hname.symm)
  exact ⟨hfile, namesake_mem_all, hname, hids namesake (comesAbout_of_mem_all namesake_mem_all),
    found, hfound, hid, hfits found hfound⟩

end FeatureTransform.Catalog
