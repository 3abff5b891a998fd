import FeatureTransform.Proofs.Catalog.Find
import FeatureTransform.Proofs.Folder.Tree
import Mathlib.Data.List.Sort

/-!
# Discovering scripts

A folder is gone through at every depth, and what it holds is offered once: each file with the
extension of scripts, a text and a usable name, whether its header is in order or not. Sub-folders
are gone through in their places among the files, so that the paths of all scripts are in order,
and the order of the listings makes no difference.

Names are bytes, and there may be any in a tree. A file whose name is no text is no script, whatever
its ending; a folder is gone through whatever it is called.

## Main results

* `mem_scan_iff` — what is found at or below a place;
* `pairwise_scan` — the order in which it is found;
* `discover_complete` — what is found in folders.
-/

namespace FeatureTransform.Catalog

variable {tree other : FileTree} {folder path : Path} {names base : List FileName} {name : FileName}
  {content : ByteArray} {node : Node} {entries : List (FileName × Node)} {script : Script}

/-! ## Files -/

/-- The name of a script file: behind something, the extension `lua` in any case. -/
def IsScriptName (name : String) : Prop :=
  ∃ stem ending : Text, name.toList = stem ++ '.' :: ending ∧ stem ≠ [] ∧
    ending.map Char.toLower = "lua".toList

/-- No capital letter of ASCII is a dot, so an ending that is `lua` in some case holds no dot, and
the dot in front of it is the last of the name. -/
theorem dot_not_mem {ending : Text} (h : ending.map Char.toLower = "lua".toList) :
    '.' ∉ ending := by
  intro hdot
  have hmem : Char.toLower '.' ∈ "lua".toList := h ▸ List.mem_map_of_mem hdot
  exact absurd hmem (by decide)

/-- The test for script names cuts at the last dot; the predicate only says that some dot is
followed by the ending. They agree because the ending holds no dot itself. -/
theorem isScriptName_iff {name : String} : isScriptName name = true ↔ IsScriptName name := by
  rw [isScriptName, Path.extension?]
  constructor
  · intro h
    split at h
    · next ending hending =>
      split_ifs at hending
      split at hending
      · cases hending
      · cases hending
      · next stem found hstem hsplit =>
        cases hending
        obtain ⟨hname, -⟩ := Text.splitLast?_eq_some hsplit
        exact ⟨stem, ending, hname, hstem, eq_of_beq h⟩
    · cases h
  · rintro ⟨stem, ending, hname, hstem, hending⟩
    have hthree : ending.length = 3 := by
      rw [← List.length_map (f := Char.toLower), hending]
      rfl
    -- two dots are no file name with an ending, and too short to be one
    have hparent : name.toList ≠ ['.', '.'] := by
      intro hdots
      have hlength := congrArg List.length (hname.symm.trans hdots)
      rw [List.length_append, List.length_cons, hthree] at hlength
      simp at hlength
    rw [if_neg hparent, hname, Text.splitLast?_append stem (dot_not_mem hending)]
    obtain ⟨c, rest, rfl⟩ := List.exists_cons_of_ne_nil hstem
    exact beq_iff_eq.mpr hending

/-- The last of some names is that of a script: it is a text, and called as scripts are. -/
def LeadToScript (names : List FileName) : Prop :=
  ∃ name : String, names.getLast? = some (.ofText name) ∧ IsScriptName name

/-- Only a name that is a text can be that of a script: a name with the right ending in bytes that
are no text is passed over. -/
theorem any_isScriptName_iff :
    (names.getLast?.bind FileName.text?).any isScriptName = true ↔ LeadToScript names := by
  rw [Option.any_eq_true]
  constructor
  · rintro ⟨text, htext, hscript⟩
    obtain ⟨name, hlast, hname⟩ := Option.bind_eq_some_iff.mp htext
    rw [FileName.text?_eq_some_iff] at hname
    exact ⟨text, hname ▸ hlast, isScriptName_iff.mp hscript⟩
  · rintro ⟨text, hlast, hscript⟩
    refine ⟨text, ?_, isScriptName_iff.mpr hscript⟩
    rw [hlast, Option.bind_some, FileName.text?_eq_some_iff]

/-- What is read from a file of scripts, if it holds a text and has a usable name. A header that is
not in order leaves a note and makes no difference here. -/
theorem value_scanFile : (scanFile path names content).value =
    match Script.ofContent names content with
    | .error _ => []
    | .ok script => if script.id = "" then [] else [script] := by
  rw [scanFile]
  cases Script.ofContent names content with
  | error e => rfl
  | ok script =>
    simp only
    rw [value_bind]
    split
    · rfl
    · cases script.error? <;> rfl

/-- The file at the end of these names, if it has that content, has that script to offer. -/
structure Holds (names : List FileName) (content : ByteArray) (script : Script) : Prop where
  /-- it is called as scripts are -/
  named : LeadToScript names
  /-- it holds a text -/
  read : Script.ofContent names content = .ok script
  /-- the script has a usable name -/
  usable : script.id ≠ ""

theorem Holds.origin (h : Holds names content script) :
    script.origin = .file (Path.ofNames names) := by
  obtain ⟨text, rfl⟩ := Script.exists_of_ofContent h.read
  rfl

/-- At a file there is one script to be found at most, the one that the file holds. -/
theorem mem_scan_file_iff :
    script ∈ (scan path names (.file content)).value ↔ Holds names content script := by
  rw [scan]
  split_ifs with hname
  · rw [value_scanFile]
    cases hread : Script.ofContent names content with
    | error e =>
      refine iff_of_false List.not_mem_nil fun h => ?_
      rw [h.read] at hread
      cases hread
    | ok found =>
      simp only
      constructor
      · intro h
        split_ifs at h with hid
        · exact absurd h List.not_mem_nil
        · obtain rfl := List.mem_singleton.mp h
          exact ⟨any_isScriptName_iff.mp hname, hread, hid⟩
      · intro h
        obtain rfl := Except.ok.inj (h.read.symm.trans hread)
        rw [if_neg h.usable]
        exact List.mem_singleton_self _
  · exact iff_of_false List.not_mem_nil fun h => hname (any_isScriptName_iff.mpr h.named)

/-! ## Folders -/

theorem scanEntries_eq (path : Path) (names : List FileName) (entries : List (FileName × Node)) :
    scanEntries path names entries =
      entries.map fun e => (e.1, scan (path.join (.ofName e.1)) (names ++ [e.1]) e.2) := by
  induction entries with
  | nil => rfl
  | cons e rest ih =>
    obtain ⟨name, node⟩ := e
    rw [scanEntries, ih, List.map_cons]

/-- The entries of a folder, in the order in which they are gone through. -/
def sortedEntries (path : Path) (names : List FileName) (entries : List (FileName × Node)) :
    List (FileName × Noted (List Script)) :=
  (scanEntries path names entries).mergeSort fun a b => a.1 ≤ b.1

theorem mem_sortedEntries {found : FileName × Noted (List Script)} :
    found ∈ sortedEntries path names entries ↔
      ∃ e ∈ entries, (e.1, scan (path.join (.ofName e.1)) (names ++ [e.1]) e.2) = found := by
  rw [sortedEntries, List.mem_mergeSort, scanEntries_eq, List.mem_map]

theorem value_scan_folder : (scan path names (.folder entries)).value =
    (sortedEntries path names entries).flatMap fun found => found.2.value := by
  rw [scan]
  exact List.flatMap_map ..

/-- What is found in a folder is what is found at or below its entries. Sorting them changes the
order and nothing else. -/
theorem mem_scan_folder_iff : script ∈ (scan path names (.folder entries)).value ↔
    ∃ e ∈ entries, script ∈ (scan (path.join (.ofName e.1)) (names ++ [e.1]) e.2).value := by
  rw [value_scan_folder, List.mem_flatMap]
  constructor
  · rintro ⟨found, hfound, hscript⟩
    obtain ⟨e, he, rfl⟩ := mem_sortedEntries.mp hfound
    exact ⟨e, he, hscript⟩
  · rintro ⟨e, he, hscript⟩
    exact ⟨_, mem_sortedEntries.mpr ⟨e, he, rfl⟩, hscript⟩

/-- **What is found** at or below a place is what the files there have to offer, at any depth.
Folders are entered whatever they are called, so nothing stands between a file and the place but the
names on the way. -/
theorem mem_scan_iff (hproper : node.IsProper) : script ∈ (scan path names node).value ↔
    ∃ below content, node.find below = .ok (.file content) ∧
      Holds (names ++ below) content script := by
  -- names are added in front of those below, as the folders are entered
  induction node using Node.rec_entries generalizing path names with
  | file content =>
    rw [mem_scan_file_iff]
    constructor
    · intro h
      exact ⟨[], content, rfl, by rwa [List.append_nil]⟩
    · rintro ⟨below, other, hfind, h⟩
      cases below with
      | nil =>
        cases hfind
        rwa [List.append_nil] at h
      | cons name rest => cases hfind
  | folder entries ih =>
    rw [mem_scan_folder_iff]
    constructor
    · rintro ⟨⟨name, node⟩, he, hscript⟩
      have hnode := ((Node.isProper_folder_iff.mp hproper).2 _ he).2
      obtain ⟨below, content, hfind, h⟩ := (ih _ he hnode).mp hscript
      rw [List.append_assoc] at h
      refine ⟨name :: below, content, ?_, h⟩
      rwa [Node.find_cons_folder (hproper.child?_eq_some_iff.mpr he)]
    · rintro ⟨below, content, hfind, h⟩
      cases below with
      | nil => cases hfind
      | cons name rest =>
        obtain ⟨others, next, hsame, hchild, hrest⟩ := Node.find_cons_eq_ok hfind
        obtain rfl := Node.folder.inj hsame
        have he := Node.child?_mem hchild
        have hnode := ((Node.isProper_folder_iff.mp hproper).2 _ he).2
        refine ⟨_, he, (ih _ he hnode).mpr ⟨rest, content, hrest, ?_⟩⟩
        rwa [List.append_assoc]

/-- The names that lead on from a place to the file of a script. -/
structure Leads (names below : List FileName) (script : Script) : Prop where
  /-- the script comes from that file -/
  origin : script.origin = .file (Path.ofNames (names ++ below))
  /-- all of them are names that files can have -/
  fileNames : ∀ name ∈ below, IsFileName name

theorem Leads.cons {below : List FileName} (h : Leads (names ++ [name]) below script)
    (hname : IsFileName name) : Leads names (name :: below) script where
  origin := by rw [h.origin, List.append_assoc, List.singleton_append]
  fileNames := List.forall_mem_cons.mpr ⟨hname, h.fileNames⟩

/-- What is found lies below the place where the search began, at names that files can have. -/
theorem exists_leads_of_mem_scan (hproper : node.IsProper)
    (h : script ∈ (scan path names node).value) : ∃ below, Leads names below script := by
  obtain ⟨below, content, hfind, hholds⟩ := (mem_scan_iff hproper).mp h
  exact ⟨below, hholds.origin, (hproper.find hfind).2⟩

/-- The order in which entries are gone through is the one of their names, and no two are equal,
since a folder lists each name once. -/
theorem pairwise_sortedEntries (hproper : (Node.folder entries).IsProper) :
    (sortedEntries path names entries).Pairwise fun a b => a.1 < b.1 := by
  have hsorted : (sortedEntries path names entries).Pairwise
      fun a b => decide (a.1 ≤ b.1) = true := by
    apply List.pairwise_mergeSort
    · intro a b c hab hbc
      simp only [decide_eq_true_eq] at hab hbc ⊢
      exact FileName.le_trans hab hbc
    · intro a b
      simp only [Bool.or_eq_true, decide_eq_true_eq]
      exact a.1.le_total b.1
  have hdistinct : (sortedEntries path names entries).Pairwise fun a b => a.1 ≠ b.1 := by
    have hnames : (scanEntries path names entries).map Prod.fst = entries.map Prod.fst := by
      rw [scanEntries_eq, List.map_map]
      rfl
    have hnodup := (Node.isProper_folder_iff.mp hproper).1
    rw [← hnames, ← ((List.mergeSort_perm _ _).map Prod.fst).nodup_iff] at hnodup
    exact List.pairwise_map.mp hnodup
  refine hsorted.imp₂ (fun a b hle hne => ?_) hdistinct
  exact FileName.lt_of_le_of_ne (of_decide_eq_true hle) hne

/-- **The order** of what is found is that of the names that lead to it. Below one entry this holds
by induction; between two entries their own names decide, because everything below the first is
found before anything below the second. -/
theorem pairwise_scan (hproper : node.IsProper) : (scan path names node).value.Pairwise
    fun a b => ∃ front back, Leads names front a ∧ Leads names back b ∧ front < back := by
  induction node using Node.rec_entries generalizing path names with
  | file content =>
    rw [scan]
    split_ifs
    · rw [value_scanFile]
      split
      · exact List.Pairwise.nil
      · split_ifs
        · exact List.Pairwise.nil
        · exact List.pairwise_singleton _ _
    · exact List.Pairwise.nil
  | folder entries ih =>
    obtain ⟨-, hentries⟩ := Node.isProper_folder_iff.mp hproper
    rw [value_scan_folder]
    refine List.pairwise_flatMap.mpr ⟨fun found hfound => ?_, ?_⟩
    -- below one entry the names go on behind that of the entry
    · obtain ⟨e, he, rfl⟩ := mem_sortedEntries.mp hfound
      obtain ⟨hname, hnode⟩ := hentries e he
      refine (ih e he hnode).imp fun {a b} h => ?_
      obtain ⟨front, back, ha, hb, hless⟩ := h
      exact ⟨e.1 :: front, e.1 :: back, ha.cons hname, hb.cons hname, .cons hless⟩
    -- below different entries those of the entries decide
    · refine (pairwise_sortedEntries hproper).imp_of_mem fun {a b} ha hb hless x hx y hy => ?_
      obtain ⟨e, he, rfl⟩ := mem_sortedEntries.mp ha
      obtain ⟨d, hd, rfl⟩ := mem_sortedEntries.mp hb
      obtain ⟨front, hfront⟩ := exists_leads_of_mem_scan (hentries e he).2 hx
      obtain ⟨back, hback⟩ := exists_leads_of_mem_scan (hentries d hd).2 hy
      exact ⟨e.1 :: front, d.1 :: back, hfront.cons (hentries e he).1,
        hback.cons (hentries d hd).1, .rel hless⟩

/-! ## Folders by their paths -/

/-- The file at the end of these names offers a script: its name is a text and that of a script, it
holds a text, and the script in it has a usable name. Its header may have been rejected. -/
def Offers (tree : FileTree) (names : List FileName) (script : Script) : Prop :=
  ∃ name text : String, names.getLast? = some (.ofText name) ∧ IsScriptName name ∧
    tree.root.find names = .ok (.file text.toUTF8) ∧
    script = .ofNamed name text (.file (Path.ofNames names)) ∧ script.id ≠ ""

theorem shownName_ofText (name : String) : Script.shownName (some (.ofText name)) = name :=
  FileName.text_ofText name

/-- What a file offers can be told from its names and its bytes alone. The name of the script is
that of the file as it is spelt, since that is a text. -/
theorem offers_iff : Offers tree names script ↔
    ∃ content, tree.root.find names = .ok (.file content) ∧ Holds names content script := by
  constructor
  · rintro ⟨name, text, hlast, hname, hfind, rfl, hid⟩
    refine ⟨_, hfind, ?_, ?_, hid⟩
    · exact ⟨name, hlast, hname⟩
    · rw [Script.ofContent, Utf8.fromUTF8?_eq_some_iff.mpr rfl, hlast, shownName_ofText]
  · rintro ⟨content, hfind, ⟨name, hlast, hname⟩, hread, hid⟩
    rw [Script.ofContent, hlast, shownName_ofText] at hread
    split at hread
    · cases hread
    · next text htext =>
      obtain rfl := Utf8.fromUTF8?_eq_some_iff.mp htext
      exact ⟨name, text, hlast, hname, hfind, (Except.ok.inj hread).symm, hid⟩

/-- The path of a script comes before that of another, compared step by step. -/
def Earlier (a b : Script) : Prop :=
  ∃ p q, a.sourcePath? = some p ∧ b.sourcePath? = some q ∧ p.Before q

theorem Earlier.asymm {a b : Script} (h : Earlier a b) : ¬Earlier b a := by
  rintro ⟨p, q, hp, hq, hless⟩
  obtain ⟨p', q', hp', hq', hless'⟩ := h
  obtain rfl := Option.some.inj (hp.symm.trans hq')
  obtain rfl := Option.some.inj (hq.symm.trans hp')
  exact hless.asymm hless'

/-- The order of names is that of paths: the path of names has just these as its steps, and the
folder in which the search began stands in front of both. -/
theorem earlier_of_leads {a b : Script} {front back : List FileName}
    (hbase : ∀ name ∈ base, IsFileName name) (ha : Leads base front a) (hb : Leads base back b)
    (hless : front < back) : Earlier a b := by
  have hfileNames {below : List FileName} (h : ∀ name ∈ below, IsFileName name) :
      ∀ name ∈ base ++ below, IsFileName name := List.forall_mem_append.mpr ⟨hbase, h⟩
  refine ⟨_, _, by rw [Script.sourcePath?, ha.origin], by rw [Script.sourcePath?, hb.origin], ?_⟩
  exact Path.before_ofNames (hfileNames ha.fileNames) (hfileNames hb.fileNames)
    (List.append_left_lt hless)

theorem value_discoverIn (hnode : tree.node folder = .ok (.folder entries))
    (hbase : tree.resolve folder = .ok base) :
    (discoverIn tree folder).value = (scan folder base (.folder entries)).value := by
  rw [discoverIn, hnode, hbase]

/-- Where there is no folder, there is nothing to be found: neither a path that leads nowhere nor
one that leads to a file is an error. -/
theorem value_discoverIn_of_not_folder (h : tree.isFolder folder = false) :
    (discoverIn tree folder).value = [] := by
  rw [FileTree.isFolder] at h
  rw [discoverIn]
  split
  · next hnode _ =>
    rw [hnode] at h
    cases h
  · rfl

/-- What a folder has to offer, in order. -/
structure Collects (tree : FileTree) (base : List FileName) (scripts : List Script) : Prop where
  /-- every path comes before those behind it -/
  sorted : scripts.Pairwise Earlier
  /-- each file at any depth is offered, and nothing else -/
  mem_iff : ∀ script, script ∈ scripts ↔ ∃ below, Offers tree (base ++ below) script

/-- There is one list of what a folder has to offer, because two lists with the same members that
are both in strict order are the same list. -/
theorem Collects.unique {scripts others : List Script} (h : Collects tree base scripts)
    (hothers : Collects tree base others) : scripts = others := by
  have hirrefl : Std.Irrefl Earlier := ⟨fun a ha => ha.asymm ha⟩
  have hperm : scripts.Perm others := by
    refine (List.perm_ext_iff_of_nodup h.sorted.nodup hothers.sorted.nodup).mpr fun script => ?_
    rw [h.mem_iff, hothers.mem_iff]
  refine hperm.eq_of_pairwise (fun a b _ _ hab hba => absurd hba hab.asymm) h.sorted hothers.sorted

/-- What is found in a folder is what it has to offer, in order. The paths are told from the root,
so the names that lead to the folder stand in front of all. -/
theorem collects_discoverIn (hproper : tree.root.IsProper)
    (hfolder : tree.isFolder folder = true) : ∃ base, tree.resolve folder = .ok base ∧
      Collects tree base (discoverIn tree folder).value := by
  rw [FileTree.isFolder] at hfolder
  split at hfolder
  · next entries hnode =>
    obtain ⟨-, base, hbase, hfind⟩ := FileTree.node_eq_ok_iff.mp hnode
    obtain ⟨hentries, hnames⟩ := hproper.find hfind
    -- what is below the folder is told by the names from the root
    have hbelow (below : List FileName) : tree.root.find (base ++ below) =
        (Node.folder entries).find below := by
      rw [Node.find_append, hfind]
      rfl
    refine ⟨base, hbase, ?_, fun script => ?_⟩
    · rw [value_discoverIn hnode hbase]
      refine (pairwise_scan hentries).imp fun {a b} h => ?_
      obtain ⟨front, back, ha, hb, hless⟩ := h
      exact earlier_of_leads hnames ha hb hless
    · rw [value_discoverIn hnode hbase, mem_scan_iff hentries]
      simp only [offers_iff, hbelow]
  · cases hfolder

/-- Another listing changes nothing of what there is to offer, because the same names lead to the
same files. -/
theorem offers_iff_of_relisted (h : tree.Relisted other) :
    Offers other names script ↔ Offers tree names script := by
  simp only [offers_iff, h.root.find_file_iff]

/-- The listing makes no difference to what is found in a folder: both listings offer the same, and
there is one order for it. -/
theorem value_discoverIn_relisted (hproper : tree.root.IsProper) (h : tree.Relisted other)
    (folder : Path) : (discoverIn other folder).value = (discoverIn tree folder).value := by
  cases hfolder : tree.isFolder folder with
  | false =>
    rw [value_discoverIn_of_not_folder hfolder, value_discoverIn_of_not_folder]
    rwa [← h.isFolder_eq]
  | true =>
    obtain ⟨base, hbase, hcollects⟩ := collects_discoverIn hproper hfolder
    rw [h.isFolder_eq] at hfolder
    obtain ⟨base', hbase', hothers⟩ := collects_discoverIn (h.root.isProper hproper) hfolder
    obtain rfl : base = base' := by
      rw [h.resolve_eq, hbase'] at hbase
      exact (Except.ok.inj hbase).symm
    -- the two trees offer the same, and there is one order for it
    refine Collects.unique ⟨hothers.sorted, fun script => ?_⟩ hcollects
    simp only [hothers.mem_iff, offers_iff_of_relisted h]

/-- **Discovery.** What is found in folders is what is found in one folder after another; where
there is no folder, nothing is. In a folder every file at any depth that has a script to offer is
found once, and nothing else, and the paths are in order, in whatever order the entries of folders
are listed. -/
theorem discover_complete (tree : FileTree) (hproper : tree.root.IsProper) (folders : List Path) :
    (discover tree folders).value =
      folders.flatMap (fun folder => (discoverIn tree folder).value) ∧
    (∀ folder, tree.isFolder folder = false → (discoverIn tree folder).value = []) ∧
    (∀ folder, tree.isFolder folder = true → ∃ base, tree.resolve folder = .ok base ∧
      Collects tree base (discoverIn tree folder).value) ∧
    ∀ other, tree.Relisted other →
      (discover other folders).value = (discover tree folders).value := by
  have hdiscover (tree : FileTree) : (discover tree folders).value =
      folders.flatMap fun folder => (discoverIn tree folder).value := List.flatMap_map ..
  refine ⟨hdiscover tree, fun folder h => value_discoverIn_of_not_folder h,
    fun folder h => collects_discoverIn hproper h, fun other h => ?_⟩
  rw [hdiscover other, hdiscover tree]
  simp only [value_discoverIn_relisted hproper h]

/-- A name that is no text, though it has the ending of scripts. -/
def noText : FileName := ⟨0xFF :: Utf8.bytesOf ".lua"⟩

/-- A script with a rejected header line, a text, a folder that is called as a script and holds one
and a file whose name is no text, and a folder whose name is no text and that holds a script. -/
def jumble : List (FileName × Node) :=
  [("roads.LUA", .file "--#lanes=numbr".toUTF8),
    (noText, .folder [("lanes.lua", .file "".toUTF8)]),
    ("parts.lua", .folder [(noText, .file "".toUTF8), ("lanes.lua", .file "".toUTF8)]),
    ("notes.txt", .file "".toUTF8)]

/-- A tree with these entries in a folder. -/
def treeOf (entries : List (FileName × Node)) : FileTree where
  root := .folder [("scripts", .folder entries)]
  workingFolder := ["scripts"]

/-- There can be such a tree: all its names are file names, the one that is no text too. -/
theorem isProper_jumble : (treeOf jumble).root.IsProper := by
  have hlanes : IsFileName "lanes.lua" := by decide +kernel
  have hnoText : IsFileName noText := by decide +kernel
  have hparts : (Node.folder [(noText, .file "".toUTF8),
      ("lanes.lua", .file "".toUTF8)]).IsProper :=
    ⟨by decide +kernel, hnoText, trivial, hlanes, trivial, trivial⟩
  have hscripts : (Node.folder jumble).IsProper :=
    ⟨by decide +kernel, by decide +kernel, trivial, hnoText,
      ⟨List.nodup_singleton _, hlanes, trivial, trivial⟩, by decide +kernel, hparts,
      by decide +kernel, trivial, trivial⟩
  exact ⟨List.nodup_singleton _, by decide +kernel, hscripts, trivial⟩

/-- The tree can be listed backwards with the same result. Of the two things that are called
`noText` the file is not offered and the folder is gone through. -/
theorem discover_complete_jumble : (treeOf jumble).root.IsProper ∧
    (treeOf jumble).Relisted (treeOf jumble.reverse) ∧
    (discover (treeOf jumble.reverse) ["x", "."]).value =
      (discover (treeOf jumble) ["x", "."]).value ∧
    (discoverIn (treeOf jumble) "x").value = [] ∧
    (treeOf jumble).root.find ["scripts", "parts.lua", noText] = .ok (.file "".toUTF8) ∧
    (∀ script, ¬Offers (treeOf jumble) ["scripts", "parts.lua", noText] script) ∧
    Script.ofNamed "lanes.lua" "" (.file (.ofNames ["scripts", noText, "lanes.lua"])) ∈
      (discoverIn (treeOf jumble) ".").value ∧
    (∃ script ∈ (discoverIn (treeOf jumble) ".").value, script.error?.isSome = true ∧
      script.sourcePath? = some (.ofText "/scripts/roads.LUA")) ∧
    (discoverIn (treeOf jumble) ".").value.Pairwise Earlier := by
  have hscripts : (Node.folder jumble).IsProper :=
    ((Node.isProper_folder_iff.mp isProper_jumble).2 _ (List.mem_singleton_self _)).2
  have hlisted : (treeOf jumble).Relisted (treeOf jumble.reverse) := by
    refine ⟨.folder (List.Perm.refl _) fun name node other hnode hother => ?_, rfl⟩
    obtain ⟨-, rfl⟩ := Prod.mk.inj (List.mem_singleton.mp hnode)
    obtain ⟨-, rfl⟩ := Prod.mk.inj (List.mem_singleton.mp hother)
    exact Node.relisted_of_perm hscripts (List.reverse_perm jumble).symm
  obtain ⟨-, hmissing, hfolder, hsame⟩ :=
    discover_complete (treeOf jumble) isProper_jumble ["x", "."]
  obtain ⟨base, hbase, hcollects⟩ := hfolder "." (by decide +kernel)
  obtain rfl : [FileName.ofText "scripts"] = base := Except.ok.inj hbase
  refine ⟨isProper_jumble, hlisted, hsame _ hlisted, hmissing _ (by decide +kernel), by rfl, ?_,
    ?_, ?_, hcollects.sorted⟩
  · -- a name that is no text is the name of no script
    rintro script ⟨name, text, hlast, -⟩
    have htext : noText.text? = some name := FileName.text?_eq_some_iff.mpr (Option.some.inj hlast)
    have hnone : noText.text? = none := by decide +kernel
    cases hnone.symm.trans htext
  · -- a folder of such a name is gone through
    exact (hcollects.mem_iff _).mpr ⟨[noText, "lanes.lua"], "lanes.lua", "", rfl,
      isScriptName_iff.mp (by decide), by rfl, rfl, by decide +kernel⟩
  · -- the line of the header is wrong, and the script is there all the same
    refine ⟨_, (hcollects.mem_iff _).mpr ⟨["roads.LUA"], "roads.LUA", "--#lanes=numbr", rfl,
      isScriptName_iff.mp (by decide), by rfl, rfl, by decide +kernel⟩, by decide +kernel, ?_⟩
    decide +kernel

end FeatureTransform.Catalog
