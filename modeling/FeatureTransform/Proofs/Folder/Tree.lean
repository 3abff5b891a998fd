import FeatureTransform.Folder.Tree
import FeatureTransform.Proofs.Folder.Path

/-!
# Trees as they can be

In a tree that there can be, the entries of a folder have different names, each of them one that a
file can have. There it is the same to be listed in a folder and to be found in it, and the order of
a listing makes no difference to what is found.

## Main results

* `Node.find_append` — the way to a place goes through the places on it;
* `Node.IsProper.child?_eq_some_iff` — what is listed is found;
* `Node.IsProper.isFileName` — only such names lead anywhere;
* `Node.Relisted.find` — listings in another order lead to the same files and folders.
-/

namespace FeatureTransform

namespace Node

/-- To show something of all nodes, it is shown of files, and of folders whose entries have it. This
is the induction over trees without the lists in between. -/
theorem rec_entries {motive : Node → Prop} (file : ∀ content, motive (.file content))
    (folder : ∀ entries, (∀ e ∈ entries, motive e.2) → motive (.folder entries)) :
    ∀ node, motive node
  | .file content => file content
  | .folder entries => folder entries fun e _ => rec_entries file folder e.2
termination_by node => sizeOf node
decreasing_by
  have hless := List.sizeOf_lt_of_mem ‹e ∈ entries›
  cases e
  simp only [Prod.mk.sizeOf_spec, Node.folder.sizeOf_spec] at hless ⊢
  omega

/-! ## Ways -/

section Ways

variable {node next : Node} {names front back : List FileName} {name : FileName} {e : FileError}
  {entries : List (FileName × Node)}

theorem find_cons_folder (h : child? name entries = some next) :
    (Node.folder entries).find (name :: names) = next.find names := by
  rw [find, h]

theorem find_cons_eq_ok {found : Node} (h : node.find (name :: names) = .ok found) :
    ∃ entries next, node = .folder entries ∧ child? name entries = some next ∧
      next.find names = .ok found := by
  cases node with
  | file content => cases h
  | folder entries =>
    rw [find] at h
    cases hchild : child? name entries with
    | none =>
      rw [hchild] at h
      cases h
    | some next =>
      rw [hchild] at h
      exact ⟨entries, next, rfl, hchild, h⟩

/-- **Ways** are taken one after another: where the first part of a way fails, all of it does. -/
theorem find_append (node : Node) (front back : List FileName) :
    node.find (front ++ back) = node.find front >>= fun next => next.find back := by
  induction front generalizing node with
  | nil => rfl
  | cons name rest ih =>
    cases node with
    | file content => rfl
    | folder entries =>
      rw [List.cons_append, find, find]
      cases child? name entries with
      | none => rfl
      | some next => exact ih next

/-- What is found in a folder is one of its entries. -/
theorem child?_mem (h : child? name entries = some next) : (name, next) ∈ entries := by
  obtain ⟨before, after, rfl, -⟩ := List.lookup_eq_some_iff.mp h
  simp

/-- A name that is listed leads somewhere, and what is found under a name is listed. -/
theorem mem_names_iff : name ∈ entries.map Prod.fst ↔ ∃ node, child? name entries = some node := by
  rw [← Option.isSome_iff_exists, child?, List.lookup_isSome_iff, List.mem_map]
  simp only [beq_iff_eq]
  simp only [eq_comm]

end Ways

/-! ## Proper trees -/

mutual

/-- A node that there can be. -/
def IsProper : Node → Prop
  | .file _ => True
  | .folder entries => (entries.map Prod.fst).Nodup ∧ AreProper entries

/-- Entries with names that files can have, and with nodes that there can be. -/
def AreProper : List (FileName × Node) → Prop
  | [] => True
  | (name, node) :: rest => IsFileName name ∧ node.IsProper ∧ AreProper rest

end

section Proper

variable {node found : Node} {names : List FileName} {name : FileName}
  {entries : List (FileName × Node)}

theorem areProper_iff : AreProper entries ↔ ∀ e ∈ entries, IsFileName e.1 ∧ e.2.IsProper := by
  induction entries with
  | nil => simp [AreProper]
  | cons e rest ih =>
    obtain ⟨name, node⟩ := e
    rw [AreProper, ih, List.forall_mem_cons, and_assoc]

theorem isProper_folder_iff : (Node.folder entries).IsProper ↔
    (entries.map Prod.fst).Nodup ∧ ∀ e ∈ entries, IsFileName e.1 ∧ e.2.IsProper := by
  rw [IsProper, areProper_iff]

/-- **Listings.** What a folder lists is found in it. Names have to be different for that, since
only the first of a name is found. -/
theorem IsProper.child?_eq_some_iff (h : (Node.folder entries).IsProper) :
    child? name entries = some found ↔ (name, found) ∈ entries := by
  refine ⟨child?_mem, fun hmem => ?_⟩
  obtain ⟨hnames, -⟩ := isProper_folder_iff.mp h
  obtain ⟨before, after, rfl⟩ := List.append_of_mem hmem
  refine List.lookup_eq_some_iff.mpr ⟨before, after, rfl, fun e he => ?_⟩
  rw [List.map_append, List.nodup_append] at hnames
  have hne := hnames.2.2 e.1 (List.mem_map_of_mem he) name (by simp)
  simpa using hne.symm

/-- What is found in a proper node is proper, and all names on the way are names that files can
have. -/
theorem IsProper.find (h : node.IsProper) (hfind : node.find names = .ok found) :
    found.IsProper ∧ ∀ name ∈ names, IsFileName name := by
  induction names generalizing node with
  | nil =>
    cases hfind
    exact ⟨h, fun name hname => absurd hname List.not_mem_nil⟩
  | cons name rest ih =>
    obtain ⟨entries, next, rfl, hchild, hrest⟩ := find_cons_eq_ok hfind
    obtain ⟨hname, hnext⟩ := (isProper_folder_iff.mp h).2 _ (child?_mem hchild)
    obtain ⟨hfound, hnames⟩ := ih hnext hrest
    exact ⟨hfound, List.forall_mem_cons.mpr ⟨hname, hnames⟩⟩

end Proper

/-! ## Other listings -/

/-- The same files and folders, whose entries may be listed in another order at every depth. -/
inductive Relisted : Node → Node → Prop
  /-- a file -/
  | file (content : ByteArray) : Relisted (.file content) (.file content)
  /-- a folder with as many entries of the same names, each with what stood there before -/
  | folder {entries others : List (FileName × Node)}
      (names : (entries.map Prod.fst).Perm (others.map Prod.fst))
      (same : ∀ name node other, (name, node) ∈ entries → (name, other) ∈ others →
        Relisted node other) : Relisted (.folder entries) (.folder others)

section Relisted

variable {node other : Node}

/-- Any order of the entries is a listing of a folder, as long as the folder can be. -/
theorem relisted_of_perm {entries others : List (FileName × Node)}
    (hproper : (Node.folder entries).IsProper) (h : entries.Perm others) :
    (Node.folder entries).Relisted (.folder others) := by
  have hself : ∀ node : Node, node.IsProper → node.Relisted node := by
    intro node
    induction node using rec_entries with
    | file content => exact fun _ => .file content
    | folder entries ih =>
      refine fun hnode => .folder (List.Perm.refl _) fun name node other hmem hother => ?_
      obtain rfl := Option.some.inj ((hnode.child?_eq_some_iff.mpr hmem).symm.trans
        (hnode.child?_eq_some_iff.mpr hother))
      exact ih _ hmem ((isProper_folder_iff.mp hnode).2 _ hmem).2
  refine .folder (h.map _) fun name node other hmem hother => ?_
  obtain rfl := Option.some.inj ((hproper.child?_eq_some_iff.mpr hmem).symm.trans
    (hproper.child?_eq_some_iff.mpr (h.mem_iff.mpr hother)))
  exact hself node ((isProper_folder_iff.mp hproper).2 _ hmem).2

/-- A tree that can be stays one in every listing. -/
theorem Relisted.isProper (h : node.Relisted other) (hproper : node.IsProper) :
    other.IsProper := by
  induction h with
  | file content => trivial
  | @folder entries others hnames hsame ih =>
    obtain ⟨hnodup, hentries⟩ := isProper_folder_iff.mp hproper
    refine isProper_folder_iff.mpr ⟨hnames.nodup_iff.mp hnodup, fun e he => ?_⟩
    have hname : e.1 ∈ entries.map Prod.fst := hnames.mem_iff.mpr (List.mem_map_of_mem he)
    obtain ⟨⟨name, node⟩, hmem, rfl⟩ := List.mem_map.mp hname
    obtain ⟨hfile, hnode⟩ := hentries _ hmem
    exact ⟨hfile, ih e.1 node e.2 hmem he hnode⟩

/-- An entry is found in both listings or in neither. Which one is found does not depend on the
order, as names are different. -/
theorem Relisted.child?_cases {entries others : List (FileName × Node)} (name : FileName)
    (hnames : (entries.map Prod.fst).Perm (others.map Prod.fst)) :
    child? name entries = none ∧ child? name others = none ∨
      ∃ node other, child? name entries = some node ∧ child? name others = some other := by
  by_cases hname : name ∈ entries.map Prod.fst
  · obtain ⟨node, hnode⟩ := mem_names_iff.mp hname
    obtain ⟨other, hother⟩ := mem_names_iff.mp (hnames.mem_iff.mp hname)
    exact .inr ⟨node, other, hnode, hother⟩
  · have hother : name ∉ others.map Prod.fst := fun h => hname (hnames.mem_iff.mpr h)
    rw [mem_names_iff, ← Option.ne_none_iff_exists', not_not] at hname hother
    exact .inl ⟨hname, hother⟩

/-- **Other listings** lead to the same files and folders, and to nothing else: the same ways fail,
with the same error, and the others lead to other listings of the same nodes. -/
theorem Relisted.find (h : node.Relisted other) (names : List FileName) :
    (∃ e, node.find names = .error e ∧ other.find names = .error e) ∨
      ∃ found there, node.find names = .ok found ∧ other.find names = .ok there ∧
        found.Relisted there := by
  induction names generalizing node other with
  | nil => exact .inr ⟨node, other, rfl, rfl, h⟩
  | cons name rest ih =>
    cases h with
    | file content => exact .inl ⟨.notFolder, rfl, rfl⟩
    | @folder entries others hnames hsame =>
      rcases Relisted.child?_cases name hnames with ⟨hnode, hother⟩ | ⟨next, there, hnode, hother⟩
      · refine .inl ⟨.notFound, ?_, ?_⟩
        · rw [Node.find, hnode]
        · rw [Node.find, hother]
      · rw [find_cons_folder hnode, find_cons_folder hother]
        exact ih (hsame name next there (child?_mem hnode) (child?_mem hother))

theorem Relisted.find_file_iff (h : node.Relisted other) {names : List FileName}
    {content : ByteArray} :
    node.find names = .ok (.file content) ↔ other.find names = .ok (.file content) := by
  rcases h.find names with ⟨e, hnode, hother⟩ | ⟨found, there, hnode, hother, hsame⟩
  · rw [hnode, hother]
  · rw [hnode, hother]
    cases hsame <;> simp

end Relisted

end Node

/-! ## Paths in trees -/

namespace FileTree

variable {tree other : FileTree} {path : Path} {node : Node}

/-- What stands at a path is what the names lead to that it stands for. The empty path stands for
nothing. -/
theorem node_eq_ok_iff : tree.node path = .ok node ↔
    path.bytes ≠ [] ∧ ∃ names, tree.resolve path = .ok names ∧ tree.root.find names = .ok node := by
  rw [FileTree.node]
  by_cases hempty : path.bytes = []
  · simp [hempty]
  · rw [if_neg hempty]
    cases tree.resolve path with
    | error e => exact ⟨nofun, nofun⟩
    | ok names => simp [hempty, bind, Except.bind]

/-- The same tree, whose folders may be listed in another order. -/
structure Relisted (tree other : FileTree) : Prop where
  /-- the same files and folders -/
  root : tree.root.Relisted other.root
  /-- relative paths start in the same folder -/
  workingFolder : tree.workingFolder = other.workingFolder

theorem Relisted.follow_eq (h : tree.Relisted other) (names : List FileName)
    (steps : List Component) : tree.follow names steps = other.follow names steps := by
  induction steps generalizing names with
  | nil => rfl
  | cons step rest ih =>
    cases step with
    | root | current | normal => exact ih _
    | parent =>
      rw [follow, follow]
      rcases h.root.find names with ⟨e, hfind, hother⟩ | ⟨found, there, hfind, hother, hsame⟩
      · rw [hfind, hother]
      · rw [hfind, hother]
        cases hsame with
        | file content => rfl
        | folder => exact ih _

/-- A path stands for the same names in every listing, although ways back are followed through
folders that must be there. -/
theorem Relisted.resolve_eq (h : tree.Relisted other) (path : Path) :
    tree.resolve path = other.resolve path := by
  rw [resolve, resolve, h.workingFolder]
  exact h.follow_eq _ _

theorem Relisted.isFolder_eq (h : tree.Relisted other) (path : Path) :
    tree.isFolder path = other.isFolder path := by
  unfold isFolder FileTree.node
  rw [h.resolve_eq]
  split_ifs with hempty
  · rfl
  · cases other.resolve path with
    | error e => rfl
    | ok names =>
      simp only [bind, Except.bind]
      rcases h.root.find names with ⟨e, hfind, hother⟩ | ⟨found, there, hfind, hother, hsame⟩
      · rw [hfind, hother]
      · rw [hfind, hother]
        cases hsame <;> rfl

end FileTree

end FeatureTransform
