import FeatureTransform.Command.Perform
import FeatureTransform.Proofs.Catalog.Order
import FeatureTransform.Proofs.Command.Console

/-!
# Listing

The lines of the list command are those of blocks, one for each group in the order of the groups: a
heading, and below it a line for each script of the group, by name. Neighbours tell where a block
ends, because the scripts of a group stand together. Scripts that are in no group have a heading
that says so, and a group of that very name still has one of its own.

## Main results

* `listing_eq` — the lines are those of blocks;
* `presents_blocksOf` — which blocks they are;
* `list_shows` — what the command shows.
-/

namespace FeatureTransform.Command

open Catalog (precedes precedes_iff isCalled isCalled_iff InOrder)

/-! ## Blocks -/

/-- Scripts that are listed under one heading. -/
structure Block where
  /-- their group -/
  group : String
  /-- the scripts in the order of their lines -/
  scripts : List Script

/-- The heading and a line for each script. -/
def Block.lines (block : Block) : List String :=
  heading block.group :: block.scripts.map scriptLine

/-- The lines of blocks, with an empty line between neighbours. -/
def blockLines : List Block → List String
  | [] => ["No scripts found."]
  | block :: rest => block.lines ++ rest.flatMap fun block => "" :: block.lines

/-- The blocks with one more script in front. -/
def addInFront (script : Script) : List Block → List Block
  | [] => [⟨script.group, [script]⟩]
  | block :: rest =>
    if block.group = script.group then ⟨block.group, script :: block.scripts⟩ :: rest
    else ⟨script.group, [script]⟩ :: block :: rest

/-- The blocks of neighbours that are in one group. -/
def blocksOf (scripts : List Script) : List Block := scripts.foldr addInFront []

theorem blocksOf_cons (script : Script) (rest : List Script) :
    blocksOf (script :: rest) = addInFront script (blocksOf rest) :=
  rfl

/-! ## Lines -/

/-- The lines of blocks that follow a script of the given group. -/
def linesBehind (group : String) : List Block → List String
  | [] => []
  | block :: rest =>
    (if block.group = group then block.scripts.map scriptLine else "" :: block.lines) ++
      rest.flatMap fun block => "" :: block.lines

/-- A script in front begins a block of its own, or goes on with the first under its heading. In
both cases its heading comes first, since it is that of the first block then. -/
theorem blockLines_addInFront (script : Script) (blocks : List Block) :
    blockLines (addInFront script blocks) =
      heading script.group :: scriptLine script :: linesBehind script.group blocks := by
  cases blocks with
  | nil => rfl
  | cons block rest =>
    rw [addInFront, linesBehind]
    split
    · next hgroup =>
      rw [← hgroup]
      rfl
    · rfl

/-- Behind a script of some group, a script of the same group goes on with the block, and any other
begins a new one below an empty line. -/
theorem linesBehind_addInFront (group : String) (script : Script) (blocks : List Block) :
    linesBehind group (addInFront script blocks) =
      (if group = script.group then [] else ["", heading script.group]) ++
        scriptLine script :: linesBehind script.group blocks := by
  by_cases hsame : group = script.group
  · subst hsame
    cases blocks with
    | nil => simp [addInFront, linesBehind]
    | cons block rest =>
      rw [addInFront]
      split <;> simp [linesBehind, *]
  · have hother : script.group ≠ group := Ne.symm hsame
    cases blocks with
    | nil => simp [addInFront, linesBehind, Block.lines, hsame, hother]
    | cons block rest =>
      rw [addInFront]
      split <;> simp [linesBehind, Block.lines, *]

/-- Looking back at one script is enough: the lines behind it are those of the blocks behind it, the
first of which may go on with its own. -/
theorem listLines_some (group : String) (scripts : List Script) :
    listLines (some group) scripts = linesBehind group (blocksOf scripts) := by
  induction scripts generalizing group with
  | nil => rfl
  | cons script rest ih =>
    rw [blocksOf_cons, linesBehind_addInFront, listLines, ih]
    simp only [Option.some.injEq]
    split <;> rfl

/-- **Lines.** Comparing neighbours gives each block its heading. Nothing is assumed of the order
here; without it one group could only have several blocks. -/
theorem listing_eq (userOnly : Bool) (scripts : List Script) :
    listing userOnly scripts = blockLines (blocksOf (selected userOnly scripts)) := by
  rw [listing]
  cases selected userOnly scripts with
  | nil => rfl
  | cons script rest =>
    rw [blocksOf_cons, blockLines_addInFront, ← listLines_some]
    rfl

/-! ## What is in the blocks -/

section Blocks

variable {scripts : List Script} {blocks : List Block} {block : Block} {script : Script}

/-- Blocks are cut out of the list as it stands: one after another they are the list. -/
theorem flatMap_blocksOf (scripts : List Script) :
    (blocksOf scripts).flatMap Block.scripts = scripts := by
  induction scripts with
  | nil => rfl
  | cons script rest ih =>
    rw [blocksOf_cons]
    cases hblocks : blocksOf rest with
    | nil =>
      rw [hblocks] at ih
      rw [← ih]
      rfl
    | cons block more =>
      rw [hblocks] at ih
      rw [addInFront]
      split <;> rw [← ih] <;> rfl

/-- A block has a script at least, and only scripts of its group. -/
structure Block.IsOwn (block : Block) : Prop where
  /-- there is a script in it -/
  nonempty : block.scripts ≠ []
  /-- it is in the group, and so are the others -/
  groups : ∀ script ∈ block.scripts, script.group = block.group

theorem isOwn_addInFront (h : ∀ block ∈ blocks, block.IsOwn) :
    ∀ block ∈ addInFront script blocks, block.IsOwn := by
  have hsingle : Block.IsOwn ⟨script.group, [script]⟩ :=
    ⟨List.cons_ne_nil _ _, fun other hother => by rw [List.mem_singleton.mp hother]⟩
  cases blocks with
  | nil =>
    rw [addInFront, List.forall_mem_singleton]
    exact hsingle
  | cons block rest =>
    obtain ⟨hblock, hrest⟩ := List.forall_mem_cons.mp h
    rw [addInFront]
    split
    · next hgroup =>
      refine List.forall_mem_cons.mpr ⟨⟨List.cons_ne_nil _ _, ?_⟩, hrest⟩
      exact List.forall_mem_cons.mpr ⟨hgroup.symm, hblock.groups⟩
    · exact List.forall_mem_cons.mpr ⟨hsingle, h⟩

theorem isOwn_of_mem_blocksOf (h : block ∈ blocksOf scripts) : block.IsOwn := by
  induction scripts generalizing block with
  | nil => exact absurd h List.not_mem_nil
  | cons script rest ih => exact isOwn_addInFront (fun block hblock => ih hblock) block h

/-- The group of a block is that of a script. -/
theorem exists_group_of_mem_blocksOf (h : block ∈ blocksOf scripts) :
    ∃ script ∈ scripts, script.group = block.group := by
  have hown := isOwn_of_mem_blocksOf h
  obtain ⟨script, hscript⟩ := List.exists_mem_of_ne_nil _ hown.nonempty
  refine ⟨script, ?_, hown.groups script hscript⟩
  rw [← flatMap_blocksOf scripts]
  exact List.mem_flatMap.mpr ⟨block, h, hscript⟩

/-- There are blocks for the groups of scripts and for no others. -/
theorem mem_groups_blocksOf {group : String} :
    group ∈ (blocksOf scripts).map Block.group ↔ group ∈ scripts.map Script.group := by
  rw [List.mem_map, List.mem_map]
  constructor
  · rintro ⟨block, hblock, rfl⟩
    exact exists_group_of_mem_blocksOf hblock
  · rintro ⟨script, hscript, rfl⟩
    rw [← flatMap_blocksOf scripts] at hscript
    obtain ⟨block, hblock, hin⟩ := List.mem_flatMap.mp hscript
    exact ⟨block, hblock, ((isOwn_of_mem_blocksOf hblock).groups script hin).symm⟩

/-- The groups of blocks are in order, and each comes once. -/
def Ascending (blocks : List Block) : Prop := blocks.Pairwise fun a b => a.group < b.group

theorem ascending_addInFront (h : Ascending blocks)
    (hfirst : ∀ block ∈ blocks, script.group ≤ block.group) :
    Ascending (addInFront script blocks) := by
  cases blocks with
  | nil => exact List.pairwise_singleton _ _
  | cons block rest =>
    obtain ⟨hless, hrest⟩ := List.pairwise_cons.mp h
    rw [addInFront]
    split
    · exact List.pairwise_cons.mpr ⟨hless, hrest⟩
    · next hgroup =>
      have hsmaller : script.group < block.group :=
        lt_of_le_of_ne (hfirst block List.mem_cons_self) (Ne.symm hgroup)
      refine List.pairwise_cons.mpr ⟨List.forall_mem_cons.mpr ⟨hsmaller, fun other hother => ?_⟩, h⟩
      exact hsmaller.trans (hless other hother)

/-- If the scripts come by group, then each group has one block, and the blocks come by group as
well. -/
theorem ascending_blocksOf (h : scripts.Pairwise fun a b => a.group ≤ b.group) :
    Ascending (blocksOf scripts) := by
  induction scripts with
  | nil => exact List.Pairwise.nil
  | cons script rest ih =>
    obtain ⟨hfirst, hrest⟩ := List.pairwise_cons.mp h
    refine ascending_addInFront (ih hrest) fun block hblock => ?_
    obtain ⟨other, hother, hgroup⟩ := exists_group_of_mem_blocksOf hblock
    exact hgroup ▸ hfirst other hother

/-- In blocks with different groups, those called so are in the block of the group, since no other
block has a script of it. -/
theorem filter_blocks (hown : ∀ block ∈ blocks, block.IsOwn) (hascending : Ascending blocks)
    (hblock : block ∈ blocks) (name : String) :
    (blocks.flatMap Block.scripts).filter (isCalled block.group name) =
      block.scripts.filter (isCalled block.group name) := by
  obtain ⟨front, back, rfl⟩ := List.append_of_mem hblock
  obtain ⟨-, hback, hfront⟩ := List.pairwise_append.mp hascending
  have hnone : ∀ others : List Block, (∀ other ∈ others, other ∈ front ++ block :: back) →
      (∀ other ∈ others, other.group ≠ block.group) →
      (others.flatMap Block.scripts).filter (isCalled block.group name) = [] := by
    intro others hmem hne
    refine List.filter_eq_nil_iff.mpr fun script hscript hcalled => ?_
    obtain ⟨other, hother, hin⟩ := List.mem_flatMap.mp hscript
    exact hne other hother (((hown other (hmem other hother)).groups script hin).symm.trans
      (isCalled_iff.mp hcalled).1)
  rw [List.flatMap_append, List.flatMap_cons, List.filter_append, List.filter_append,
    hnone front, hnone back, List.nil_append, List.append_nil]
  · exact fun other hother => List.mem_append_right _ (List.mem_cons_of_mem _ hother)
  · exact fun other hother => ((List.pairwise_cons.mp hback).1 other hother).ne'
  · exact fun other hother => List.mem_append_left _ hother
  · exact fun other hother => (hfront other hother block List.mem_cons_self).ne

end Blocks

/-! ## Listings -/

/-- How blocks present scripts that have been found in some order. -/
structure Presents (found : List Script) (blocks : List Block) : Prop where
  /-- the blocks are in the order of their groups, one for each -/
  ascending : Ascending blocks
  /-- there is one for a group exactly if a script is in that group -/
  groups : ∀ group, group ∈ blocks.map Block.group ↔ group ∈ found.map Script.group
  /-- a block has a script at least, and only scripts of its group -/
  own : ∀ block ∈ blocks, block.IsOwn
  /-- every script is in them once -/
  perm : (blocks.flatMap Block.scripts).Perm found
  /-- the scripts of a block are in the order of their names -/
  byName : ∀ block ∈ blocks, block.scripts.Pairwise fun a b => a.displayName ≤ b.displayName
  /-- of one name, the one found first comes first -/
  ties : ∀ block ∈ blocks, ∀ name,
    block.scripts.filter (isCalled block.group name) = found.filter (isCalled block.group name)

/-- **Blocks** of sorted scripts present them. That each group has one block is where the order
counts; the rest holds of blocks cut from any list. -/
theorem presents_blocksOf {found sorted : List Script} (h : InOrder found sorted) :
    Presents found (blocksOf sorted) := by
  have hown : ∀ block ∈ blocksOf sorted, block.IsOwn := fun _ => isOwn_of_mem_blocksOf
  have hascending : Ascending (blocksOf sorted) := by
    refine ascending_blocksOf (h.ordered.imp fun {a b} hab => ?_)
    exact (precedes_iff.mp hab).elim le_of_lt fun hab => hab.1.le
  refine ⟨hascending, fun group => ?_, hown, ?_, fun block hblock => ?_,
    fun block hblock name => ?_⟩
  · rw [mem_groups_blocksOf]
    exact (h.perm.map Script.group).mem_iff
  · rw [flatMap_blocksOf]
    exact h.perm
  · have hsub : block.scripts.Sublist sorted := by
      obtain ⟨front, back, hsplit⟩ := List.append_of_mem hblock
      rw [← flatMap_blocksOf sorted, hsplit, List.flatMap_append, List.flatMap_cons]
      exact (List.sublist_append_left _ _).trans (List.sublist_append_right _ _)
    refine (h.ordered.sublist hsub).imp_of_mem fun {a b} ha hb hab => ?_
    have hgroup := ((hown block hblock).groups a ha).trans ((hown block hblock).groups b hb).symm
    exact (precedes_iff.mp hab).elim (fun hless => absurd hgroup hless.ne) And.right
  · rw [← h.ties, ← filter_blocks hown hascending hblock, flatMap_blocksOf]

/-- What is listed of scripts that have been put in order. Leaving some out comes after sorting, and
does not change the order of the others. -/
theorem exists_presents (userOnly : Bool) (found : List Script) :
    ∃ blocks, Presents (selected userOnly found) blocks ∧
      listing userOnly (found.mergeSort precedes) = blockLines blocks :=
  ⟨_, presents_blocksOf ((Catalog.inOrder_mergeSort found).filter _), listing_eq userOnly _⟩

/-! ## The command -/

section Command

variable {places : Places} {general : General} {console next : Console} {folders : List Path}

/-- When the folders are known, the command shows the listing and makes remarks, and it cannot fail.
-/
theorem run_listScripts (userOnly : Bool)
    (h : (foldersFor places general).run.run console = (.ok folders, next)) : ∃ remarks,
      (listScripts places general userOnly).run.run console = (.ok (), { next with
        remarks := remarks
        shown := (listing userOnly (Catalog.all next.tree folders).value).reverse ++
          next.shown }) := by
  rw [listScripts, Step.run_bind_ok _ h]
  exact ⟨_, rfl⟩

end Command

/-- Two folders: one with a script that is in a group, and one with a script that is in none. -/
def streets : FileTree where
  root := .folder [("x", .folder [("a.lua", .file "--#roads=group".toUTF8)]),
    ("y", .folder [("b.lua", .file "".toUTF8)])]
  workingFolder := []

/-- The two scripts as they are found. -/
def streetScripts : List Script :=
  [.ofNamed "a.lua" "--#roads=group" (.file (.ofNames ["x", "a.lua"])),
    .ofNamed "b.lua" "" (.file (.ofNames ["y", "b.lua"]))]

/-- The arguments with which they are listed. -/
def streetArguments : List String := ["--folder", "x", "--folder", "y", "list", "--user-only"]

end FeatureTransform.Command
