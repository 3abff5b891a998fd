import FeatureTransform.Proofs.Folder.Spelling
import FeatureTransform.Settings
import Mathlib.Data.List.Basic
import Mathlib.Data.List.Forall2

/-!
# Edits of the settings

The folders of the settings behave as an ordered set. An edit adds a folder or removes one, tells
whether it has changed the list, and leaves the other folders as they are. After any number of edits
a folder is in the list if the last edit of it has added it; what has been there from the start and
was never removed stands in front in its order, and behind it what has been added, in the order of
the edits. A list that comes from a file may have a folder more than once: no edit makes that worse.
How a folder is spelt makes no difference to any of this.
-/

namespace FeatureTransform

namespace Path

variable {p q : Path}

/-! ## Equal paths -/

/-- Paths are compared by their steps, as the library of the host compares them. -/
theorem same_iff : p.same q = true ↔ p.components = q.components := decide_eq_true_iff

theorem same_refl (p : Path) : p.same p = true := same_iff.mpr rfl

theorem same_comm (p q : Path) : p.same q = q.same p := by
  rw [Bool.eq_iff_iff, same_iff, same_iff, eq_comm]

/-- Equal paths are equal to the same paths. -/
theorem same_congr (h : p.same q = true) (r : Path) : p.same r = q.same r := by
  rw [same, same, same_iff.mp h]

/-- How often a path stands in a list, in whatever spelling. -/
def timesIn (path : Path) (paths : List Path) : Nat := paths.countP path.same

/-- A path that no spelling of which is in a list is there no times. -/
theorem timesIn_eq_zero_iff {paths : List Path} :
    p.timesIn paths = 0 ↔ ∀ other ∈ paths, p.same other = false := by
  rw [timesIn, List.countP_eq_zero]
  simp only [Bool.not_eq_true]

theorem timesIn_pos {paths : List Path} (h : p ∈ paths) : 0 < p.timesIn paths :=
  List.countP_pos_iff.mpr ⟨p, h, p.same_refl⟩

theorem timesIn_singleton (p : Path) : p.timesIn [p] = 1 := by
  simp [timesIn, p.same_refl]

theorem timesIn_append (p : Path) (paths others : List Path) :
    p.timesIn (paths ++ others) = p.timesIn paths + p.timesIn others := List.countP_append

/-- Taking out another path does not matter, in whatever spelling it is taken out. -/
theorem timesIn_filter (h : p.same q = false) (paths : List Path) :
    q.timesIn (paths.filter (!p.same ·)) = q.timesIn paths := by
  rw [timesIn, timesIn, List.countP_filter]
  refine List.countP_congr fun other _ => ?_
  rw [Bool.and_eq_true]
  refine ⟨And.left, fun hother => ⟨hother, ?_⟩⟩
  rw [same_comm p other, ← same_congr hother, same_comm q p, h]
  rfl

/-- Where all other paths stay, another one is there as often. -/
theorem timesIn_of_others {before after : List Path}
    (h : after.filter (!p.same ·) = before.filter (!p.same ·)) (hother : p.same q = false) :
    q.timesIn after = q.timesIn before := by
  rw [← timesIn_filter hother, h, timesIn_filter hother]

/-- Spellings of one path are counted alike. -/
theorem timesIn_congr (h : p.same q = true) (paths : List Path) :
    p.timesIn paths = q.timesIn paths :=
  List.countP_congr fun other _ => by rw [same_congr h other]

end Path

namespace Settings

/-! ## Edits -/

/-- An edit of the list of folders. -/
inductive Edit where
  /-- one folder more -/
  | add (folder : Path)
  /-- one folder less -/
  | remove (folder : Path)
deriving DecidableEq

namespace Edit

/-- The folder that an edit adds. -/
def added? : Edit → Option Path
  | .add folder => some folder
  | .remove _ => none

/-- Whether an edit is about a folder, in whatever spelling. -/
def concerns : Edit → Path → Bool
  | .add folder, other | .remove folder, other => folder.same other

/-- Whether an edit removes a folder, in whatever spelling. -/
def removes : Edit → Path → Bool
  | .add _, _ => false
  | .remove folder, other => folder.same other

/-- The edits do the same to spellings of one folder. -/
inductive SpeltAlike : Edit → Edit → Prop where
  /-- both add -/
  | add {folder other : Path} (h : folder.Respelt other) : SpeltAlike (.add folder) (.add other)
  /-- both remove -/
  | remove {folder other : Path} (h : folder.Respelt other) :
      SpeltAlike (.remove folder) (.remove other)

end Edit

/-- The settings after an edit, and whether that changes them. -/
def edit (settings : Settings) : Edit → Bool × Settings
  | .add folder => settings.add folder
  | .remove folder => settings.remove folder

/-- The settings after edits one after another, and which of these change them. -/
def editAll (settings : Settings) : List Edit → List Bool × Settings
  | [] => ([], settings)
  | edit :: rest =>
    let (changed, next) := settings.edit edit
    let (flags, last) := next.editAll rest
    (changed :: flags, last)

/-- What has happened to a list to which a folder has been added. -/
structure Added (folder : Path) (before after : List Path) (changed : Bool) : Prop where
  /-- the answer tells whether the list is another -/
  changed_iff : changed = true ↔ after ≠ before
  /-- the folder is there, and not once more if it was there -/
  times : folder.timesIn after = max 1 (folder.timesIn before)
  /-- all other folders are there as before -/
  others : after.filter (!folder.same ·) = before.filter (!folder.same ·)
  /-- what is new is the folder as it has been spelt, behind all others -/
  place : after = before ∨ after = before ++ [folder]

/-- What has happened to a list from which a folder has been removed. -/
structure Removed (folder : Path) (before after : List Path) (changed : Bool) : Prop where
  /-- the answer tells whether the list is another -/
  changed_iff : changed = true ↔ after ≠ before
  /-- the folder is not there in any spelling -/
  times : folder.timesIn after = 0
  /-- all other folders are there as before -/
  others : after.filter (!folder.same ·) = before.filter (!folder.same ·)

/-- How a list of folders has come about from another by edits, with the answer to each. -/
inductive Course : List Path → List Edit → List Bool → List Path → Prop where
  /-- without edits it has stayed -/
  | done (folders : List Path) : Course folders [] [] folders
  /-- the first edit has added a folder -/
  | add {folder : Path} {before next after : List Path} {changed : Bool} {edits : List Edit}
      {flags : List Bool} (h : Added folder before next changed)
      (hrest : Course next edits flags after) :
      Course before (.add folder :: edits) (changed :: flags) after
  /-- the first edit has removed a folder -/
  | remove {folder : Path} {before next after : List Path} {changed : Bool} {edits : List Edit}
      {flags : List Bool} (h : Removed folder before next changed)
      (hrest : Course next edits flags after) :
      Course before (.remove folder :: edits) (changed :: flags) after

/-! ## One edit -/

variable {settings : Settings} {folder : Path} {before after next : List Path} {changed : Bool}
  {edits : List Edit} {flags : List Bool}

/-- The settings do not contain a folder if no spelling of it stands in the list. -/
theorem contains_eq_false_iff :
    settings.contains folder = false ↔ folder.timesIn settings.folders = 0 := by
  rw [contains, Path.timesIn_eq_zero_iff, List.any_eq_false]
  simp only [Bool.not_eq_true]

theorem add_of_contains (h : settings.contains folder = true) :
    settings.add folder = (false, settings) := by
  rw [add, if_pos h]

theorem add_of_not_contains (h : settings.contains folder = false) :
    settings.add folder = (true, { folders := settings.folders ++ [folder] }) := by
  rw [add, if_neg (by rw [h]; exact Bool.false_ne_true)]

/-- **Adding** puts a folder behind the others if it is not there, and otherwise changes nothing and
says so. -/
theorem added_add (settings : Settings) (folder : Path) :
    Added folder settings.folders (settings.add folder).2.folders (settings.add folder).1 := by
  cases h : settings.contains folder with
  | true =>
    have hpos : folder.timesIn settings.folders ≠ 0 := by
      rw [Ne, ← contains_eq_false_iff, h]
      exact Bool.noConfusion
    rw [add_of_contains h]
    exact ⟨by simp, by simp only; omega, rfl, .inl rfl⟩
  | false =>
    rw [add_of_not_contains h]
    refine ⟨by simp, ?_, by simp [folder.same_refl], .inr rfl⟩
    rw [Path.timesIn_append, contains_eq_false_iff.mp h, folder.timesIn_singleton]
    rfl

/-- **Removing** takes out every spelling of a folder and leaves the others as they are. -/
theorem removed_remove (settings : Settings) (folder : Path) :
    Removed folder settings.folders (settings.remove folder).2.folders
      (settings.remove folder).1 where
  changed_iff := by
    rw [remove, decide_eq_true_iff]
    refine not_congr ⟨fun hlength => ?_, congrArg List.length⟩
    exact List.filter_sublist.eq_of_length hlength
  times := by
    rw [Path.timesIn_eq_zero_iff]
    intro other hother
    simpa using (List.mem_filter.mp hother).2
  others := by
    rw [remove, List.filter_filter]
    simp only [Bool.and_self]

/-- The rest of a list from which a folder has been removed is what there was besides. -/
theorem Removed.eq_filter (h : Removed folder before after changed) :
    after = before.filter (!folder.same ·) := by
  rw [← h.others, eq_comm, List.filter_eq_self]
  intro other hother
  rw [Path.timesIn_eq_zero_iff.mp h.times other hother]
  rfl

/-- Adding a folder that is not there is undone by removing it, and so is the answer: both say that
they changed the list. -/
theorem remove_add (h : settings.contains folder = false) :
    (settings.add folder).2.remove folder = (true, settings) := by
  have hkept : settings.folders.filter (!folder.same ·) = settings.folders := by
    rw [List.filter_eq_self]
    intro other hother
    rw [Path.timesIn_eq_zero_iff.mp (contains_eq_false_iff.mp h) other hother]
    rfl
  rw [add_of_not_contains h, remove, List.filter_append, hkept]
  simp [folder.same_refl]

/-! ## Many edits -/

/-- Edits one after another take the course that each of them prescribes, with its answer. -/
theorem course_editAll (settings : Settings) (edits : List Edit) :
    Course settings.folders edits (settings.editAll edits).1
      (settings.editAll edits).2.folders := by
  induction edits generalizing settings with
  | nil => exact .done _
  | cons edit rest ih =>
    cases edit with
    | add folder => exact .add (added_add settings folder) (ih _)
    | remove folder => exact .remove (removed_remove settings folder) (ih _)

namespace Course

/-- A folder that no edit is about is there as often as before. -/
theorem untouched (h : Course before edits flags after)
    (hedits : ∀ edit ∈ edits, edit.concerns folder = false) :
    folder.timesIn after = folder.timesIn before := by
  induction h with
  | done => rfl
  | add h _ ih =>
    obtain ⟨hedit, hrest⟩ := List.forall_mem_cons.mp hedits
    rw [ih hrest, Path.timesIn_of_others h.others hedit]
  | remove h _ ih =>
    obtain ⟨hedit, hrest⟩ := List.forall_mem_cons.mp hedits
    rw [ih hrest, Path.timesIn_of_others h.others hedit]

/-- Edits behind others go on from where these have come, so that the last edit of a folder can be
looked at by itself. -/
theorem exists_behind {front : List Edit} (h : Course before (front ++ edits) flags after) :
    ∃ between flags, Course between edits flags after := by
  induction front generalizing before flags with
  | nil => exact ⟨before, flags, h⟩
  | cons edit rest ih =>
    cases h with
    | add _ hrest | remove _ hrest => exact ih hrest

/-- The last edit of a folder has added it, and then it is there, whatever came before. -/
theorem timesIn_of_add {front back : List Edit} {added : Path}
    (h : Course before (front ++ .add added :: back) flags after)
    (hadded : added.same folder = true)
    (hback : ∀ edit ∈ back, edit.concerns folder = false) : 0 < folder.timesIn after := by
  obtain ⟨between, flags, hlast⟩ := h.exists_behind
  cases hlast with
  | add hadd hrest =>
    have htimes := hadd.times
    rw [Path.timesIn_congr hadded] at htimes
    rw [hrest.untouched hback]
    omega

/-- The last edit of a folder has removed it, and then it is not there, however often it was. -/
theorem timesIn_of_remove {front back : List Edit} {removed : Path}
    (h : Course before (front ++ .remove removed :: back) flags after)
    (hremoved : removed.same folder = true)
    (hback : ∀ edit ∈ back, edit.concerns folder = false) : folder.timesIn after = 0 := by
  obtain ⟨between, flags, hlast⟩ := h.exists_behind
  cases hlast with
  | remove hremove hrest =>
    rw [hrest.untouched hback, ← Path.timesIn_congr hremoved]
    exact hremove.times

/-- No edit makes a folder stand in the list twice; only what was there twice from the start can be.
-/
theorem timesIn_le (h : Course before edits flags after) (folder : Path) :
    folder.timesIn after ≤ max 1 (folder.timesIn before) := by
  induction h with
  | done => exact le_max_right _ _
  | @add added before next _ _ _ _ h _ ih =>
    cases hsame : added.same folder with
    | true =>
      have htimes := h.times
      rw [Path.timesIn_congr hsame, Path.timesIn_congr hsame] at htimes
      omega
    | false => rwa [Path.timesIn_of_others h.others hsame] at ih
  | @remove removed before next _ _ _ _ h _ ih =>
    cases hsame : removed.same folder with
    | true =>
      have htimes := h.times
      rw [Path.timesIn_congr hsame] at htimes
      omega
    | false => rwa [Path.timesIn_of_others h.others hsame] at ih

/-- If an edit and those behind it leave the folders that they are not about, together they leave
those that none of them is about. -/
theorem filter_untouched {edit : Edit}
    (h : next.filter (!edit.concerns ·) = before.filter (!edit.concerns ·))
    (hrest : after.filter (fun p => edits.all (!·.concerns p)) =
      next.filter fun p => edits.all (!·.concerns p)) :
    after.filter (fun p => (edit :: edits).all (!·.concerns p)) =
      before.filter fun p => (edit :: edits).all (!·.concerns p) := by
  have hsplit (folders : List Path) :
      folders.filter (fun p => (edit :: edits).all (!·.concerns p)) =
        (folders.filter fun p => edits.all (!·.concerns p)).filter (!edit.concerns ·) := by
    rw [List.filter_filter]
    rfl
  rw [hsplit, hrest, List.filter_comm, h, List.filter_comm, ← hsplit]

/-- Folders that no edit is about stay in their order, since edits only take out and put at the end.
-/
theorem others (h : Course before edits flags after) :
    after.filter (fun p => edits.all (!·.concerns p)) =
      before.filter fun p => edits.all (!·.concerns p) := by
  induction h with
  | done => rfl
  | add h _ ih => exact filter_untouched h.others ih
  | remove h _ ih => exact filter_untouched h.others ih

/-- What was there from the start and has not been removed stands in front, what has been added
behind it. -/
theorem order (h : Course before edits flags after) : ∃ fresh,
    after = before.filter (fun p => !edits.any (·.removes p)) ++ fresh ∧
      fresh.Sublist (edits.filterMap Edit.added?) ∧ ∀ p ∈ fresh, p.timesIn after = 1 := by
  induction h with
  | done folders => exact ⟨[], by simp, List.Sublist.refl _, by simp⟩
  | @add folder before next after _ edits _ h hrest ih =>
    obtain ⟨fresh, hafter, hfresh, honce⟩ := ih
    have hnone (p : Path) : (Edit.add folder :: edits).any (·.removes p) =
        edits.any (·.removes p) := by
      simp only [List.any_cons, Edit.removes, Bool.false_or]
    simp only [hnone]
    rcases h.place with rfl | rfl
    · exact ⟨fresh, hafter, hfresh.cons folder, honce⟩
    · rw [List.filter_append, List.append_assoc] at hafter
      -- the new folder counts only if no later edit removes it
      refine ⟨_, hafter, ?_, ?_⟩
      · exact List.Sublist.append List.filter_sublist hfresh
      · intro p hp
        rcases List.mem_append.mp hp with hp | hp
        · have hmem : p ∈ after := hafter ▸ List.mem_append_right _ (List.mem_append_left _ hp)
          obtain rfl := List.mem_singleton.mp (List.mem_of_mem_filter hp)
          have hnext := h.times
          rw [p.timesIn_append, p.timesIn_singleton] at hnext
          have hle := hrest.timesIn_le p
          rw [p.timesIn_append, p.timesIn_singleton] at hle
          have hpos := Path.timesIn_pos hmem
          omega
        · exact honce p hp
  | @remove folder before next after _ edits _ h hrest ih =>
    obtain ⟨fresh, hafter, hfresh, honce⟩ := ih
    refine ⟨fresh, ?_, hfresh, honce⟩
    rw [hafter, h.eq_filter, List.filter_filter]
    simp only [List.any_cons, Bool.not_or, Bool.and_comm, Edit.removes]

end Course

/-- What a list of folders has become by edits. -/
structure Outcome (edits : List Edit) (before after : List Path) : Prop where
  /-- a folder that the last edit of it has added is there -/
  added : ∀ {front back : List Edit} {added folder : Path}, edits = front ++ .add added :: back →
    added.same folder = true → (∀ edit ∈ back, edit.concerns folder = false) →
      0 < folder.timesIn after
  /-- one that the last edit of it has removed is not there -/
  removed : ∀ {front back : List Edit} {removed folder : Path},
    edits = front ++ .remove removed :: back → removed.same folder = true →
      (∀ edit ∈ back, edit.concerns folder = false) → folder.timesIn after = 0
  /-- those that no edit is about are there as before -/
  others : after.filter (fun p => edits.all (!·.concerns p)) =
    before.filter fun p => edits.all (!·.concerns p)
  /-- none is there twice that was not before -/
  times : ∀ folder : Path, folder.timesIn after ≤ max 1 (folder.timesIn before)
  /-- what was there and was not removed stands in front, behind it once each what has been added -/
  order : ∃ fresh, after = before.filter (fun p => !edits.any (·.removes p)) ++ fresh ∧
    fresh.Sublist (edits.filterMap Edit.added?) ∧ ∀ p ∈ fresh, p.timesIn after = 1

/-- Whatever course edits take, its outcome is settled by the last edit of each folder. -/
theorem Course.outcome (h : Course before edits flags after) : Outcome edits before after where
  added hedits := by
    subst hedits
    exact h.timesIn_of_add
  removed hedits := by
    subst hedits
    exact h.timesIn_of_remove
  others := h.others
  times := h.timesIn_le
  order := h.order

/-! ## Spellings -/

/-- Lists of the same folders, in whatever spelling. -/
abbrev SpeltAlike (folders others : List Path) : Prop := List.Forall₂ Path.Respelt folders others

theorem same_of_respelt {p q r t : Path} (hp : p.Respelt q) (hr : r.Respelt t) :
    p.same r = q.same t := by
  have hpq := Path.same_iff.mp ((p.same_iff_respelt q).mpr hp)
  have hrt := Path.same_iff.mp ((r.same_iff_respelt t).mpr hr)
  rw [Path.same, Path.same, hpq, hrt]

theorem any_of_speltAlike {folders others : List Path} {added : Path}
    (h : SpeltAlike folders others) (hadded : folder.Respelt added) :
    folders.any (folder.same ·) = others.any (added.same ·) := by
  induction h with
  | nil => rfl
  | cons hfirst _ ih => rw [List.any_cons, List.any_cons, ih, same_of_respelt hadded hfirst]

/-- One edit does the same in whatever spelling, both to the list and in its answer. -/
theorem edit_of_speltAlike {other : Settings} {edit again : Edit}
    (h : SpeltAlike settings.folders other.folders) (hedit : edit.SpeltAlike again) :
    (settings.edit edit).1 = (other.edit again).1 ∧
      SpeltAlike (settings.edit edit).2.folders (other.edit again).2.folders := by
  cases hedit with
  | @add folder added hfolder =>
    have hcontains : settings.contains folder = other.contains added := any_of_speltAlike h hfolder
    cases hthere : settings.contains folder with
    | true =>
      rw [Settings.edit, Settings.edit, add_of_contains hthere,
        add_of_contains (hcontains ▸ hthere)]
      exact ⟨rfl, h⟩
    | false =>
      rw [Settings.edit, Settings.edit, add_of_not_contains hthere,
        add_of_not_contains (hcontains ▸ hthere)]
      exact ⟨rfl, List.rel_append h (.cons hfolder .nil)⟩
  | @remove folder removed hfolder =>
    -- spellings of one folder are removed by spellings of one folder
    have hkept : SpeltAlike (settings.folders.filter (!folder.same ·))
        (other.folders.filter (!removed.same ·)) :=
      List.rel_filter (fun _ _ hsame => by simp only [same_of_respelt hfolder hsame]) h
    refine ⟨?_, hkept⟩
    rw [Settings.edit, Settings.edit, remove, remove]
    simp only [hkept.length_eq, h.length_eq]

theorem editAll_of_speltAlike {other : Settings} {others : List Edit}
    (h : SpeltAlike settings.folders other.folders)
    (hedits : List.Forall₂ Edit.SpeltAlike edits others) :
    (settings.editAll edits).1 = (other.editAll others).1 ∧
      SpeltAlike (settings.editAll edits).2.folders (other.editAll others).2.folders := by
  induction hedits generalizing settings other with
  | nil => exact ⟨rfl, h⟩
  | cons hedit _ ih =>
    obtain ⟨hchanged, hnext⟩ := edit_of_speltAlike h hedit
    obtain ⟨hflags, hlast⟩ := ih hnext
    refine ⟨?_, hlast⟩
    rw [editAll, editAll]
    simp only [hchanged, hflags]

/-- **Edits.** Whatever the settings are, each of some edits does what it should and answers whether
it has changed the list; what comes out in the end is settled by the last edit of each folder, in
the order of an ordered set. To add a folder that is not there and to remove it again leaves the
list as it was. Edits that spell folders otherwise, of a list that does, have the same answers and
come to a list of the same folders. -/
theorem editAll_ordered (settings : Settings) (edits : List Edit) :
    Course settings.folders edits (settings.editAll edits).1
        (settings.editAll edits).2.folders ∧
    Outcome edits settings.folders (settings.editAll edits).2.folders ∧
    (∀ folder, settings.contains folder = false →
      (settings.add folder).2.remove folder = (true, settings)) ∧
    ∀ (other : Settings) (others : List Edit), SpeltAlike settings.folders other.folders →
      List.Forall₂ Edit.SpeltAlike edits others →
        (settings.editAll edits).1 = (other.editAll others).1 ∧
          SpeltAlike (settings.editAll edits).2.folders (other.editAll others).2.folders :=
  ⟨course_editAll settings edits, (course_editAll settings edits).outcome, fun _ => remove_add,
    fun _ _ => editAll_of_speltAlike⟩

/-- A folder that the file has twice is removed as a whole, and comes back behind the others. -/
example : ({ folders := ["/a", "/b", "/a/"] } : Settings).editAll
    [.add "//a", .remove "/a/.", .remove "./b", .add "/a"] =
      ([false, true, false, true], { folders := ["/b", "/a"] }) := by
  decide +kernel

end Settings

end FeatureTransform
