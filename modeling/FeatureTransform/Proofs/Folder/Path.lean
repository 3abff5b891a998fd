import FeatureTransform.Folder.Path
import FeatureTransform.Proofs.Text.Split
import Mathlib.Data.List.Lex
import Mathlib.Data.Prod.Basic

/-!
# Paths of names

A name is that of one text or of none. The path that names spell has the root and these names as its
steps, if they are names that a file can have: texts or not, they must not be taken apart at a slash
or left out. Paths are put in order step by step, and paths of names in the order of their names.
-/

namespace FeatureTransform

/-! ## Names -/

namespace FileName

variable {name : FileName} {s : String}

theorem toByteArray_ofText (s : String) : (⟨(ofText s).bytes.toArray⟩ : ByteArray) = s.toUTF8 := by
  rw [ofText, Utf8.bytesOf, Array.toArray_toList]

/-- **Texts** of names: a name has the text that it is spelt by, and no other. There are names
without any, whose bytes are not those of characters. -/
theorem text?_eq_some_iff : name.text? = some s ↔ name = ofText s := by
  rw [text?, Utf8.fromUTF8?_eq_some_iff]
  constructor
  · intro h
    rw [ofText, Utf8.bytesOf, ← h]
  · rintro rfl
    exact toByteArray_ofText s

/-- A name that is made of a text is shown as that text. -/
theorem text_ofText (s : String) : (ofText s).text = s := by
  rw [text, toByteArray_ofText, Utf8.lossy_toUTF8]

protected theorem le_trans {a b c : FileName} (hab : a ≤ b) (hbc : b ≤ c) : a ≤ c :=
  List.le_trans hab hbc

protected theorem le_total (a b : FileName) : a ≤ b ∨ b ≤ a := List.le_total a.bytes b.bytes

protected theorem lt_of_le_of_ne {a b : FileName} (hle : a ≤ b) (hne : a ≠ b) : a < b := by
  have hless : a.bytes < b.bytes := Std.lt_of_le_of_ne hle fun h => hne (congrArg mk h)
  exact hless

end FileName

/-- A name that a file or a folder can have. It need not be a text. -/
structure IsFileName (name : FileName) : Prop where
  /-- it is not empty -/
  nonempty : name.bytes ≠ []
  /-- it does not hold the separator -/
  whole : Path.slash ∉ name.bytes
  /-- it does not stand for the folder itself -/
  ne_current : name.bytes ≠ [Path.dot]
  /-- it does not stand for the folder above -/
  ne_parent : name.bytes ≠ [Path.dot, Path.dot]

/-- What a name must not be is said of its bytes, and so it can be decided for names that are no
texts as well. -/
theorem isFileName_iff {name : FileName} : IsFileName name ↔ name.bytes ≠ [] ∧
    Path.slash ∉ name.bytes ∧ name.bytes ≠ [Path.dot] ∧ name.bytes ≠ [Path.dot, Path.dot] :=
  ⟨fun h => ⟨h.1, h.2, h.3, h.4⟩, fun h => ⟨h.1, h.2.1, h.2.2.1, h.2.2.2⟩⟩

instance (name : FileName) : Decidable (IsFileName name) := decidable_of_iff _ isFileName_iff.symm

/-! ## The order of steps -/

/-- Where a step stands among others: the root, then `.`, then `..`, then names by their bytes. -/
def Component.rank : Component → ℕ × List UInt8
  | .root => (0, [])
  | .current => (1, [])
  | .parent => (2, [])
  | .normal name => (3, name.bytes)

namespace Path

variable {names others : List FileName} {name : FileName} {p q : Path}

/-- A path comes before another if it is its front, or at the first step in which the two differ
has the smaller one. -/
def Before (p q : Path) : Prop :=
  List.Lex (Prod.Lex (· < ·) (· < ·)) (p.components.map Component.rank)
    (q.components.map Component.rank)

/-- Of two paths at most one comes before the other. -/
theorem Before.asymm (h : p.Before q) : ¬q.Before p := (List.Lex.asymm _).asymm _ _ h

/-! ## Steps of names -/

/-- A name that a file can have is a step of its own: it is neither left out nor taken for a way
back. -/
theorem component?_name (h : IsFileName name) : component? name.bytes = some (.normal name) := by
  have hidle : ¬(name.bytes = [] ∨ name.bytes = [dot]) := not_or.mpr ⟨h.nonempty, h.ne_current⟩
  rw [component?, if_neg hidle, if_neg h.ne_parent]

theorem filterMap_component? (h : ∀ name ∈ names, IsFileName name) :
    (names.map FileName.bytes).filterMap component? = names.map .normal := by
  induction names with
  | nil => rfl
  | cons name rest ih =>
    obtain ⟨hname, hrest⟩ := List.forall_mem_cons.mp h
    rw [List.map_cons, List.filterMap_cons_some (component?_name hname), ih hrest, List.map_cons]

/-- **Steps.** The path of names has no other steps than the root and them. So names are got back
from a path that was put together from them. -/
theorem components_ofNames (h : ∀ name ∈ names, IsFileName name) :
    (ofNames names).components = .root :: names.map .normal := by
  cases names with
  | nil => rfl
  | cons name rest =>
    have hpieces : Text.splitAll slash (Text.join [slash] ((name :: rest).map FileName.bytes)) =
        (name :: rest).map FileName.bytes := by
      refine Text.splitAll_join (fun piece hpiece => ?_) (List.cons_ne_nil _ _)
      obtain ⟨other, hother, rfl⟩ := List.mem_map.mp hpiece
      exact (h other hother).whole
    rw [components, ofNames, Text.splitAll, if_pos rfl, hpieces, ← filterMap_component? h]
    rfl

/-- **Order.** Paths of names are in the order of the names, compared byte by byte; the slashes
between them have no say in it. -/
theorem before_ofNames (hnames : ∀ name ∈ names, IsFileName name)
    (hothers : ∀ name ∈ others, IsFileName name) (h : names < others) :
    (ofNames names).Before (ofNames others) := by
  have hranks : ∀ {names others : List FileName}, names < others →
      List.Lex (Prod.Lex (· < ·) (· < ·)) ((names.map .normal).map Component.rank)
        ((others.map .normal).map Component.rank) := by
    intro names others h
    induction h with
    | nil => exact .nil
    | rel h => exact .rel (.right 3 h)
    | cons _ ih => exact .cons ih
  rw [Before, components_ofNames hnames, components_ofNames hothers]
  exact .cons (hranks h)

end Path

end FeatureTransform
