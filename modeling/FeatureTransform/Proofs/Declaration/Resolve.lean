import FeatureTransform.Declaration.Resolve
import FeatureTransform.Proofs.Attempt
import FeatureTransform.Proofs.Text.Case
import FeatureTransform.Proofs.Text.Split
import Mathlib.Data.List.Infix

/-!
# What lines declare

A line declares something only under a proper name, and only if its type begins with a word that
names a kind. The keys of the header, `group` and `name`, are no such words, nor is any part in
front of them.
-/

namespace FeatureTransform

/-- The names that a declaration may have. -/
structure IsProperName (name : String) : Prop where
  /-- there is one -/
  something : name ≠ ""
  /-- no white space surrounds it -/
  trimmed : Text.trim name.toList = name.toList
  /-- it ends before the separator -/
  undivided : '=' ∉ name.toList
  /-- it does not belong to the host -/
  free : name ∉ reservedNames

section Lines

variable {content : Text} {d : Declaration}

/-- A line that declares something has a name in front of its first `=`, which is not reserved, and
a type behind it. White space around the name is not part of it. -/
theorem resolveText_eq_ok (h : resolveText content = .ok d) : ∃ token type,
    Text.splitOnce? '=' content = some (token, type) ∧ Text.trim token ≠ [] ∧
      String.ofList (Text.trim token) ∉ reservedNames ∧
      declare (Text.trim token) (TypeText.of type) = .ok d := by
  obtain ⟨⟨token, type⟩, hsplit, h⟩ := Attempt.bind_eq_ok h
  have hparts : Text.splitOnce? '=' content = some (token, type) := by
    rw [splitDeclaration] at hsplit
    split at hsplit
    · rename_i parts hparts
      rw [hparts, Except.ok.inj hsplit]
    · cases hsplit
  refine ⟨token, type, hparts, ?_⟩
  simp only [Text.nonEmpty?] at h
  split at h
  · cases h
  · rename_i name hname
    split at hname
    · cases hname
    · rename_i trimmed hsome
      obtain rfl := Option.some.inj hname
      split at h
      · cases h
      · rename_i hfree
        exact ⟨hsome, hfree, h⟩

theorem name_of_outputOf? {name : Text} {type : TypeText} (h : outputOf? name type = some d) :
    d.name = String.ofList name := by
  rw [outputOf?] at h
  split at h
  · simp only at h
    split at h <;> cases h <;> rfl
  · cases h

/-- The name of what is declared is the name that was given, whether it is a parameter or an output.
-/
theorem name_of_declare {name : Text} {type : TypeText} (h : declare name type = .ok d) :
    d.name = String.ofList name := by
  rw [declare] at h
  split at h
  · rename_i output houtput
    cases h
    exact name_of_outputOf? houtput
  · simp only at h
    split at h <;> cases h
    rfl

/-- **Names.** A line declares something under a proper name only: one that a program can assign to,
which none of the reserved names is. -/
theorem isProperName_of_resolveText (h : resolveText content = .ok d) : IsProperName d.name := by
  obtain ⟨token, type, hsplit, hsome, hfree, hdeclare⟩ := resolveText_eq_ok h
  have hundivided := (Text.splitOnce?_eq_some hsplit).2
  rw [name_of_declare hdeclare]
  refine ⟨?_, ?_, ?_, hfree⟩
  · intro hempty
    exact hsome (String.ofList_injective hempty)
  · rw [String.toList_ofList, Text.trim_trim]
  · rw [String.toList_ofList]
    exact fun hmem => hundivided (Text.mem_of_mem_trim hmem)

end Lines

/-! ## Words -/

/-- The code points of white space. -/
def blankCodes : List Nat :=
  List.range' 9 5 ++ [0x20, 0x85, 0xA0, 0x1680] ++ List.range' 0x2000 11 ++
    [0x2028, 0x2029, 0x202F, 0x205F, 0x3000]

/-- White space does not belong to words. -/
theorem isWord_of_isBlank {c : Char} (h : Char.isBlank c = true) : Char.isWord c = false := by
  have hcodes : ∀ n ∈ blankCodes, Char.isWord (Char.ofNat n) = false := by decide +kernel
  have hcode : c.toNat ∈ blankCodes := by
    simp only [Char.isBlank, Bool.or_eq_true, Bool.and_eq_true, decide_eq_true_eq,
      beq_iff_eq] at h
    simp only [blankCodes, List.mem_append, List.mem_range'_1, List.mem_cons, List.not_mem_nil,
      or_false]
    omega
  have hword := hcodes c.toNat hcode
  rwa [Char.ofNat_toNat] at hword

/-- A word ends where no character of a word follows, and what follows is read for itself. Which
character it is does not matter, so that separators may be chosen freely. -/
theorem splitKeyword_append {word back : Text} (hword : ∀ c ∈ word, Char.isWord c = true)
    (hback : ∀ c ∈ back.head?, Char.isWord c = false) :
    splitKeyword (word ++ back) = (String.ofList (Text.lower word), (splitKeyword back).2) := by
  have hstops : back.takeWhile Char.isWord = [] := by
    cases back with
    | nil => rfl
    | cons c rest => exact List.takeWhile_cons_of_neg (by simp [hback c rfl])
  unfold splitKeyword
  rw [List.takeWhile_append_of_pos hword, List.dropWhile_append_of_pos hword, hstops,
    List.append_nil]

/-! ## Words that name no kind -/

/-- The keys of the header. -/
def headerKeys : List Text := [['g', 'r', 'o', 'u', 'p'], ['n', 'a', 'm', 'e']]

/-- What stands in front of a key is a word of no meaning in a type: it is neither `optional` nor
`output`, and it names no kind. So a key that is cut short by some character declares nothing
either. -/
theorem unknown_of_front {word key : Text} (hkey : key ∈ headerKeys) (h : word <+: key) :
    String.ofList word ≠ "optional" ∧ String.ofList word ≠ "output" ∧
      ∀ s, kindOf? (currentKeyword (String.ofList word)) s = none := by
  rw [headerKeys, List.mem_cons, List.mem_singleton] at hkey
  have hword := (List.mem_inits word key).mpr h
  rcases hkey with rfl | rfl
  · simp only [List.inits, List.map_cons, List.map_nil, List.mem_cons, List.not_mem_nil,
      or_false] at hword
    rcases hword with rfl | rfl | rfl | rfl | rfl | rfl <;>
      exact ⟨by decide, by decide, fun s => rfl⟩
  · simp only [List.inits, List.map_cons, List.map_nil, List.mem_cons, List.not_mem_nil,
      or_false] at hword
    rcases hword with rfl | rfl | rfl | rfl | rfl <;>
      exact ⟨by decide, by decide, fun s => rfl⟩

/-- The first word of a text whose lower case is a key stands in front of the key. That much is
enough, since no part in front of a key has a meaning either. -/
theorem splitKeyword_of_key {s : Text} (h : Text.lower s ∈ headerKeys) :
    ∃ word, (splitKeyword s).1 = String.ofList word ∧ word <+: Text.lower s := by
  refine ⟨Text.lower (s.takeWhile Char.isWord), rfl, ?_⟩
  have hwhole := List.takeWhile_append_dropWhile (p := Char.isWord) (l := s)
  have hsigma : ∀ key ∈ headerKeys, ∀ c ∈ key, c ≠ 'σ' ∧ c ≠ 'ς' := by simp [headerKeys]
  have hfront : Text.lower (s.takeWhile Char.isWord) <+:
      Text.lower (s.takeWhile Char.isWord ++ s.dropWhile Char.isWord) := by
    apply Text.front_lower
    rw [hwhole]
    exact hsigma _ h
  rwa [hwhole] at hfront

/-- **Keys** declare nothing, under whatever name. A line such as `lanes=group` is therefore either
a key of the header or refused, but never a declaration. -/
theorem declare_of_key (name : Text) {type : Text}
    (h : Text.lower (Text.trim type) ∈ headerKeys) (d : Declaration) :
    declare name (TypeText.of type) ≠ .ok d := by
  obtain ⟨word, hword, hfront⟩ := splitKeyword_of_key h
  obtain ⟨hoptional, houtput, hkind⟩ := unknown_of_front h hfront
  have htype : (TypeText.of type).keyword = String.ofList word := by
    simp only [TypeText.of, hword]
    rw [if_neg fun hboth => hoptional hboth.1]
  have hnone : outputOf? name (TypeText.of type) = none := by
    rw [outputOf?, if_neg (htype ▸ houtput)]
  simp only [declare, hnone, htype, hkind]
  exact fun heq => nomatch heq

end FeatureTransform
