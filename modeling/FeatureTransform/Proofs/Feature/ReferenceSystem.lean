import FeatureTransform.Feature.ReferenceSystem
import FeatureTransform.Proofs.Feature.Projection
import FeatureTransform.Proofs.Text.Split
import FeatureTransform.Proofs.Text.Upper

/-!
# Names of reference systems

The name that a reference system keeps is canonical: it is the text that was read, without the white
space around it and in upper case, and it is read as the same system again. Texts that differ only
in white space around them and in the case of letters of ASCII name the same system. So it is
settled by comparing names whether two texts mean one system, and between which there is a way.
-/

namespace FeatureTransform

namespace Text

variable {s t : Text}

/-! ## Texts that look alike -/

/-- A text with white space around it, or none. -/
def Around (inner s : Text) : Prop := ∃ front back, s = front ++ inner ++ back ∧
  (∀ c ∈ front, Char.isBlank c = true) ∧ ∀ c ∈ back, Char.isBlank c = true

/-- The texts differ only in white space around them and in the case of letters of ASCII. -/
def LooksLike (s t : Text) : Prop := ∃ inner other, Around inner s ∧ Around other t ∧
  inner.map Char.toLower = other.map Char.toLower

/-- White space around a text, on either side, is gone when it is trimmed. -/
theorem Around.trim_eq {inner : Text} (h : Around inner s) : trim s = trim inner := by
  obtain ⟨front, back, rfl, hfront, hback⟩ := h
  rw [trim_append_of_blank hback, trim_blank_append hfront]

/-- What holds of no letter of ASCII does not depend on the case of letters. Being white space, a
digit or the separator are all such properties, so that a text and its lower case are taken apart at
the same places. -/
theorem apply_toLower {p : Char → Bool}
    (h : ∀ d : Char, 65 ≤ d.toNat → d.toNat ≤ 122 → p d = false) (c : Char) :
    p c.toLower = p c := by
  rcases toLower_cases c with ⟨-, hsame⟩ | ⟨hupper, hmoved⟩
  · rw [hsame]
  · obtain ⟨hfirst, hlast⟩ := (isUpper_iff c).mp hupper
    rw [h c hfirst (by omega), h c.toLower (by omega) (by omega)]

/-- White space is white space in lower case, and nothing becomes white space. -/
theorem isBlank_toLower (c : Char) : Char.isBlank c.toLower = Char.isBlank c := by
  refine apply_toLower (p := Char.isBlank) (fun d hfirst hlast => ?_) c
  simp only [Char.isBlank, Bool.or_eq_false_iff, Bool.and_eq_false_iff, decide_eq_false_iff_not,
    beq_eq_false_iff_ne]
  omega

theorem isDigit_toLower (c : Char) : c.toLower.isDigit = c.isDigit := by
  refine apply_toLower (p := Char.isDigit) (fun d hfirst hlast => ?_) c
  rw [← Bool.not_eq_true]
  intro hdigit
  have hlast : d.toNat ≤ 57 := of_decide_eq_true (Bool.and_eq_true_iff.mp hdigit).2
  omega

/-- The separator is no letter, and no letter becomes one. -/
theorem toLower_eq_colon_iff (c : Char) : c.toLower = ':' ↔ c = ':' := by
  have hcolon := apply_toLower (p := (· == ':')) (fun d hfirst hlast => ?_) c
  · rw [← beq_iff_eq, hcolon, beq_iff_eq]
  · rw [beq_eq_false_iff_ne]
    rintro rfl
    exact absurd hfirst (by decide)

theorem dropWhile_isBlank_map (s : Text) : (s.map Char.toLower).dropWhile Char.isBlank =
    (s.dropWhile Char.isBlank).map Char.toLower := by
  rw [List.dropWhile_map]
  congr 2
  funext c
  exact isBlank_toLower c

/-- Trimming a text and then lowering its letters is the same as the other way round. -/
theorem trim_map_toLower (s : Text) : trim (s.map Char.toLower) = (trim s).map Char.toLower := by
  simp only [trim, trimEnd, trimEndBy, trimStart, dropWhile_isBlank_map, ← List.map_reverse]

/-- Texts that look alike are the same without white space around them and in lower case. -/
theorem LooksLike.map_trim (h : LooksLike s t) :
    (trim s).map Char.toLower = (trim t).map Char.toLower := by
  obtain ⟨inner, other, hs, ht, hsame⟩ := h
  rw [hs.trim_eq, ht.trim_eq, ← trim_map_toLower, hsame, trim_map_toLower]

/-- A text is divided at its first separator, whatever the case of its letters. -/
theorem splitOnce?_map_toLower (s : Text) : splitOnce? ':' (s.map Char.toLower) =
    (splitOnce? ':' s).map fun parts => (parts.1.map Char.toLower, parts.2.map Char.toLower) := by
  induction s with
  | nil => rfl
  | cons c rest ih =>
    rw [List.map_cons, splitOnce?, splitOnce?, ih]
    by_cases hc : c = ':'
    · rw [if_pos ((toLower_eq_colon_iff c).mpr hc), if_pos hc]
      rfl
    · rw [if_neg fun h => hc ((toLower_eq_colon_iff c).mp h), if_neg hc, Option.map_map,
        Option.map_map]
      rfl

theorem all_isDigit_map_toLower (s : Text) :
    (s.map Char.toLower).all Char.isDigit = s.all Char.isDigit := by
  rw [List.all_map]
  congr 1
  funext c
  exact isDigit_toLower c

/-- Digits have one case only, so that the number of a system is the same in both texts. -/
theorem map_toLower_of_isDigit (h : s.all Char.isDigit = true) : s.map Char.toLower = s := by
  have hself : ∀ c ∈ s, c.toLower = id c := by
    intro c hc
    rcases toLower_cases c with ⟨-, hsame⟩ | ⟨hupper, -⟩
    · exact hsame
    · have hlast : c.toNat ≤ 57 :=
        of_decide_eq_true (Bool.and_eq_true_iff.mp (List.all_eq_true.mp h c hc)).2
      obtain ⟨hfirst, -⟩ := (isUpper_iff c).mp hupper
      omega
  rw [List.map_congr_left hself, List.map_id]

theorem upper_of_isDigit (h : s.all Char.isDigit = true) : upper s = s := by
  have hself : ∀ c ∈ s, Char.upper c = [c] := by
    intro c hc
    have hdigits := Bool.and_eq_true_iff.mp (List.all_eq_true.mp h c hc)
    have hfirst : 48 ≤ c.toNat := of_decide_eq_true hdigits.1
    have hlast : c.toNat ≤ 57 := of_decide_eq_true hdigits.2
    have hsettled : isAvoiding ⟨48, 57, 1⟩ = true := by decide +kernel
    exact upper_of_isSettled (isSettled_of_isAvoiding hsettled ⟨hfirst, hlast, Nat.mod_one _⟩)
  calc s.flatMap Char.upper
    _ = s.flatMap fun c => [c] := List.flatMap_congr hself
    _ = s := List.flatMap_singleton' s

theorem upper_colon_cons (s : Text) : upper (':' :: s) = ':' :: upper s := rfl

end Text

namespace ReferenceSystem

open Text

variable {s t : String} {system : ReferenceSystem} {authority code : Text}

/-! ## Reading -/

/-- The parts of a text that names a system. -/
structure Names (s authority code : Text) : Prop where
  /-- but for white space around them they are the text, with a colon between them -/
  parts : trim s = authority ++ ':' :: code
  /-- the colon is the first -/
  first : ':' ∉ authority
  /-- there is an authority -/
  authority_ne_nil : authority ≠ []
  /-- there is a number -/
  code_ne_nil : code ≠ []
  /-- which consists of digits -/
  digits : code.all Char.isDigit = true

/-- A text is read as a system exactly if it names one, and the system keeps the parts, the
authority in upper case. -/
theorem parse?_eq_some_iff : parse? s = some system ↔
    ∃ authority code, Names s.toList authority code ∧
      system.name = String.ofList (upper authority ++ ':' :: code) := by
  rw [parse?]
  constructor
  · intro h
    split at h
    · cases h
    · next authority code hsplit =>
      obtain ⟨hparts, hfirst⟩ := splitOnce?_eq_some_iff.mp hsplit
      split at h
      · cases h
      · next hnot =>
        simp only [not_or, Bool.not_eq_true, Bool.not_eq_false'] at hnot
        obtain ⟨hauthority, hcode, hdigits⟩ := hnot
        cases h
        exact ⟨authority, code, ⟨hparts, hfirst, hauthority, hcode, hdigits⟩, rfl⟩
  · -- the conditions are those of the code, one by one
    rintro ⟨authority, code, h, hname⟩
    rw [splitOnce?_eq_some_iff.mpr ⟨h.parts, h.first⟩]
    simp only [h.authority_ne_nil, h.code_ne_nil, h.digits, Bool.not_true, Bool.false_eq_true,
      or_self, if_false, ← hname]

/-- White space around a text and the case of its letters do not matter for the number, nor for the
upper case of the authority. Nothing else of the authority is kept. -/
theorem Names.of_looksLike {s t : Text} (h : Names s authority code) (hlooks : LooksLike s t) :
    ∃ other, Names t other code ∧ upper other = upper authority := by
  have hsplit : (splitOnce? ':' (trim t)).map
      (fun parts => (parts.1.map Char.toLower, parts.2.map Char.toLower)) =
      some (authority.map Char.toLower, code.map Char.toLower) := by
    rw [← splitOnce?_map_toLower, ← hlooks.map_trim, splitOnce?_map_toLower,
      splitOnce?_eq_some_iff.mpr ⟨h.parts, h.first⟩]
    rfl
  obtain ⟨⟨other, digits⟩, hother, hlower⟩ := Option.map_eq_some_iff.mp hsplit
  obtain ⟨hauthority, hcode⟩ := Prod.mk.inj hlower
  have hdigits : digits.all Char.isDigit = true := by
    rw [← all_isDigit_map_toLower, hcode, all_isDigit_map_toLower]
    exact h.digits
  -- digits have one case only, so the numbers are the same and not only alike
  obtain rfl : digits = code := by
    rwa [map_toLower_of_isDigit hdigits, map_toLower_of_isDigit h.digits] at hcode
  obtain ⟨hparts, hfirst⟩ := splitOnce?_eq_some_iff.mp hother
  refine ⟨other, ⟨hparts, hfirst, ?_, h.code_ne_nil, hdigits⟩, upper_congr hauthority⟩
  rintro rfl
  exact h.authority_ne_nil (List.map_eq_nil_iff.mp hauthority.symm)

/-- The text in upper case names the same system. Upper-casing makes neither white space nor a
separator, and doing it twice is doing it once. -/
theorem Names.upper {s : Text} (h : Names s authority code) :
    Names (Text.upper authority ++ ':' :: code) (Text.upper authority) code where
  parts := by
    obtain ⟨hfirst, hlast⟩ := ends_trim s
    rw [h.parts] at hfirst hlast
    rw [List.head?_append_of_ne_nil _ h.authority_ne_nil] at hfirst
    have hback : ':' :: code ≠ [] := List.cons_ne_nil _ _
    refine trim_of_ends ?_ ?_
    · rw [List.head?_append_of_ne_nil _ fun hnil => h.authority_ne_nil (upper_eq_nil_iff.mp hnil)]
      exact head?_upper hfirst
    · rw [List.getLast?_append_of_ne_nil _ hback] at hlast ⊢
      exact hlast
  first := colon_not_mem_upper h.first
  authority_ne_nil hnil := h.authority_ne_nil (upper_eq_nil_iff.mp hnil)
  code_ne_nil := h.code_ne_nil
  digits := h.digits

/-- The name that a text gives to a system, if it gives one: without the white space around it, in
upper case. -/
def canonicalName (s : String) : String := String.ofList (Text.upper (trim s.toList))

/-- The name of a system is the text that was read, without the white space around it and in upper
case. -/
theorem name_eq (h : parse? s = some system) : system.name = canonicalName s := by
  obtain ⟨authority, code, hnames, hname⟩ := parse?_eq_some_iff.mp h
  rw [hname, canonicalName, hnames.parts, upper_append, upper_colon_cons,
    upper_of_isDigit hnames.digits]

/-- The name that a system keeps is read as that system, so that it can be stored and read again. -/
theorem parse?_name (h : parse? s = some system) : parse? system.name = some system := by
  obtain ⟨authority, code, hnames, hname⟩ := parse?_eq_some_iff.mp h
  refine parse?_eq_some_iff.mpr ⟨Text.upper authority, code, ?_, ?_⟩
  · rw [hname, String.toList_ofList]
    exact hnames.upper
  · rw [hname, upper_upper]

/-- Texts that look alike are read as one system, or neither is read. -/
theorem parse?_of_looksLike (h : parse? s = some system) (hlooks : LooksLike s.toList t.toList) :
    parse? t = some system := by
  obtain ⟨authority, code, hnames, hname⟩ := parse?_eq_some_iff.mp h
  obtain ⟨other, hother, hupper⟩ := hnames.of_looksLike hlooks
  exact parse?_eq_some_iff.mpr ⟨other, code, hother, by rw [hname, hupper]⟩

/-- Whether there is a way between two systems is told by two texts that stand for their names. -/
structure ToldBy (first second : String) (source target : ReferenceSystem) : Prop where
  /-- they are one system if the texts are one -/
  same : source = target ↔ first = second
  /-- then geometries stay as they are -/
  stays : first = second → ∀ geometry, reproject source target geometry = .ok geometry
  /-- from degrees to metres -/
  out : first = "EPSG:4326" → second = "EPSG:3857" →
    ∀ geometry, reproject source target geometry = .ok (moveGeometry toMercator geometry)
  /-- from metres to degrees -/
  back : first = "EPSG:3857" → second = "EPSG:4326" →
    ∀ geometry, reproject source target geometry = .ok (moveGeometry fromMercator geometry)
  /-- for all others there is no way -/
  none : first ≠ second → ¬(first = "EPSG:4326" ∧ second = "EPSG:3857") →
    ¬(first = "EPSG:3857" ∧ second = "EPSG:4326") →
      ∀ geometry, reproject source target geometry = .error ⟨source, target⟩

/-- Systems are the same if their names are; there is nothing else to them. -/
theorem eq_iff_name_eq (source target : ReferenceSystem) :
    source = target ↔ source.name = target.name := by
  cases source
  cases target
  rw [mk.injEq]

/-- The names of two systems tell whether these are one, and which map leads from one to the other.
-/
theorem toldBy_names (source target : ReferenceSystem) :
    ToldBy source.name target.name source target where
  same := eq_iff_name_eq source target
  stays hname geometry := by rw [reproject, if_pos ((eq_iff_name_eq _ _).mpr hname)]
  out hsource htarget := by
    obtain rfl : source = .wgs84 := (eq_iff_name_eq _ _).mpr hsource
    obtain rfl : target = .webMercator := (eq_iff_name_eq _ _).mpr htarget
    exact reproject_of_way .out
  back hsource htarget := by
    obtain rfl : source = .webMercator := (eq_iff_name_eq _ _).mpr hsource
    obtain rfl : target = .wgs84 := (eq_iff_name_eq _ _).mpr htarget
    exact reproject_of_way .back
  none hname hout hback := by
    refine reproject_of_no_way (fun hsame => hname ((eq_iff_name_eq _ _).mp hsame)) ?_
    rintro f (_ | _)
    · exact hout ⟨rfl, rfl⟩
    · exact hback ⟨rfl, rfl⟩

/-- **Names.** The name that a system has got from a text is read as that system again, and it is
the text without the white space around it and in upper case. Every text that differs only in such
white space and in the case of letters of ASCII names the same system. So the texts in this form
tell whether two systems are one, and which way there is between them. -/
theorem parsed_canonical (h : parse? s = some system) :
    parse? system.name = some system ∧
    system.name = canonicalName s ∧
    (∀ t : String, LooksLike s.toList t.toList → parse? t = some system) ∧
    ∀ t other, parse? t = some other →
      ToldBy (canonicalName s) (canonicalName t) system other := by
  refine ⟨parse?_name h, name_eq h, fun t => parse?_of_looksLike h, fun t other hother => ?_⟩
  rw [← name_eq h, ← name_eq hother]
  exact toldBy_names system other

/-- A letter that becomes two, a ligature and a number with zeros in front. -/
theorem parsed_canonical_strasse : parse? "\tStraßeﬁ:007 " = some ⟨"STRASSEFI:007"⟩ ∧
    parse? "STRASSEFI:007" = some ⟨"STRASSEFI:007"⟩ ∧
    LooksLike "\tStraßeﬁ:007 ".toList "sTRAßEﬁ:007".toList ∧
    parse? "sTRAßEﬁ:007" = some ⟨"STRASSEFI:007"⟩ := by
  have hread : parse? "\tStraßeﬁ:007 " = some ⟨"STRASSEFI:007"⟩ := by decide +kernel
  have hlooks : LooksLike "\tStraßeﬁ:007 ".toList "sTRAßEﬁ:007".toList := by
    refine ⟨"Straßeﬁ:007".toList, "sTRAßEﬁ:007".toList, ⟨['\t'], [' '], ?_⟩, ⟨[], [], ?_⟩, ?_⟩
    · exact ⟨by simp, by simp [Char.isBlank], by simp [Char.isBlank]⟩
    · exact ⟨by simp, by simp, by simp⟩
    · simp
  obtain ⟨hagain, -, hlike, -⟩ := parsed_canonical hread
  exact ⟨hread, hagain, hlooks, hlike _ hlooks⟩

end ReferenceSystem

end FeatureTransform
