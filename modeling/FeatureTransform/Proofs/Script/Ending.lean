import FeatureTransform.Proofs.Script.Source

/-!
# Line endings

A text that is given directly and a named text are cut into lines in two ways. The first is cut at
every newline, so that an empty line stands behind the last newline, and only carriage returns are
taken off. The second has no such line, and is trimmed. The two ways agree on the lines that are
trimmed already, up to the one empty line, and in both carriage returns in front of a newline come
to nothing.

* **cuts** — a text is lines that end with a newline and a last one that does not;
* **carriage returns** — a script is the same with them and without them;
* **names** — a script that is named means what it means when it is given directly.
-/

namespace FeatureTransform

/-! ## Cuts -/

namespace Text

/-- The text with so many carriage returns in front of every newline. -/
def withReturns (count : Nat) (s : Text) : Text :=
  s.flatMap fun c => if c = '\n' then List.replicate count '\r' ++ ['\n'] else [c]

section Returns

variable (count : Nat) (s t : Text)

theorem withReturns_append :
    withReturns count (s ++ t) = withReturns count s ++ withReturns count t :=
  List.flatMap_append

/-- A line has no place for them, since it holds no newline. -/
theorem withReturns_of_not_mem {line : Text} (h : '\n' ∉ line) :
    withReturns count line = line := by
  have hsame : ∀ c ∈ line,
      (if c = '\n' then List.replicate count '\r' ++ ['\n'] else [c]) = [c] := by
    intro c hc
    refine if_neg ?_
    rintro rfl
    exact h hc
  exact (List.flatMap_congr hsame).trans (List.flatMap_singleton' line)

/-- A line that ends with a newline has them behind it. -/
theorem withReturns_ended {line : Text} (h : '\n' ∉ line) :
    withReturns count (line ++ ['\n']) = line ++ List.replicate count '\r' ++ ['\n'] := by
  have hnewline : withReturns count ['\n'] = List.replicate count '\r' ++ ['\n'] := by
    rw [withReturns, List.flatMap_singleton, if_pos rfl]
  rw [withReturns_append, withReturns_of_not_mem count h, hnewline, List.append_assoc]

end Returns

/-- A text is made of lines that end with a newline and of a last one that does not. -/
structure IsCut (s : Text) (ended : List Text) (last : Text) : Prop where
  /-- nothing is lost -/
  whole : s = ended.flatMap (· ++ ['\n']) ++ last
  /-- lines hold no newline -/
  lines : ∀ line ∈ ended ++ [last], '\n' ∉ line

theorem exists_isCut (s : Text) : ∃ ended last, IsCut s ended last := by
  have hwhole := join_splitAll '\n' s
  have hlines : ∀ line ∈ splitAll '\n' s, '\n' ∉ line := fun _ => not_mem_of_mem_splitAll
  rcases List.eq_nil_or_concat (splitAll '\n' s) with hnil | ⟨ended, last, hpieces⟩
  · -- no pieces are joined to no text, which is one empty line
    rw [hnil] at hwhole
    exact ⟨[], [], hwhole.symm, by simp⟩
  · rw [List.concat_eq_append] at hpieces
    rw [hpieces] at hwhole hlines
    exact ⟨ended, last, by rw [← hwhole, join_concat], hlines⟩

namespace IsCut

variable {s last : Text} {ended : List Text} (h : IsCut s ended last)
include h

/-- The lines of the first cut are those that end with a newline and the last one, even if that is
empty. -/
theorem splitAll_eq : splitAll '\n' s = ended ++ [last] := by
  rw [h.whole, ← join_concat]
  exact splitAll_join h.lines (by simp)

/-- **Carriage returns** in front of the newlines stand at the ends of the lines, but not of the
last one. -/
theorem withReturns (count : Nat) :
    IsCut (withReturns count s) (ended.map (· ++ List.replicate count '\r')) last := by
  have hended : ∀ line ∈ ended, Text.withReturns count (line ++ ['\n']) =
      line ++ List.replicate count '\r' ++ ['\n'] :=
    fun line hline => withReturns_ended count (h.lines line (List.mem_append_left _ hline))
  constructor
  · have hlast : Text.withReturns count last = last :=
      withReturns_of_not_mem count (h.lines last (by simp))
    conv_lhs => rw [h.whole, withReturns_append, hlast]
    rw [List.flatMap_map, Text.withReturns, List.flatMap_assoc]
    exact congrArg (· ++ last) (List.flatMap_congr hended)
  · intro line hline
    rcases List.mem_append.mp hline with hline | hline
    · obtain ⟨front, hfront, rfl⟩ := List.mem_map.mp hline
      have hnone := h.lines front (List.mem_append_left _ hfront)
      rw [List.mem_append, not_or]
      exact ⟨hnone, fun hreturn => absurd (List.eq_of_mem_replicate hreturn) (by decide)⟩
    · exact h.lines line (List.mem_append_right _ hline)

/-- The lines of the text, of which the last one counts if it is not empty. One carriage return is
taken off each. -/
theorem lines_eq : Text.lines s =
    (ended.map fun line => if line.getLast? = some '\r' then line.dropLast else line) ++
      if last = [] then [] else [last] := by
  rw [Text.lines, h.splitAll_eq, List.getLast?_concat, List.dropLast_concat]
  cases last with
  | nil => simp
  | cons c rest => simp

end IsCut

/-- A carriage return at the end is white space. -/
theorem trim_dropReturn (line : Text) :
    trim (if line.getLast? = some '\r' then line.dropLast else line) = trim line := by
  split
  · rename_i hlast
    have hwhole : line.dropLast ++ ['\r'] = line := List.dropLast_append_getLast? '\r' hlast
    conv_rhs => rw [← hwhole]
    exact (trim_append_of_blank (List.forall_mem_singleton.mpr (by decide)) _).symm
  · rfl

end Text

namespace Script

open Text (IsCut)

/-- The lines of a named text: without the white space around them. -/
abbrev namedLines (text : Text) : List Text := (Text.lines text).map Text.trim

section Cuts

variable {s last : Text} {ended : List Text} (h : IsCut s ended last)
include h

/-- A text that is given directly has the lines of the first cut, without the carriage returns at
their ends. -/
theorem sourceLines_of_isCut :
    sourceLines s = (ended ++ [last]).map (Text.trimEndBy (· == '\r')) := by
  rw [sourceLines, h.splitAll_eq]

/-- A named text has the lines of the second cut, trimmed. -/
theorem namedLines_of_isCut :
    namedLines s = ended.map Text.trim ++ if last = [] then [] else [Text.trim last] := by
  rw [namedLines, h.lines_eq, List.map_append, List.map_map]
  congr 1
  · exact List.map_congr_left fun line _ => Text.trim_dropReturn line
  · split <;> rfl

end Cuts

/-! ## Carriage returns -/

section Returns

variable (count : Nat) (s : Text)

theorem sourceLines_withReturns : sourceLines (Text.withReturns count s) = sourceLines s := by
  obtain ⟨ended, last, h⟩ := Text.exists_isCut s
  rw [sourceLines_of_isCut h, sourceLines_of_isCut (h.withReturns count), List.map_append,
    List.map_append, List.map_map]
  congr 1
  refine List.map_congr_left fun line _ => Text.trimEndBy_append (fun c hc => ?_) line
  rw [List.eq_of_mem_replicate hc]
  rfl

theorem namedLines_withReturns : namedLines (Text.withReturns count s) = namedLines s := by
  obtain ⟨ended, last, h⟩ := Text.exists_isCut s
  rw [namedLines_of_isCut h, namedLines_of_isCut (h.withReturns count), List.map_map]
  congr 1
  refine List.map_congr_left fun line _ => Text.trim_append_of_blank (fun c hc => ?_) line
  rw [List.eq_of_mem_replicate hc]
  rfl

end Returns

/-- **Carriage returns** do not matter. However many stand in front of each newline, a text given
directly makes the same script, but for the text that it comes from, and so does a named text. They
stand at the ends of lines, where both cuts take them off: one takes off carriage returns, the other
all white space. -/
theorem withReturns_same (count : Nat) (text fileName : String) (origin : Origin) :
    let returned := String.ofList (Text.withReturns count text.toList)
    ofSource returned = { ofSource text with origin := .inline returned } ∧
      ofNamed fileName returned origin = ofNamed fileName text origin := by
  refine ⟨?_, ?_⟩
  · rw [ofSource, ofSource, String.toList_ofList, sourceLines_withReturns]
    rfl
  · rw [ofNamed, ofNamed, String.toList_ofList]
    exact congrArg _ (namedLines_withReturns count text.toList)

end Script

/-! ## Names -/

namespace Header

/-- Two headers say the same, their names apart. -/
structure Alike (header other : Header) : Prop where
  /-- they declare the same parameters -/
  parameters : other.parameters = header.parameters
  /-- they declare the same outputs -/
  outputs : other.outputs = header.outputs
  /-- they name the same group -/
  group : other.group = header.group
  /-- they have put the same lines aside -/
  rejected : other.rejected = header.rejected

/-- **One line** is taken up alike: no line looks at the name, and a line that sets it sets it in
both. -/
theorem Alike.feed {header other : Header} (h : Alike header other) (line : Text) :
    Alike (header.feed line) (other.feed line) := by
  -- whether a name is taken depends on the declarations only
  have hdeclares : ∀ name, other.declares name = header.declares name := by
    intro name
    rw [declares, declares, h.parameters, h.outputs]
  unfold Header.feed
  split
  · exact h
  · rename_i content _
    unfold accept
    cases HeaderEntry.of content with
    | error e => exact ⟨h.parameters, h.outputs, h.group, congrArg (· ++ _) h.rejected⟩
    | ok entry =>
      cases entry with
      | group group => exact ⟨h.parameters, h.outputs, rfl, h.rejected⟩
      | name name => exact ⟨h.parameters, h.outputs, h.group, h.rejected⟩
      | declaration d =>
        cases hknown : header.declares d.name with
        | true =>
          simp only [add, hdeclares, hknown, if_true]
          exact ⟨h.parameters, h.outputs, h.group, congrArg (· ++ _) h.rejected⟩
        | false =>
          simp only [add, hdeclares, hknown, Bool.false_eq_true, if_false]
          cases d with
          | parameter p =>
            exact ⟨congrArg (· ++ [p]) h.parameters, h.outputs, h.group, h.rejected⟩
          | output o =>
            exact ⟨h.parameters, congrArg (· ++ [o]) h.outputs, h.group, h.rejected⟩

theorem Alike.foldl {header other : Header} (h : Alike header other) (lines : List Text) :
    Alike (lines.foldl Header.feed header) (lines.foldl Header.feed other) := by
  induction lines generalizing header other with
  | nil => exact h
  | cons line rest ih => exact ih (h.feed line)

section Read

variable (id displayName otherId otherName : String) {lines : List Text}

theorem alike_read (lines : List Text) :
    Alike (read id displayName lines) (read otherId otherName lines) := by
  have hinitial : Alike (initial id displayName) (initial otherId otherName) :=
    ⟨rfl, rfl, rfl, rfl⟩
  exact hinitial.foldl lines

/-- Where some line sets the name, what the script was called before does not count, as the last
such line decides. -/
theorem read_of_named (h : ∃ line ∈ lines, ∃ name, Gives line nameKey name) :
    (read otherId otherName lines).id = (read id displayName lines).id ∧
      (read otherId otherName lines).displayName = (read id displayName lines).displayName := by
  obtain ⟨line, hline, name, hname⟩ := h
  have htells := tells_read id displayName lines
  have hother := tells_read otherId otherName lines
  have hmem : name ∈ lines.filterMap nameOf? :=
    List.mem_filterMap.mpr ⟨line, hline, nameOf?_eq_some_iff.mpr hname⟩
  obtain ⟨last, hlast⟩ := Option.isSome_iff_exists.mp
    (List.getLast?_isSome.mpr (List.ne_nil_of_mem hmem))
  rw [htells.id, htells.displayName, hother.id, hother.displayName, hlast]
  exact ⟨rfl, rfl⟩

end Read

end Header

namespace Script

/-- A script means the same as another one of which these lines have been read. -/
structure MeansTheSame (read : List Text) (script other : Script) : Prop where
  /-- the parameters are the same, in the same order -/
  parameters : other.parameters = script.parameters
  /-- so are the outputs -/
  outputs : other.outputs = script.outputs
  /-- the group is the same -/
  group : other.group = script.group
  /-- the error is the same, if there is one -/
  error : other.error? = script.error?
  /-- id and name are the same, where a line sets the name -/
  name : (∃ line ∈ read, ∃ name, Gives line nameKey name) →
    other.id = script.id ∧ other.displayName = script.displayName
  /-- the body is the same, or has a newline more -/
  body : other.body = script.body ∨ other.body = script.body ++ "\n"

section Lines

variable (id displayName otherId otherName : String) (origin otherOrigin : Origin)
  (lines : List Text)

/-- Headers of the same lines mean the same, whatever the scripts were called before; only a name
that no line sets is kept from there. -/
theorem meansTheSame_of_header {script other : Script} {read : List Text}
    (hscript : script.header = Header.read id displayName read)
    (hother : other.header = Header.read otherId otherName read)
    (hbody : other.body = script.body ∨ other.body = script.body ++ "\n") :
    MeansTheSame read script other := by
  have halike := Header.alike_read id displayName otherId otherName read
  rw [← hscript, ← hother] at halike
  refine ⟨halike.parameters, halike.outputs, halike.group, ?_, fun hname => ?_, hbody⟩
  · have hrejected : other.rejected = script.rejected := halike.rejected
    rw [error?, error?, hrejected]
  · have hnames := Header.read_of_named id displayName otherId otherName hname
    rwa [← hscript, ← hother] at hnames

theorem meansTheSame_ofLines : MeansTheSame (consumed lines)
    (ofLines id displayName origin lines) (ofLines otherId otherName otherOrigin lines) :=
  meansTheSame_of_header _ _ _ _ (header_ofLines ..) (header_ofLines ..) (.inl rfl)

theorem meansTheSame_concat_nil : MeansTheSame (consumed lines)
    (ofLines id displayName origin lines)
    (ofLines otherId otherName otherOrigin (lines ++ [[]])) := by
  have hread := isReread_concat_nil otherId otherName origin otherOrigin lines
  have hbody : (ofLines otherId otherName origin lines).body =
      (ofLines id displayName origin lines).body := rfl
  refine meansTheSame_of_header id displayName otherId otherName (header_ofLines ..) hread.header ?_
  rw [← hbody]
  exact hread.body

end Lines

/-- **Cuts agree** on lines that are trimmed already, but for an empty line at the end, which only
the first cut has. -/
theorem sourceLines_of_trimmed {s : Text} (h : ∀ line ∈ sourceLines s, Text.trim line = line) :
    sourceLines s = namedLines s ∨ sourceLines s = namedLines s ++ [[]] := by
  obtain ⟨ended, last, hcut⟩ := Text.exists_isCut s
  have hblank : ∀ c : Char, (c == '\r') = true → Char.isBlank c = true := by
    intro c hc
    rw [beq_iff_eq.mp hc]
    decide
  -- a line that is trimmed is so without the carriage returns at its end
  have hsame : ∀ line ∈ ended ++ [last], Text.trimEndBy (· == '\r') line = Text.trim line := by
    intro line hline
    rw [sourceLines_of_isCut hcut] at h
    rw [← h _ (List.mem_map_of_mem hline), Text.trim_trimEndBy hblank]
  rw [sourceLines_of_isCut hcut, List.map_congr_left hsame, namedLines_of_isCut hcut,
    List.map_append]
  split
  · rename_i hlast
    rw [hlast, List.append_nil]
    exact .inr rfl
  · exact .inl rfl

/-- **Under a name or without one.** A text whose lines are trimmed means the same if it is given
directly and if it is named, whatever its name and wherever it comes from. The two cuts then have
the same lines, up to an empty one at the end, which the header takes no notice of. -/
theorem ofSource_means_ofNamed {text : String}
    (h : ∀ line ∈ sourceLines text.toList, Text.trim line = line) (fileName : String)
    (origin : Origin) : MeansTheSame (consumed (namedLines text.toList))
      (ofNamed fileName text origin) (ofSource text) := by
  rw [ofSource]
  rcases sourceLines_of_trimmed h with hlines | hlines
  · rw [hlines]
    exact meansTheSame_ofLines ..
  · rw [hlines]
    exact meansTheSame_concat_nil ..

/-- A text with carriage returns, an empty line, a name that is declared twice, a second name for
the script and a newline at its end. -/
def lanesText : String :=
  "--#Count_lanes=name\r\n\r\n--#lanes=number 2\r\n--#lanes=string\n--#Lanes=name\r\nreturn 1\r\n"

theorem ofSource_means_ofNamed_lanes :
    (∀ line ∈ sourceLines lanesText.toList, Text.trim line = line) ∧
      (ofSource lanesText).id = "lanes" ∧
      (ofSource lanesText).error? = some (syntaxError "--#lanes=string".toList) ∧
      (ofSource lanesText).body = "\nreturn 1\n" ∧
      MeansTheSame (consumed (namedLines lanesText.toList))
        (ofNamed "old.lua" lanesText (.builtin "old.lua")) (ofSource lanesText) := by
  have htrimmed : ∀ line ∈ sourceLines lanesText.toList, Text.trim line = line := by
    decide +kernel
  exact ⟨htrimmed, by decide +kernel, by decide +kernel, by decide +kernel,
    ofSource_means_ofNamed htrimmed "old.lua" (.builtin "old.lua")⟩

end Script

end FeatureTransform
