import FeatureTransform.Proofs.Script.Header

/-!
# The text that a script keeps

A script keeps the lines that have been read of it, each ended by a newline, and that text can be
read in turn. Its lines are the same: a line of a text given directly holds no newline and has lost
the carriage returns at its end already. But behind the last newline stands one more line, an empty
one. If the first reading stopped at ten empty lines, the second stops there too and does not see
it. Otherwise it is read, and belongs to the body; the header takes no notice of it.
-/

namespace FeatureTransform.Script

/-! ## Lines of texts that are given directly -/

/-- A line as a text given directly has it: no newline in it, and no carriage return at its end. -/
structure IsSourceLine (line : Text) : Prop where
  /-- lines are what stands between newlines -/
  newline : '\n' ∉ line
  /-- what may stand before a newline has been taken off -/
  ending : Text.trimEndBy (· == '\r') line = line

theorem isSourceLine_of_mem_sourceLines {source line : Text} (h : line ∈ sourceLines source) :
    IsSourceLine line := by
  refine ⟨newline_not_mem_sourceLines h, ?_⟩
  obtain ⟨piece, -, rfl⟩ := List.mem_map.mp h
  exact Text.trimEndBy_trimEndBy _ piece

/-- Such lines, each ended by a newline, are found again, with an empty one behind them. -/
theorem sourceLines_ended {lines : List Text} (h : ∀ line ∈ lines, IsSourceLine line) :
    sourceLines (lines.flatMap (· ++ ['\n'])) = lines ++ [[]] := by
  have hnewline : ∀ line ∈ lines ++ [[]], '\n' ∉ line := by
    intro line hline
    rcases List.mem_append.mp hline with hline | hline
    · exact (h line hline).newline
    · obtain rfl := List.mem_singleton.mp hline
      exact List.not_mem_nil
  rw [sourceLines, ← Text.join_concat_nil, Text.splitAll_join hnewline (by simp), List.map_append]
  congr 1
  conv_rhs => rw [← List.map_id lines]
  exact List.map_congr_left fun line hline => (h line hline).ending

theorem sourceLines_text (source : String) :
    sourceLines (ofSource source).text.toList = consumed (sourceLines source.toList) ++ [[]] := by
  rw [ofSource, text_ofLines]
  refine sourceLines_ended fun line hline => ?_
  exact isSourceLine_of_mem_sourceLines ((isExtent_consumed _).front.subset hline)

/-! ## An empty line more -/

/-- The header takes no notice of an empty line, which has no mark. -/
theorem read_concat_nil (id displayName : String) (lines : List Text) :
    Header.read id displayName (lines ++ [[]]) = Header.read id displayName lines := by
  rw [Header.read_concat, Header.feed_of_not_isHeaderLine _ (by decide)]

/-- A body has a newline more, unless it had no lines: one empty line looks like none. -/
theorem body_concat_nil (lines : List Text) :
    Text.join ['\n'] ((lines ++ [[]]).filter (¬ IsHeaderLine ·)) =
        Text.join ['\n'] (lines.filter (¬ IsHeaderLine ·)) ∨
      Text.join ['\n'] ((lines ++ [[]]).filter (¬ IsHeaderLine ·)) =
        Text.join ['\n'] (lines.filter (¬ IsHeaderLine ·)) ++ ['\n'] := by
  have hnil : ([[]] : List Text).filter (¬ IsHeaderLine ·) = [[]] := by decide
  rw [List.filter_append, hnil]
  -- no lines and one empty line are joined to the same text
  by_cases hbody : lines.filter (¬ IsHeaderLine ·) = []
  · rw [hbody]
    exact .inl rfl
  · exact .inr (Text.join_append_nil _ hbody)

/-! ## Reading the text of a script -/

/-- What the text that a script has kept is read as, if these lines have been read of the script. -/
structure IsReread (read : List Text) (script again : Script) : Prop where
  /-- the same name, id, group and declarations, and the same lines put aside -/
  header : again.header = script.header
  /-- the same error, if there is one -/
  error : again.error? = script.error?
  /-- the same body, or one with a newline more -/
  body : again.body = script.body ∨ again.body = script.body ++ "\n"
  /-- the same body and the same text, where the reading stopped at ten empty lines -/
  stopped : EndsBlank read → again.body = script.body ∧ again.text = script.text
  /-- a text with a newline more, where it did not -/
  unstopped : ¬ EndsBlank read → again.text = script.text ++ "\n"

/-- The error is one of the header. -/
theorem error?_of_header {script other : Script} (h : other.header = script.header) :
    other.error? = script.error? := by
  have hrejected : other.rejected = script.rejected := congrArg Header.rejected h
  rw [error?, error?, hrejected]

section Reread

variable (id displayName : String) (origin other : Origin) {lines : List Text}

/-- Where the reading stopped, it stops again at the same line, in front of the empty one. -/
theorem isReread_of_endsBlank (h : EndsBlank (consumed lines)) : IsReread (consumed lines)
    (ofLines id displayName origin lines)
    (ofLines id displayName other (consumed lines ++ [[]])) := by
  have hread := consumed_append_of_endsBlank h [[]]
  have hheader : (ofLines id displayName other (consumed lines ++ [[]])).header =
      (ofLines id displayName origin lines).header := by
    rw [header_ofLines, header_ofLines, hread]
  have hbody : (ofLines id displayName other (consumed lines ++ [[]])).body =
      (ofLines id displayName origin lines).body := by
    rw [String.ext_iff, body_ofLines, body_ofLines, hread]
  have htext : (ofLines id displayName other (consumed lines ++ [[]])).text =
      (ofLines id displayName origin lines).text := by
    rw [String.ext_iff, text_ofLines, text_ofLines, hread]
  exact ⟨hheader, error?_of_header hheader, .inl hbody, fun _ => ⟨hbody, htext⟩,
    fun hnot => absurd h hnot⟩

/-- Where it did not stop, the empty line is read too. -/
theorem isReread_of_not_endsBlank (h : ¬ EndsBlank (consumed lines)) : IsReread (consumed lines)
    (ofLines id displayName origin lines)
    (ofLines id displayName other (consumed lines ++ [[]])) := by
  have hread := consumed_concat_of_not_endsBlank h []
  have hheader : (ofLines id displayName other (consumed lines ++ [[]])).header =
      (ofLines id displayName origin lines).header := by
    rw [header_ofLines, header_ofLines, hread, read_concat_nil]
  have hbody : (ofLines id displayName other (consumed lines ++ [[]])).body =
        (ofLines id displayName origin lines).body ∨
      (ofLines id displayName other (consumed lines ++ [[]])).body =
        (ofLines id displayName origin lines).body ++ "\n" := by
    rw [String.ext_iff, String.ext_iff, String.toList_append, body_ofLines, body_ofLines, hread]
    exact body_concat_nil (consumed lines)
  have htext : (ofLines id displayName other (consumed lines ++ [[]])).text =
      (ofLines id displayName origin lines).text ++ "\n" := by
    rw [String.ext_iff, String.toList_append, text_ofLines, text_ofLines, hread,
      List.flatMap_append]
    rfl
  exact ⟨hheader, error?_of_header hheader, hbody, fun hstop => absurd hstop h, fun _ => htext⟩

variable (lines)

/-- **One empty line** more, behind the lines that are read, is read or not. -/
theorem isReread_consumed : IsReread (consumed lines) (ofLines id displayName origin lines)
    (ofLines id displayName other (consumed lines ++ [[]])) := by
  by_cases h : EndsBlank (consumed lines)
  · exact isReread_of_endsBlank id displayName origin other h
  · exact isReread_of_not_endsBlank id displayName origin other h

/-- So it is behind all lines. -/
theorem isReread_concat_nil : IsReread (consumed lines) (ofLines id displayName origin lines)
    (ofLines id displayName other (lines ++ [[]])) := by
  have hsame : ofLines id displayName other (lines ++ [[]]) =
      ofLines id displayName other (consumed lines ++ [[]]) := by
    rw [ofLines, ofLines, consumed_append]
  rw [hsame]
  exact isReread_consumed id displayName origin other lines

end Reread

/-- **The text of a script** is a source of it. Read in turn, it gives a script whose header says
the same and whose body is the same, or the same with a newline behind it; body and text are the
same where the reading of the source stopped at ten empty lines. The text ends in a newline, behind
which the first cut sees one more line, an empty one. -/
theorem ofSource_text (source : String) : IsReread (consumed (sourceLines source.toList))
    (ofSource source) (ofSource (ofSource source).text) := by
  have hagain : ofSource (ofSource source).text =
      ofLines "unnamedalgorithm" "[Unnamed algorithm]" (.inline (ofSource source).text)
        (consumed (sourceLines source.toList) ++ [[]]) := by
    rw [ofSource, sourceLines_text]
  rw [hagain]
  exact isReread_consumed _ _ _ _ _

end FeatureTransform.Script
