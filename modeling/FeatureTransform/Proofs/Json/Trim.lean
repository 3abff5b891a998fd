import FeatureTransform.Json.Write
import FeatureTransform.Proofs.Decimal.Numeral
import FeatureTransform.Proofs.Text.Blank

/-!
# The ends of JSON texts

No text of a value has white space around it: numbers hold none, and strings, arrays and objects
stand between their marks.
-/

namespace FeatureTransform.Json

/-! ## Last characters -/

theorem getLast?_itemsText (items : List Json) : (itemsText items).getLast? = some ']' := by
  induction items with
  | nil => rfl
  | cons v rest ih =>
    rw [itemsText, List.getLast?_append, ih]
    rfl

theorem getLast?_membersText (members : List (String × Json)) :
    (membersText members).getLast? = some '\x7d' := by
  induction members with
  | nil => rfl
  | cons m rest ih =>
    obtain ⟨name, v⟩ := m
    rw [membersText, List.getLast?_append, ih]
    rfl

/-! ## Values -/

/-- The text of a number holds no white space. -/
theorem trim_number (n : Number) : Text.trim n.text = n.text := by
  have hsigned : ∀ (negative : Bool) {s : Text}, (∀ c ∈ s, Char.isBlank c = false) →
      ∀ c ∈ (if negative then '-' :: s else s), Char.isBlank c = false := by
    intro negative s hs
    cases negative with
    | true => exact List.forall_mem_cons.mpr ⟨rfl, hs⟩
    | false => exact hs
  apply Text.trim_of_forall
  cases n with
  | integer i =>
    obtain ⟨hdigits, -, -⟩ := Decimal.natText_spec i.value.natAbs
    have hmagnitude := hsigned (decide (i.value < 0)) fun c hc =>
      Decimal.isBlank_of_isDigit (hdigits c hc)
    simpa [Number.text, Decimal.intText] using hmagnitude
  | double d =>
    obtain ⟨m, hm, htext, -⟩ := @Decimal.write_spec Decimal.json rfl _ d.finite
    rw [Number.text, htext]
    exact hsigned _ fun c hc => Decimal.Numeral.isBlank_of_mem hm hc

/-- The text of an array begins and ends with a bracket. -/
theorem trim_array (items : List Json) :
    Text.trim (Json.array items).text = (Json.array items).text := by
  apply Text.trim_of_ends
  · cases items <;> rintro c ⟨⟩ <;> rfl
  · cases items with
    | nil =>
      rintro c ⟨⟩
      rfl
    | cons v rest =>
      rw [text, List.getLast?_append, getLast?_itemsText]
      rintro c ⟨⟩
      rfl

/-- The text of an object begins and ends with a brace. -/
theorem trim_object (members : List (String × Json)) :
    Text.trim (Json.object members).text = (Json.object members).text := by
  apply Text.trim_of_ends
  · rcases members with _ | ⟨⟨name, v⟩, rest⟩ <;> rintro c ⟨⟩ <;> rfl
  · rcases members with _ | ⟨⟨name, v⟩, rest⟩
    · rintro c ⟨⟩
      rfl
    · rw [text, List.getLast?_append, getLast?_membersText]
      rintro c ⟨⟩
      rfl

/-- **No text** of a value has white space around it. -/
theorem trim_text (v : Json) : Text.trim v.text = v.text := by
  cases v with
  | null => decide
  | bool b => cases b <;> decide
  | number n => exact trim_number n
  | string s =>
    apply Text.trim_of_ends
    · rintro c ⟨⟩
      rfl
    · rw [text, quoted, List.getLast?_concat]
      rintro c ⟨⟩
      rfl
  | array items => exact trim_array items
  | object members => exact trim_object members

end FeatureTransform.Json
