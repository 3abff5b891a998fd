import FeatureTransform.Proofs.Json.Order
import FeatureTransform.Proofs.Json.Scalar

/-!
# Numbers that are read again

The reader takes the text of a number for a number, but not always for the same one: it scales the
digits of a double in steps that round, so that a double of sixteen or seventeen digits may come
back as its neighbour. `reread` is what comes back, of a number or of all numbers inside a value,
and `ReadsBack` says that it is what was written. Two kinds of numbers are always read back:
integers, of which every digit is held, and doubles of few digits, where nothing but the last step
rounds. -/

namespace FeatureTransform.Json

open Decimal (Stops Numeral)

/-! ## One number -/

/-- A digit is no white space. -/
theorem isSpace_of_isDigit {c : Char} (hc : Decimal.isDigit c = true) : isSpace c = false := by
  by_contra hspace
  simp only [isSpace, Bool.not_eq_false, Bool.or_eq_true, beq_iff_eq] at hspace
  rcases hspace with ((rfl | rfl) | rfl) | rfl <;> cases hc

theorem skipSpace_cons {c : Char} (rest : Text) (hc : isSpace c = false) :
    skipSpace (c :: rest) = c :: rest := by
  simp [skipSpace, hc]

/-- A number is told by its first character, a digit or the sign in front of one; nothing else
begins like that. -/
theorem readValue_of_readNumber {negative : Bool} {c : Char} {more rest s : Text} {m : Number}
    (hc : Decimal.isDigit c = true) (hread : readNumber negative (c :: more ++ rest) = .ok (m, s))
    (fuel room : Nat) :
    readValue (fuel + 1) room ((if negative then '-' :: c :: more else c :: more) ++ rest) =
      .ok (.number m, s) := by
  cases negative with
  | true =>
    rw [if_pos rfl, List.cons_append, readValue, skipSpace_cons _ rfl]
    simp only [bind, Except.bind, hread]
    rfl
  | false =>
    rw [if_neg Bool.false_ne_true, List.cons_append, readValue,
      skipSpace_cons _ (isSpace_of_isDigit hc)]
    -- no other value begins with a digit
    split
    all_goals try (rename_i heq; obtain ⟨rfl, -⟩ := List.cons.inj heq; cases hc)
    · rename_i heq
      cases heq
    · rename_i heq
      obtain ⟨rfl, rfl⟩ := List.cons.inj heq
      rw [if_pos hc, ← List.cons_append, hread]
      rfl

/-- A text that the reader takes whole for a number. -/
theorem readText_of_readNumber {negative : Bool} {c : Char} {more : Text} {m : Number}
    (hc : Decimal.isDigit c = true) (hread : readNumber negative (c :: more) = .ok (m, [])) :
    readText (if negative then '-' :: c :: more else c :: more) = .ok (.number m) := by
  rw [← List.append_nil (c :: more)] at hread
  have hvalue := readValue_of_readNumber hc hread
    (3 * (if negative then '-' :: c :: more else c :: more).length + 2) maxDepth
  rw [List.append_nil] at hvalue
  rw [readText, hvalue]
  rfl

/-- The reader takes the text of the number for the number. -/
def Number.ReadsBack (n : Number) : Prop := readText n.text = .ok (.number n)

/-- The number that the reader takes the text of a number for. There always is one: the last case
keeps the function total and does not occur. -/
def Number.reread (n : Number) : Number :=
  match readText n.text with
  | .ok (.number m) => m
  | _ => n

theorem Number.ReadsBack.reread {n : Number} (h : n.ReadsBack) : n.reread = n := by
  rw [Number.reread, h]

/-- A number is read as what it is reread as, in front of anything that does not go on with it. No
fuel beyond one step is needed, and no room. -/
theorem readValue_number (n : Number) {rest : Text} (hrest : Stops rest) (fuel room : Nat) :
    readValue (fuel + 1) room (n.text ++ rest) = .ok (.number n.reread, rest) := by
  obtain ⟨negative, digits, m, htext, ⟨c, more, rfl, hc⟩, hread⟩ := exists_readNumber n
  have halone := hread Decimal.stops_nil
  rw [List.append_nil] at halone
  have hreread : n.reread = m := by
    rw [Number.reread, htext, readText_of_readNumber hc halone]
  rw [htext, readValue_of_readNumber hc (hread hrest), hreread]

theorem readText_number (n : Number) : readText n.text = .ok (.number n.reread) := by
  have hread := readValue_number n Decimal.stops_nil (3 * n.text.length + 2) maxDepth
  rw [List.append_nil] at hread
  rw [readText, hread]
  rfl

/-- Being read back is being reread as oneself. -/
theorem Number.readsBack_iff {n : Number} : n.ReadsBack ↔ n.reread = n := by
  rw [ReadsBack, readText_number, Except.ok.injEq, Json.number.injEq]

instance (n : Number) : Decidable n.ReadsBack := decidable_of_iff _ Number.readsBack_iff.symm

/-- **Integers** are read back: they have no more digits than are held, and no step of theirs
rounds. -/
theorem Number.readsBack_integer (i : Integer) : (Number.integer i).ReadsBack := by
  obtain ⟨hdigits, hne, -⟩ := Decimal.natText_spec i.value.natAbs
  obtain ⟨c, more, hcons⟩ := List.exists_cons_of_ne_nil hne
  have hread := readNumber_integer i Decimal.stops_nil
  have htext : (Number.integer i).text =
      if decide (i.value < 0) then '-' :: c :: more else c :: more := by
    simp [Number.text, Decimal.intText, hcons]
  rw [List.append_nil, hcons] at hread
  rw [ReadsBack, htext]
  exact readText_of_readNumber (hdigits c (by simp [hcons])) hread

/-- **Short doubles** are read back: those whose text shows a number of 53 bits, scaled by `10 ^ 22`
at most or divided by that. The number and the power of ten are both doubles, and so the one step of
scaling rounds once. -/
theorem Number.readsBack_double {d : Double} {n : Nat} {e : Int}
    (hscan : Decimal.scanDecimal? (Decimal.spanSign (Number.double d).text).2 = some (n, e, []))
    (hn : n < 2 ^ 53) (hlow : -22 ≤ e) (hhigh : e ≤ 22) : (Number.double d).ReadsBack := by
  obtain ⟨m, hm, htext, hcatch, hvalue⟩ := @Decimal.write_spec Decimal.json rfl _ d.finite
  obtain ⟨c, more, hcons⟩ := List.exists_cons_of_ne_nil hm.nonempty
  obtain ⟨hfinite, hread⟩ := readNumber_numeral d.finite hm htext hcatch
    (Binary.ofFloat d.value).negative
  have hc := hm.whole c (by simp [hcons])
  have hmore : m.text = c :: (more ++ (m.placesText ++ m.exponentText)) := by
    simp [Numeral.text, hcons]
  have hsign : (Decimal.spanSign (Number.double d).text).2 = m.text := by
    rw [Number.text, htext]
    split
    · rfl
    · rw [hmore, Decimal.spanSign_of_isDigit hc]
  rw [hsign] at hscan
  obtain ⟨rfl, rfl⟩ := hm.eq_of_scan hscan
  -- the digits are held, and what they come to is the nearest double
  have hscaled : Decimal.scaled m.significand.number m.significand.scale =
      Decimal.nearest m.number m.scale := by
    rw [m.significand_of_lt (hn.trans (by decide)), Decimal.scaled_eq_nearest hn hlow hhigh]
  have halone := hread Decimal.stops_nil
  simp only [hscaled, ← hvalue] at halone
  rw [List.append_nil, hmore] at halone
  rw [ReadsBack, Number.text, htext, hmore]
  exact readText_of_readNumber hc halone

/-- Sixteen digits may be too many: `94.95886283158103` comes back as `94.95886283158104`. -/
example : ¬(Number.double ⟨Float.ofBits 0x4057BD5E0235BF64, by decide⟩).ReadsBack := by
  decide +kernel

/-! ## All numbers of a value -/

mutual

/-- Every number inside is read back. -/
def ReadsBack : Json → Prop
  | .number n => n.ReadsBack
  | .array items => ReadsBackItems items
  | .object members => ReadsBackMembers members
  | _ => True

/-- Every number inside one of the items is read back. -/
def ReadsBackItems : List Json → Prop
  | [] => True
  | v :: rest => ReadsBack v ∧ ReadsBackItems rest

/-- Every number inside the value of a member is read back. -/
def ReadsBackMembers : List (String × Json) → Prop
  | [] => True
  | (_, v) :: rest => ReadsBack v ∧ ReadsBackMembers rest

end

mutual

/-- The value with every number as the reader takes its text. -/
def reread : Json → Json
  | .number n => .number n.reread
  | .array items => .array (rereadItems items)
  | .object members => .object (rereadMembers members)
  | v => v

/-- The items with every number as the reader takes its text. -/
def rereadItems : List Json → List Json
  | [] => []
  | v :: rest => reread v :: rereadItems rest

/-- The members with every number as the reader takes its text. -/
def rereadMembers : List (String × Json) → List (String × Json)
  | [] => []
  | (name, v) :: rest => (name, reread v) :: rereadMembers rest

end

mutual

/-- Where every number is read back, the value is what it was. The other direction does not matter
here: this is the form in which the condition is used. -/
theorem ReadsBack.reread {v : Json} (h : v.ReadsBack) : v.reread = v := by
  match v with
  | .null | .bool _ | .string _ => rfl
  | .number n =>
    have hn : n.ReadsBack := h
    rw [Json.reread, hn.reread]
  | .array items => rw [Json.reread, ReadsBackItems.reread h]
  | .object members => rw [Json.reread, ReadsBackMembers.reread h]

theorem ReadsBackItems.reread {items : List Json} (h : ReadsBackItems items) :
    rereadItems items = items := by
  match items with
  | [] => rfl
  | v :: rest => rw [rereadItems, h.1.reread, ReadsBackItems.reread h.2]

theorem ReadsBackMembers.reread {members : List (String × Json)} (h : ReadsBackMembers members) :
    rereadMembers members = members := by
  match members with
  | [] => rfl
  | (name, v) :: rest => rw [rereadMembers, h.1.reread, ReadsBackMembers.reread h.2]

end

mutual

/-- Whether all numbers inside are read back can be seen by reading them. -/
def decideReadsBack : (v : Json) → Decidable v.ReadsBack
  | .null | .bool _ | .string _ => .isTrue trivial
  | .number n => inferInstanceAs (Decidable n.ReadsBack)
  | .array items => decideReadsBackItems items
  | .object members => decideReadsBackMembers members

/-- Whether all numbers inside the items are read back. -/
def decideReadsBackItems : (items : List Json) → Decidable (ReadsBackItems items)
  | [] => .isTrue trivial
  | v :: rest => @instDecidableAnd _ _ (decideReadsBack v) (decideReadsBackItems rest)

/-- Whether all numbers inside the values of members are read back. -/
def decideReadsBackMembers : (members : List (String × Json)) → Decidable (ReadsBackMembers members)
  | [] => .isTrue trivial
  | (_, v) :: rest => @instDecidableAnd _ _ (decideReadsBack v) (decideReadsBackMembers rest)

end

instance (v : Json) : Decidable v.ReadsBack := decideReadsBack v

/-- The names of members stay, and with them the order of the members. -/
theorem map_fst_rereadMembers (members : List (String × Json)) :
    (rereadMembers members).map Prod.fst = members.map Prod.fst := by
  induction members with
  | nil => rfl
  | cons m rest ih =>
    obtain ⟨name, v⟩ := m
    rw [rereadMembers, List.map_cons, List.map_cons, ih]

theorem Sorted.rereadMembers {members : List (String × Json)} (h : Sorted members) :
    Sorted (rereadMembers members) := by
  rw [sorted_iff, map_fst_rereadMembers]
  exact (sorted_iff members).mp h

end FeatureTransform.Json
