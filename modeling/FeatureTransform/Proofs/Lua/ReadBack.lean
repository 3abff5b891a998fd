import FeatureTransform.Proofs.Feature.Decoding
import FeatureTransform.Proofs.Json.Place
import FeatureTransform.Proofs.Lua.Endless
import FeatureTransform.Proofs.Lua.Start

/-!
# Reading back

The text that `json.encode` makes is JSON, whatever the value is made of: the names of its objects
are distinct and in order, and there is no white space around it. Both readers, the one of scripts
and the one of results, read it as the form of the value, unless this is nested deeper than they
accept; `json.encode` has no such bound.

## Main results

* `wellFormed_of_encode` — every form is a well-formed value;
* `exists_decode` — every value that has been read becomes a value of the program;
* `encodeArgument_read_iff` — which texts are read back, and what becomes of the others.
-/

namespace FeatureTransform

/-! ## Results -/

namespace Exchange

variable {exchange : Exchange} {value : Json} {e : Json.ReadError}

/-- What comes of a result that has been read. -/
def accept (exchange : Exchange) (value : Json) : Except RecordError (List Record) :=
  if isNothing value then .ok []
  else
    match Record.ofDocument value with
    | .error e => .error (.unexpectedShape e)
    | .ok records => .ok (records.map exchange.fitted)

/-- Nothing that has been read is malformed: what follows looks at the value and no more at the
text. -/
theorem accept_ne_malformed : exchange.accept value ≠ .error (.malformedResult e) := by
  rw [accept]
  split
  · nofun
  · cases Record.ofDocument value <;> nofun

/-- A text is refused as malformed exactly if the reader refuses it. It is never empty, and there is
no white space around it that would be taken off. -/
theorem decode_write (exchange : Exchange) (value : Json) : exchange.decode value.write =
    match Json.readText value.text with
    | .error e => .error (.malformedResult e)
    | .ok read => exchange.accept read := by
  obtain ⟨c, more, htext, -⟩ := Json.exists_text_cons value
  rw [decode, Json.write, String.toList_ofList, Json.trim_text, htext]
  rfl

end Exchange

namespace Lua.Interchange

variable {store : Store} {fuel : Nat} {v : Value} {json : Json}

/-! ## Forms -/

/-- What is no table has a form without anything inside it, whose members cannot be out of order. -/
theorem wellFormed_of_atom (hv : ∀ ref, v ≠ .table ref)
    (h : encodeWithin store (fuel + 1) v = .ok json) : json.WellFormed := by
  cases v with
  | table ref => exact absurd rfl (hv ref)
  | number n =>
    cases n with
    | int i =>
      cases h
      trivial
    | float f =>
      cases h
      rcases Json.ofFloat_eq f with hnull | ⟨n, hnumber⟩
      · rw [hnull]
        trivial
      · rw [hnumber]
        trivial
  | string s =>
    rw [encodeWithin] at h
    cases htext : utf8Text .str s with
    | error e =>
      rw [htext] at h
      cases h
    | ok text =>
      rw [htext] at h
      cases h
      trivial
  | closure _ | builtin _ => cases h
  | _ =>
    cases h
    trivial

/-- The member of an entry has the form of the entry's value. -/
theorem encode_of_memberOf? {encode : Value → Except Obstacle Json} {entry : Key × Value}
    {m : String × Json} (h : memberOf? encode entry = .ok (some m)) :
    encode entry.2 = .ok m.2 := by
  rw [memberOf?] at h
  obtain ⟨name?, -, h⟩ := Attempt.bind_eq_ok h
  cases name? with
  | none => cases h
  | some name =>
    obtain ⟨value, hvalue, h⟩ := Attempt.bind_eq_ok h
    cases h
    exact hvalue

/-- **Forms** are well-formed: no table gives an object two members of one name, since members are
put in their places one after another and a name that is there is replaced. -/
theorem wellFormed_of_encodeWithin (h : encodeWithin store fuel v = .ok json) :
    json.WellFormed := by
  -- on the steps, since a form is made of forms that take one step less
  induction fuel generalizing v json with
  | zero => cases h
  | succ fuel ih =>
    cases making store v with
    | atom hv => exact wellFormed_of_atom hv h
    | absent hfound =>
      rw [encodeWithin_absent hfound] at h
      cases h
      exact ⟨List.Pairwise.nil, trivial⟩
    | faulty hfound hlisted =>
      rw [encodeWithin_error hfound hlisted] at h
      cases h
    | array hfound hlisted =>
      rw [encodeWithin_array hfound hlisted] at h
      obtain ⟨items, hitems, h⟩ := Attempt.bind_eq_ok h
      cases h
      refine Json.wellFormedItems_iff.mpr fun item hitem => ?_
      obtain ⟨x, -, hx⟩ := Attempt.exists_of_mem_mapM hitems hitem
      exact ih hx
    | object hfound hlisted =>
      rw [encodeWithin_object hfound hlisted] at h
      obtain ⟨made, hmade, h⟩ := Attempt.bind_eq_ok h
      cases h
      refine ⟨Json.sorted_sortMembers _, Json.wellFormedMembers_iff.mpr fun m hm => ?_⟩
      obtain ⟨_, hmem, rfl⟩ := List.mem_filterMap.mp (Json.mem_of_mem_sortMembers hm)
      obtain ⟨entry, -, hentry⟩ := Attempt.exists_of_mem_mapM hmade hmem
      exact ih (encode_of_memberOf? hentry)

theorem wellFormed_of_encode (h : encode store v = .ok json) : json.WellFormed :=
  wellFormed_of_encodeWithin h

/-! ## Values that have been read -/

mutual

/-- **Every** value that has been read becomes a value of the program: decoding raises no error,
whatever the value is. -/
theorem exists_decode (json : Json) (before : Store) :
    ∃ v after, decode json before = .done v after := by
  match json with
  | .null | .bool _ | .number _ | .string _ => exact ⟨_, _, rfl⟩
  | .array items =>
    obtain ⟨t, middle, h⟩ := exists_decodeItems items 1 .empty before
    rw [decode]
    exact ⟨_, _, (Eval.bind_done _ h).trans rfl⟩
  | .object members =>
    obtain ⟨t, middle, h⟩ := exists_decodeMembers members .empty before
    rw [decode]
    exact ⟨_, _, (Eval.bind_done _ h).trans rfl⟩

theorem exists_decodeItems (items : List Json) (n : Nat) (t : Table) (before : Store) :
    ∃ t' after, decodeItems n t items before = .done t' after := by
  match items with
  | [] => exact ⟨_, _, rfl⟩
  | item :: rest =>
    by_cases hnull : item = .null
    · subst hnull
      exact exists_decodeItems rest (n + 1) (t.set (.nat n) .null) before
    · obtain ⟨v, middle, hv⟩ := exists_decode item before
      rw [decodeItems]
      · rw [Eval.bind_done _ hv]
        exact exists_decodeItems rest (n + 1) (t.set (.nat n) v) middle
      · exact hnull

theorem exists_decodeMembers (members : List (String × Json)) (t : Table) (before : Store) :
    ∃ t' after, decodeMembers t members before = .done t' after := by
  match members with
  | [] => exact ⟨_, _, rfl⟩
  | (name, member) :: rest =>
    obtain ⟨v, middle, hv⟩ := exists_decode member before
    rw [decodeMembers, Eval.bind_done _ hv]
    exact exists_decodeMembers rest (t.setText name v) middle

end

/-! ## The two readers -/

/-- Both readers read the text as the value. -/
structure IsRead (text : String) (json : Json) : Prop where
  /-- in a script, `json.decode` returns what the value becomes -/
  script : ∀ (inv : Invocation) (store : Store), inv.argument 1 = .text text →
    ∃ v after, decode json store = .done v after ∧ decodeArgument inv store = .done [v] after
  /-- as a result, it is the value that counts, whatever its shape -/
  host : ∀ exchange : Exchange, exchange.decode text = exchange.accept json

/-- Both readers refuse the text. -/
structure IsRefused (text : String) (e : Json.ReadError) : Prop where
  /-- in a script, `json.decode` raises the error and leaves everything else as it is -/
  script : ∀ (inv : Invocation) (store : Store), inv.argument 1 = .text text →
    decodeArgument inv store = Eval.raiseHost (.notJson e) store
  /-- as a result, it is malformed -/
  host : ∀ exchange : Exchange, exchange.decode text = .error (.malformedResult e)

section Function

variable {inv : Invocation} {text : String} {e : Json.ReadError}

/-- The reader of scripts gives the value that it has read. -/
theorem decodeArgument_of_read (hargument : inv.argument 1 = .text text)
    (hread : Json.read text = .ok json) :
    ∃ v after, decode json store = .done v after ∧
      decodeArgument inv store = .done [v] after := by
  obtain ⟨v, after, hrun⟩ := exists_decode json store
  have htext : hostText (.text text) = .ok text := utf8Text_toUTF8 .string text
  refine ⟨v, after, hrun, ?_⟩
  rw [decodeArgument, hargument, htext]
  simp only
  rw [hread]
  exact Eval.bind_done _ hrun

/-- The reader of scripts raises an error for a text that it does not read, with the reason in it.
-/
theorem decodeArgument_of_error (hargument : inv.argument 1 = .text text)
    (hread : Json.read text = .error e) :
    decodeArgument inv store = Eval.raiseHost (.notJson e) store := by
  have htext : hostText (.text text) = .ok text := utf8Text_toUTF8 .string text
  rw [decodeArgument, hargument, htext]
  simp only
  rw [hread]

end Function

/-- The text of a form that is not too deep is read by both readers. -/
theorem isRead_write (hjson : json.WellFormed) (hdepth : json.depth ≤ Json.maxDepth) :
    IsRead json.write json.reread where
  script inv store hargument := decodeArgument_of_read hargument (Json.read_write hjson hdepth)
  host exchange := by rw [Exchange.decode_write, Json.readText_text hjson hdepth]

/-- The text of a form that is too deep is refused by both readers, for its depth. -/
theorem isRefused_write (hjson : json.WellFormed) (hdepth : Json.maxDepth < json.depth) :
    IsRefused json.write .tooDeep := by
  have hread : Json.readText json.text = .error .tooDeep := by
    rw [Json.readText_text_eq hjson, if_neg (Nat.not_le.mpr hdepth)]
  constructor
  · intro inv store hargument
    refine decodeArgument_of_error hargument ?_
    rw [Json.read, Json.write, String.toList_ofList, hread]
  · intro exchange
    rw [Exchange.decode_write, hread]

/-- What is read is not malformed; if it is refused, then for what it says. -/
theorem IsRead.decode_ne {text : String} (h : IsRead text json) (exchange : Exchange)
    (e : Json.ReadError) : exchange.decode text ≠ .error (.malformedResult e) := by
  rw [h.host exchange]
  exact Exchange.accept_ne_malformed

/-- A form is read or refused, and its depth decides, which is the same for both readers. -/
theorem isRead_or_isRefused (hjson : json.WellFormed) :
    json.depth ≤ Json.maxDepth ∧ IsRead json.write json.reread ∨
      Json.maxDepth < json.depth ∧ IsRefused json.write .tooDeep := by
  rcases Nat.lt_or_ge Json.maxDepth json.depth with hdepth | hdepth
  · exact .inr ⟨hdepth, isRefused_write hjson hdepth⟩
  · exact .inl ⟨hdepth, isRead_write hjson hdepth⟩

/-- **Reading back.** What `json.encode` makes is the text of its argument's form. Both readers read
it, as that form with its numbers read again, if it is nested no deeper than they accept; otherwise
both refuse it for its depth, and that is the only reason for which a result that `json.encode` has
made is malformed. The writer has no bound on the depth, and both readers are the same one with a
bound. -/
theorem encodeArgument_read_iff {inv : Invocation} {store after : Store} {text : String}
    (h : encodeArgument inv store = .done [.text text] after) :
    ∃ json, encode store (inv.argument 1) = .ok json ∧ text = json.write ∧
      (IsRead text json.reread ↔ json.depth ≤ Json.maxDepth) ∧
      (json.ReadsBack → (IsRead text json ↔ json.depth ≤ Json.maxDepth)) ∧
      (IsRefused text .tooDeep ↔ Json.maxDepth < json.depth) ∧
      ∀ (exchange : Exchange) (e : Json.ReadError),
        exchange.decode text = .error (.malformedResult e) ↔
          e = .tooDeep ∧ Json.maxDepth < json.depth := by
  cases hencode : encode store (inv.argument 1) with
  | error obstacle =>
    cases obstacle with
    | host e =>
      rw [encodeArgument_raises hencode] at h
      cases h
    | endless =>
      rw [encodeArgument_endless hencode] at h
      cases h
  | ok json =>
    rw [encodeArgument_done hencode] at h
    obtain rfl : json.write = text := by
      injection h with hresults
      injection hresults with hvalue
      injection hvalue with hbytes
      exact String.toByteArray_inj.mp hbytes
    -- one exchange is enough to tell what is read from what is refused
    let exchange := Exchange.degrees
    have hread : IsRead json.write json.reread ↔ json.depth ≤ Json.maxDepth := by
      rcases isRead_or_isRefused (wellFormed_of_encode hencode) with
        ⟨hdepth, hread⟩ | ⟨hdepth, hrefused⟩
      · exact iff_of_true hread hdepth
      · refine iff_of_false (fun hread => ?_) (Nat.not_le.mpr hdepth)
        exact hread.decode_ne exchange _ (hrefused.host exchange)
    refine ⟨json, rfl, rfl, hread, fun hback => by rwa [hback.reread] at hread, ?_⟩
    rcases isRead_or_isRefused (wellFormed_of_encode hencode) with
      ⟨hdepth, hread⟩ | ⟨hdepth, hrefused⟩
    · have hnot := Nat.not_lt.mpr hdepth
      refine ⟨iff_of_false (fun hrefused => ?_) hnot, fun other e => ?_⟩
      · exact hread.decode_ne exchange _ (hrefused.host exchange)
      · exact iff_of_false (hread.decode_ne other e) fun h => hnot h.2
    · refine ⟨iff_of_true hrefused hdepth, fun other e => ?_⟩
      rw [hrefused.host other]
      constructor
      · rintro ⟨⟩
        exact ⟨rfl, hdepth⟩
      · rintro ⟨rfl, -⟩
        rfl

/-! ### Beyond the bound -/

theorem settle_nested (n : Nat) : (Exchange.nested n).settle = Exchange.nested n := by
  induction n with
  | zero => rfl
  | succ n ih => rw [Exchange.nested, Json.settle, Json.settleItems, Json.settleItems, ih]

theorem addressable_nested (n : Nat) : (Exchange.nested n).Addressable := by
  induction n with
  | zero => exact ⟨Nat.two_pow_pos 63, trivial⟩
  | succ n ih => exact ⟨Nat.one_lt_two_pow (by decide), ih, trivial⟩

/-- The table of 128 arrays, each in the next, is written and not read back: it is one level deeper
than the readers accept. -/
theorem encodeArgument_read_iff_nested : ∃ inv store text,
    encodeArgument inv store = .done [.text text] store ∧
    encode store (inv.argument 1) = .ok (Exchange.nested 127) ∧ IsRefused text .tooDeep := by
  obtain ⟨v, store, hdecoded⟩ := decode_spec (Exchange.nested 127) .start
    (Exchange.wellFormed_nested 127) (addressable_nested 127) (marksArrays_of start_arrayMeta)
  have hencode := hdecoded.encode (Store.Grows.refl store)
  rw [settle_nested] at hencode
  let inv : Invocation :=
    { builtin := .jsonEncode, arguments := [v], call := fun _ _ _ => pure [], callers := [] }
  have hargument : encode store (inv.argument 1) = .ok (Exchange.nested 127) := hencode
  have hrun := encodeArgument_done hargument
  obtain ⟨json, hjson, -, -, -, hrefused, -⟩ := encodeArgument_read_iff hrun
  obtain rfl := Except.ok.inj (hargument.symm.trans hjson)
  refine ⟨inv, store, _, hrun, hargument, hrefused.mpr ?_⟩
  rw [Exchange.depth_nested]
  decide

end Lua.Interchange

end FeatureTransform
