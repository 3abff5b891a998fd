import FeatureTransform.Lua.Token
import FeatureTransform.Proofs.Decimal.Numeral

/-!
# Texts made of tokens

A program that is put together from pieces has the tokens of the pieces, as long as no token goes on
from one piece into the next. So a piece is read in front of what follows it, and what is said of
the pieces is put together behind.
-/

namespace FeatureTransform.Lua

/-! ## Pieces of texts -/

/-- Tokens stand in front of the rest of a text. The lines are those on which the text and the rest
begin. -/
inductive Reads : Nat → Text → List Lexeme → Nat → Text → Prop where
  /-- nothing is read -/
  | done {line : Nat} {rest : Text} : Reads line rest [] line rest
  /-- a token is read -/
  | token {line middle last : Nat} {c : Char} {s next rest : Text} {t : Token}
      {ts : List Lexeme} (hscan : scan line c s = .token t middle next)
      (hless : next.length ≤ s.length) (hnext : Reads middle next ts last rest) :
      Reads line (c :: s) (⟨t, middle⟩ :: ts) last rest
  /-- white space is passed over -/
  | blank {line middle last : Nat} {c : Char} {s next rest : Text} {ts : List Lexeme}
      (hscan : scan line c s = .blank middle next) (hless : next.length ≤ s.length)
      (hnext : Reads middle next ts last rest) : Reads line (c :: s) ts last rest

variable {line middle last : Nat} {s next rest : Text} {ts us : List Lexeme}

/-- Pieces of a text are read one after another, each in front of what follows it. -/
theorem Reads.append (hfirst : Reads line s ts middle next)
    (hsecond : Reads middle next us last rest) : Reads line s (ts ++ us) last rest := by
  induction hfirst with
  | done => exact hsecond
  | token hscan hless _ ih => exact .token hscan hless (ih hsecond)
  | blank hscan hless _ ih => exact .blank hscan hless (ih hsecond)

/-- One character is a token of its own. -/
theorem Reads.one {c : Char} {t : Token} (hscan : scan line c rest = .token t line rest) :
    Reads line (c :: rest) [⟨t, line⟩] line rest := .token hscan (Nat.le_refl _) .done

/-- Further steps do not change what has been read to the end, so that the bound on them need not be
exact. -/
theorem tokensFrom_mono {fuel more : Nat} (h : tokensFrom fuel line s = some ts)
    (hmore : fuel ≤ more) : tokensFrom more line s = some ts := by
  induction fuel generalizing more line s ts with
  | zero =>
    cases s with
    | nil =>
      rw [tokensFrom] at h ⊢
      exact h
    | cons c s => cases h
  | succ fuel ih =>
    -- there is a step left wherever the first bound has one
    obtain ⟨more, rfl⟩ := Nat.exists_eq_add_one_of_ne_zero (show more ≠ 0 by omega)
    cases s with
    | nil =>
      rw [tokensFrom] at h ⊢
      exact h
    | cons c s =>
      rw [tokensFrom] at h ⊢
      cases hscan : scan line c s with
      | nothing =>
        rw [hscan] at h
        cases h
      | blank middle next =>
        rw [hscan] at h
        exact ih h (by omega)
      | token t middle next =>
        rw [hscan] at h
        obtain ⟨us, hus, rfl⟩ := Option.map_eq_some_iff.mp h
        simp only [ih hus (by omega : fuel ≤ more), Option.map_some]

/-- The tokens that so many steps read, the line behind them, and the rest. -/
def readSteps? : (steps line : Nat) → Text → Option (List Lexeme × Nat × Text)
  | 0, line, s => some ([], line, s)
  | _ + 1, _, [] => none
  | steps + 1, line, c :: s =>
    match scan line c s with
    | .token t line rest => (readSteps? steps line rest).map fun (ts, r) => (⟨t, line⟩ :: ts, r)
    | .blank line rest => readSteps? steps line rest
    | .nothing => none

/-- What the first steps read stands in front of the tokens of the rest. -/
theorem tokensFrom_of_readSteps {steps fuel : Nat}
    (hsteps : readSteps? steps line s = some (ts, last, rest))
    (hrest : tokensFrom fuel last rest = some us) :
    tokensFrom (fuel + steps) line s = some (ts ++ us) := by
  induction steps generalizing line s ts with
  | zero =>
    cases hsteps
    exact hrest
  | succ steps ih =>
    cases s with
    | nil => cases hsteps
    | cons c s =>
      rw [readSteps?] at hsteps
      rw [← Nat.add_assoc, tokensFrom]
      -- each step of the one is a step of the other; only what is read last differs
      cases hscan : scan line c s with
      | nothing =>
        rw [hscan] at hsteps
        cases hsteps
      | blank middle next =>
        rw [hscan] at hsteps
        exact ih hsteps
      | token t middle next =>
        rw [hscan] at hsteps
        obtain ⟨⟨ts, r⟩, hnext, heq⟩ := Option.map_eq_some_iff.mp hsteps
        cases heq
        simp only [ih hnext, Option.map_some, List.cons_append]

/-- What is read of a text stands in front of the tokens of the rest. This is where the relation
meets the function. -/
theorem Reads.tokensFrom {fuel : Nat} (h : Reads line s ts last rest)
    (hrest : Lua.tokensFrom rest.length last rest = some us) (hfuel : s.length ≤ fuel) :
    Lua.tokensFrom fuel line s = some (ts ++ us) := by
  induction h generalizing fuel with
  | done => exact tokensFrom_mono hrest hfuel
  | token hscan hless _ ih =>
    rw [List.length_cons] at hfuel
    obtain ⟨fuel, rfl⟩ := Nat.exists_eq_add_one_of_ne_zero (show fuel ≠ 0 by omega)
    simp only [Lua.tokensFrom, hscan]
    rw [ih hrest (by omega)]
    rfl
  | blank hscan hless _ ih =>
    rw [List.length_cons] at hfuel
    obtain ⟨fuel, rfl⟩ := Nat.exists_eq_add_one_of_ne_zero (show fuel ≠ 0 by omega)
    simp only [Lua.tokensFrom, hscan]
    exact ih hrest (by omega)

/-! ## White space -/

theorem Reads.space : Reads line (' ' :: rest) [] line rest := .blank rfl (Nat.le_refl _) .done

/-- A line feed ends a line, unless a carriage return follows, with which it would be one end. -/
theorem Reads.lineFeed (hrest : ∀ c ∈ rest.head?, c ≠ '\r') :
    Reads line ('\n' :: rest) [] (line + 1) rest := by
  suffices hscan : scan line '\n' rest = .blank (line + 1) rest from
    .blank hscan (Nat.le_refl _) .done
  cases rest with
  | nil => rfl
  | cons c rest =>
    have hc : c ≠ '\r' := hrest c rfl
    have hskip : skipLineEnd '\n' (c :: rest) = c :: rest := by
      by_cases hfeed : c = '\n' <;> simp [skipLineEnd, isLineEnd, hfeed, hc]
    change Scan.blank (line + 1) (skipLineEnd '\n' (c :: rest)) = _
    rw [hskip]

/-! ## Signs -/

/-- Two minus signs would begin a comment. -/
theorem Reads.minus (hs : ∀ c ∈ s.head?, c ≠ '-') :
    Reads line ('-' :: s) [⟨.mark "-", line⟩] line s := by
  have hcomment : ¬('-' = '-' ∧ s.head? = some '-') := fun h => hs '-' h.2 rfl
  refine .one ?_
  change (if '-' = '-' ∧ s.head? = some '-' then _ else _) = _
  rw [if_neg hcomment]
  rfl

/-! ## Words -/

/-- A character that begins a name is no white space. -/
theorem not_blank_of_isNameStart {c : Char} (h : isNameStart c = true) :
    isLineEnd c = false ∧ isSpace c = false := by
  constructor
  · by_contra hblank
    simp only [isLineEnd, Bool.not_eq_false, Bool.or_eq_true, beq_iff_eq] at hblank
    rcases hblank with rfl | rfl <;> revert h <;> decide
  · by_contra hblank
    simp only [isSpace, Bool.not_eq_false, Bool.or_eq_true, beq_iff_eq] at hblank
    rcases hblank with ((((rfl | rfl) | rfl) | rfl) | rfl) | rfl <;> revert h <;> decide

/-- The text does not go on with a name. -/
def StopsName (s : Text) : Prop := ∀ c ∈ s.head?, isNameRest c = false

theorem stopsName_cons {c : Char} (hc : isNameRest c = false) : StopsName (c :: rest) := by
  rintro d ⟨⟩
  exact hc

/-- A name is taken whole, and nothing behind it. -/
theorem takeWhile_isNameRest {x rest : Text} (hx : x.all isNameRest = true)
    (hrest : StopsName rest) :
    (x ++ rest).takeWhile isNameRest = x ∧ (x ++ rest).dropWhile isNameRest = rest := by
  induction x with
  | nil =>
    cases rest with
    | nil => exact ⟨rfl, rfl⟩
    | cons c rest => simp [hrest c rfl]
  | cons c x ih =>
    rw [List.all_cons, Bool.and_eq_true] at hx
    obtain ⟨htake, hdrop⟩ := ih hx.2
    simp only [List.cons_append, List.takeWhile_cons, List.dropWhile_cons, hx.1, if_true, htake,
      hdrop, and_self]

/-- The token of a word. -/
def wordToken (word : String) : Token := if keywords.contains word then .mark word else .name word

/-- A word is a token of its own, a reserved word or a name. -/
theorem scan_word {c : Char} {x : Text} (hstart : isNameStart c = true)
    (hx : x.all isNameRest = true) (hrest : StopsName rest) :
    scan line c (x ++ rest) = .token (wordToken (String.ofList (c :: x))) line rest := by
  obtain ⟨hline, hspace⟩ := not_blank_of_isNameStart hstart
  have hc : isNameRest c = true := by
    simp only [isNameStart, Bool.or_eq_true] at hstart
    rcases hstart with h | h <;> simp [isNameRest, Char.isAlphanum, h]
  obtain ⟨htake, hdrop⟩ := takeWhile_isNameRest (x := c :: x) (by simp [hc, hx]) hrest
  rw [List.cons_append] at htake hdrop
  simp only [scan, hline, hspace, hstart, scanName, wordToken, htake, hdrop, Bool.false_eq_true,
    if_false, if_true]

theorem Reads.word {c : Char} {x : Text} (hstart : isNameStart c = true)
    (hx : x.all isNameRest = true) (hrest : StopsName rest) :
    Reads line (c :: (x ++ rest))
      [⟨wordToken (String.ofList (c :: x)), line⟩] line rest :=
  .token (scan_word hstart hx hrest) (by simp) .done

/-! ## Numerals -/

section Numerals

open Decimal (IsDigits Numeral digitChar isDigit)

/-- A digit is no white space and begins no name. -/
theorem not_blank_of_isDigit {c : Char} (h : isDigit c = true) :
    isLineEnd c = false ∧ isSpace c = false ∧ isNameStart c = false := by
  obtain ⟨d, hd, rfl⟩ := Decimal.exists_digitChar h
  interval_cases d <;> decide

theorem hexDigit?_of_isDigit {c : Char} (h : isDigit c = true) :
    isExponentMark false c = false ∧ (hexDigit? c).isSome = true := by
  obtain ⟨d, hd, rfl⟩ := Decimal.exists_digitChar h
  interval_cases d <;> decide

/-- The characters that a decimal numeral takes. -/
abbrev spanDecimal : Bool → Text → Text × Text := spanNumeral (isExponentMark false)

theorem spanDecimal_digit {c : Char} (afterMark : Bool) (hc : isDigit c = true) (s : Text) :
    spanDecimal afterMark (c :: s) = (c :: (spanDecimal false s).1, (spanDecimal false s).2) := by
  obtain ⟨hmark, hhex⟩ := hexDigit?_of_isDigit hc
  rw [spanDecimal, spanNumeral]
  simp only [hmark, hhex, Bool.true_or, Bool.false_eq_true, if_false, if_true]

/-- Digits belong to the numeral, and what follows them is taken as it would be by itself. -/
theorem spanDecimal_digits {ds s digits rest : Text} (hds : IsDigits ds)
    (hs : spanDecimal false s = (digits, rest)) :
    spanDecimal false (ds ++ s) = (ds ++ digits, rest) := by
  induction ds with
  | nil => exact hs
  | cons c ds ih =>
    rw [List.cons_append, spanDecimal_digit _ (hds c (by simp)),
      ih fun d hd => hds d (by simp [hd])]
    rfl

/-- Behind an exponent mark there may be a sign. -/
theorem spanDecimal_signed (signed down : Bool) {ds s digits rest : Text} (hds : IsDigits ds)
    (hne : ds ≠ []) (hs : spanDecimal false s = (digits, rest)) :
    spanDecimal true (Numeral.signText signed down ++ (ds ++ s)) =
      (Numeral.signText signed down ++ (ds ++ digits), rest) := by
  have hdigits := spanDecimal_digits hds hs
  cases down with
  | true =>
    change ('-' :: (spanDecimal false (ds ++ s)).1, (spanDecimal false (ds ++ s)).2) = _
    rw [hdigits]
    rfl
  | false =>
    cases signed with
    | true =>
      change ('+' :: (spanDecimal false (ds ++ s)).1, (spanDecimal false (ds ++ s)).2) = _
      rw [hdigits]
      rfl
    | false =>
      obtain ⟨d, more, rfl⟩ := List.exists_cons_of_ne_nil hne
      have hd := hds d (by simp)
      rw [List.cons_append, spanDecimal_digit _ hd] at hdigits
      change spanDecimal true (d :: (more ++ s)) = _
      rw [spanDecimal_digit _ hd]
      exact hdigits

variable {m : Numeral}

/-- The places and the exponent belong to the numeral, up to the end of the line. -/
theorem spanDecimal_placesText (hm : m.IsWritten) (rest : Text) :
    spanDecimal false (m.placesText ++ (m.exponentText ++ '\n' :: rest)) =
      (m.placesText ++ m.exponentText, '\n' :: rest) := by
  -- from the back, since places end where the exponent begins
  have hexponent : spanDecimal false (m.exponentText ++ '\n' :: rest) =
      (m.exponentText, '\n' :: rest) := by
    cases hexponent : m.exponent with
    | none => simp [Numeral.exponentText, hexponent, spanDecimal, spanNumeral, isExponentMark,
        hexDigit?]
    | some e =>
      obtain ⟨signed, down, ds⟩ := e
      obtain ⟨hds, hne⟩ := hm.exponent signed down ds hexponent
      have hsigned := spanDecimal_signed signed down hds hne
        (show spanDecimal false ('\n' :: rest) = ([], '\n' :: rest) from rfl)
      rw [Numeral.exponentText_some hexponent]
      change ('e' :: (spanDecimal true _).1, (spanDecimal true _).2) = _
      rw [hsigned]
      simp [Numeral.exponentText, hexponent]
  cases hplaces : m.places with
  | none => simpa [Numeral.placesText, hplaces] using hexponent
  | some ds =>
    have hspan := spanDecimal_digits (hm.places ds hplaces).1 hexponent
    have htext : m.placesText = '.' :: ds := by simp [Numeral.placesText, hplaces]
    rw [htext]
    exact congrArg (fun p : Text × Text => ('.' :: p.1, p.2)) hspan

/-- The numeral ends where the line does. -/
theorem spanDecimal_text (hm : m.IsWritten) :
    spanDecimal false (m.text ++ '\n' :: rest) = (m.text, '\n' :: rest) := by
  have hspan := spanDecimal_digits hm.whole (spanDecimal_placesText hm rest)
  rw [Numeral.text, List.append_assoc, List.append_assoc]
  exact hspan

/-- A numeral is not taken for a hexadecimal one: behind a leading zero stands no letter but that of
the exponent. -/
theorem Numeral.text_ne_hex (hm : m.IsWritten) (rest : Text) {x : Char} (hx : x = 'x' ∨ x = 'X')
    (s : Text) : m.text ++ rest ≠ '0' :: x :: s := by
  intro heq
  obtain ⟨c, whole, hwhole⟩ := List.exists_cons_of_ne_nil hm.nonempty
  rw [Numeral.text, hwhole, List.cons_append, List.cons_append, List.cons.injEq] at heq
  obtain ⟨rfl, hrest⟩ := heq
  have hnone : whole = [] := hm.leading whole hwhole
  subst hnone
  cases hplaces : m.places with
  | some ds =>
    simp only [Numeral.placesText, hplaces, List.nil_append, List.cons_append,
      List.cons.injEq] at hrest
    rcases hx with rfl | rfl <;> exact absurd hrest.1 (by decide)
  | none =>
    obtain ⟨⟨signed, down, ds⟩, hds⟩ := Option.ne_none_iff_exists'.mp
      (hm.isDouble.resolve_left fun h => h hplaces)
    simp only [Numeral.placesText, hplaces, Numeral.exponentText, hds, List.nil_append,
      List.cons_append, List.cons.injEq] at hrest
    rcases hx with rfl | rfl <;> exact absurd hrest.1 (by decide)

theorem readNumeral?_text (hm : m.IsWritten) :
    readNumeral? false m.text = some (.float (Decimal.nearest m.number m.scale)) := by
  have hempty : m.text.isEmpty = false := by simp [Numeral.text, hm.nonempty]
  have hscan := Numeral.scanDecimal?_text hm Decimal.stops_nil
  rw [List.append_nil] at hscan
  unfold readNumeral?
  split
  · rename_i s hs
    exact absurd ((List.append_nil _).trans hs) (Numeral.text_ne_hex hm [] (.inl rfl) s)
  · rename_i s hs
    exact absurd ((List.append_nil _).trans hs) (Numeral.text_ne_hex hm [] (.inr rfl) s)
  · simp only [readDecimal?, hempty, Numeral.all_text hm, hscan, Bool.false_eq_true, if_false]

/-- **Numerals.** What is written of a double is read as the double that its digits stand for,
rounded to the nearest one. -/
theorem readNumeral_text (hm : m.IsWritten) (rest : Text) :
    readNumeral (m.text ++ '\n' :: rest) =
      some (.float (Decimal.nearest m.number m.scale), '\n' :: rest) := by
  have hspan : spanNumeral (isExponentMark false) false (m.text ++ '\n' :: rest) =
    (m.text, '\n' :: rest) := spanDecimal_text hm
  unfold readNumeral
  split
  rename_i front hex back hparts
  split at hparts
  · rename_i s hs
    exact absurd hs (Numeral.text_ne_hex hm _ (.inl rfl) s)
  · rename_i s hs
    exact absurd hs (Numeral.text_ne_hex hm _ (.inr rfl) s)
  · cases hparts
    simp only [hspan, List.nil_append, readNumeral?_text hm]
    rfl

/-- A numeral begins with a digit. -/
theorem Numeral.exists_text_cons (hm : m.IsWritten) :
    ∃ c s, m.text = c :: s ∧ isDigit c = true := by
  obtain ⟨c, whole, hwhole⟩ := List.exists_cons_of_ne_nil hm.nonempty
  refine ⟨c, whole ++ (m.placesText ++ m.exponentText), ?_, hm.whole c (by simp [hwhole])⟩
  rw [Numeral.text, hwhole]
  rfl

theorem Reads.numeral (hm : m.IsWritten) (line : Nat) (rest : Text) :
    Reads line (m.text ++ '\n' :: rest)
      [⟨.number (.float (Decimal.nearest m.number m.scale)), line⟩] line ('\n' :: rest) := by
  obtain ⟨c, s, htext, hc⟩ := Numeral.exists_text_cons hm
  obtain ⟨hline, hspace, hname⟩ := not_blank_of_isDigit hc
  have hread := readNumeral_text hm rest
  have hstarts : startsNumeral (c :: (s ++ '\n' :: rest)) = true := by
    unfold startsNumeral
    split
    · rename_i heq
      rw [(List.cons.inj heq).1] at hc
      cases hc
    · rename_i heq
      rw [← (List.cons.inj heq).1]
      exact hc
    · rename_i heq
      cases heq
  rw [htext, List.cons_append] at hread ⊢
  refine .token ?_ (by simp) .done
  simp only [scan, hline, hspace, hname, hstarts, hread, Bool.false_eq_true, if_false, if_true]

end Numerals

end FeatureTransform.Lua
