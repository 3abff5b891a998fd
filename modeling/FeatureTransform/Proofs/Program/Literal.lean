import FeatureTransform.Lua.Value
import FeatureTransform.Program
import FeatureTransform.Proofs.Lua.Token

/-!
# Literals

What a program writes down of a value is read back as that value: a text character by character,
with its escapes, and a double by its digits. The numbers without digits are expressions, of which
the one for infinity asks the library.
-/

namespace FeatureTransform

open Lua (Lexeme Reads Token Value)

variable {line : Nat} {rest : Text}

/-! ## Texts -/

/-- The code of a character in three digits, none of which is left to what follows. -/
theorem Lua.readEscape?_code {n : Nat} (hn : n < 128) (line : Nat) (rest : Text) :
    readEscape? line (Decimal.digitChar (n / 100) :: Decimal.digitChar (n / 10 % 10) ::
      Decimal.digitChar (n % 10) :: rest) = some ([n.toUInt8], line, rest) := by
  interval_cases n <;> rfl

/-- A character is read from what is written for it: an escape, or its own bytes. -/
theorem Lua.readShort_character (c : Char) (fuel : Nat) (read : List UInt8) (line : Nat)
    (rest : Text) :
    readShort '"' (fuel + 1) read line (literalCharacter c ++ rest) =
      readShort '"' fuel ((String.utf8EncodeChar c).reverse ++ read) line rest := by
  unfold literalCharacter
  -- the five characters with escapes of their own are single bytes
  split
  · subst c
    rfl
  split
  · subst c
    rfl
  split
  · subst c
    rfl
  split
  · subst c
    rfl
  split
  · subst c
    rfl
  split
  · -- control characters are written by their numbers, all of them single bytes
    rename_i hcontrol
    have hsmall : c.toNat < 128 := by omega
    have hbyte : String.utf8EncodeChar c = [c.toNat.toUInt8] := by
      rw [String.utf8EncodeChar, if_pos (by change c.toNat ≤ 127; omega)]
      rfl
    rw [hbyte]
    simp only [List.cons_append, List.nil_append]
    rw [readShort]
    simp only [show ('\\' = '"') = False by decide, if_false, if_true,
      readEscape?_code hsmall]
  · -- all others stand for themselves, and none of them ends the literal or the line
    rename_i hslash hquote hfeed hreturn _ _
    have hline : isLineEnd c = false := by simp [isLineEnd, hfeed, hreturn]
    rw [List.singleton_append, readShort]
    simp only [hquote, hslash, hline, Bool.false_eq_true, if_false]

/-- So are the characters of a text, one after another, up to the closing quote. -/
theorem Lua.readShort_text (s : Text) (fuel : Nat) (hfuel : s.length < fuel) (read : List UInt8)
    (line : Nat) (rest : Text) :
    readShort '"' fuel read line (s.flatMap literalCharacter ++ '"' :: rest) =
      some (bytesOf ((s.flatMap String.utf8EncodeChar).reverse ++ read), line, rest) := by
  obtain ⟨fuel, rfl⟩ := Nat.exists_eq_add_one_of_ne_zero (show fuel ≠ 0 by omega)
  induction s generalizing fuel read with
  | nil =>
    rw [List.flatMap_nil, List.nil_append, readShort]
    rfl
  | cons c s ih =>
    rw [List.length_cons] at hfuel
    obtain ⟨fuel, rfl⟩ := Nat.exists_eq_add_one_of_ne_zero (show fuel ≠ 0 by omega)
    rw [List.flatMap_cons, List.append_assoc, readShort_character, ih _ _ (by omega)]
    simp

theorem length_le_flatMap (s : Text) : s.length ≤ (s.flatMap literalCharacter).length := by
  induction s with
  | nil => exact Nat.le_refl _
  | cons c s ih =>
    have hc : 1 ≤ (literalCharacter c).length := by
      unfold literalCharacter
      split_ifs <;> simp
    rw [List.flatMap_cons, List.length_append, List.length_cons]
    omega

theorem Lua.bytesOf_text (s : String) :
    bytesOf (s.toList.flatMap String.utf8EncodeChar).reverse = s.toUTF8 := by
  change _ = s.toByteArray
  rw [← String.utf8Encode_toList, List.utf8Encode, bytesOf, List.reverse_reverse]
  exact ByteArray.ext List.data_toByteArray.symm

theorem Lua.scan_quote (line : Nat) (rest : Text) : scan line '"' rest =
    match readShort '"' (rest.length + 1) [] line rest with
    | some (s, line, rest) => .token (.string s) line rest
    | none => .nothing := by
  rfl

/-- What a string literal leaves of itself behind its first quote. -/
def literalInside (s : String) (rest : Text) : Text :=
  s.toList.flatMap literalCharacter ++ '"' :: rest

theorem toList_stringLiteral (s : String) (rest : Text) :
    (stringLiteral s).toList ++ rest = '"' :: literalInside s rest := by
  simp [stringLiteral, literalInside]

theorem length_le_literalInside (s : String) (rest : Text) :
    s.toList.length + rest.length < (literalInside s rest).length := by
  have hlength := length_le_flatMap s.toList
  rw [literalInside, List.length_append, List.length_cons]
  omega

theorem Lua.readShort_literalInside (s : String) (line : Nat) (rest : Text) :
    readShort '"' ((literalInside s rest).length + 1) [] line (literalInside s rest) =
      some (s.toUTF8, line, rest) := by
  have hlength := length_le_literalInside s rest
  rw [← bytesOf_text, ← List.append_nil (List.reverse _)]
  exact readShort_text s.toList _ (by omega) [] line rest

theorem Lua.scan_literalInside (s : String) (line : Nat) (rest : Text) :
    scan line '"' (literalInside s rest) = .token (.string s.toUTF8) line rest := by
  rw [scan_quote, readShort_literalInside]

/-- **Texts.** A string literal is read as the bytes of its text, on one line, since the ends of
lines are escaped. -/
theorem Lua.Reads.quoted (s : String) (line : Nat) (rest : Text) :
    Reads line ((stringLiteral s).toList ++ rest) [⟨.string s.toUTF8, line⟩] line rest := by
  have hlength := length_le_literalInside s rest
  rw [toList_stringLiteral]
  exact .token (Lua.scan_literalInside s line rest) (by omega) .done

/-- **Nothing gets out.** Whatever follows a string literal, it is one token, that of a short string
with the bytes of the text, and just what follows is left to be read. So the text can be told from
the literal, as can where the literal ends. The quote, the backslash and the control characters are
escaped, and no other character has a meaning inside. -/
theorem stringLiteral_sealed (s : String) (line : Nat) (rest : Text) :
    ∃ inside, (stringLiteral s).toList ++ rest = '"' :: inside ∧
      Lua.readShort '"' (inside.length + 1) [] line inside = some (s.toUTF8, line, rest) ∧
      Lua.scan line '"' inside = .token (.string s.toUTF8) line rest ∧
      (∀ fuel, Lua.tokensFrom (fuel + 1) line ('"' :: inside) =
        (Lua.tokensFrom fuel line rest).map (⟨.string s.toUTF8, line⟩ :: ·)) ∧
      ∀ other more, (stringLiteral other).toList ++ more = '"' :: inside →
        other = s ∧ more = rest := by
  have hscan := Lua.scan_literalInside s line rest
  refine ⟨literalInside s rest, toList_stringLiteral s rest,
    Lua.readShort_literalInside s line rest,
    hscan, fun fuel => ?_, fun other more hsame => ?_⟩
  · rw [Lua.tokensFrom, hscan]
  · rw [toList_stringLiteral] at hsame
    have hread := Lua.readShort_literalInside other line more
    rw [(List.cons.inj hsame).2, Lua.readShort_literalInside] at hread
    obtain ⟨hbytes, -, hmore⟩ : s.toUTF8 = other.toUTF8 ∧ line = line ∧ rest = more := by
      simpa using hread
    exact ⟨(String.toByteArray_inj.mp hbytes).symm, hmore.symm⟩

/-- A code has three digits, so that a digit behind the character is not taken for one of them. -/
example : stringLiteral "\x012" = "\"\\0012\"" := by decide

/-! ## Values -/

/-- A value that a program can write down. -/
inductive Literal where
  /-- no value -/
  | nil
  /-- a text -/
  | text (s : String)
  /-- the double that is no number -/
  | nan
  /-- infinity, with or without a minus sign -/
  | huge (negative : Bool)
  /-- the digits of a double, with or without a minus sign -/
  | numeral (negative : Bool) (magnitude : Float)

namespace Literal

/-- How a double is written down. -/
def ofFloat (f : Float) : Literal :=
  let negative := (Binary.ofFloat f).negative
  if f.isNaN then .nan
  else if f.isInf then .huge negative
  else .numeral negative (Double.signed negative f)

/-- The value that a literal stands for. -/
def value : Literal → Value
  | .nil => .nil
  | .text s => .text s
  | .nan => .float (0.0 / 0.0)
  | .huge negative => .float (Double.signed negative (1.0 / 0.0))
  | .numeral negative magnitude => .float (Double.signed negative magnitude)

/-- Whether the literal asks the library for infinity. -/
def isHuge : Literal → Bool
  | .huge _ => true
  | _ => false

theorem value_ne_nil {ℓ : Literal} (h : ℓ.isHuge = true) : ℓ.value ≠ .nil := by
  cases ℓ with
  | huge negative => nofun
  | _ => cases h

theorem isHuge_ofFloat (f : Float) : (ofFloat f).isHuge = f.isInf := by
  unfold ofFloat
  dsimp only
  split
  · rename_i hnan
    rw [Double.eq_nan_of_isNaN hnan]
    decide
  split
  · rename_i hinf
    exact hinf.symm
  · rename_i hinf
    exact (Bool.eq_false_iff.mpr hinf).symm

/-- A double has a literal with its value, infinities and NaN included. -/
theorem value_ofFloat (f : Float) : (ofFloat f).value = .float f := by
  unfold ofFloat
  dsimp only
  split
  · rename_i hnan
    rw [Double.eq_nan_of_isNaN hnan]
    exact congrArg Value.float (by decide)
  split
  · rename_i hinf
    exact congrArg Value.float (Double.eq_of_isInf hinf).symm
  · rw [value, Double.signed_signed]

/-- The sign of a literal. -/
def signTokens (negative : Bool) : List Token := if negative then [.mark "-"] else []

/-- The tokens of a literal. -/
def tokens : Literal → List Token
  | .nil => [.mark "nil"]
  | .text s => [.string s.toUTF8]
  | .nan => [.mark "(", .number (.int 0), .mark "/", .number (.int 0), .mark ")"]
  | .huge negative => signTokens negative ++ [.name "math", .mark ".", .name "huge"]
  | .numeral negative magnitude => signTokens negative ++ [.number (.float magnitude)]

end Literal

/-- Tokens on one line. -/
def onLine (line : Nat) (tokens : List Token) : List Lexeme := tokens.map fun t => ⟨t, line⟩

theorem Lua.Reads.nil : Reads line ('n' :: 'i' :: 'l' :: '\n' :: rest)
    (onLine line Literal.nil.tokens) line ('\n' :: rest) :=
  .word (c := 'n') (x := ['i', 'l']) rfl rfl (Lua.stopsName_cons rfl)

theorem Lua.Reads.nan : Reads line ('(' :: '0' :: '/' :: '0' :: ')' :: '\n' :: rest)
    (onLine line Literal.nan.tokens) line ('\n' :: rest) :=
  .append (.one rfl) (.append (.one rfl) (.append (.one rfl) (.append (.one rfl) (.one rfl))))

theorem Lua.Reads.huge :
    Reads line ('m' :: 'a' :: 't' :: 'h' :: '.' :: 'h' :: 'u' :: 'g' :: 'e' :: '\n' :: rest)
      (onLine line (Literal.huge false).tokens) line ('\n' :: rest) :=
  .append (.word (c := 'm') (x := ['a', 't', 'h']) rfl rfl (Lua.stopsName_cons rfl))
    (.append (.one rfl)
      (.word (c := 'h') (x := ['u', 'g', 'e']) rfl rfl (Lua.stopsName_cons rfl)))

/-- Infinity has the sign that it is compared by, which is what the program text shows of it. -/
theorem zero_lt_of_isInf {f : Float} (h : f.isInf = true) :
    0 < f ↔ (Binary.ofFloat f).negative = false := by
  rw [Double.eq_of_isInf h]
  cases (Binary.ofFloat f).negative <;> decide

/-- The digits of a finite double, with its sign as a token in front. -/
theorem Lua.Reads.finite {f : Float} (h : f.isFinite = true) :
    Reads line ((Decimal.literalText f).toList ++ '\n' :: rest)
      (onLine line (Literal.ofFloat f).tokens) line ('\n' :: rest) := by
  obtain ⟨hinf, hnan⟩ := (Double.isFinite_iff f).mp h
  have hfraction : Decimal.literal.showsFraction = true := rfl
  obtain ⟨m, hm, htext, -, hvalue⟩ := Decimal.write_spec hfraction h
  have hmagnitude := congrArg (Double.signed (Binary.ofFloat f).negative) hvalue
  rw [Double.signed_signed] at hmagnitude
  have hdigits := Reads.numeral hm line rest
  rw [Decimal.literalText, String.toList_ofList, htext]
  simp only [Literal.ofFloat, hnan, hinf, Bool.false_eq_true, if_false, Literal.tokens, hmagnitude]
  cases (Binary.ofFloat f).negative with
  | false => exact hdigits
  | true =>
    refine .append (.minus ?_) hdigits
    obtain ⟨c, s, hs, hc⟩ := Lua.Numeral.exists_text_cons hm
    rw [hs]
    rintro d ⟨⟩ rfl
    cases hc

/-- **Doubles.** A number literal at the end of a line is read as the tokens of its double: digits,
or one of the expressions for the numbers without any. -/
theorem Lua.Reads.number (f : Float) :
    Reads line ((numberLiteral f).toList ++ '\n' :: rest)
      (onLine line (Literal.ofFloat f).tokens) line ('\n' :: rest) := by
  by_cases hnan : f.isNaN = true
  · rw [numberLiteral, if_pos hnan, Literal.ofFloat]
    simp only [hnan, if_true]
    exact .nan
  -- infinity is written with the sign that comparing it with zero shows
  by_cases hinf : f.isInf = true
  · have hsign := zero_lt_of_isInf hinf
    rw [numberLiteral, if_neg hnan, if_pos hinf, Literal.ofFloat]
    simp only [hnan, hinf, Bool.false_eq_true, if_false, if_true]
    cases hnegative : (Binary.ofFloat f).negative with
    | false =>
      rw [if_pos (hsign.mpr hnegative)]
      exact .huge
    | true =>
      rw [if_neg (by rw [hsign, hnegative]; decide)]
      exact .append (.one rfl) .huge
  · have hfinite := (Double.isFinite_iff f).mpr ⟨by simpa using hinf, by simpa using hnan⟩
    rw [numberLiteral, if_neg hnan, if_neg hinf]
    exact .finite hfinite

end FeatureTransform
