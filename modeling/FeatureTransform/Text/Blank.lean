/-!
# White space

The characters that separate words and surround them: the 25 code points of the Unicode property
`White_Space`. Trimming a text removes them at its two ends and nowhere else.
-/

namespace FeatureTransform

/-- A text as the list of its characters; every scanner of the library works on this view. -/
abbrev Text := List Char

/-- The Unicode property `White_Space`. -/
def Char.isBlank (c : Char) : Bool :=
  let n := c.toNat
  (9 ≤ n && n ≤ 13) || n == 0x20 || n == 0x85 || n == 0xA0 || n == 0x1680
    || (0x2000 ≤ n && n ≤ 0x200A) || n == 0x2028 || n == 0x2029 || n == 0x202F || n == 0x205F
    || n == 0x3000

namespace Text

/-- The text without the white space in front of it. -/
def trimStart (s : Text) : Text := s.dropWhile Char.isBlank

/-- The text without the characters at its end that satisfy `p`. -/
def trimEndBy (p : Char → Bool) (s : Text) : Text := (s.reverse.dropWhile p).reverse

/-- The text without the white space behind it. -/
def trimEnd (s : Text) : Text := trimEndBy Char.isBlank s

/-- The text without the white space around it. -/
def trim (s : Text) : Text := trimEnd (trimStart s)

/-- The trimmed text, or nothing when it is empty. -/
def nonEmpty? (s : Text) : Option Text :=
  match trim s with
  | [] => none
  | t => some t

end Text

end FeatureTransform
