import FeatureTransform.Decimal.Shortest

/-!
# How a number is written

A format of numbers decides which exponents are written positionally, whether a whole number shows
its fraction, and how an exponent looks. The three formats of the library differ in nothing else:
each is one `Layout`, and `Layout.write` turns digits into text by it.
-/

namespace FeatureTransform.Decimal

/-- The decisions of a number format. -/
structure Layout where
  /-- whether a number whose leading digit has this decimal exponent is written positionally -/
  positional : Int → Bool
  /-- whether a whole number ends in `.0` -/
  showsFraction : Bool
  /-- whether a positive exponent carries a plus sign -/
  plusSign : Bool
  /-- the least number of digits of an exponent -/
  exponentWidth : Nat

/-- The character of a digit. -/
def digitChar (d : Nat) : Char := Char.ofNat (48 + d)

/-- A natural number in decimal. -/
def natText (n : Nat) : List Char := if n = 0 then ['0'] else (digitsOf n).map digitChar

/-- An integer in decimal. -/
def intText (i : Int) : List Char :=
  if i < 0 then '-' :: natText i.natAbs else natText i.natAbs

/-- Digits written with a decimal point among them. -/
def positionalText (showsFraction : Bool) (d : Digits) : List Char :=
  let ds := d.digits.map digitChar
  if d.point ≤ 0 then
    '0' :: '.' :: List.replicate (-d.point).toNat '0' ++ ds
  else
    let whole := d.point.toNat
    if whole < ds.length then ds.take whole ++ '.' :: ds.drop whole
    else
      ds ++ List.replicate (whole - ds.length) '0' ++ (if showsFraction then ['.', '0'] else [])

/-- Digits written with one of them before the point and an exponent behind. -/
def scientificText (layout : Layout) (d : Digits) : List Char :=
  let ds := d.digits.map digitChar
  let mantissa :=
    match ds with
    | first :: rest@(_ :: _) => first :: '.' :: rest
    | short => short
  let e := natText d.exponent.natAbs
  let sign := if d.exponent < 0 then ['-'] else if layout.plusSign then ['+'] else []
  mantissa ++ 'e' :: sign ++ List.replicate (layout.exponentWidth - e.length) '0' ++ e

/-- The text of a positive number given by its digits. -/
def Layout.writeDigits (layout : Layout) (d : Digits) : List Char :=
  if layout.positional d.exponent then positionalText layout.showsFraction d
  else scientificText layout d

/-- The text of a double, its digits chosen by `choose`: the sign first (zero has one too), then
the magnitude, `inf` or `NaN`. -/
def Layout.writeBy (layout : Layout) (choose : Binary → Digits) (f : Float) : List Char :=
  if f.isNaN then ['N', 'a', 'N']
  else
    let b := Binary.ofFloat f
    let magnitude :=
      if f.isInf then ['i', 'n', 'f']
      else if b.mantissa = 0 then '0' :: (if layout.showsFraction then ['.', '0'] else [])
      else layout.writeDigits (choose b)
    if b.negative then '-' :: magnitude else magnitude

/-- The text of a double with the fewest digits that read back. -/
def Layout.write (layout : Layout) (f : Float) : List Char := layout.writeBy shortest f

/-! ## The formats of the library -/

/-- Messages and texts that scripts see never have an exponent, and a whole number has no
fraction. -/
def plain : Layout :=
  { positional := fun _ => true, showsFraction := false, plusSign := false, exponentWidth := 1 }

/-- Number literals of programs always show that they are doubles; they are positional from `1e-4`
up to `1e16`. -/
def literal : Layout :=
  { positional := fun e => -4 ≤ e && e < 16, showsFraction := true, plusSign := false
    exponentWidth := 1 }

/-- Numbers of JSON texts always show that they are doubles; they are positional from `1e-5` up to
`1e16`, and a positive exponent has a plus sign. -/
def json : Layout :=
  { positional := fun e => -5 ≤ e && e < 16, showsFraction := true, plusSign := true
    exponentWidth := 1 }

/-- Numbers that Lua turns into strings have at most fourteen digits; they are positional from
`1e-4` up to `1e14`, and an exponent has a sign and two digits. -/
def lua : Layout :=
  { positional := fun e => -4 ≤ e && e < 14, showsFraction := false, plusSign := true
    exponentWidth := 2 }

/-- A double in the plain format. -/
def plainText (f : Float) : String := String.ofList (plain.write f)

/-- A double as a literal of a program. -/
def literalText (f : Float) : String := String.ofList (literal.write f)

/-- An integer in decimal. -/
def intString (i : Int) : String := String.ofList (intText i)

end FeatureTransform.Decimal
