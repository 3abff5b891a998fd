import FeatureTransform.Decimal.Shortest
import FeatureTransform.Text.Blank

/-!
# Reading numbers

A decimal text is an optional sign, digits with at most one point among them, and an optional
exponent; the number read is the double nearest to the decimal. The words for the numbers that
have no digits may be written in any case.

There is also a quicker way, which does without long numbers: as many digits as 64 bits hold are
taken for a double, and this is scaled by a power of ten that is a double as well. Each step rounds,
so that the quick way may end one double or more beside the nearest.
-/

namespace FeatureTransform.Decimal

/-- The value of a digit, if the character is one of `0` to `9`. -/
def digit? (c : Char) : Option Nat :=
  if '0' ≤ c && c ≤ '9' then some (c.toNat - 48) else none

/-- The number that digits stand for, continuing `acc`. -/
def valueOf (acc : Nat) (ds : Text) : Nat := ds.foldl (fun n c => 10 * n + (c.toNat - 48)) acc

/-- Whether the character is one of `0` to `9`. -/
def isDigit (c : Char) : Bool := (digit? c).isSome

/-- The leading digits of a text and what follows them. -/
def spanDigits (s : Text) : Text × Text := (s.takeWhile isDigit, s.dropWhile isDigit)

/-- The places behind a point, if there is one, and what follows them. -/
def spanPlaces : Text → Text × Text
  | '.' :: rest => spanDigits rest
  | rest => ([], rest)

/-- Whether a minus sign stands in front, and the text without the sign. -/
def spanSign : Text → Bool × Text
  | '+' :: rest => (false, rest)
  | '-' :: rest => (true, rest)
  | rest => (false, rest)

/-- The double nearest to `n · 10 ^ e`. Beyond the range of doubles only the order of magnitude
counts, and it is looked at first. -/
def nearest (n : Nat) (e : Int) : Float :=
  -- exponents may be of any length, so no power is taken before this
  let size := (digitsOf n).length + e
  if n = 0 ∨ size < -330 then 0.0
  else if 310 < size then 1.0 / 0.0
  else Float.nearestFraction (n * Nat.pow 10 e.toNat) (Nat.pow 10 (-e).toNat)

/-! ## The quick way -/

/-- The number that digits make behind `n`, as far as 64 bits hold it, and how many of the digits
are left over. Once one is left over all others are, even where they would fit again. -/
def holdDigits (n : Nat) : Text → Nat × Nat
  | [] => (n, 0)
  | c :: ds =>
    let longer := 10 * n + (c.toNat - 48)
    if longer < 0x10000000000000000 then holdDigits longer ds else (n, ds.length + 1)

/-- A number of 64 bits and the power of ten that scales it. -/
structure Significand where
  /-- the digits that are held, as one number -/
  number : Nat
  /-- the exponent of the power of ten -/
  scale : Int
deriving DecidableEq, Repr

/-- The digits of a whole part. Those that are not held raise the power of ten. -/
def Significand.ofWhole (ds : Text) : Significand :=
  let (n, left) := holdDigits 0 ds
  { number := n, scale := left }

/-- The significand with the places behind a point. Those that are held lower the power of ten. -/
def Significand.withPlaces (s : Significand) (ds : Text) : Significand :=
  let (n, left) := holdDigits s.number ds
  { number := n, scale := s.scale - ((ds.length : Int) - left) }

/-- The exponent of the largest power of ten among the doubles. -/
def largestPower : Nat := 308

/-- The double nearest to a power of ten that is not larger than that. -/
def powerOfTen (e : Nat) : Binary := .ofFloat (Float.nearestFraction (Nat.pow 10 e) 1)

/-- The double divided by `10 ^ e`, where `e` is less than `steps + 1` times the largest exponent:
by the largest power of ten as often as there are steps, then by what is left. Each division
rounds. -/
def lower : (steps e : Nat) → Float → Float
  | 0, e, f => (Binary.ofFloat f).over (powerOfTen e)
  | steps + 1, e, f =>
    -- nothing comes of zero, however often it is divided
    if (Binary.ofFloat f).mantissa = 0 then f
    else lower steps (e - largestPower) ((Binary.ofFloat f).over (powerOfTen largestPower))

/-- The double that `n · 10 ^ e` comes to on the quick way: the double nearest to `n`, times or
divided by powers of ten that are doubles. It is infinite where a power is too large or its product
is. -/
def scaled (n : Nat) (e : Int) : Float :=
  let f := Float.nearestFraction n 1
  if n = 0 then f
  else if e < 0 then lower (((-e).toNat - 1) / largestPower) (-e).toNat f
  else if largestPower < e then 1.0 / 0.0
  else (Binary.ofFloat f).times (powerOfTen e.toNat)

/-! ## Texts of numbers -/

/-- An unsigned decimal that makes up the front of a text: the digits as one number, the power of
ten that scales them, and the rest. -/
def scanDecimal? (s : Text) : Option (Nat × Int × Text) :=
  let (whole, rest) := spanDigits s
  let (places, rest) := spanPlaces rest
  if whole.isEmpty && places.isEmpty then none
  else
    let n := valueOf (valueOf 0 whole) places
    let scale : Int := -(places.length : Int)
    match rest with
    | c :: more =>
      if c = 'e' ∨ c = 'E' then
        let (down, more) := spanSign more
        match spanDigits more with
        | ([], _) => none
        | (ds, rest) =>
          let e : Int := valueOf 0 ds
          some (n, scale + (if down then -e else e), rest)
      else some (n, scale, rest)
    | [] => some (n, scale, [])

/-- The number that an unsigned text stands for. -/
def readMagnitude? (s : Text) : Option Float :=
  let word := String.ofList (s.map Char.toLower)
  if word = "inf" ∨ word = "infinity" then some (1.0 / 0.0)
  else if word = "nan" then some (0.0 / 0.0)
  else
    match scanDecimal? s with
    | some (n, e, []) => some (nearest n e)
    | _ => none

/-- The double a text stands for: a sign at most, and a decimal or one of the words `inf`,
`infinity` and `nan`. -/
def read? : Text → Option Float
  | '-' :: s => (readMagnitude? s).map (- ·)
  | '+' :: s => readMagnitude? s
  | s => readMagnitude? s

/-- The integer of at most 64 bits, sign included, that a text stands for. -/
def readInt? (s : Text) : Option Int :=
  let (negative, ds) := spanSign s
  if ds.isEmpty || !ds.all isDigit then none
  else
    let i : Int := if negative then -(valueOf 0 ds : Int) else valueOf 0 ds
    if -0x8000000000000000 ≤ i ∧ i < 0x8000000000000000 then some i else none

end FeatureTransform.Decimal
