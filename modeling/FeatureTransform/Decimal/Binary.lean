/-!
# Doubles as exact numbers

A finite double is `± mantissa · 2 ^ exponent`. Reading that form off the bits makes every question
about its value one about integers: which integer it is or lies next to, how it compares with an
integer, what remains when it is divided by another double.
-/

namespace FeatureTransform

/-- The integer as a signed one of 64 bits, if they hold it. -/
def int64? (i : Int) : Option Int64 :=
  if -0x8000000000000000 ≤ i ∧ i < 0x8000000000000000 then some (Int64.ofInt i) else none

/-- The number `± mantissa · 2 ^ exponent`. -/
structure Binary where
  /-- whether the number carries a minus sign (zero may) -/
  negative : Bool
  /-- the digits, as one natural number -/
  mantissa : Nat
  /-- the power of two that scales them -/
  exponent : Int
deriving DecidableEq, Repr

namespace Binary

/-- The value of a finite double. Its bits are a sign, eleven bits of biased exponent and 52 bits
of fraction; a biased exponent of zero marks the numbers without a leading one. -/
def ofFloat (f : Float) : Binary :=
  let bits : Nat := f.toBits.toNat
  let fraction : Nat := bits % 0x10000000000000
  let biased : Nat := bits / 0x10000000000000 % 0x800
  { negative := bits / 0x8000000000000000 == 1
    mantissa := if biased = 0 then fraction else fraction + 0x10000000000000
    exponent := if biased = 0 then -1074 else (biased : Int) - 1075 }

/-- The double of this value. The value has to be one that a double has: a mantissa below `2 ^ 53`
once trailing zero bits are taken off, and no bits under `2 ^ (-1074)`. -/
def toFloat (b : Binary) : Float :=
  let sign : Nat := if b.negative then 0x8000000000000000 else 0
  if b.mantissa = 0 then Float.ofBits (UInt64.ofNat sign)
  else
    let top := (b.mantissa.log2 : Int) + b.exponent
    let shift (power : Int) : Nat :=
      if power ≤ b.exponent then b.mantissa <<< (b.exponent - power).toNat
      else b.mantissa >>> (power - b.exponent).toNat
    if top < -1022 then Float.ofBits (UInt64.ofNat (sign + shift (-1074)))
    else
      let biased := (top + 1023).toNat
      let fraction := shift (top - 52) - 0x10000000000000
      Float.ofBits (UInt64.ofNat (sign + biased * 0x10000000000000 + fraction))

/-- The magnitude as a fraction `numerator / denominator`. -/
def fraction (b : Binary) : Nat × Nat :=
  if 0 ≤ b.exponent then (b.mantissa <<< b.exponent.toNat, 1)
  else (b.mantissa, 1 <<< (-b.exponent).toNat)

/-- The integer with the sign of the number and the given magnitude. -/
def signed (b : Binary) (magnitude : Nat) : Int :=
  if b.negative then -(magnitude : Int) else magnitude

/-- The number, if it is an integer. -/
def toInt? (b : Binary) : Option Int :=
  let (num, den) := b.fraction
  if num % den = 0 then some (b.signed (num / den)) else none

/-- The largest integer that is not above the number. -/
def floor (b : Binary) : Int :=
  let (num, den) := b.fraction
  b.signed num / (den : Int)

/-- The nearest integer; halfway cases go away from zero. -/
def round (b : Binary) : Int :=
  let (num, den) := b.fraction
  b.signed ((2 * num + den) / (2 * den))

/-- How the number compares with an integer. -/
def compareInt (b : Binary) (i : Int) : Ordering :=
  let (num, den) := b.fraction
  compare (b.signed num) (i * den)

/-- What remains of `a` when it is divided by `b` with a quotient cut toward zero; `b` is not zero.
The remainder has the sign of `a`. -/
def remainder (a b : Binary) : Binary :=
  let low := min a.exponent b.exponent
  let left := a.mantissa <<< (a.exponent - low).toNat
  let right := b.mantissa <<< (b.exponent - low).toNat
  { negative := a.negative, mantissa := left % right, exponent := low }

end Binary

/-- The integer a double is equal to, if there is one. -/
def Float.toInt? (f : Float) : Option Int :=
  if f.isFinite then (Binary.ofFloat f).toInt? else none

/-! ## Nearest doubles -/

/-- The exponent of the last place that doubles have at the positive fraction `num / den`: its whole
part then has 53 bits, or fewer at the lower end of the range. -/
def lastPlace (num den : Nat) : Int :=
  -- the lengths of the numbers leave two places to choose from
  let e := max (-1074) ((num.log2 : Int) - den.log2 - 53)
  if num <<< (-e).toNat < 0x20000000000000 * (den <<< e.toNat) then e else e + 1

/-- The integer nearest to `num / den`, ties to the even one. -/
def roundToEven (num den : Nat) : Nat :=
  let below := num / den
  let rest := num % den
  if den < 2 * rest ∨ (2 * rest = den ∧ below % 2 = 1) then below + 1 else below

/-- The bits of the double nearest to `num / den`, ties to the even one. Neighbouring doubles have
neighbouring bits, so that digits rounded up to `2 ^ 53` carry into the exponent, and what lies
beyond the largest double becomes the infinity behind it. -/
def nearestBits (num den : Nat) : Nat :=
  if num = 0 then 0
  else
    let e := lastPlace num den
    let digits := roundToEven (num <<< (-e).toNat) (den <<< e.toNat)
    min ((e + 1074).toNat * 0x10000000000000 + digits) 0x7FF0000000000000

/-- The double nearest to `num / den`, ties to the even one. -/
def Float.nearestFraction (num den : Nat) : Float :=
  Float.ofBits (UInt64.ofNat (nearestBits num den))

/-- The double nearest to the product of two magnitudes: the product itself is exact, and rounded
once. -/
def Binary.times (a b : Binary) : Float :=
  Float.nearestFraction (a.fraction.1 * b.fraction.1) (a.fraction.2 * b.fraction.2)

/-- The double nearest to the quotient of two magnitudes, of which the second is not zero. -/
def Binary.over (a b : Binary) : Float :=
  Float.nearestFraction (a.fraction.1 * b.fraction.2) (a.fraction.2 * b.fraction.1)

/-- The double nearest to an integer, ties to the even one. -/
def Float.nearest (i : Int) : Float :=
  let f := Float.nearestFraction i.natAbs 1
  if i < 0 then -f else f

end FeatureTransform
