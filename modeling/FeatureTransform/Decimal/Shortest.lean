import FeatureTransform.Decimal.Binary

/-!
# The fewest digits that read back

The reals that round to a given double form an interval around it. A decimal number in that
interval reads back as the double, so the shortest text of a double is the decimal with the fewest
digits in the interval, and of those the nearest to the double. For each count of digits only the
two neighbours of the double on the grid of that many digits can qualify: if any point of the grid
lies in the interval, one of them does.
-/

namespace FeatureTransform.Decimal

/-- The number `0.d₁d₂… · 10 ^ point`, first digit first. -/
structure Digits where
  /-- the digits, each below ten, the first and last of them not zero -/
  digits : List Nat
  /-- how many digits stand before the decimal point -/
  point : Int
deriving DecidableEq, Repr

/-- The decimal exponent of the leading digit. -/
def Digits.exponent (d : Digits) : Int := d.point - 1

/-- The decimal digits of a number, last digit first, at most `fuel` of them. -/
def reversedDigits : (fuel : Nat) → Nat → List Nat
  | 0, _ => []
  | fuel + 1, n => if n = 0 then [] else n % 10 :: reversedDigits fuel (n / 10)

/-- The decimal digits of a positive number. A number has at most one digit more than its binary
logarithm. -/
def digitsOf (n : Nat) : List Nat := (reversedDigits (n.log2 + 1) n).reverse

/-- The digits of `n · 10 ^ scale`, without the zeros at the end. -/
def Digits.ofScaled (n : Nat) (scale : Int) : Digits :=
  let ds := digitsOf n
  { digits := (ds.reverse.dropWhile (· == 0)).reverse, point := ds.length + scale }

/-- The least `j ≤ tries` with `den ≤ num · 10 ^ j`, or `tries`. -/
def leadingShift (den : Nat) : (tries : Nat) → (num : Nat) → Nat
  | 0, _ => 0
  | tries + 1, num => if den ≤ num then 0 else leadingShift den tries (num * 10) + 1

/-- How many digits a positive fraction has before its decimal point; for a fraction below one,
minus the zeros behind the point. -/
def pointOf (num den : Nat) : Int :=
  if den ≤ num then (digitsOf (num / den)).length
  else 1 - (leadingShift den (den.log2 + 1) num : Int)

/-- A double's value, and the interval of reals that round to it, over one denominator. -/
structure Interval where
  /-- numerator of the lower end -/
  low : Nat
  /-- numerator of the value -/
  mid : Nat
  /-- numerator of the upper end -/
  high : Nat
  /-- the common denominator -/
  den : Nat
  /-- whether the two ends belong to the interval -/
  closed : Bool

/-- The interval of a positive number. Its ends lie halfway to the neighbouring doubles; below a
power of two the neighbour is half as far away. The ends round to the even mantissa. -/
def Interval.of (b : Binary) : Interval :=
  let up := b.exponent.toNat
  let down := (-b.exponent).toNat
  let scaled (n : Nat) : Nat := n <<< up
  let narrow := b.mantissa = 0x10000000000000 ∧ -1074 < b.exponent
  { low := scaled (if narrow then 4 * b.mantissa - 1 else 4 * b.mantissa - 2)
    mid := scaled (4 * b.mantissa)
    high := scaled (4 * b.mantissa + 2)
    den := 4 <<< down
    closed := b.mantissa % 2 = 0 }

/-- Whether `n / unit` lies in the interval, `unit` being counted in grid steps per one. -/
def Interval.contains (i : Interval) (n step scale : Nat) : Bool :=
  let point := n * step * i.den
  if i.closed then i.low * scale ≤ point && point ≤ i.high * scale
  else i.low * scale < point && point < i.high * scale

/-- The nearest decimal of `count` digits to the value, if one lies in the interval. The grid step
is `10 ^ (point - count)`; of two neighbours at the same distance the even one is taken. -/
def Interval.onGrid? (i : Interval) (point : Int) (count : Nat) : Option Digits :=
  let exponent := point - count
  let step := Nat.pow 10 exponent.toNat
  let scale := Nat.pow 10 (-exponent).toNat
  let unit := step * i.den
  let below := i.mid * scale / unit
  let rest := i.mid * scale % unit
  let first := i.contains below step scale
  let second := i.contains (below + 1) step scale
  let chosen? :=
    if first && second then
      if 2 * rest < unit || (2 * rest == unit && below % 2 == 0) then some below
      else some (below + 1)
    else if first then some below
    else if second then some (below + 1)
    else none
  chosen?.map (Digits.ofScaled · exponent)

/-- The shortest decimal that reads back as the positive number. Seventeen digits always do. -/
def shortest (b : Binary) : Digits :=
  let i := Interval.of b
  let point := pointOf i.mid i.den
  -- fewer digits first
  ((List.range 17).findSome? fun n => i.onGrid? point (n + 1)).getD
    (Digits.ofScaled (i.mid / i.den) 0)

/-- The positive number rounded to `count` digits, halfway cases to the even neighbour. Zeros at
the end are left out. -/
def rounded (count : Nat) (b : Binary) : Digits :=
  let (num, den) := b.fraction
  let exponent := pointOf num den - count
  let top := num * Nat.pow 10 (-exponent).toNat
  let unit := den * Nat.pow 10 exponent.toNat
  let below := top / unit
  let rest := top % unit
  let up := unit < 2 * rest || (2 * rest == unit && below % 2 == 1)
  Digits.ofScaled (if up then below + 1 else below) exponent

end FeatureTransform.Decimal
