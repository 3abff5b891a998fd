import FeatureTransform.Decimal.Layout
import FeatureTransform.Decimal.Read

/-!
# Numbers of Lua

A number is an integer of 64 bits, whose arithmetic wraps around, or a double. Numerals and numeric
strings follow one grammar: decimal or hexadecimal, a numeral without point and exponent being an
integer where it fits. A hexadecimal integer always fits, because it wraps around as well.
-/

namespace FeatureTransform.Lua

/-- Strings of Lua are byte strings, which are equal when their bytes are. -/
instance byteStringEquality : DecidableEq ByteArray := ByteArray.instDecidableEq

/-- A number. -/
inductive Number where
  /-- an integer -/
  | int (i : Int64)
  /-- a double -/
  | float (f : Float)
deriving DecidableEq

/-! ## Reading -/

/-- The white space that may surround a numeric string. -/
def isSpace (c : Char) : Bool :=
  c == ' ' || c == '\t' || c == '\n' || c == '\x0b' || c == '\x0c' || c == '\r'

/-- The value of a hexadecimal digit. -/
def hexDigit? (c : Char) : Option Nat :=
  if '0' ≤ c ∧ c ≤ '9' then some (c.toNat - 48)
  else if 'a' ≤ c ∧ c ≤ 'f' then some (c.toNat - 87)
  else if 'A' ≤ c ∧ c ≤ 'F' then some (c.toNat - 55)
  else none

/-- The leading hexadecimal digits of a text, as a number that goes on from `n`, how many they are,
and the rest. -/
def spanHex (n count : Nat) : Text → Nat × Nat × Text
  | [] => (n, count, [])
  | c :: rest =>
    match hexDigit? c with
    | some d => spanHex (16 * n + d) (count + 1) rest
    | none => (n, count, c :: rest)

/-- The exponent behind a `p`, and the rest. -/
def binaryExponent? (s : Text) : Option (Int × Text) :=
  let (down, s) := Decimal.spanSign s
  match Decimal.spanDigits s with
  | ([], _) => none
  | (ds, rest) =>
    let e : Int := Decimal.valueOf 0 ds
    some (if down then -e else e, rest)

/-- The double nearest to `n · 2 ^ e`. Beyond the range of doubles only the order of magnitude
counts. -/
def scaleBinary (n : Nat) (e : Int) : Float :=
  let size := (n.log2 : Int) + e
  if n = 0 ∨ size < -1080 then 0.0
  else if 1030 < size then 1.0 / 0.0
  else Float.nearestFraction (n <<< e.toNat) (1 <<< (-e).toNat)

/-- The number behind `0x`. -/
def readHex? (negative : Bool) (s : Text) : Option Number :=
  let (n, whole, rest) := spanHex 0 0 s
  let (n, places, rest, point) :=
    match rest with
    | '.' :: rest =>
      let (n, places, rest) := spanHex n 0 rest
      (n, places, rest, true)
    | rest => (n, 0, rest, false)
  if whole + places = 0 then none
  else
    let float (e : Int) : Number :=
      let f := scaleBinary n (e - 4 * places)
      .float (if negative then -f else f)
    match rest with
    | [] =>
      if point then some (float 0)
      else
        -- digits beyond the 64 bits are lost
        let i := Int64.ofNat (n % 0x10000000000000000)
        some (.int (if negative then -i else i))
    | c :: rest =>
      if c = 'p' ∨ c = 'P' then
        match binaryExponent? rest with
        | some (e, []) => some (float e)
        | _ => none
      else none

/-- The number that decimal digits stand for. -/
def readDecimal? (negative : Bool) (s : Text) : Option Number :=
  let float : Option Number :=
    match Decimal.scanDecimal? s with
    | some (n, e, []) =>
      let f := Decimal.nearest n e
      some (.float (if negative then -f else f))
    | _ => none
  if s.isEmpty then none
  else if s.all Decimal.isDigit then
    let n : Int := Decimal.valueOf 0 s
    match int64? (if negative then -n else n) with
    | some i => some (.int i)
    -- too large for an integer
    | none => float
  else float

/-- The number that a numeral without sign and white space stands for. -/
def readNumeral? (negative : Bool) : Text → Option Number
  | '0' :: 'x' :: rest | '0' :: 'X' :: rest => readHex? negative rest
  | s => readDecimal? negative s

/-- The number that a string stands for. -/
def readNumber? (s : Text) : Option Number :=
  let s := ((s.dropWhile isSpace).reverse.dropWhile isSpace).reverse
  match s with
  | '-' :: rest => readNumeral? true rest
  | '+' :: rest => readNumeral? false rest
  | s => readNumeral? false s

/-- The number that the bytes of a string stand for. -/
def Number.ofBytes? (s : ByteArray) : Option Number :=
  readNumber? (s.data.toList.map fun b => Char.ofNat b.toNat)

/-! ## Writing -/

/-- A double as a string: at most fourteen digits, and `.0` behind what would look like an
integer. A number that is none carries the sign that a division of zero by zero gives it. -/
def floatText (f : Float) : String :=
  if f.isNaN then "-nan"
  else
    let s := Decimal.lua.writeBy (Decimal.rounded 14) f
    -- `inf` and exponents do not look like integers
    String.ofList (if s.all fun c => c == '-' || Decimal.isDigit c then s ++ ['.', '0'] else s)

/-- A number as a string. -/
def Number.text : Number → String
  | .int i => Decimal.intString i.toInt
  | .float f => floatText f

/-! ## Conversions -/

/-- The number as a double. -/
def Number.toFloat : Number → Float
  | .int i => Float.nearest i.toInt
  | .float f => f

/-- The integer that a double is equal to, if 64 bits hold it. -/
def intOfFloat? (f : Float) : Option Int64 :=
  (Float.toInt? f).bind int64?

/-- The number as an integer, if it is equal to one. -/
def Number.toInt? : Number → Option Int64
  | .int i => some i
  | .float f => intOfFloat? f

/-- The greatest integer not above a finite double, if 64 bits hold it. -/
def floorInt? (f : Float) : Option Int64 :=
  if f.isFinite then int64? (Binary.ofFloat f).floor else none

/-- The least integer not below a finite double, if 64 bits hold it. -/
def ceilInt? (f : Float) : Option Int64 :=
  if f.isFinite then int64? (-(Binary.ofFloat (-f)).floor) else none

/-! ## Arithmetic -/

/-- The arithmetic operators. -/
inductive Arith where
  | add | sub | mul | div | mod | pow | idiv | unm
deriving DecidableEq, Repr

/-- The bitwise operators. -/
inductive Bitwise where
  | band | bor | bxor | shl | shr | bnot
deriving DecidableEq, Repr

/-- Why an operation on integers has no result. -/
inductive IntFault where
  /-- a division by zero -/
  | divisionByZero
  /-- a remainder by zero -/
  | remainderByZero
deriving DecidableEq, Repr

/-- The sentence that describes the fault. -/
def IntFault.message : IntFault → String
  | .divisionByZero => "attempt to divide by zero"
  | .remainderByZero => "attempt to perform 'n%0'"

/-- An operation on integers; division and remainder round toward minus infinity. -/
def intArith (op : Arith) (a b : Int64) : Except IntFault Number :=
  match op with
  | .add => .ok (.int (a + b))
  | .sub => .ok (.int (a - b))
  | .mul => .ok (.int (a * b))
  | .idiv =>
    if b = 0 then .error .divisionByZero
    else .ok (.int (Int64.ofInt (Int.fdiv a.toInt b.toInt)))
  | .mod =>
    if b = 0 then .error .remainderByZero
    else .ok (.int (Int64.ofInt (Int.fmod a.toInt b.toInt)))
  | .unm => .ok (.int (-a))
  | .div => .ok (.float (Float.nearest a.toInt / Float.nearest b.toInt))
  | .pow => .ok (.float (Float.pow (Float.nearest a.toInt) (Float.nearest b.toInt)))

/-- The remainder of doubles, with the sign of the divisor. -/
def floatMod (a b : Float) : Float :=
  if a.isNaN || b.isNaN || a.isInf || b == 0.0 then 0.0 / 0.0
  else if b.isInf then
    if a == 0.0 || (0.0 < a) == (0.0 < b) then a else b
  else
    let r := (Binary.remainder (Binary.ofFloat a) (Binary.ofFloat b)).toFloat
    if r != 0.0 && (r < 0.0) != (b < 0.0) then r + b else r

/-- An operation on doubles. -/
def floatArith (op : Arith) (a b : Float) : Float :=
  match op with
  | .add => a + b
  | .sub => a - b
  | .mul => a * b
  | .div => a / b
  | .mod => floatMod a b
  | .pow => if b == 2.0 then a * a else Float.pow a b
  | .idiv => (a / b).floor
  | .unm => -a

/-- An operation on numbers: on integers if both are integers, else on doubles; division and power
are always of doubles. -/
def arith (op : Arith) : Number → Number → Except IntFault Number
  | .int a, .int b =>
    if op = .div ∨ op = .pow then
      .ok (.float (floatArith op (Float.nearest a.toInt) (Float.nearest b.toInt)))
    else intArith op a b
  | a, b => .ok (.float (floatArith op a.toFloat b.toFloat))

/-- A shift to the left; a negative amount shifts to the right, and bits that leave are lost. -/
def shiftLeft (a b : Int64) : Int64 :=
  let n := b.toInt
  let bits := a.toUInt64
  if n ≤ -64 ∨ 64 ≤ n then 0
  else if 0 ≤ n then (bits <<< UInt64.ofNat n.toNat).toInt64
  else (bits >>> UInt64.ofNat (-n).toNat).toInt64

/-- A bitwise operation on integers. -/
def bitwise (op : Bitwise) (a b : Int64) : Int64 :=
  match op with
  | .band => a &&& b
  | .bor => a ||| b
  | .bxor => a ^^^ b
  | .shl => shiftLeft a b
  | .shr => if b = Int64.minValue then 0 else shiftLeft a (-b)
  | .bnot => ~~~a

/-! ## Comparison -/

/-- Whether a double is equal to an integer, exactly. -/
def floatEqInt (f : Float) (i : Int64) : Bool :=
  f.isFinite && (Binary.ofFloat f).compareInt i.toInt == .eq

/-- Whether two numbers are equal, exactly. -/
def Number.equal : Number → Number → Bool
  | .int a, .int b => a == b
  | .float a, .float b => a == b
  | .int a, .float b => floatEqInt b a
  | .float a, .int b => floatEqInt a b

/-- How a double compares with an integer, exactly; NaN does not compare. -/
def compareFloatInt (f : Float) (i : Int64) : Option Ordering :=
  if f.isNaN then none
  else if f.isInf then some (if 0.0 < f then .gt else .lt)
  else some ((Binary.ofFloat f).compareInt i.toInt)

/-- Whether the first number is less than the second. -/
def Number.less : Number → Number → Bool
  | .int a, .int b => a < b
  | .float a, .float b => a < b
  | .int a, .float b => compareFloatInt b a == some .gt
  | .float a, .int b => compareFloatInt a b == some .lt

/-- Whether the first number is at most the second. -/
def Number.lessEq : Number → Number → Bool
  | .int a, .int b => a ≤ b
  | .float a, .float b => a ≤ b
  | .int a, .float b => (compareFloatInt b a).any (· != .lt)
  | .float a, .int b => (compareFloatInt a b).any (· != .gt)

end FeatureTransform.Lua
