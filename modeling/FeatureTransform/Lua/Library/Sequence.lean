import FeatureTransform.Lua.Library.Argument

/-!
# Tables as sequences

The functions that take a table as the sequence of its items, from position one to its length. They
read and write items as a program does, so metamethods take part.
-/

namespace FeatureTransform.Lua

namespace Sequence

/-- The argument that has to be a table, with its length. -/
def lengthOfFirst (inv : Invocation) : Eval (Value × Int64) := do
  let v := Value.table (← inv.table 1)
  return (v, ← inv.length v)

/-! ## Joining -/

/-- The bytes of so many items from a position on, with separators between them. -/
def joinFrom (inv : Invocation) (v : Value) (separator : ByteArray) :
    (count : Nat) → Int64 → ByteArray → Eval ByteArray
  | 0, _, joined => return joined
  | count + 1, i, joined => do
    match (← inv.item v i).toBytes? with
    | none =>
      inv.fail s!"invalid value (at index {Decimal.intString i.toInt}) in table for 'concat'"
    | some s =>
      Eval.reserve (joined.size + s.size)
      let joined := joined ++ s
      joinFrom inv v separator count (i + 1) (if count = 0 then joined else joined ++ separator)

/-- `table.concat` -/
def concat (inv : Invocation) : Eval (List Value) := do
  let (v, length) ← lengthOfFirst inv
  let separator ← inv.optional 2 .empty Invocation.string
  let first ← inv.optional 3 1 Invocation.integer
  let last ← inv.optional 4 length Invocation.integer
  let count := (last.toInt - first.toInt + 1).toNat
  return [.string (← joinFrom inv v separator count first .empty)]

/-! ## Moving items -/

/-- Copies so many items, first to last. -/
def copyUp (inv : Invocation) (source target : Value) :
    (count : Nat) → (start place : Int64) → Eval Unit
  | 0, _, _ => return
  | count + 1, i, j => do
    inv.setItem target j (← inv.item source i)
    copyUp inv source target count (i + 1) (j + 1)

/-- Copies so many items, last to first. -/
def copyDown (inv : Invocation) (source target : Value) :
    (count : Nat) → (last place : Int64) → Eval Unit
  | 0, _, _ => return
  | count + 1, i, j => do
    inv.setItem target j (← inv.item source i)
    copyDown inv source target count (i - 1) (j - 1)

/-- `table.insert` -/
def insert (inv : Invocation) : Eval (List Value) := do
  let (v, length) ← lengthOfFirst inv
  let free := length + 1
  match inv.arguments with
  | [_, x] =>
    inv.setItem v free x
    return []
  | [_, _, x] =>
    let position ← inv.integer 2
    inv.require ((position - 1).toUInt64 < free.toUInt64) 2 "position out of bounds"
    copyDown inv v v (free.toInt - position.toInt).toNat length free
    inv.setItem v position x
    return []
  | _ => inv.fail "wrong number of arguments to 'insert'"

/-- `table.remove` -/
def remove (inv : Invocation) : Eval (List Value) := do
  let (v, length) ← lengthOfFirst inv
  let position ← inv.optional 2 length Invocation.integer
  inv.require (position == length || (position - 1).toUInt64 ≤ length.toUInt64) 2
    "position out of bounds"
  let removed ← inv.item v position
  copyUp inv v v (length.toInt - position.toInt).toNat (position + 1) position
  inv.setItem v (if position < length then length else position) .nil
  return [removed]

/-- `table.move` -/
def move (inv : Invocation) : Eval (List Value) := do
  let first ← inv.integer 2
  let last ← inv.integer 3
  let place ← inv.integer 4
  let source := Value.table (← inv.table 1)
  let target ←
    match inv.argument 5 with
    | .nil => pure source
    | _ => Value.table <$> inv.table 5
  if first ≤ last then
    let greatest : Int := 0x7FFFFFFFFFFFFFFF
    inv.require (0 < first || last.toInt < greatest + first.toInt) 3 "too many elements to move"
    let count := last.toInt - first.toInt + 1
    inv.require (place.toInt ≤ greatest - count + 1) 4 "destination wrap around"
    let overlaps ←
      if last < place || place ≤ first then pure false
      else if inv.argument 5 == .nil then pure true
      else equal inv.call inv.spot source target
    if overlaps then
      copyDown inv source target count.toNat last (place + (last - first))
    else copyUp inv source target count.toNat first place
  return [target]

/-- `table.pack` -/
def pack (inv : Invocation) : Eval (List Value) := do
  let count := inv.arguments.length
  let t := (Table.sized count 1).setItems 1 inv.arguments
  return [.table (← Eval.newTable (t.setText "n" (.nat count)))]

/-- The items from a position on, so many. -/
def itemsFrom (inv : Invocation) (v : Value) : (count : Nat) → Int64 → Eval (List Value)
  | 0, _ => return []
  | count + 1, i => do
    let x ← inv.item v i
    let xs ← itemsFrom inv v count (i + 1)
    return x :: xs

/-- How many values a function can return. -/
def maxResults : Nat := 1000000

/-- `table.unpack` -/
def unpack (inv : Invocation) : Eval (List Value) := do
  let v := inv.argument 1
  let first ← inv.optional 2 1 Invocation.integer
  let last ←
    match inv.argument 3 with
    | .nil => inv.length v
    | _ => inv.integer 3
  let count := (last.toInt - first.toInt + 1).toNat
  if maxResults ≤ count then inv.fail "too many results to unpack"
  else itemsFrom inv v count first

/-! ## Sorting

Items are exchanged within the table. The first, the middle and the last item of a range are put
into order; the middle one then divides the others, and both parts are sorted in the same way. So
the order of items neither of which is less than the other follows from these exchanges alone. -/

/-- Whether an item has to stand before another. -/
def comesBefore (inv : Invocation) (a b : Value) : Eval Bool :=
  match inv.argument 2 with
  | .nil => lessThan inv.call inv.spot a b
  | f => (fun vs => (firstOf vs).isTrue) <$> inv.call f [a, b] (inv.spot.calling .unknown)

/-- Sets the items at two positions. -/
def setTwo (inv : Invocation) (v : Value) (i j : Int64) (atI atJ : Value) : Eval Unit := do
  inv.setItem v i atI
  inv.setItem v j atJ

/-- Exchanges the items at two positions if the second has to stand before the first. -/
def orderTwo (inv : Invocation) (v : Value) (i j : Int64) : Eval Bool := do
  let a ← inv.item v i
  let b ← inv.item v j
  if ← comesBefore inv b a then
    setTwo inv v i j b a
    return true
  else return false

/-- The next position from `i` on upwards whose item need not stand before the pivot, with the item.
-/
def scanUp (inv : Invocation) (v pivot : Value) (high i : Int64) : Eval (Int64 × Value) :=
  Eval.repeatedly (fun i => do
    let x ← inv.item v i
    if ← comesBefore inv x pivot then
      if i == high - 1 then inv.fail "invalid order function for sorting"
      else return .inl (i + 1)
    else return .inr (i, x)) i

/-- The next position from `j` on downwards before whose item the pivot need not stand, with the
item. `i` is where the scan upwards has stopped. -/
def scanDown (inv : Invocation) (v pivot : Value) (i j : Int64) : Eval (Int64 × Value) :=
  Eval.repeatedly (fun j => do
    let x ← inv.item v j
    if ← comesBefore inv pivot x then
      if j < i then inv.fail "invalid order function for sorting"
      else return .inl (j - 1)
    else return .inr (j, x)) j

/-- Divides the items between two positions by the pivot, which stands before the second; returns
where the pivot comes to stand. -/
def partition (inv : Invocation) (v pivot : Value) (low high : Int64) : Eval Int64 :=
  Eval.repeatedly (fun (i, j) => do
    let (i, x) ← scanUp inv v pivot high (i + 1)
    let (j, y) ← scanDown inv v pivot i (j - 1)
    if j < i then
      setTwo inv v (high - 1) i x pivot
      return .inr i
    else
      setTwo inv v i j y x
      return .inl (i, j)) (low, high - 1)

/-- Sorts the items between two positions. A range shrinks with every step, so `fuel` need not be
greater than the number of its items. -/
def sortBetween (inv : Invocation) (v : Value) : (fuel : Nat) → (low high : Int64) → Eval Unit
  | 0, _, _ => return
  | fuel + 1, low, high => do
    if low < high then
      let _ ← orderTwo inv v low high
      if high - low ≠ 1 then
        let middle := (low + high) / 2
        if !(← orderTwo inv v low middle) then
          let _ ← orderTwo inv v middle high
        if high - low ≠ 2 then
          let pivot ← inv.item v middle
          setTwo inv v middle (high - 1) (← inv.item v (high - 1)) pivot
          let p ← partition inv v pivot low high
          if p - low < high - p then
            sortBetween inv v fuel low (p - 1)
            sortBetween inv v fuel (p + 1) high
          else
            sortBetween inv v fuel (p + 1) high
            sortBetween inv v fuel low (p - 1)

/-- `table.sort` -/
def sort (inv : Invocation) : Eval (List Value) := do
  let (v, length) ← lengthOfFirst inv
  if 1 < length then
    inv.require (length.toInt < 0x7FFFFFFF) 1 "array too big"
    match inv.argument 2 with
    | .nil | .closure _ | .builtin _ => sortBetween inv v length.toInt.toNat 1 length
    | _ => inv.badType 2 "function"
  return []

end Sequence

end FeatureTransform.Lua
