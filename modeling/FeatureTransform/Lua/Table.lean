import FeatureTransform.Lua.Value
import Std.Data.HashMap

/-!
# Tables of Lua

A table is a finite map from keys to values other than `nil`. Its length is a border: a position
that holds a value and is followed by one that holds none. A table with holes has several borders;
which of them is its length, and in which order its entries are visited, follows from how many
positions and how many further keys room was made for: the positions up to `arraySize` are visited
first, the other keys in the order in which they came. When a new key finds no room, room is made
for as many positions that more than half of them are taken, and for the other keys up to the next
power of two.
-/

namespace FeatureTransform.Lua

/-- The room of a table. -/
structure Layout where
  /-- how many positions there is room for -/
  arraySize : Nat
  /-- how many other keys there is room for -/
  capacity : Nat
  /-- the other keys in the order in which they came; some may have lost their value -/
  slots : Array Key
  /-- where in `slots` a key stands -/
  rank : Std.HashMap Key Nat

/-- A table. -/
structure Table where
  /-- its entries; none of the values is `nil` -/
  entries : Std.HashMap Key Value
  /-- its room -/
  layout : Layout
  /-- the table that says how it behaves, if there is one -/
  metatable : Option Nat

namespace Layout

/-- The least power of two that is at least `n`; none for zero. -/
def roundUp (n : Nat) : Nat :=
  if n = 0 then 0 else if n = 1 then 1 else 1 <<< ((n - 1).log2 + 1)

/-- Room for so many positions and so many other keys. -/
def sized (positions others : Nat) : Layout :=
  { arraySize := positions, capacity := roundUp others, slots := #[], rank := ∅ }

/-- Whether a key is a position that there is room for. -/
def isPosition (layout : Layout) : Key → Bool
  | .int i => 1 ≤ i.toInt && i.toInt ≤ layout.arraySize
  | _ => false

/-- The keys that there is room for and that satisfy `live`, in order. -/
def liveKeys (layout : Layout) (live : Key → Bool) : Array Key :=
  let positions := (Array.range layout.arraySize).map fun n => Key.nat (n + 1)
  (positions ++ layout.slots).filter live

/-- The power of two by which a position is counted: the least `p` with `n ≤ 2 ^ p`. -/
def slice (n : Nat) : Nat := if n ≤ 1 then 0 else (n - 1).log2 + 1

/-- How many of the keys are positions in each slice. -/
def census (keys : Array Key) : Array Nat :=
  keys.foldl (fun counts key =>
    match key with
    | .int i =>
      -- positions beyond are other keys in any case
      if 1 ≤ i.toInt && i.toInt ≤ 0x8000000 then counts.modify (slice i.toInt.toNat) (· + 1)
      else counts
    | _ => counts) (Array.replicate 28 0)

/-- The greatest power of two such that more than half of the positions up to it are taken.
`taken` counts the positions before slice `p`, `total` all of them. -/
def bestSize (counts : Array Nat) (total : Nat) : (slices p taken best : Nat) → Nat
  | 0, _, _, best => best
  | slices + 1, p, taken, best =>
    if 1 <<< p < 2 * total then
      let taken := taken + counts.getD p 0
      bestSize counts total slices (p + 1) taken (if 1 <<< p < 2 * taken then 1 <<< p else best)
    else best

/-- The layout with these keys and no others, in this order, and room for so many positions. -/
def arrange (positions capacity : Nat) (keys : Array Key) : Layout :=
  let empty : Layout := { arraySize := positions, capacity := capacity, slots := #[], rank := ∅ }
  let others := keys.filter fun key => !empty.isPosition key
  { empty with
    slots := others
    rank := others.foldl (fun rank key => rank.insert key rank.size) ∅ }

/-- New room for the live keys of a layout and one more. -/
def rearrange (layout : Layout) (live : Key → Bool) (key : Key) : Layout :=
  let keys := (layout.liveKeys live).push key
  let counts := census keys
  let positions := bestSize counts (counts.foldl (· + ·) 0) 28 0 0 0
  let others := keys.countP fun key =>
    match key with
    | .int i => !(1 ≤ i.toInt && i.toInt ≤ positions)
    | _ => true
  arrange positions (roundUp others) keys

/-- The layout with room for a key that may be new. -/
def make (layout : Layout) (live : Key → Bool) (key : Key) : Layout :=
  -- a key that has lost its value still has its slot and takes it again
  if layout.isPosition key || layout.rank.contains key then layout
  else if layout.slots.size < layout.capacity then
    { layout with
      slots := layout.slots.push key
      rank := layout.rank.insert key layout.slots.size }
  else layout.rearrange live key

end Layout

namespace Table

/-- The table without entries, with room for so many positions and so many other keys. -/
def sized (positions others : Nat) : Table :=
  { entries := ∅, layout := .sized positions others, metatable := none }

/-- The table without entries. -/
def empty : Table := sized 0 0

/-- The value of a key; `nil` where there is none. -/
def get (t : Table) (key : Key) : Value := t.entries.getD key .nil

/-- Whether a key has a value. -/
def has (t : Table) (key : Key) : Bool := t.entries.contains key

/-- The value of a name. -/
def getText (t : Table) (name : String) : Value := t.get (.text name)

/-- The value at a position. -/
def getNat (t : Table) (n : Nat) : Value := t.get (.nat n)

/-- The table with the value of a key set; `nil` takes it away. -/
def set (t : Table) (key : Key) (v : Value) : Table :=
  match v with
  -- the room stays as it is until a new key needs some
  | .nil => { t with entries := t.entries.erase key }
  | v =>
    if t.entries.contains key then { t with entries := t.entries.insert key v }
    else
      let layout := t.layout.make t.entries.contains key
      { t with layout := layout, entries := t.entries.insert key v }

/-- The table with the value of a name set. -/
def setText (t : Table) (name : String) (v : Value) : Table := t.set (.text name) v

/-- The number of entries. -/
def size (t : Table) : Nat := t.entries.size

/-- The table with room for at least so many positions. -/
def growPositions (t : Table) (positions : Nat) : Table :=
  if positions ≤ t.layout.arraySize then t
  else
    { t with
      layout :=
        Layout.arrange positions t.layout.capacity (t.layout.liveKeys t.entries.contains) }

/-- The table with values at the positions from `n` on. -/
def setItems (t : Table) (n : Nat) : List Value → Table
  | [] => t
  | v :: rest => (t.set (.nat n) v).setItems (n + 1) rest

/-! ## Length -/

/-- A border between `low`, which holds a value or is zero, and `high`, which holds none. -/
def borderBetween (t : Table) : (fuel low high : Nat) → Nat
  | 0, low, _ => low
  | fuel + 1, low, high =>
    if high - low ≤ 1 then low
    else
      let middle := (low + high) / 2
      if t.has (.nat middle) then borderBetween t fuel middle high
      else borderBetween t fuel low middle

/-- The last position that there can be. -/
def lastPosition : Nat := 0x7FFFFFFFFFFFFFFF

/-- A border beyond `n`, which holds a value; the step doubles until an empty position is met, or
the last one. -/
def borderBeyond (t : Table) : (fuel n : Nat) → Nat
  | 0, n => n
  | fuel + 1, n =>
    if lastPosition < 2 * n then
      if t.has (.nat lastPosition) then lastPosition else borderBetween t 64 n lastPosition
    else if t.has (.nat (2 * n)) then borderBeyond t fuel (2 * n)
    else borderBetween t 64 n (2 * n)

/-- The length of the table: one of its borders. -/
def length (t : Table) : Nat :=
  let limit := t.layout.arraySize
  if limit ≠ 0 ∧ !t.has (.nat limit) then
    -- the last place is empty, so there is a border before it
    if 2 ≤ limit ∧ t.has (.nat (limit - 1)) then limit - 1 else borderBetween t 64 0 limit
  -- the last place is taken, or there is none: the other keys may go on with it
  else if t.has (.nat (limit + 1)) then borderBeyond t 63 (max limit 1)
  else limit

/-! ## Traversal -/

/-- The first entry at or behind a place in the other keys. -/
def entryFromSlot (t : Table) : (fuel slot : Nat) → Option (Key × Value)
  | 0, _ => none
  | fuel + 1, slot =>
    match t.layout.slots[slot]? with
    | none => none
    | some key =>
      match t.entries[key]? with
      | some v => some (key, v)
      | none => entryFromSlot t fuel (slot + 1)

/-- The first entry at or behind a position. -/
def entryFromPosition (t : Table) : (fuel n : Nat) → Option (Key × Value)
  | 0, _ => t.entryFromSlot (t.layout.slots.size + 1) 0
  | fuel + 1, n =>
    if t.layout.arraySize < n then t.entryFromSlot (t.layout.slots.size + 1) 0
    else
      match t.entries[Key.nat n]? with
      | some v => some (.nat n, v)
      | none => entryFromPosition t fuel (n + 1)

/-- The first entry. -/
def first? (t : Table) : Option (Key × Value) := t.entryFromPosition (t.layout.arraySize + 1) 1

/-- The entry behind a key, if there is one; nothing at all for a key that the table never had. -/
def after? (t : Table) (key : Key) : Option (Option (Key × Value)) :=
  match key with
  | .int i =>
    if 1 ≤ i.toInt ∧ i.toInt ≤ t.layout.arraySize then
      some (t.entryFromPosition (t.layout.arraySize + 1) (i.toInt.toNat + 1))
    else
      -- a key whose value was taken away during the traversal is still known by its slot
      (t.layout.rank[key]?).map fun slot => t.entryFromSlot (t.layout.slots.size + 1) (slot + 1)
  | key =>
    (t.layout.rank[key]?).map fun slot => t.entryFromSlot (t.layout.slots.size + 1) (slot + 1)

/-- Where a key is visited. -/
def place (t : Table) (key : Key) : Nat :=
  match key with
  | .int i =>
    if 1 ≤ i.toInt ∧ i.toInt ≤ t.layout.arraySize then i.toInt.toNat
    else t.layout.arraySize + 1 + t.layout.rank.getD key 0
  | key => t.layout.arraySize + 1 + t.layout.rank.getD key 0

/-- The entries in the order in which they are visited. -/
def toList (t : Table) : List (Key × Value) :=
  t.entries.toList.mergeSort fun a b => t.place a.1 ≤ t.place b.1

end Table

end FeatureTransform.Lua
