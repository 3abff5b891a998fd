import FeatureTransform.Lua.Table
import Mathlib.Tactic

/-!
# Tables as lists of entries

A table holds some entries, in some order; what can be asked of it follows from them alone. The room
that it makes for positions bears on its length only when there are holes.
-/

namespace FeatureTransform.Lua

/-! ## Keys -/

theorem Key.toInt_nat {n : Nat} (hn : n < 2 ^ 63) : (Int64.ofNat n).toInt = n := by
  rw [Int64.toInt_ofNat_of_lt (by simpa using hn)]

theorem Key.text_inj {s s' : String} : Key.text s = Key.text s' ↔ s = s' := by
  rw [Key.text, Key.text, Key.string.injEq]
  exact String.toByteArray_inj

/-- Positions of 64 bits are told apart by their numbers. -/
theorem Key.nat_inj {m n : Nat} (hm : m < 2 ^ 63) (hn : n < 2 ^ 63) :
    Key.nat m = Key.nat n ↔ m = n := by
  constructor
  · intro h
    have hint : Int64.ofNat m = Int64.ofNat n := Key.int.inj h
    have := congrArg Int64.toInt hint
    rw [Key.toInt_nat hm, Key.toInt_nat hn] at this
    omega
  · rintro rfl
    rfl

/-! ## Room -/

namespace Layout

/-- The room for positions that is chosen is one of the sizes that are tried, none of which is
larger than this. -/
theorem bestSize_le (counts : Array Nat) (total slices p taken best : Nat) (hp : p + slices ≤ 28)
    (hbest : best ≤ 0x8000000) : bestSize counts total slices p taken best ≤ 0x8000000 := by
  induction slices generalizing p taken best with
  | zero => exact hbest
  | succ slices ih =>
    rw [bestSize]
    split
    · apply ih _ _ _ (by omega)
      split
      · have hpow : 2 ^ p ≤ 2 ^ 27 := Nat.pow_le_pow_right (by decide) (by omega)
        rw [Nat.one_shiftLeft]
        omega
      · exact hbest
    · exact hbest

/-- Making room for a key keeps to the bound on the positions. -/
theorem arraySize_make (layout : Layout) (live : Key → Bool) (key : Key)
    (h : layout.arraySize ≤ 0x8000000) : (layout.make live key).arraySize ≤ 0x8000000 := by
  unfold make
  split
  · exact h
  · split
    · exact h
    · simp only [rearrange, arrange]
      exact bestSize_le _ _ 28 0 0 0 (by decide) (by decide)

end Layout

/-! ## Entries -/

namespace Table

/-- The entries of a table, in some order, and room for no more positions than a table can have. -/
structure Holds (t : Table) (entries : List (Key × Value)) : Prop where
  /-- these are the entries -/
  perm : t.entries.toList.Perm entries
  /-- more positions than this are never counted -/
  room : t.layout.arraySize ≤ 0x8000000

theorem holds_empty : empty.Holds [] := by
  constructor
  · rw [empty, sized, Std.HashMap.toList_empty]
  · exact Nat.zero_le _

variable {t : Table} {entries : List (Key × Value)}

/-- Assigning a value puts it under its key; only no value would take the key away. -/
theorem set_of_ne_nil {key : Key} {v : Value} (hv : v ≠ .nil) :
    (t.set key v).entries = t.entries.insert key v := by
  unfold set
  split
  · contradiction
  · split
    · rfl
    · rfl

theorem arraySize_set {key : Key} {v : Value} (h : t.layout.arraySize ≤ 0x8000000) :
    (t.set key v).layout.arraySize ≤ 0x8000000 := by
  unfold set
  split
  · exact h
  · split
    · exact h
    · exact Layout.arraySize_make _ _ _ h

/-- **Look-up** after an assignment: `nil` is what a key without an entry has, too, so that this
holds for every value. -/
theorem get_set (t : Table) (key k : Key) (v : Value) :
    (t.set key v).get k = if key = k then v else t.get k := by
  by_cases hv : v = .nil
  · subst hv
    rw [set, get, Std.HashMap.getD_erase]
    by_cases hkey : key = k
    · rw [if_pos hkey, if_pos (beq_iff_eq.mpr hkey)]
    · rw [if_neg hkey, if_neg (by rwa [beq_iff_eq]), get]
  · rw [get, set_of_ne_nil hv, Std.HashMap.getD_insert]
    by_cases hkey : key = k
    · rw [if_pos hkey, if_pos (beq_iff_eq.mpr hkey)]
    · rw [if_neg hkey, if_neg (by rwa [beq_iff_eq]), get]

theorem getText_empty (name : String) : empty.getText name = .nil := by
  rw [getText, get, empty, sized, Std.HashMap.getD_empty]

/-- The same for the fields under names. -/
theorem getText_setText (t : Table) (name other : String) (v : Value) :
    (t.setText name v).getText other = if name = other then v else t.getText other := by
  rw [getText, setText, get_set]
  simp only [Key.text_inj]
  rfl

theorem metatable_set (t : Table) (key : Key) (v : Value) :
    (t.set key v).metatable = t.metatable := by
  unfold set
  split
  · rfl
  · split <;> rfl

theorem metatable_setText (t : Table) (name : String) (v : Value) :
    (t.setText name v).metatable = t.metatable :=
  metatable_set t (.text name) v

/-- A table has the keys of its entries and no others. -/
theorem Holds.contains (h : t.Holds entries) (key : Key) :
    t.has key = true ↔ key ∈ entries.map Prod.fst := by
  have hkeys : t.entries.keys.Perm (entries.map Prod.fst) := by
    rw [← Std.HashMap.map_fst_toList_eq_keys]
    exact h.perm.map _
  rw [has, Std.HashMap.contains_iff_mem, ← Std.HashMap.mem_keys]
  exact hkeys.mem_iff

/-- Under the key of an entry stands its value. -/
theorem Holds.get {key : Key} {v : Value} (h : t.Holds entries) (hmem : (key, v) ∈ entries) :
    t.get key = v := by
  have hsome : t.entries[key]? = some v :=
    Std.HashMap.mem_toList_iff_getElem?_eq_some.mp (h.perm.mem_iff.mpr hmem)
  rw [Table.get, Std.HashMap.getD_eq_getD_getElem?, hsome]
  rfl

/-- The entries are visited in some order, each once. Nothing more is known of the order. -/
theorem Holds.toList_perm (h : t.Holds entries) : t.toList.Perm entries :=
  (List.mergeSort_perm _ _).trans h.perm

theorem get_of_not_has {key : Key} (h : ¬t.has key = true) : t.get key = .nil := by
  rw [has, Std.HashMap.contains_iff_mem] at h
  rw [Table.get, Std.HashMap.getD_eq_getD_getElem?, Std.HashMap.getElem?_eq_none h]
  rfl

/-- A table is counted by its entries. -/
theorem Holds.size (h : t.Holds entries) : t.size = entries.length := by
  rw [Table.size, ← Std.HashMap.length_toList]
  exact h.perm.length_eq

/-- A new key adds an entry and changes no other. -/
theorem Holds.set (h : t.Holds entries) {key : Key} {v : Value} (hv : v ≠ .nil)
    (hkey : key ∉ entries.map Prod.fst) : (t.set key v).Holds (entries ++ [(key, v)]) := by
  constructor
  · rw [set_of_ne_nil hv]
    refine Std.HashMap.toList_insert_perm.trans ?_
    have hall : t.entries.toList.filter (fun e => ¬key == e.1) = t.entries.toList := by
      rw [List.filter_eq_self]
      rintro ⟨k, w⟩ he
      have hne : key ≠ k := by
        rintro rfl
        exact hkey (List.mem_map.mpr ⟨(key, w), h.perm.mem_iff.mp he, rfl⟩)
      simpa using hne
    have hperm := (h.perm.cons (key, v)).trans (List.perm_append_singleton (key, v) entries).symm
    rwa [← hall] at hperm
  · exact arraySize_set h.room

/-- Taking away a key that is not there changes nothing. -/
theorem Holds.set_nil (h : t.Holds entries) {key : Key} (hkey : key ∉ entries.map Prod.fst) :
    (t.set key .nil).Holds entries := by
  refine ⟨?_, arraySize_set h.room⟩
  refine (Std.HashMap.Equiv.toList_perm (Std.HashMap.Equiv.of_forall_getElem?_eq ?_)).trans h.perm
  intro k
  rw [Table.set, Std.HashMap.getElem?_erase]
  split
  · rename_i heq
    have hnot : key ∉ t.entries := fun hmem =>
      hkey ((h.contains key).mp (Std.HashMap.contains_iff_mem.mpr hmem))
    rw [← eq_of_beq heq, Std.HashMap.getElem?_eq_none hnot]
  · rfl

/-! ## Length -/

/-- The number is a border of the table: a position that holds a value, or zero, with nothing at the
next position. Behind the last position there is none. -/
structure IsBorder (t : Table) (n : Nat) : Prop where
  /-- it is a position, or zero -/
  le : n ≤ lastPosition
  /-- a position holds a value -/
  here : n = 0 ∨ t.has (.nat n) = true
  /-- the next one holds none -/
  behind : n = lastPosition ∨ t.has (.nat (n + 1)) = false

/-- Halving an interval leads to a border inside it: at the lower end there is always a value, at
the upper end none. -/
theorem isBorder_borderBetween (fuel low high : Nat) (hlow : low = 0 ∨ t.has (.nat low) = true)
    (hhigh : t.has (.nat high) = false) (hless : low < high) (hlast : high ≤ lastPosition)
    (hfuel : high - low ≤ 2 ^ fuel) : t.IsBorder (t.borderBetween fuel low high) := by
  -- the interval never shrinks to nothing: one position long, it is the border and what follows
  have hnext : high = low + 1 → t.IsBorder low := by
    rintro rfl
    exact ⟨by omega, hlow, .inr hhigh⟩
  induction fuel generalizing low high with
  | zero =>
    rw [borderBetween]
    exact hnext (by omega)
  | succ fuel ih =>
    rw [pow_succ] at hfuel
    rw [borderBetween]
    split
    · exact hnext (by omega)
    · simp only
      split
      · rename_i hmiddle
        refine ih _ _ (.inr hmiddle) hhigh (by omega) hlast (by omega) ?_
        intro heq
        exact ⟨by omega, .inr hmiddle, .inr (by rwa [← heq])⟩
      · rename_i hmiddle
        have hmiddle := eq_false_of_ne_true hmiddle
        refine ih _ _ hlow hmiddle (by omega) (by omega) (by omega) ?_
        intro heq
        exact ⟨by omega, hlow, .inr (by rwa [← heq])⟩

/-- Doubling a position that holds a value leads to a border beyond it, since no position comes
after the last one. -/
theorem isBorder_borderBeyond (fuel n : Nat) (hn : t.has (.nat n) = true) (hpos : 1 ≤ n)
    (hlast : n ≤ lastPosition) (hfuel : lastPosition < n * 2 ^ fuel) :
    t.IsBorder (t.borderBeyond fuel n) := by
  induction fuel generalizing n with
  | zero => omega
  | succ fuel ih =>
    -- the last position ends the doubling, and between two positions the border is searched
    have hwidth : lastPosition < 2 ^ 64 := by decide
    rw [borderBeyond]
    split
    · split
      · rename_i hend
        exact ⟨Nat.le_refl _, .inr hend, .inl rfl⟩
      · rename_i hend
        have hend := eq_false_of_ne_true hend
        have hne : n ≠ lastPosition := by
          rintro rfl
          rw [hn] at hend
          cases hend
        exact isBorder_borderBetween 64 n _ (.inr hn) hend (by omega) (Nat.le_refl _) (by omega)
    · split
      · rename_i hdouble
        refine ih _ hdouble (by omega) (by omega) ?_
        calc lastPosition < n * 2 ^ (fuel + 1) := hfuel
          _ = 2 * n * 2 ^ fuel := by ring
      · rename_i hdouble
        have hdouble := eq_false_of_ne_true hdouble
        exact isBorder_borderBetween 64 n _ (.inr hn) hdouble (by omega) (by omega) (by omega)

/-- **Length.** It is a border, whatever room the table has. Which one of several it is depends on
the room. -/
theorem isBorder_length (hroom : t.layout.arraySize ≤ 0x8000000) : t.IsBorder t.length := by
  have hlast : lastPosition = 0x7FFFFFFFFFFFFFFF := rfl
  unfold length
  simp only
  split
  · -- the last place of the array part is empty: the border is in it
    rename_i hopen
    obtain ⟨hne, hnot⟩ := hopen
    have hlimit : t.has (.nat t.layout.arraySize) = false := by simpa using hnot
    -- the place before the last may hold a value; if not, the array part is searched by halving
    split
    · rename_i hbefore
      refine ⟨by omega, .inr hbefore.2, .inr ?_⟩
      rwa [Nat.sub_add_cancel (by omega)]
    · exact isBorder_borderBetween 64 0 _ (.inl rfl) hlimit (by omega) (by omega) (by omega)
  · -- the array part is full: the border is at its end or beyond it
    rename_i hfull
    have hlimit : t.layout.arraySize = 0 ∨ t.has (.nat t.layout.arraySize) = true := by
      by_contra hnot
      rw [not_or] at hnot
      exact hfull ⟨hnot.1, by simpa using hnot.2⟩
    -- with a value behind the array part the search goes on in the other part
    split
    · rename_i hnext
      refine isBorder_borderBeyond 63 _ ?_ (by omega) (by omega) ?_
      · rcases hlimit with hzero | hhas
        · rw [hzero] at hnext ⊢
          exact hnext
        · by_cases hzero : t.layout.arraySize = 0
          · rw [hzero] at hnext ⊢
            exact hnext
          · rwa [max_eq_left (by omega)]
      · have hone : 1 ≤ max t.layout.arraySize 1 := by omega
        calc lastPosition < 1 * 2 ^ 63 := by decide
          _ ≤ max t.layout.arraySize 1 * 2 ^ 63 := Nat.mul_le_mul_right _ hone
    · rename_i hnext
      exact ⟨by omega, hlimit, .inr (eq_false_of_ne_true hnext)⟩

/-- The positions that hold a value are those up to `n`. -/
def IsSequence (t : Table) (n : Nat) : Prop :=
  ∀ k, k ≤ lastPosition → (t.has (.nat k) = true ↔ 1 ≤ k ∧ k ≤ n)

/-- A table without holes has one border, so that here the room does not matter. -/
theorem IsSequence.border_eq {n b : Nat} (h : t.IsSequence n) (hn : n ≤ lastPosition)
    (hb : t.IsBorder b) : b = n := by
  have hle : b ≤ n := by
    rcases hb.here with hzero | hhere
    · omega
    · exact ((h b hb.le).mp hhere).2
  have hge : n ≤ b := by
    rcases hb.behind with hlast | hbehind
    · omega
    · by_contra hless
      have hhas := (h (b + 1) (by omega)).mpr (by omega)
      rw [hbehind] at hhas
      cases hhas
  omega

/-- The length of a table without holes is the number of its positions. -/
theorem length_eq {n : Nat} (h : t.IsSequence n) (hn : n ≤ lastPosition)
    (hroom : t.layout.arraySize ≤ 0x8000000) : t.length = n :=
  h.border_eq hn (isBorder_length hroom)

/-! ## Tables of items and of members -/

/-- Values with the positions from `n` on. -/
def positions : Nat → List Value → List (Key × Value)
  | _, [] => []
  | n, v :: rest => (.nat n, v) :: positions (n + 1) rest

theorem length_positions (n : Nat) (vs : List Value) : (positions n vs).length = vs.length := by
  induction vs generalizing n with
  | nil => rfl
  | cons v rest ih => rw [positions, List.length_cons, List.length_cons, ih]

theorem mem_positions {n k : Nat} {v : Value} {vs : List Value} (h : vs[k]? = some v) :
    (Key.nat (n + k), v) ∈ positions n vs := by
  induction vs generalizing n k with
  | nil => simp at h
  | cons w rest ih =>
    rw [positions]
    cases k with
    | zero =>
      simp only [List.getElem?_cons_zero, Option.some.injEq] at h
      simp [h]
    | succ k =>
      have hrest := ih (n := n + 1) (by simpa using h)
      rw [show n + 1 + k = n + (k + 1) by omega] at hrest
      exact List.mem_cons_of_mem _ hrest

theorem nat_mem_positions {n k : Nat} {vs : List Value} (hn : n + vs.length ≤ 2 ^ 63)
    (hk : k < 2 ^ 63) :
    Key.nat k ∈ (positions n vs).map Prod.fst ↔ n ≤ k ∧ k < n + vs.length := by
  induction vs generalizing n with
  | nil =>
    simp only [positions, List.map_nil, List.not_mem_nil, List.length_nil, false_iff]
    omega
  | cons v rest ih =>
    rw [List.length_cons] at hn ⊢
    rw [positions, List.map_cons, List.mem_cons, ih (by omega), Key.nat_inj hk (by omega)]
    omega

/-- A table of items is as long as there are items. -/
theorem Holds.length_positions {vs : List Value} (h : t.Holds (positions 1 vs))
    (hlength : vs.length < 2 ^ 63) : t.length = vs.length := by
  have hlast : lastPosition = 2 ^ 63 - 1 := rfl
  apply length_eq _ (by omega) h.room
  intro k hk
  rw [h.contains, nat_mem_positions (by omega) (by omega)]
  omega

/-- A table without positions has length zero, however many names it has. -/
theorem Holds.length_names (h : t.Holds entries)
    (hnames : ∀ e ∈ entries, ∃ name, e.1 = Key.text name) : t.length = 0 := by
  apply length_eq _ (by decide) h.room
  intro k _
  rw [h.contains]
  constructor
  · intro hmem
    obtain ⟨e, he, hkey⟩ := List.mem_map.mp hmem
    obtain ⟨name, hname⟩ := hnames e he
    rw [hname] at hkey
    cases hkey
  · omega

/-- The items of a table that was filled with them come back in their order. -/
theorem Holds.getNat {vs : List Value} (h : t.Holds (positions 1 vs)) :
    (List.range vs.length).map (fun n => t.getNat (n + 1)) = vs := by
  apply List.ext_getElem
  · simp
  · intro k hk hk'
    have hmem := mem_positions (n := 1) (List.getElem?_eq_getElem hk')
    rw [Nat.add_comm 1 k] at hmem
    simp only [List.getElem_map, List.getElem_range]
    exact h.get hmem

end Table

end FeatureTransform.Lua
