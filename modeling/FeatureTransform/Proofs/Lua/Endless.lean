import FeatureTransform.Proofs.Lua.Interchange

/-!
# When the JSON form of a value ends

The JSON form of a value is made by following what its tables hold, without a look at where it has
been. It comes to an end, with a form or an error, unless on the way it gets back to a table that it
is inside of; then it goes around for ever. A table is entered only if everything in front of it has
a form, since the first error is the end of the whole.

The bound on the steps is no bound on what ends: whatever ends at all ends within as many steps as
there are tables.
-/

namespace FeatureTransform

namespace Lua.Interchange

variable {store : Store} {fuel more steps : Nat} {v w : Value}

/-! ## Steps -/

/-- The value has a JSON form. -/
def HasForm (store : Store) (v : Value) : Prop := ∃ fuel json, encodeWithin store fuel v = .ok json

/-- A value that is come to on the way through another: an item or the value of a member, where
everything in front of it has a form. -/
inductive Enters (store : Store) : Value → Value → Prop
  /-- an item -/
  | item {ref : Nat} {t : Table} {v : Value} {front back : List Value}
      (found : store.tables[ref]? = some t) (listed : isArray store t = .ok true)
      (items : itemsOf t = front ++ v :: back) (before : ∀ x ∈ front, HasForm store x) :
      Enters store (.table ref) v
  /-- the value of a member -/
  | member {ref : Nat} {t : Table} {key : Key} {v : Value} {name : String}
      {front back : List (Key × Value)}
      (found : store.tables[ref]? = some t) (listed : isArray store t = .ok false)
      (entries : t.toList = front ++ (key, v) :: back) (named : memberName? key = .ok (some name))
      (before : ∀ e ∈ front, memberName? e.1 = .ok none ∨
        (∃ name, memberName? e.1 = .ok (some name)) ∧ HasForm store e.2) :
      Enters store (.table ref) v

section Members

variable {encode : Value → Except Obstacle Json} {e : Key × Value} {name : String}

theorem memberOf?_named (h : memberName? e.1 = .ok (some name)) :
    memberOf? encode e = (do return some (name, ← encode e.2)) := by
  rw [memberOf?, h]
  rfl

theorem memberOf?_nameless (h : memberName? e.1 = .ok none) : memberOf? encode e = .ok none := by
  rw [memberOf?, h]
  rfl

theorem memberOf?_error {cause : HostError} (h : memberName? e.1 = .error cause) :
    memberOf? encode e = .error (.host cause) := by
  rw [memberOf?, h]
  rfl

/-- Only the value of a member can take for ever, and only if its key has a name: the key is looked
at first. -/
theorem memberOf?_endless (h : memberOf? encode e = .error .endless) :
    (∃ name, memberName? e.1 = .ok (some name)) ∧ encode e.2 = .error .endless := by
  cases hname : memberName? e.1 with
  | error cause =>
    rw [memberOf?_error hname] at h
    cases h
  | ok name? =>
    cases name? with
    | none =>
      rw [memberOf?_nameless hname] at h
      cases h
    | some name =>
      rw [memberOf?_named hname] at h
      rcases Attempt.bind_eq_error h with hvalue | ⟨json, -, h⟩
      · exact ⟨⟨name, rfl⟩, hvalue⟩
      · cases h

theorem memberOf?_done {m : Option (String × Json)} (h : memberOf? encode e = .ok m) :
    memberName? e.1 = .ok none ∨
      (∃ name, memberName? e.1 = .ok (some name)) ∧ ∃ json, encode e.2 = .ok json := by
  cases hname : memberName? e.1 with
  | error cause =>
    rw [memberOf?_error hname] at h
    cases h
  | ok name? =>
    cases name? with
    | none => exact .inl rfl
    | some name =>
      rw [memberOf?_named hname] at h
      obtain ⟨json, hjson, -⟩ := Attempt.bind_eq_ok h
      exact .inr ⟨⟨name, rfl⟩, json, hjson⟩

/-- A member is made alike by two makers that agree on its value, unless that takes for ever. -/
theorem memberOf?_congr {other : Value → Except Obstacle Json}
    (h : memberOf? encode e ≠ .error .endless)
    (hsame : encode e.2 ≠ .error .endless → other e.2 = encode e.2) :
    memberOf? other e = memberOf? encode e := by
  cases hname : memberName? e.1 with
  | error cause => rw [memberOf?_error hname, memberOf?_error hname]
  | ok name? =>
    cases name? with
    | none => rw [memberOf?_nameless hname, memberOf?_nameless hname]
    | some name =>
      rw [memberOf?_named hname] at h
      rw [memberOf?_named hname, memberOf?_named hname, hsame]
      intro hvalue
      rw [hvalue] at h
      exact h rfl

end Members

/-- A number that stands for no table is the empty table. No value that a program makes has such a
number; the case keeps the function total. -/
theorem encodeWithin_absent {ref : Nat} (h : store.tables[ref]? = none) (fuel : Nat) :
    encodeWithin store (fuel + 1) (.table ref) = .ok (.object []) := by
  have hsize : Table.empty.size = 0 := Table.holds_empty.size
  have hlength : Table.empty.length = 0 := Table.holds_empty.length_names (by simp)
  have hlisted : isArray store .empty = .ok false := isArray_of_empty hsize hlength
  have hentries : Table.empty.toList = [] := List.perm_nil.mp Table.holds_empty.toList_perm
  rw [encodeWithin, h, Option.getD_none]
  simp only
  rw [hlisted, hentries]
  rfl

/-- All that is not a table is done in one step, with a form or an error. -/
theorem encodeWithin_atom (hv : ∀ ref, v ≠ .table ref) (fuel : Nat) :
    encodeWithin store (fuel + 1) v ≠ .error .endless ∧
      encodeWithin store (fuel + 1) v = encodeWithin store 1 v := by
  cases v with
  | table ref => exact absurd rfl (hv ref)
  | number n => cases n <;> simp [encodeWithin]
  | string s =>
    rw [encodeWithin, encodeWithin]
    refine ⟨?_, rfl⟩
    intro h
    cases htext : utf8Text .str s <;> rw [htext] at h <;> cases h
  | _ => simp [encodeWithin]

/-- The ways in which a form is made: at once, or as that of a table. -/
inductive Making (store : Store) : Value → Prop
  /-- what is no table -/
  | atom {v : Value} (plain : ∀ ref, v ≠ .table ref) : Making store v
  /-- a table that is not there -/
  | absent {ref : Nat} (found : store.tables[ref]? = none) : Making store (.table ref)
  /-- a table with a mark that is no text -/
  | faulty {ref : Nat} {t : Table} {e : HostError} (found : store.tables[ref]? = some t)
      (listed : isArray store t = .error e) : Making store (.table ref)
  /-- a table in the form of an array -/
  | array {ref : Nat} {t : Table} (found : store.tables[ref]? = some t)
      (listed : isArray store t = .ok true) : Making store (.table ref)
  /-- a table in the form of an object -/
  | object {ref : Nat} {t : Table} (found : store.tables[ref]? = some t)
      (listed : isArray store t = .ok false) : Making store (.table ref)

/-- There are no other ways to make a form than these two. -/
theorem making (store : Store) (v : Value) : Making store v := by
  by_cases hv : ∀ ref, v ≠ .table ref
  · exact .atom hv
  · obtain ⟨ref, rfl⟩ : ∃ ref, v = .table ref := by simpa using hv
    cases hfound : store.tables[ref]? with
    | none => exact .absent hfound
    | some t =>
      cases hlisted : isArray store t with
      | error e => exact .faulty hfound hlisted
      | ok listed =>
        cases listed with
        | true => exact .array hfound hlisted
        | false => exact .object hfound hlisted

/-- **More steps** change nothing of what is done. The recursion is that of the steps, through the
items or the members of a table. -/
theorem encodeWithin_succ (h : encodeWithin store fuel v ≠ .error .endless) :
    encodeWithin store (fuel + 1) v = encodeWithin store fuel v := by
  induction fuel generalizing v with
  | zero => exact absurd rfl h
  | succ fuel ih =>
    cases making store v with
    | atom hv => rw [(encodeWithin_atom hv (fuel + 1)).2, (encodeWithin_atom hv fuel).2]
    | absent hfound => rw [encodeWithin_absent hfound, encodeWithin_absent hfound]
    | faulty hfound hlisted =>
      rw [encodeWithin_error hfound hlisted, encodeWithin_error hfound hlisted]
    | @array ref t hfound hlisted =>
      rw [encodeWithin_array hfound hlisted] at h
      rw [encodeWithin_array hfound hlisted, encodeWithin_array hfound hlisted]
      -- an item that takes for ever would have been the end of the whole
      have hitems : (itemsOf t).mapM (encodeWithin store fuel) ≠ .error .endless := by
        intro hitems
        rw [hitems] at h
        exact h rfl
      rw [Attempt.mapM_congr_of_ne hitems fun x _ hx => ih hx]
    | @object ref t hfound hlisted =>
      rw [encodeWithin_object hfound hlisted] at h
      rw [encodeWithin_object hfound hlisted, encodeWithin_object hfound hlisted]
      have hmembers : t.toList.mapM (memberOf? (encodeWithin store fuel)) ≠ .error .endless := by
        intro hmembers
        rw [hmembers] at h
        exact h rfl
      rw [Attempt.mapM_congr_of_ne hmembers fun e _ he => memberOf?_congr he fun hx => ih hx]

theorem encodeWithin_mono (h : encodeWithin store fuel v ≠ .error .endless) (hmore : fuel ≤ more) :
    encodeWithin store more v = encodeWithin store fuel v := by
  induction more, hmore using Nat.le_induction with
  | base => rfl
  | succ more _ ih => rw [encodeWithin_succ (by rwa [ih]), ih]

/-- A value that has a form has no other, and no error: with too few steps it is not done, and with
enough it has its form. -/
theorem HasForm.cases (h : HasForm store v) (fuel : Nat) :
    encodeWithin store fuel v = .error .endless ∨ ∃ json, encodeWithin store fuel v = .ok json := by
  obtain ⟨enough, json, hjson⟩ := h
  by_cases hends : encodeWithin store fuel v = .error .endless
  · exact .inl hends
  · right
    refine ⟨json, ?_⟩
    rcases Nat.le_total fuel enough with hle | hle
    · rw [← encodeWithin_mono hends hle, hjson]
    · rw [encodeWithin_mono (by simp [hjson]) hle, hjson]

/-! ## Ways in -/

/-- What takes for ever does so in something that is entered, namely in the first of its parts that
does. -/
theorem exists_enters (h : encodeWithin store (fuel + 1) v = .error .endless) :
    ∃ w, Enters store v w ∧ encodeWithin store fuel w = .error .endless := by
  -- only what stands inside a list or an object is encoded with less fuel
  cases making store v with
  | atom hv => exact absurd h (encodeWithin_atom hv fuel).1
  | absent hfound =>
    rw [encodeWithin_absent hfound] at h
    cases h
  | faulty hfound hlisted =>
    rw [encodeWithin_error hfound hlisted] at h
    cases h
  | array hfound hlisted =>
    rw [encodeWithin_array hfound hlisted] at h
    rcases Attempt.bind_eq_error h with h | ⟨items, -, h⟩
    · obtain ⟨front, w, back, hitems, hfront, hw⟩ := Attempt.mapM_eq_error h
      exact ⟨w, .item hfound hlisted hitems fun x hx => ⟨fuel, hfront x hx⟩, hw⟩
    · cases h
  | object hfound hlisted =>
    rw [encodeWithin_object hfound hlisted] at h
    rcases Attempt.bind_eq_error h with h | ⟨members, -, h⟩
    · obtain ⟨front, ⟨key, w⟩, back, hentries, hfront, he⟩ := Attempt.mapM_eq_error h
      obtain ⟨⟨name, hname⟩, hw⟩ := memberOf?_endless he
      refine ⟨w, .member hfound hlisted hentries hname fun e he => ?_, hw⟩
      obtain ⟨m, hm⟩ := hfront e he
      exact (memberOf?_done hm).imp_right fun h => ⟨h.1, fuel, h.2⟩
    · cases h

/-- What is entered takes a step less than what it is entered from. -/
theorem Enters.endless (h : Enters store v w) (hw : encodeWithin store fuel w = .error .endless) :
    encodeWithin store (fuel + 1) v = .error .endless := by
  cases h with
  | item hfound hlisted hitems hfront =>
    rw [encodeWithin_array hfound hlisted, hitems,
      Attempt.mapM_append_error hw fun x hx => (hfront x hx).cases fuel]
    rfl
  | @member ref t key w name front back hfound hlisted hentries hname hfront =>
    have hmember : memberOf? (encodeWithin store fuel) (key, w) = .error .endless := by
      rw [memberOf?_named hname, hw]
      rfl
    -- the entries in front are made or have no name, so that this one is come to
    rw [encodeWithin_object hfound hlisted, hentries, Attempt.mapM_append_error hmember ?_]
    · rfl
    · intro e he
      rcases hfront e he with hnameless | ⟨⟨other, hother⟩, hform⟩
      · exact .inr ⟨none, memberOf?_nameless hnameless⟩
      · rw [memberOf?_named hother]
        rcases hform.cases fuel with hx | ⟨json, hx⟩
        · exact .inl (by rw [hx]; rfl)
        · exact .inr ⟨some (other, json), by rw [hx]; rfl⟩

/-- Only what is there is entered from, and only tables have anything to be entered. -/
theorem Enters.there (h : Enters store v w) : ∃ ref < store.tables.size, v = .table ref := by
  cases h with
  | item hfound _ _ _ => exact ⟨_, (Array.getElem?_eq_some_iff.mp hfound).1, rfl⟩
  | member hfound _ _ _ _ => exact ⟨_, (Array.getElem?_eq_some_iff.mp hfound).1, rfl⟩

/-! ## How many steps -/

/-- The number of steps that the form of a value takes behind the first. -/
structure Takes (store : Store) (steps : Nat) (v : Value) : Prop where
  /-- with one step more than that it is done -/
  done : encodeWithin store (steps + 1) v ≠ .error .endless
  /-- with that many it is not -/
  before : encodeWithin store steps v = .error .endless

theorem Takes.le (h : Takes store steps v) (hends : encodeWithin store more v ≠ .error .endless) :
    steps < more := by
  by_contra hle
  have hmono := encodeWithin_mono hends (show more ≤ steps by omega)
  rw [h.before] at hmono
  exact hends hmono.symm

/-- A value takes as many steps as it takes, and no other number. -/
theorem Takes.unique (h : Takes store steps v) (h' : Takes store more v) : steps = more := by
  have hle := h.le h'.done
  have hge := h'.le h.done
  omega

/-- What takes a further step enters something that takes one step less: the part that has not been
done in time. -/
theorem Takes.enters (h : Takes store (steps + 1) v) :
    ∃ w, Enters store v w ∧ Takes store steps w := by
  obtain ⟨w, hw, hbefore⟩ := exists_enters h.before
  exact ⟨w, hw, fun hdone => h.done (hw.endless hdone), hbefore⟩

/-- On the way to the bottom there is something for every smaller number of steps, as each entry
takes one less. -/
theorem Takes.exists_of_le (h : Takes store steps v) (hless : fuel ≤ steps) :
    ∃ w, Takes store fuel w := by
  induction steps generalizing v with
  | zero => exact ⟨v, by rwa [Nat.le_zero.mp hless]⟩
  | succ steps ih =>
    by_cases heq : fuel = steps + 1
    · exact ⟨v, by rwa [heq]⟩
    · obtain ⟨w, -, hw⟩ := h.enters
      exact ih hw (by omega)

/-- **Steps.** No value takes more of them than there are tables, since no two tables on the way to
the bottom take as many as each other. -/
theorem Takes.le_size (h : Takes store steps v) : steps ≤ store.tables.size := by
  have hall : ∀ k : Fin steps, ∃ ref : Fin store.tables.size, Takes store (k + 1) (.table ref) := by
    intro k
    obtain ⟨w, hw⟩ := h.exists_of_le (show k + 1 ≤ steps by omega)
    obtain ⟨x, hx, -⟩ := hw.enters
    obtain ⟨ref, hless, rfl⟩ := hx.there
    exact ⟨⟨ref, hless⟩, hw⟩
  choose ref href using hall
  have hinjective : Function.Injective ref := by
    intro j k heq
    have hj := href j
    rw [heq] at hj
    have hsteps := hj.unique (href k)
    omega
  simpa using Fintype.card_le_of_injective ref hinjective

theorem exists_takes (h : encodeWithin store fuel v ≠ .error .endless) :
    ∃ steps, Takes store steps v := by
  induction fuel with
  | zero => exact absurd rfl h
  | succ fuel ih =>
    by_cases hbefore : encodeWithin store fuel v = .error .endless
    · exact ⟨fuel, h, hbefore⟩
    · exact ih hbefore

/-! ## Going around -/

/-- With no number of steps does the value come to a form or an error. -/
def Endless (store : Store) (v : Value) : Prop :=
  ∀ fuel, encodeWithin store fuel v = .error .endless

/-- The value leads into something that leads back into itself. -/
def GetsBack (store : Store) (v : Value) : Prop :=
  ∃ w, Relation.ReflTransGen (Enters store) v w ∧ Relation.TransGen (Enters store) w w

/-- **Enough steps** are allowed: what does not end with them does not end with more. They are one
more than there are tables, and no value that ends takes more. -/
theorem endless_iff_encode : Endless store v ↔ encode store v = .error .endless := by
  constructor
  · intro h
    exact h _
  · intro h fuel
    by_contra hends
    obtain ⟨steps, hsteps⟩ := exists_takes hends
    have hle := hsteps.le_size
    have hmono := encodeWithin_mono hsteps.done (show steps + 1 ≤ store.tables.size + 2 by omega)
    rw [encode, hmono] at h
    exact hsteps.done h

/-- Out of what does not end something is entered that does not end either. -/
theorem Endless.enters (h : Endless store v) : ∃ w, Enters store v w ∧ Endless store w := by
  obtain ⟨w, hw, hendless⟩ := exists_enters (h (store.tables.size + 2 + 1))
  exact ⟨w, hw, endless_iff_encode.mpr hendless⟩

theorem Endless.there (h : Endless store v) : ∃ ref : Fin store.tables.size, v = .table ref := by
  obtain ⟨w, hw, -⟩ := h.enters
  obtain ⟨ref, hless, heq⟩ := hw.there
  exact ⟨⟨ref, hless⟩, heq⟩

/-- What does not end goes on from table to table, of which there are finitely many, and so it comes
to one of them twice. -/
theorem Endless.getsBack (h : Endless store v) : GetsBack store v := by
  -- the path is chosen step by step, each of them into something endless
  have hnext : ∀ x : { x // Endless store x }, ∃ y : { y // Endless store y },
      Enters store x.1 y.1 := by
    intro x
    obtain ⟨y, hxy, hy⟩ := x.2.enters
    exact ⟨⟨y, hy⟩, hxy⟩
  choose next hnext using hnext
  let path : Nat → { x // Endless store x } := fun n => next^[n] ⟨v, h⟩
  have hstep : ∀ n, Enters store (path n).1 (path (n + 1)).1 := by
    intro n
    simp only [path, Function.iterate_succ_apply']
    exact hnext _
  have hthere : ∀ n, ∃ ref : Fin store.tables.size, (path n).1 = .table ref := fun n =>
    (path n).2.there
  choose ref href using hthere
  have hreach : ∀ n, Relation.ReflTransGen (Enters store) v (path n).1 := fun n =>
    Nat.rel_of_forall_rel_succ_of_le (Relation.ReflTransGen (Enters store))
      (fun n => .single (hstep n)) (Nat.zero_le n)
  have hround : ∀ m n, m < n → ref m = ref n → GetsBack store v := by
    intro m n hless heq
    have hpath := Nat.rel_of_forall_rel_succ_of_lt (Relation.TransGen (Enters store))
      (fun n => .single (hstep n)) hless
    refine ⟨(path m).1, hreach m, ?_⟩
    rwa [href n, ← heq, ← href m] at hpath
  -- more places on the path than tables: one of them comes twice
  obtain ⟨m, n, hne, heq⟩ := Finite.exists_ne_map_eq_of_infinite ref
  rcases Nat.lt_or_gt_of_ne hne with hless | hless
  · exact hround m n hless heq
  · exact hround n m hless heq.symm

/-- What leads into something endless is endless itself. -/
theorem Enters.endless_of (h : Enters store v w) (hw : Endless store w) : Endless store v := by
  intro fuel
  cases fuel with
  | zero => rfl
  | succ fuel => exact h.endless (hw fuel)

theorem endless_of_trans (h : Relation.TransGen (Enters store) v w)
    (hw : encodeWithin store fuel w = .error .endless) :
    encodeWithin store (fuel + 1) v = .error .endless := by
  induction h generalizing fuel with
  | single h => exact h.endless hw
  | tail _ h ih =>
    -- the longer way would do with more steps, and so with these
    by_contra hends
    exact hends ((encodeWithin_succ hends).symm.trans (ih (h.endless hw)))

/-- What leads back into itself needs one step more than it has, for every number of steps. -/
theorem GetsBack.endless (h : GetsBack store v) : Endless store v := by
  obtain ⟨w, hpath, hround⟩ := h
  have hw : Endless store w := by
    intro fuel
    induction fuel with
    | zero => rfl
    | succ fuel ih => exact endless_of_trans hround ih
  induction hpath using Relation.ReflTransGen.head_induction_on with
  | refl => exact hw
  | head hstep _ ih => exact hstep.endless_of ih

/-! ## The function of scripts -/

section Function

variable {inv : Invocation}

theorem encodeArgument_done {json : Json} (h : encode store (inv.argument 1) = .ok json) :
    encodeArgument inv store = .done [.text json.write] store := by
  rw [encodeArgument, Eval.bind_apply, Eval.read_apply]
  simp only [h]
  rfl

/-- A value without a form is an error of the call, which a program can catch. -/
theorem encodeArgument_raises {e : HostError}
    (h : encode store (inv.argument 1) = .error (.host e)) :
    encodeArgument inv store = Eval.raiseHost e store := by
  rw [encodeArgument, Eval.bind_apply, Eval.read_apply]
  simp only [h]

/-- A value whose form does not end leaves the call without a result; there is nothing to catch. -/
theorem encodeArgument_endless (h : encode store (inv.argument 1) = .error .endless) :
    encodeArgument inv store = .endless := by
  rw [encodeArgument, Eval.bind_apply, Eval.read_apply]
  simp only [h]

end Function

/-- **When it ends.** `json.encode` comes to a text or an error, and leaves everything else as it
is, unless its argument leads into a table that leads back into itself; of such an argument no
number of steps makes a form. Nothing keeps track of the tables that are open, and so going around
is not noticed. -/
theorem encodeArgument_ends_iff (inv : Invocation) (store : Store) :
    (encodeArgument inv store = .endless ↔ GetsBack store (inv.argument 1)) ∧
    (GetsBack store (inv.argument 1) ↔
      ∀ fuel, encodeWithin store fuel (inv.argument 1) = .error .endless) ∧
    (¬GetsBack store (inv.argument 1) →
      (∃ json : Json, encodeArgument inv store = .done [.text json.write] store) ∨
        ∃ e, encodeArgument inv store = Eval.raiseHost e store) := by
  have hiff : GetsBack store (inv.argument 1) ↔ Endless store (inv.argument 1) :=
    ⟨GetsBack.endless, Endless.getsBack⟩
  refine ⟨?_, hiff, ?_⟩
  · rw [hiff, endless_iff_encode]
    cases hencode : encode store (inv.argument 1) with
    | ok json => simp [encodeArgument_done hencode]
    | error obstacle =>
      cases obstacle with
      | host e => simp [encodeArgument_raises hencode, Eval.raiseHost]
      | endless => simp [encodeArgument_endless hencode]
  · rw [hiff, endless_iff_encode]
    intro hends
    cases hencode : encode store (inv.argument 1) with
    | ok json => exact .inl ⟨json, encodeArgument_done hencode⟩
    | error obstacle =>
      cases obstacle with
      | host e => exact .inr ⟨e, encodeArgument_raises hencode⟩
      | endless => exact absurd hencode hends

/-- The table that `t.me = t` makes of the first table. -/
def selfish : Table := Table.empty.setText "me" (.table 0)

/-- A state in which it is the first. -/
def selfishStore : Store := { Store.start with tables := #[selfish] }

/-- The call of `json.encode` with it. -/
def selfishCall : Invocation :=
  { builtin := .jsonEncode
    arguments := [.table 0]
    call := fun _ _ _ => pure []
    callers := [] }

/-- The table that is its own field takes for ever. -/
theorem encodeArgument_ends_iff_selfish : encodeArgument selfishCall selfishStore = .endless := by
  have hholds : selfish.Holds [(.text "me", .table 0)] :=
    Table.holds_empty.set (table_ne_nil 0) List.not_mem_nil
  have hlisted : isArray selfishStore selfish = .ok false := by
    rw [isArray, hholds.length_names (by simp), hholds.size]
    rfl
  have hname : memberName? (.text "me") = .ok (some "me") := by
    rw [Key.text, memberName?, utf8Text_toUTF8]
    rfl
  have hentries : selfish.toList = [] ++ (Key.text "me", .table 0) :: [] :=
    List.perm_singleton.mp hholds.toList_perm
  have hstep : Enters selfishStore (.table 0) (.table 0) :=
    .member rfl hlisted hentries hname fun e he => absurd he List.not_mem_nil
  exact (encodeArgument_ends_iff selfishCall selfishStore).1.mpr
    ⟨.table 0, .refl, .single hstep⟩

end Lua.Interchange

end FeatureTransform
