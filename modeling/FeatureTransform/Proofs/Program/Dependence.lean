import FeatureTransform.Proofs.Script.Naming
import FeatureTransform.Proofs.Transform.Course

/-!
# What a program depends on

Of the values that are bound, a program shows the texts of text parameters, the doubles of number
parameters, and of the others no more than whether there is a value; destinations and names that are
not declared it does not show at all. So two maps of values that differ in nothing else lead to the
same program. A number parameter whose value is no number leads to no program; but one that is
`null` has no value, which is not the same, although neither of the two is a number.
-/

namespace FeatureTransform

/-! ## Values by name -/

namespace Bindings

/-- The text of the value that is bound to a name. -/
def text? (bindings : Bindings) (name : String) : Option String :=
  (bindings.get? name).bind BoundValue.asText

/-- The number of the value that is bound to a name. -/
def number? (bindings : Bindings) (name : String) : Option Float :=
  (bindings.get? name).bind BoundValue.asNumber

/-- Whether a value other than `null` is bound to a name. -/
def Gives (bindings : Bindings) (name : String) : Prop :=
  ∃ v, bindings.get? name = some v ∧ v ≠ .null

variable {bindings : Bindings} {name : String} {p : Parameter}

/-- A value has a text unless it is `null`. -/
theorem text?_ne_none_iff : bindings.text? name ≠ none ↔ bindings.Gives name := by
  unfold text? Gives
  rcases bindings.get? name with _ | (_ | s | f | (_ | _)) <;> simp [BoundValue.asText]

/-- A name without a value leads to `nil`, be it bound to `null` or not bound. -/
theorem of_not_gives (h : ¬bindings.Gives p.name) :
    Assignment.of p (bindings.get? p.name) = .ok (.assign p.name "nil") := by
  cases hv : bindings.get? p.name with
  | none => rfl
  | some v =>
    by_cases hnull : v = .null
    · subst hnull
      rfl
    · exact absurd ⟨v, hv, hnull⟩ h

theorem of_eq_literalOf {v : BoundValue} (hv : bindings.get? p.name = some v) (hnull : v ≠ .null) :
    Assignment.of p (bindings.get? p.name) = literalOf p v := by
  rw [hv]
  cases v with
  | null => exact absurd rfl hnull
  | _ => rfl

end Bindings

namespace Program

/-! ## Where composing fails -/

section Failure

variable {script : Script} {bindings : Bindings} {p : Parameter} {v : BoundValue}

/-- A number parameter is bound to a value that is no number. -/
inductive Misbound (bindings : Bindings) (p : Parameter) : BoundValue → Prop where
  /-- to a truth value -/
  | bool {b : Bool} (hstyle : p.kind.bindingStyle = .number)
      (hv : bindings.get? p.name = some (.bool b)) : Misbound bindings p (.bool b)
  /-- to a text that is no double even without the blanks around it -/
  | text {s : String} (hstyle : p.kind.bindingStyle = .number)
      (hv : bindings.get? p.name = some (.text s))
      (htext : Decimal.read? (Text.trim s.toList) = none) : Misbound bindings p (.text s)

/-- The first number parameter that is bound to no number, with those in front of it. -/
structure FailsAt (script : Script) (bindings : Bindings) (front : List Parameter) (p : Parameter)
    (v : BoundValue) : Prop where
  /-- the parameter stands behind the others -/
  place : front ++ [p] <+: script.parameters
  /-- its value is no number -/
  misbound : Misbound bindings p v
  /-- all in front of it have numbers if they have to -/
  first : ∀ q ∈ front, ∀ w, ¬Misbound bindings q w

theorem misbound_iff : Misbound bindings p v ↔ p.kind.bindingStyle = .number ∧
    bindings.get? p.name = some v ∧ v ≠ .null ∧ v.asNumber = none := by
  constructor
  · rintro (⟨hstyle, hv⟩ | ⟨hstyle, hv, htext⟩)
    · exact ⟨hstyle, hv, nofun, rfl⟩
    · exact ⟨hstyle, hv, nofun, htext⟩
  · rintro ⟨hstyle, hv, hnull, hnumber⟩
    cases v with
    | null => exact absurd rfl hnull
    | text s => exact .text hstyle hv hnumber
    | number f => cases hnumber
    | bool b => exact .bool hstyle hv

/-- A number parameter has no number but a value. A text in digits counts as a number here, and a
truth value does not. -/
theorem exists_misbound_iff : (∃ v, Misbound bindings p v) ↔ p.kind.bindingStyle = .number ∧
    bindings.Gives p.name ∧ bindings.number? p.name = none := by
  simp only [misbound_iff, Bindings.Gives, Bindings.number?]
  constructor
  · rintro ⟨v, hstyle, hv, hnull, hnumber⟩
    exact ⟨hstyle, ⟨v, hv, hnull⟩, by rw [hv]; exact hnumber⟩
  · rintro ⟨hstyle, ⟨v, hv, hnull⟩, hnumber⟩
    rw [hv] at hnumber
    exact ⟨v, hstyle, hv, hnull, hnumber⟩

theorem misbound?_eq_some_iff {e : BuildError} : Session.misbound? bindings p = some e ↔
    ∃ v, Misbound bindings p v ∧ e = .invalidBinding p.name v.display := by
  simp only [misbound_iff, Session.misbound?]
  cases hkind : p.kind with
  | number default? min? max? =>
    cases hv : bindings.get? p.name with
    | none => simp
    | some v => simp [Kind.bindingStyle, and_assoc, eq_comm]
  | _ => simp [Kind.bindingStyle]

theorem misbound?_eq_none_iff :
    Session.misbound? bindings p = none ↔ ∀ v, ¬Misbound bindings p v := by
  constructor
  · intro hnone v hv
    rw [misbound?_eq_some_iff.mpr ⟨v, hv, rfl⟩] at hnone
    cases hnone
  · intro hnone
    by_contra hsome
    obtain ⟨e, he⟩ := Option.ne_none_iff_exists'.mp hsome
    obtain ⟨v, hv, -⟩ := misbound?_eq_some_iff.mp he
    exact hnone v hv

/-- **Failure.** Composing fails at the first parameter that is bound to no number, and the error
names that parameter and shows its value. -/
theorem compose_eq_error_iff {e : BuildError} : compose script bindings = .error e ↔
    ∃ front p v, FailsAt script bindings front p v ∧ e = .invalidBinding p.name v.display := by
  have hfirst : compose script bindings = .error e ↔
      Session.first (script.parameters.map (Session.misbound? bindings)) = some e := by
    have hspec := Session.compose_spec script bindings
    split at hspec
    · next e' hsome => rw [hspec, hsome, Except.error.injEq, Option.some.injEq]
    · next hnone =>
      obtain ⟨text, htext⟩ := hspec
      rw [htext, hnone]
      exact ⟨nofun, nofun⟩
  rw [hfirst, Session.first, List.findSome?_map, List.findSome?_eq_some_iff]
  constructor
  · rintro ⟨front, p, back, hplace, hp, hfront⟩
    obtain ⟨v, hv, rfl⟩ := misbound?_eq_some_iff.mp hp
    refine ⟨front, p, v, ⟨⟨back, ?_⟩, hv, fun q hq => misbound?_eq_none_iff.mp (hfront q hq)⟩, rfl⟩
    rw [hplace, List.append_assoc, List.singleton_append]
  · rintro ⟨front, p, v, ⟨⟨back, hplace⟩, hv, hfront⟩, rfl⟩
    rw [List.append_assoc, List.singleton_append] at hplace
    refine ⟨front, p, back, hplace.symm, misbound?_eq_some_iff.mpr ⟨v, hv, rfl⟩, fun q hq => ?_⟩
    exact misbound?_eq_none_iff.mpr (hfront q hq)

/-- Without such a parameter a program is composed. -/
theorem exists_compose_eq_ok_iff : (∃ text, compose script bindings = .ok text) ↔
    ∀ p ∈ script.parameters, ∀ v, ¬Misbound bindings p v := by
  have hspec := Session.compose_spec script bindings
  split at hspec
  · next e hsome =>
    obtain ⟨front, p, v, ⟨⟨back, hplace⟩, hv, -⟩, -⟩ := compose_eq_error_iff.mp hspec
    have hp : p ∈ script.parameters := by simp [← hplace]
    rw [hspec]
    exact ⟨nofun, fun hnone => absurd hv (hnone p hp v)⟩
  · next hnone =>
    rw [Session.first, List.findSome?_map, List.findSome?_eq_none_iff] at hnone
    exact ⟨fun _ p hp => misbound?_eq_none_iff.mp (hnone p hp), fun _ => hspec⟩

/-- Composing fails if there is a parameter that is bound to no number. -/
theorem exists_compose_eq_error_iff : (∃ e, compose script bindings = .error e) ↔
    ∃ p ∈ script.parameters, ∃ v, Misbound bindings p v := by
  have hok : (∃ text, compose script bindings = .ok text) ↔
      ∀ p ∈ script.parameters, ∀ v, ¬Misbound bindings p v := exists_compose_eq_ok_iff
  cases hcompose : compose script bindings with
  | error e =>
    rw [hcompose] at hok
    refine iff_of_true ⟨e, rfl⟩ ?_
    by_contra hnone
    obtain ⟨text, htext⟩ := hok.mpr fun p hp v hv => hnone ⟨p, hp, v, hv⟩
    cases htext
  | ok text =>
    refine iff_of_false nofun ?_
    rintro ⟨p, hp, v, hv⟩
    exact hok.mp ⟨text, hcompose⟩ p hp v hv

end Failure

/-! ## What programs show -/

section Sight

variable {script : Script} {first second : Bindings} {p : Parameter}

/-- Two maps of values give a parameter the same text, number or value at all, whichever of them
its kind asks for. -/
def ReadsAlike (first second : Bindings) (p : Parameter) : Prop :=
  match p.kind.bindingStyle with
  | .text => first.text? p.name = second.text? p.name
  | .number => first.number? p.name = second.number? p.name
  | .passThrough => first.Gives p.name ↔ second.Gives p.name

/-- Two maps of values look alike to a program: the parameters that are no destinations are read
alike, and those that want a number have values under both or none under both. -/
def LooksAlike (script : Script) (first second : Bindings) : Prop :=
  ∀ p ∈ script.parameters, p.kind.isDestination = false → ReadsAlike first second p ∧
    (p.kind.bindingStyle = .number → (first.Gives p.name ↔ second.Gives p.name))

/-- Two maps of values lead to the same text, or to a failure at the same parameter. -/
inductive SameOutcome (script : Script) (first second : Bindings) : Prop where
  /-- the texts are the same -/
  | text {text : String} (hfirst : compose script first = .ok text)
      (hsecond : compose script second = .ok text)
  /-- the parameters are the same -/
  | failure {front : List Parameter} {p : Parameter} {v w : BoundValue}
      (hfirst : FailsAt script first front p v) (hsecond : FailsAt script second front p w)

theorem SameOutcome.isOk_eq (h : SameOutcome script first second) :
    (compose script first).isOk = (compose script second).isOk := by
  cases h with
  | text hfirst hsecond => rw [hfirst, hsecond]
  | failure hfirst hsecond =>
    rw [compose_eq_error_iff.mpr ⟨_, _, _, hfirst, rfl⟩,
      compose_eq_error_iff.mpr ⟨_, _, _, hsecond, rfl⟩]
    rfl

/-- Read alike, a parameter has a value under both maps or under none. -/
theorem ReadsAlike.gives_iff (h : ReadsAlike first second p)
    (hnumber : p.kind.bindingStyle = .number → (first.Gives p.name ↔ second.Gives p.name)) :
    first.Gives p.name ↔ second.Gives p.name := by
  unfold ReadsAlike at h
  split at h
  · rw [← Bindings.text?_ne_none_iff, h, Bindings.text?_ne_none_iff]
  · next hstyle => exact hnumber hstyle
  · exact h

/-- A destination is not bound to a number. -/
theorem not_misbound_of_isDestination (h : p.kind.isDestination = true) (v : BoundValue) :
    ¬Misbound first p v := by
  rw [misbound_iff]
  rintro ⟨hstyle, -⟩
  cases hkind : p.kind with
  | number _ _ _ => rw [hkind] at h; cases h
  | _ => rw [hkind] at hstyle; cases hstyle

/-- Where one map binds to no number, the other does, since both give a value and neither a number.
-/
theorem LooksAlike.misbound_iff (h : LooksAlike script first second) (hp : p ∈ script.parameters) :
    (∃ v, Misbound first p v) ↔ ∃ w, Misbound second p w := by
  by_cases hkind : p.kind.isDestination = true
  · simp [not_misbound_of_isDestination hkind]
  · obtain ⟨halike, hgives⟩ := h p hp (by simpa using hkind)
    rw [exists_misbound_iff, exists_misbound_iff]
    refine and_congr_right fun hstyle => and_congr (hgives hstyle) ?_
    unfold ReadsAlike at halike
    rw [hstyle] at halike
    rw [halike]

/-- Where neither map binds to no number, the same is done: the same line is written, or none. -/
theorem ReadsAlike.of_eq (h : ReadsAlike first second p)
    (hgives : first.Gives p.name ↔ second.Gives p.name) (hfirst : ∀ v, ¬Misbound first p v) :
    Assignment.of p (second.get? p.name) = Assignment.of p (first.get? p.name) := by
  by_cases hvalue : first.Gives p.name
  · obtain ⟨v, hv, hnull⟩ := hvalue
    obtain ⟨w, hw, hnull'⟩ := hgives.mp ⟨v, hv, hnull⟩
    rw [Bindings.of_eq_literalOf hv hnull, Bindings.of_eq_literalOf hw hnull', literalOf, literalOf]
    unfold ReadsAlike Bindings.text? Bindings.number? at h
    rw [hv, hw] at h
    cases hstyle : p.kind.bindingStyle with
    | passThrough => rfl
    | text =>
      have htext : v.asText = w.asText := by rwa [hstyle] at h
      rw [htext]
    | number =>
      have hnumber : v.asNumber = w.asNumber := by rwa [hstyle] at h
      have hsome : v.asNumber ≠ none := fun hnone =>
        hfirst v (Program.misbound_iff.mpr ⟨hstyle, hv, hnull, hnone⟩)
      obtain ⟨f, hf⟩ := Option.ne_none_iff_exists'.mp hsome
      rw [← hnumber, hf]
  · rw [Bindings.of_not_gives hvalue, Bindings.of_not_gives (mt hgives.mpr hvalue)]

/-- Assignments that are the same make up the same program. -/
theorem compose_congr (h : ∀ p ∈ script.parameters, p.kind.isDestination = false →
    Assignment.of p (second.get? p.name) = Assignment.of p (first.get? p.name)) :
    compose script second = compose script first := by
  have hsteps : steps script second = steps script first := by
    refine List.map_congr_left fun p hp => ?_
    obtain ⟨hp, hkind⟩ := List.mem_filter.mp hp
    exact h p hp (by simpa using hkind)
  rw [compose, compose, preamble, preamble, hsteps]

/-- **What looks alike** comes to the same: to one text, or to failures at one parameter that differ
in the value shown. -/
theorem LooksAlike.sameOutcome (h : LooksAlike script first second) :
    SameOutcome script first second := by
  cases hcompose : compose script first with
  | error e =>
    obtain ⟨front, p, v, hfails, rfl⟩ := compose_eq_error_iff.mp hcompose
    have hmem : ∀ q ∈ front ++ [p], q ∈ script.parameters := fun q hq => hfails.place.subset hq
    -- the second map fails at this parameter too, and at none in front of it, or the first would
    obtain ⟨w, hw⟩ := (h.misbound_iff (hmem p (by simp))).mp ⟨v, hfails.misbound⟩
    refine .failure hfails ⟨hfails.place, hw, fun q hq u hu => ?_⟩
    obtain ⟨u', hu'⟩ := (h.misbound_iff (hmem q (by simp [hq]))).mpr ⟨u, hu⟩
    exact hfails.first q hq u' hu'
  | ok text =>
    refine .text hcompose ((compose_congr fun p hp hkind => ?_).trans hcompose)
    obtain ⟨halike, hgives⟩ := h p hp hkind
    exact halike.of_eq (halike.gives_iff hgives) (exists_compose_eq_ok_iff.mp ⟨text, hcompose⟩ p hp)

end Sight

/-! ## Defaults -/

/-- The default of a parameter is bound to its name, as no other parameter has it. -/
theorem get?_ofDefaults {script : Script} (hnames : (script.parameters.map (·.name)).Nodup)
    {p : Parameter} (hp : p ∈ script.parameters) :
    (Bindings.ofDefaults script).get? p.name = Bindings.declared? p := by
  rw [Bindings.ofDefaults, Bindings.get?]
  generalize script.parameters = parameters at hnames hp
  dsimp only
  induction parameters with
  | nil => cases hp
  | cons q rest ih =>
    obtain ⟨hnew, hrest⟩ := List.nodup_cons.mp hnames
    rw [List.filterMap_cons]
    -- names are different, so no other default stands under the name
    rcases List.mem_cons.mp hp with rfl | hp
    · cases hdeclared : Bindings.declared? p with
      | some v => exact List.lookup_cons_self
      | none =>
        refine List.lookup_eq_none_iff.mpr fun entry hentry => ?_
        obtain ⟨other, hother, hsome⟩ := List.mem_filterMap.mp hentry
        obtain ⟨v, -, rfl⟩ := Option.map_eq_some_iff.mp hsome
        refine bne_iff_ne.mpr fun hname => hnew ?_
        exact List.mem_map.mpr ⟨other, hother, hname.symm⟩
    · have hother : (p.name == q.name) = false := by
        refine beq_eq_false_iff_ne.mpr fun hname => hnew ?_
        exact List.mem_map.mpr ⟨p, hp, hname⟩
      cases Bindings.declared? q with
      | some v => exact (List.lookup_cons.trans (by rw [hother])).trans (ih hrest hp)
      | none => exact ih hrest hp

/-- No default is refused, since that of a number is a number. -/
theorem not_misbound_ofDefaults {script : Script}
    (hnames : (script.parameters.map (·.name)).Nodup) {p : Parameter} (hp : p ∈ script.parameters)
    (v : BoundValue) : ¬Misbound (.ofDefaults script) p v := by
  rw [misbound_iff, get?_ofDefaults hnames hp]
  rintro ⟨hstyle, hv, -, hnumber⟩
  unfold Bindings.declared? at hv
  split at hv
  · next hkind => rw [hkind] at hstyle; cases hstyle
  · next hkind => rw [hkind] at hstyle; cases hstyle
  · cases hv
    cases hnumber
  · next hkind => rw [hkind] at hstyle; cases hstyle
  · cases hv

/-! ## Programs and values -/

/-- **Dependence.** Composing fails where the first number parameter is bound to a truth value or to
a text that is no number, and nowhere else. Maps of values that look alike lead to the same text or
to a failure at the same parameter; those that bind the same to all parameters but destinations do
not lead to different results at all. The defaults of a script, as it is read, never lead to a
failure. -/
theorem compose_depends (script : Script) :
    (∀ bindings e, compose script bindings = .error e ↔ ∃ front p v,
      FailsAt script bindings front p v ∧ e = .invalidBinding p.name v.display) ∧
    (∀ bindings, (∃ e, compose script bindings = .error e) ↔
      ∃ p ∈ script.parameters, ∃ v, Misbound bindings p v) ∧
    (∀ first second, LooksAlike script first second → SameOutcome script first second) ∧
    (∀ first second : Bindings, (∀ p ∈ script.parameters, p.kind.isDestination = false →
        first.get? p.name = second.get? p.name) →
      compose script first = compose script second) ∧
    (script.ComesAbout → ∃ text, compose script (.ofDefaults script) = .ok text) := by
  refine ⟨fun bindings e => compose_eq_error_iff, fun bindings => exists_compose_eq_error_iff,
    fun first second h => h.sameOutcome, fun first second h => ?_, fun h => ?_⟩
  · exact compose_congr fun p hp hkind => congrArg (Assignment.of p) (h p hp hkind)
  · have hnames : (script.parameters.map (·.name)).Nodup := (List.nodup_append.mp h.nodup_names).1
    exact exists_compose_eq_ok_iff.mpr fun p hp => not_misbound_ofDefaults hnames hp

/-- A script with a text, a number and a destination. -/
def crossing : Script :=
  .ofSource "--#label=string\n--#lanes=number\n--#target=output vector\n"

/-- A text, a number that is missing, and a destination. -/
def missing : Bindings := ⟨[("label", .text "true"), ("target", .text "a")]⟩

/-- A truth value that is shown like the text, a number that is `null`, and another destination. -/
def absent : Bindings := ⟨[("lanes", .null), ("label", .bool true), ("target", .bool false)]⟩

theorem parameters_crossing : crossing.parameters =
    [⟨"label", "label", false, .string none⟩, ⟨"lanes", "lanes", false, .number none none none⟩,
      ⟨"target", "target", false, .vectorDestination⟩] := by
  decide +kernel

theorem compose_depends_crossing :
    LooksAlike crossing missing absent ∧ SameOutcome crossing missing absent := by
  have hlabel : missing.text? "label" = absent.text? "label" := by decide
  have hlanes : missing.number? "lanes" = absent.number? "lanes" := by decide
  have hgives : missing.Gives "lanes" ↔ absent.Gives "lanes" := by
    rw [← Bindings.text?_ne_none_iff, ← Bindings.text?_ne_none_iff]
    decide
  have halike : LooksAlike crossing missing absent := by
    rw [LooksAlike, parameters_crossing, List.forall_mem_cons, List.forall_mem_cons,
      List.forall_mem_singleton]
    exact ⟨fun _ => ⟨hlabel, nofun⟩, fun _ => ⟨hlanes, fun _ => hgives⟩, nofun⟩
  exact ⟨halike, (compose_depends crossing).2.2.1 _ _ halike⟩

/-- A number that is `null` and one that is a truth value are both no number, and only the second
is refused. -/
theorem not_sameOutcome_of_readsAlike :
    ¬∀ (script : Script) (first second : Bindings),
      (∀ p ∈ script.parameters, p.kind.isDestination = false → ReadsAlike first second p) →
        SameOutcome script first second := by
  intro h
  have hfirst : (compose crossing ⟨[("lanes", .null)]⟩).isOk = true := by decide +kernel
  have hsecond : (compose crossing ⟨[("lanes", .bool true)]⟩).isOk = false := by decide +kernel
  have hsame : SameOutcome crossing ⟨[("lanes", .null)]⟩ ⟨[("lanes", .bool true)]⟩ := by
    refine h crossing _ _ ?_
    rw [parameters_crossing, List.forall_mem_cons, List.forall_mem_cons, List.forall_mem_singleton]
    exact ⟨fun _ => rfl, fun _ => rfl, nofun⟩
  rw [hsame.isOk_eq, hsecond] at hfirst
  cases hfirst

end Program

end FeatureTransform
