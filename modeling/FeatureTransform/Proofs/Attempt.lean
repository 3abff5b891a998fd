import Mathlib.Tactic

/-!
# Computations that may fail

A computation in steps is done if each of its steps is. A list is gone through item by item: the
first item that fails is the error of the whole list, and without one the results stand in order.
-/

namespace FeatureTransform.Attempt

variable {ε α β : Type} {f g : α → Except ε β} {as : List α} {bs : List β} {e : ε}

/-- Two steps that are done were done one after the other. Every proof about a computation in steps
takes it apart with this, so that none of them unfolds the bind of results. -/
theorem bind_eq_ok {x : Except ε α} {f : α → Except ε β} {b : β} (h : (x >>= f) = .ok b) :
    ∃ a, x = .ok a ∧ f a = .ok b := by
  cases x with
  | error e => cases h
  | ok a => exact ⟨a, rfl, h⟩

/-- Two steps fail either with the first, or with the second when the first is done. -/
theorem bind_eq_error {x : Except ε α} {f : α → Except ε β} (h : (x >>= f) = .error e) :
    x = .error e ∨ ∃ a, x = .ok a ∧ f a = .error e := by
  cases x with
  | error e' =>
    cases h
    exact .inl rfl
  | ok a => exact .inr ⟨a, rfl, h⟩

/-- What a function makes of each item is the list of the results: going through the list adds no
failure of its own, and it keeps the order. -/
theorem mapM_of_forall₂ (h : List.Forall₂ (fun a b => f a = .ok b) as bs) :
    as.mapM f = .ok bs := by
  induction h with
  | nil => rfl
  | cons hab _ ih =>
    rw [List.mapM_cons, hab, ih]
    rfl

/-- The way back: the results stand beside the items that they come from, one for each and in the
same order. -/
theorem forall₂_of_mapM (h : as.mapM f = .ok bs) : List.Forall₂ (fun a b => f a = .ok b) as bs := by
  induction as generalizing bs with
  | nil =>
    cases h
    exact .nil
  | cons a rest ih =>
    rw [List.mapM_cons] at h
    obtain ⟨b, hb, h⟩ := bind_eq_ok h
    obtain ⟨others, hothers, h⟩ := bind_eq_ok h
    cases h
    exact .cons hb (ih hothers)

theorem exists_of_mem_mapM (h : as.mapM f = .ok bs) {b : β} (hb : b ∈ bs) :
    ∃ a ∈ as, f a = .ok b := by
  have hall := forall₂_of_mapM h
  clear h
  induction hall with
  | nil => cases hb
  | cons hab _ ih =>
    rcases List.mem_cons.mp hb with rfl | hrest
    · exact ⟨_, List.mem_cons_self, hab⟩
    · obtain ⟨a, ha, hfa⟩ := ih hrest
      exact ⟨a, List.mem_cons_of_mem _ ha, hfa⟩

/-- **First failure.** It is the one of an item behind items that are done. Items behind it do not
matter, not even if they fail in another way. -/
theorem mapM_eq_error (h : as.mapM f = .error e) : ∃ front a back, as = front ++ a :: back ∧
    (∀ x ∈ front, ∃ y, f x = .ok y) ∧ f a = .error e := by
  induction as with
  | nil => cases h
  | cons a rest ih =>
    rw [List.mapM_cons] at h
    rcases bind_eq_error h with ha | ⟨b, hb, h⟩
    · exact ⟨[], a, rest, rfl, fun x hx => absurd hx List.not_mem_nil, ha⟩
    · rcases bind_eq_error h with hrest | ⟨others, -, h⟩
      · obtain ⟨front, x, back, rfl, hfront, hx⟩ := ih hrest
        refine ⟨a :: front, x, back, rfl, ?_, hx⟩
        intro y hy
        rcases List.mem_cons.mp hy with rfl | hy
        · exact ⟨b, hb⟩
        · exact hfront y hy
      · cases h

/-- An item that fails, behind items that are done or fail in the same way. -/
theorem mapM_append_error {front back : List α} {a : α} (ha : f a = .error e)
    (hfront : ∀ x ∈ front, f x = .error e ∨ ∃ y, f x = .ok y) :
    (front ++ a :: back).mapM f = .error e := by
  induction front with
  | nil =>
    rw [List.nil_append, List.mapM_cons, ha]
    rfl
  | cons x rest ih =>
    rw [List.cons_append, List.mapM_cons]
    rcases hfront x List.mem_cons_self with hx | ⟨y, hy⟩
    · rw [hx]
      rfl
    · rw [hy, ih fun z hz => hfront z (List.mem_cons_of_mem _ hz)]
      rfl

/-- A list fails with the first of its items that does. This says both what the error is and that
nothing else can be, since the items in front are done. -/
theorem mapM_eq_error_iff : as.mapM f = .error e ↔ ∃ front a back, as = front ++ a :: back ∧
    (∀ x ∈ front, ∃ y, f x = .ok y) ∧ f a = .error e := by
  refine ⟨mapM_eq_error, ?_⟩
  rintro ⟨front, a, back, rfl, hfront, ha⟩
  exact mapM_append_error ha fun x hx => .inr (hfront x hx)

/-- A list whose items are all done is done. -/
theorem exists_mapM (h : ∀ a ∈ as, ∃ b, f a = .ok b) : ∃ bs, as.mapM f = .ok bs := by
  cases hmap : as.mapM f with
  | ok bs => exact ⟨bs, rfl⟩
  | error e =>
    obtain ⟨front, a, back, rfl, -, hfails⟩ := mapM_eq_error hmap
    obtain ⟨b, hb⟩ := h a (by simp)
    rw [hfails] at hb
    cases hb

/-- Two functions that agree wherever the first does not fail in this way. -/
theorem mapM_congr_of_ne (h : as.mapM f ≠ .error e)
    (hsame : ∀ a ∈ as, f a ≠ .error e → g a = f a) : as.mapM g = as.mapM f := by
  induction as with
  | nil => rfl
  | cons a rest ih =>
    rw [List.mapM_cons] at h ⊢
    have ha : f a ≠ .error e := by
      intro ha
      rw [ha] at h
      exact h rfl
    rw [hsame a List.mem_cons_self ha, List.mapM_cons]
    cases hb : f a with
    | error e' => rfl
    | ok b =>
      have hrest : rest.mapM f ≠ .error e := by
        intro hrest
        rw [hb, hrest] at h
        exact h rfl
      rw [ih hrest fun x hx => hsame x (List.mem_cons_of_mem _ hx)]

end FeatureTransform.Attempt
