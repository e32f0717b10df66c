import Mathlib
/-!
# Steps that may fail, one after the other

* `bind_ok_iff`, `map_ok_iff` -- when a step and one behind it succeed; `bind_eq_of_ok` -- when two steps
  behind one do the same;
* `mapM_ok_iff`, `mapM_fails` -- a step for each element: **all succeed, or one of them fails**;
* `mapM_first_error` -- which is the first of those that do.
-/

namespace Anonymization.Outcome

variable {ε α β : Type}

theorem bind_ok_iff (x : Except ε α) (f : α → Except ε β) (b : β) :
    (x >>= f) = .ok b ↔ ∃ a, x = .ok a ∧ f a = .ok b := by
  cases x with
  | error e => simp [bind, Except.bind]
  | ok a => simp [bind, Except.bind]

/-- Of a step behind another one it matters only what it does where that one succeeds. -/
theorem bind_eq_of_ok {x : Except ε α} {f g : α → Except ε β}
    (h : ∀ a, x = .ok a → f a = g a) : (x >>= f) = x >>= g := by
  cases x with
  | error e => rfl
  | ok a => exact h a rfl

theorem map_ok_iff (x : Except ε α) (f : α → β) (b : β) :
    x.map f = .ok b ↔ ∃ a, x = .ok a ∧ f a = b := by
  cases x with
  | error e => simp [Except.map]
  | ok a => simp [Except.map]

theorem map_error_iff (x : Except ε α) (f : α → β) (e : ε) : x.map f = .error e ↔ x = .error e := by
  cases x with
  | error e => simp [Except.map]
  | ok a => simp [Except.map]

theorem mapM_ok_iff (f : α → Except ε β) (xs : List α) (ys : List β) :
    xs.mapM f = .ok ys ↔ List.Forall₂ (fun x y => f x = .ok y) xs ys := by
  induction xs generalizing ys with
  | nil =>
    rw [List.mapM_nil, List.forall₂_nil_left_iff]
    exact ⟨fun h => (Except.ok.inj h).symm, fun h => by rw [h]; rfl⟩
  | cons x xs ih =>
    rw [List.mapM_cons, bind_ok_iff, List.forall₂_cons_left_iff]
    constructor
    · intro ⟨y, hy, h⟩
      obtain ⟨ys', hys', h⟩ := (bind_ok_iff _ _ _).mp h
      exact ⟨y, ys', hy, (ih ys').mp hys', (Except.ok.inj h).symm⟩
    · rintro ⟨y, ys', hy, hys', rfl⟩
      exact ⟨y, hy, (bind_ok_iff _ _ _).mpr ⟨ys', (ih ys').mpr hys', rfl⟩⟩

/-- A step that succeeds, among others. -/
theorem mapM_around {f : α → Except ε β} {x : α} {y : β} (h : f x = .ok y) (before after : List α) :
    (before ++ x :: after).mapM f =
      before.mapM f >>= fun ys => after.mapM f >>= fun zs => .ok (ys ++ y :: zs) := by
  rw [List.mapM_append, List.mapM_cons, h]
  cases before.mapM f with
  | error e => rfl
  | ok ys => cases after.mapM f <;> rfl

/-- The steps undo what was done to each element. -/
theorem mapM_map_ok {γ : Type} {f : β → Except ε γ} {g : α → β} {r : α → γ} {xs : List α}
    (h : ∀ x ∈ xs, f (g x) = .ok (r x)) : (xs.map g).mapM f = .ok (xs.map r) := by
  induction xs with
  | nil => rfl
  | cons x xs ih =>
    rw [List.map_cons, List.mapM_cons, h x List.mem_cons_self,
      ih fun x' hx' => h x' (List.mem_cons_of_mem _ hx')]
    rfl

/-- Where every step succeeds, with what it is meant to give, all do. -/
theorem mapM_ok_of_forall {f : α → Except ε β} {P : α → β → Prop} {xs : List α}
    (h : ∀ x ∈ xs, ∃ y, f x = .ok y ∧ P x y) : ∃ ys, xs.mapM f = .ok ys ∧ List.Forall₂ P xs ys := by
  induction xs with
  | nil => exact ⟨[], rfl, .nil⟩
  | cons x xs ih =>
    obtain ⟨y, hy, hp⟩ := h x List.mem_cons_self
    obtain ⟨ys, hys, hps⟩ := ih fun x' hx' => h x' (List.mem_cons_of_mem _ hx')
    refine ⟨y :: ys, ?_, .cons hp hps⟩
    rw [List.mapM_cons, hy, hys]
    rfl

/-- Of two lists that are related place by place, each element of the second is related to one of the
first. -/
theorem exists_of_forall₂ {R : α → β → Prop} {xs : List α} {ys : List β} (h : List.Forall₂ R xs ys) :
    ∀ y ∈ ys, ∃ x ∈ xs, R x y := by
  induction h with
  | nil => simp
  | cons hxy _ ih =>
    intro y hy
    rcases List.mem_cons.mp hy with rfl | hy
    · exact ⟨_, List.mem_cons_self, hxy⟩
    · obtain ⟨x, hx, hr⟩ := ih y hy
      exact ⟨x, List.mem_cons_of_mem _ hx, hr⟩

/-- **The end is the first step that fails.** -/
theorem mapM_first_error {f : α → Except ε β} {xs : List α} {e : ε} (h : xs.mapM f = .error e) :
    ∃ before x after, xs = before ++ x :: after ∧ (∀ y ∈ before, ∃ z, f y = .ok z) ∧ f x = .error e := by
  induction xs with
  | nil => cases h
  | cons x xs ih =>
    rw [List.mapM_cons] at h
    cases hx : f x with
    | error e' =>
      rw [hx] at h
      exact ⟨[], x, xs, rfl, by simp, by rw [hx, Except.error.inj h]⟩
    | ok y =>
      cases hxs : xs.mapM f with
      | error e' =>
        rw [hx, hxs] at h
        obtain ⟨before, x', after, rfl, hbefore, he⟩ := ih (by rw [hxs, Except.error.inj h])
        exact ⟨x :: before, x', after, rfl, List.forall_mem_cons.mpr ⟨⟨y, hx⟩, hbefore⟩, he⟩
      | ok ys =>
        rw [hx, hxs] at h
        cases h

theorem mapM_error {f : α → Except ε β} {xs : List α} {e : ε} (h : xs.mapM f = .error e) :
    ∃ x ∈ xs, f x = .error e := by
  obtain ⟨before, x, after, rfl, -, he⟩ := mapM_first_error h
  exact ⟨x, by simp, he⟩

theorem mapM_ok_mem {f : α → Except ε β} {xs : List α} {ys : List β} (h : xs.mapM f = .ok ys) :
    ∀ x ∈ xs, ∃ y, f x = .ok y := by
  have hsteps := ((mapM_ok_iff f xs ys).mp h).flip
  intro x hx
  obtain ⟨y, -, hy⟩ := exists_of_forall₂ hsteps x hx
  exact ⟨y, hy⟩

/-- Where one step does not succeed, one of those that fail is the end. -/
theorem mapM_fails {f : α → Except ε β} {xs : List α} (h : ∃ x ∈ xs, ∀ y, f x ≠ .ok y) :
    ∃ x ∈ xs, ∃ e, f x = .error e ∧ xs.mapM f = .error e := by
  obtain ⟨x, hx, hno⟩ := h
  cases hm : xs.mapM f with
  | ok ys =>
    obtain ⟨y, hy⟩ := mapM_ok_mem hm x hx
    exact absurd hy (hno y)
  | error e =>
    obtain ⟨x', hx', he⟩ := mapM_error hm
    exact ⟨x', hx', e, he, rfl⟩

end Anonymization.Outcome
