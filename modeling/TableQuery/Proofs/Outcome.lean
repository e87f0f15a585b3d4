import Mathlib.Data.List.Forall2
import TableQuery.Fault

/-! Outcomes taken apart: what has to have succeeded for the whole to succeed. -/

namespace TableQuery
namespace Outcome

variable {α β : Type}

@[simp]
theorem bind_eq_ok {x : Outcome α} {f : α → Outcome β} {b : β} :
    (x >>= f) = .ok b ↔ ∃ a, x = .ok a ∧ f a = .ok b := by
  cases x with
  | error e => simp [bind, Except.bind]
  | ok a => simp [bind, Except.bind]

@[simp]
theorem pure_eq_ok {a b : α} : (pure a : Outcome α) = .ok b ↔ a = b := by
  simp [pure, Except.pure]

@[simp]
theorem map_eq_ok {f : α → β} {x : Outcome α} {b : β} :
    f <$> x = .ok b ↔ ∃ a, x = .ok a ∧ f a = b := by
  cases x with
  | error e => simp [Functor.map, Except.map]
  | ok a => simp [Functor.map, Except.map]

@[simp]
theorem reject_ne_ok {c : Rejection} {a : α} : (reject c : Outcome α) ≠ .ok a := by
  simp [reject]

@[simp]
theorem tell_eq_ok {v : Value} {a b : α} : v.tell a = .ok b ↔ v.hasText ∧ a = b := by
  cases h : v.hasText <;> simp [Value.tell, h]

@[simp]
theorem tell_eq_error {v : Value} {a : α} {e : Fault} :
    v.tell a = .error e ↔ v.hasText = false ∧ .tooManyDigits = e := by
  cases h : v.hasText <;> simp [Value.tell, h]

/-- Going through a list succeeds when each step does, with one result for each item. -/
theorem mapM_eq_ok {f : α → Outcome β} {xs : List α} {ys : List β} :
    xs.mapM f = .ok ys ↔ List.Forall₂ (fun x y => f x = .ok y) xs ys := by
  induction xs generalizing ys with
  | nil =>
    rw [List.mapM_nil, pure_eq_ok, List.forall₂_nil_left_iff, eq_comm]
  | cons x xs ih =>
    rw [List.mapM_cons, bind_eq_ok, List.forall₂_cons_left_iff]
    constructor
    · rintro ⟨y, hy, h⟩
      obtain ⟨rest, hrest, h⟩ := bind_eq_ok.mp h
      exact ⟨y, rest, hy, ih.mp hrest, (pure_eq_ok.mp h).symm⟩
    · rintro ⟨y, rest, hy, hrest, rfl⟩
      exact ⟨y, hy, bind_eq_ok.mpr ⟨rest, ih.mpr hrest, rfl⟩⟩

theorem bind_eq_error {x : Outcome α} {f : α → Outcome β} {e : Fault} :
    (x >>= f) = .error e ↔ x = .error e ∨ ∃ a, x = .ok a ∧ f a = .error e := by
  cases x with
  | error e' => simp [bind, Except.bind]
  | ok a => simp [bind, Except.bind]

/-- Going through a list fails with the fault of the first item that has one. -/
theorem mapM_eq_error {f : α → Outcome β} {xs : List α} {e : Fault} :
    xs.mapM f = .error e ↔ ∃ before x behind ys, xs = before ++ x :: behind ∧
      List.Forall₂ (fun x y => f x = .ok y) before ys ∧ f x = .error e := by
  induction xs with
  | nil => simp [pure, Except.pure]
  | cons x xs ih =>
    rw [List.mapM_cons]
    constructor
    · intro h
      rcases bind_eq_error.mp h with hx | ⟨y, hy, h⟩
      · exact ⟨[], x, xs, [], rfl, .nil, hx⟩
      rcases bind_eq_error.mp h with hrest | ⟨ys, -, h⟩
      · obtain ⟨before, x', behind, ys, rfl, hbefore, he⟩ := ih.mp hrest
        exact ⟨x :: before, x', behind, y :: ys, rfl, .cons hy hbefore, he⟩
      · cases h
    · rintro ⟨before, x', behind, ys, hxs, hbefore, he⟩
      cases hbefore with
      | nil =>
        cases hxs
        exact bind_eq_error.mpr (.inl he)
      | @cons z y before ys hy hbefore =>
        cases hxs
        have hrest := ih.mpr ⟨before, x', behind, ys, rfl, hbefore, he⟩
        exact bind_eq_error.mpr (.inr ⟨y, hy, bind_eq_error.mpr (.inl hrest)⟩)

theorem exists_of_mapM_error {f : α → Outcome β} {xs : List α} {e : Fault}
    (h : xs.mapM f = .error e) : ∃ x ∈ xs, f x = .error e := by
  obtain ⟨before, x, behind, -, rfl, -, he⟩ := mapM_eq_error.mp h
  exact ⟨x, List.mem_append_right before List.mem_cons_self, he⟩

theorem exists_bind {x : Outcome α} {f : α → Outcome β} :
    (∃ b, (x >>= f) = .ok b) ↔ ∃ a, x = .ok a ∧ ∃ b, f a = .ok b := by
  simp only [bind_eq_ok]
  exact ⟨fun ⟨b, a, ha, hb⟩ => ⟨a, ha, b, hb⟩, fun ⟨a, ha, b, hb⟩ => ⟨b, a, ha, hb⟩⟩

theorem exists_mapM {f : α → Outcome β} {xs : List α} :
    (∃ ys, xs.mapM f = .ok ys) ↔ ∀ x ∈ xs, ∃ y, f x = .ok y := by
  induction xs with
  | nil => exact iff_of_true ⟨[], rfl⟩ fun _ hx => absurd hx List.not_mem_nil
  | cons x xs ih =>
    rw [List.mapM_cons, exists_bind, List.forall_mem_cons, ← ih]
    constructor
    · rintro ⟨y, hy, hrest⟩
      obtain ⟨ys, hys, -⟩ := exists_bind.mp hrest
      exact ⟨⟨y, hy⟩, ys, hys⟩
    · rintro ⟨⟨y, hy⟩, ys, hys⟩
      exact ⟨y, hy, exists_bind.mpr ⟨ys, hys, _, rfl⟩⟩

/-- Whatever this fails with is a fault of this kind. -/
def Fails (P : Fault → Prop) (o : Outcome α) : Prop := ∀ f, o = .error f → P f

section Fails

variable {P : Fault → Prop}

theorem Fails.ok (a : α) : Fails P (.ok a : Outcome α) := nofun

theorem Fails.pure (a : α) : Fails P (pure a : Outcome α) := nofun

theorem Fails.error {f : Fault} (h : P f) : Fails P (.error f : Outcome α) := by
  intro f' hf
  cases hf
  exact h

theorem Fails.reject {c : Rejection} (h : P c.raised) :
    Fails P (TableQuery.reject c : Outcome α) := .error h

theorem Fails.mono {Q : Fault → Prop} {x : Outcome α} (hx : Fails P x) (h : ∀ f, P f → Q f) :
    Fails Q x := fun f hf => h f (hx f hf)

theorem Fails.bind {x : Outcome α} {f : α → Outcome β} (hx : Fails P x)
    (hf : ∀ a, x = .ok a → Fails P (f a)) : Fails P (x >>= f) := by
  intro e he
  rcases bind_eq_error.mp he with hx' | ⟨a, ha, he⟩
  · exact hx e hx'
  · exact hf a ha e he

theorem Fails.map {x : Outcome α} {f : α → β} (hx : Fails P x) : Fails P (f <$> x) :=
  hx.bind fun a _ => .ok (f a)

theorem Fails.mapM {f : α → Outcome β} {xs : List α} (hf : ∀ x ∈ xs, Fails P (f x)) :
    Fails P (xs.mapM f) := by
  intro e he
  obtain ⟨x, hx, he⟩ := exists_of_mapM_error he
  exact hf x hx e he

end Fails

/-- A result that was computed, with what holds of it. -/
theorem exists_of_isOk {x : Outcome α} {p : α → Prop} [DecidablePred p]
    (h : (x.toOption.any fun a => p a) = true) : ∃ a, x = .ok a ∧ p a := by
  cases x with
  | error e => cases h
  | ok a => exact ⟨a, rfl, of_decide_eq_true h⟩

def fault? : Outcome α → Option Fault
  | .ok _ => none
  | .error f => some f

/-- A fault that was computed, with what holds of it. -/
theorem exists_of_fault? {x : Outcome α} {p : Fault → Prop} [DecidablePred p]
    (h : ((fault? x).any fun f => p f) = true) : ∃ f, x = .error f ∧ p f := by
  cases x with
  | error f => exact ⟨f, rfl, of_decide_eq_true h⟩
  | ok a => cases h

end Outcome
end TableQuery
