import Mathlib.Algebra.Group.Nat.Defs
import TableQuery.Proofs.Outcome
import TableQuery.Value.Equal

/-! Values with a text, and what a cause that cites values fails with. -/

namespace TableQuery

theorem Numeral.isWritable_eq_false {n : Int} (h : 10 ^ mostDigits ≤ n.natAbs) :
    isWritable n = false :=
  decide_eq_false fun hle =>
    Nat.not_lt.mpr h ((Nat.length_toDigits_le_iff (by decide) (by decide)).mp hle)

namespace Value

/-- The least integer that cannot be written out. -/
def tooLong : Value := .int (.ofNat (10 ^ Numeral.mostDigits))

@[simp]
theorem hasText_tooLong : hasText tooLong = false := Numeral.isWritable_eq_false (Nat.le_refl _)

@[simp]
theorem hasText_none : hasText none := rfl

@[simp]
theorem hasText_str (s : String) : hasText (str s) := rfl

@[simp]
theorem hasText_token (t : Token) : hasText (token t) := rfl

@[simp]
theorem hasText_int (n : Int) : hasText (int n) = Numeral.isWritable n := rfl

@[simp]
theorem allHaveText_iff {xs : List Value} : allHaveText xs ↔ ∀ x ∈ xs, x.hasText := by
  induction xs with
  | nil => simp [allHaveText]
  | cons x xs ih => rw [allHaveText, Bool.and_eq_true, ih, List.forall_mem_cons]

@[simp]
theorem entriesHaveText_iff {es : List (Value × Value)} :
    entriesHaveText es ↔ ∀ e ∈ es, e.1.hasText ∧ e.2.hasText := by
  induction es with
  | nil => simp [entriesHaveText]
  | cons e es ih =>
    rw [entriesHaveText, Bool.and_eq_true, Bool.and_eq_true, ih, List.forall_mem_cons]

theorem hasText_of_items {v : Value} {xs : List Value} (h : v.items? = some xs) :
    v.hasText ↔ ∀ x ∈ xs, x.hasText := by
  cases v with
  | list _ | tuple _ =>
    cases h
    exact allHaveText_iff
  | sort c d =>
    cases h
    simp [hasText]
  | _ => cases h

theorem hasText_of_entries {v : Value} {es : List (Value × Value)} (h : v.entries? = some es) :
    v.hasText ↔ ∀ e ∈ es, e.1.hasText ∧ e.2.hasText := by
  cases v with
  | map _ | frozen _ =>
    cases h
    exact entriesHaveText_iff
  | _ => cases h

/-- The part of a value under a name is written out with it. -/
theorem hasText_get {v : Value} (h : v.hasText) (name : String) : (v.get name).hasText := by
  rw [get]
  cases hes : v.entries? with
  | none => rfl
  | some es =>
    rw [Option.bind_some, lookup]
    cases hfound : es.find? fun e => same (str name) e.1 with
    | none => rfl
    | some e => exact ((hasText_of_entries hes).mp h e (List.mem_of_find?_eq_some hfound)).2

end Value

namespace Outcome

variable {α β : Type} {xs : List α} {value : α → Value} {f : α → β}

/-- Things are told of values where each of these can be written out. -/
theorem mapM_tell {ys : List β} : (xs.mapM fun x => (value x).tell (f x)) = .ok ys ↔
    (∀ x ∈ xs, (value x).hasText) ∧ ys = xs.map f := by
  simp only [mapM_eq_ok, tell_eq_ok]
  rw [List.forall₂_and_left, ← List.forall₂_map_left_iff, List.forall₂_eq_eq_eq, eq_comm]

theorem mapM_tell_eq_error {e : Fault} : (xs.mapM fun x => (value x).tell (f x)) = .error e ↔
    (∃ x ∈ xs, (value x).hasText = false) ∧ e = .tooManyDigits := by
  have honly : ∀ {e}, (xs.mapM fun x => (value x).tell (f x)) = .error e →
      (∃ x ∈ xs, (value x).hasText = false) ∧ e = .tooManyDigits := by
    intro e h
    obtain ⟨x, hx, he⟩ := exists_of_mapM_error h
    obtain ⟨long, rfl⟩ := tell_eq_error.mp he
    exact ⟨⟨x, hx, long⟩, rfl⟩
  refine ⟨honly, ?_⟩
  rintro ⟨⟨x, hx, long⟩, rfl⟩
  cases hm : xs.mapM fun x => (value x).tell (f x) with
  | ok ys => cases long.symm.trans ((mapM_tell.mp hm).1 x hx)
  | error e => rw [(honly hm).2]

end Outcome

/-- Some of the values cannot be written out. -/
def Untold (vs : List Value) : Prop := ∃ v ∈ vs, v.hasText = false

@[simp]
theorem untold_nil : ¬ Untold [] := by simp [Untold]

@[simp]
theorem untold_cons {v : Value} {vs : List Value} :
    Untold (v :: vs) ↔ v.hasText = false ∨ Untold vs := by
  simp [Untold]

theorem untold_singleton {v : Value} : Untold [v] ↔ v.hasText = false := by simp

theorem Untold.of_subset {vs ws : List Value} (h : vs ⊆ ws) : Untold vs → Untold ws :=
  fun ⟨v, hv, long⟩ => ⟨v, h hv, long⟩

namespace Rejection

variable {c : Rejection}

theorem raised_of_hasText (h : c.hasText) : c.raised = .rejected c := if_pos h

theorem raised_of_untold (h : c.hasText = false) : c.raised = .tooManyDigits :=
  if_neg (Bool.eq_false_iff.mp h)

@[simp]
theorem hasText_eq_false : c.hasText = false ↔ Untold c.cited := by
  simp [hasText, Untold]

/-- A cause is reported, or it cites a value that cannot be written out. -/
theorem raised_cases (c : Rejection) :
    c.raised = .rejected c ∨ (c.raised = .tooManyDigits ∧ Untold c.cited) := by
  cases h : c.hasText with
  | true => exact .inl (raised_of_hasText h)
  | false => exact .inr ⟨raised_of_untold h, hasText_eq_false.mp h⟩

end Rejection
end TableQuery
