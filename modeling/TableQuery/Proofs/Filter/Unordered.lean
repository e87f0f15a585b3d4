import TableQuery.Proofs.Filter.Conjunct
import TableQuery.Proofs.Query.Refusals

/-! Truth values beside an ordering operator, which nothing looks at before the filter is compiled. -/

namespace TableQuery
namespace Filter
open Outcome

/-- An entry that asks for what comes before or after a truth value, under a column that there may be. -/
inductive Entry.Orders (rules : Naming) : Entry → Prop
  | mk {spec : Value} {field column : String} {o : Comparison} {b : Bool}
    (read : Condition.ofValue spec = .ok (.comparison field o (.bool b)))
    (order : o ≠ .eq ∧ o ≠ .ne) (name : rules.column.name? (.str field) = some column) :
    Orders rules (.condition spec)

/-- A filter with such an entry, in front of which every entry has its conjunct. -/
def Unordered (rules : Naming) (v : Value) : Prop :=
  ∃ before e behind f, entries? v = some (before ++ e :: behind) ∧
    List.Forall₂ (Conjunct rules) before f ∧ e.Orders rules

variable {rules : Naming}

theorem comparison_eq_unordered {c : String} {o : Comparison} {v : Value} :
    comparison c o v = .error .unorderedBoolean ↔ (∃ b, v = .bool b) ∧ o ≠ .eq ∧ o ≠ .ne := by
  cases v with
  | bool b => cases o <;> simp [comparison]
  | _ => simp [comparison]

theorem column_bind_eq_unordered {v : Value} {k : String → Outcome Predicate} :
    (column rules v >>= k) = .error .unorderedBoolean ↔
      ∃ c, rules.column.name? v = some c ∧ k c = .error .unorderedBoolean := by
  rw [bind_eq_error]
  simp only [column_eq_ok]
  refine or_iff_right fun h => ?_
  cases fails_column rules v _ h

theorem condition_eq_unordered {c : Condition Value} :
    condition rules c = .error .unorderedBoolean ↔ ∃ field o b column,
      c = .comparison field o (.bool b) ∧ (o ≠ .eq ∧ o ≠ .ne) ∧
        rules.column.name? (.str field) = some column := by
  constructor
  · intro h
    cases c with
    | base f => cases h
    | comparison f o v =>
      simp only [condition] at h
      split at h
      · obtain ⟨c, hc, h⟩ := column_bind_eq_unordered.mp h
        obtain ⟨⟨b, rfl⟩, ho⟩ := comparison_eq_unordered.mp h
        exact ⟨f, o, b, c, rfl, ho, hc⟩
      · cases h
    | like f o v m =>
      simp only [condition] at h
      split at h
      · obtain ⟨c, -, h⟩ := column_bind_eq_unordered.mp h
        cases h
      · cases h
    | membership f v =>
      simp only [condition] at h
      split at h
      · obtain ⟨c, -, h⟩ := column_bind_eq_unordered.mp h
        cases h
      · cases h
    | nullCheck f o v =>
      simp only [condition] at h
      split at h
      · obtain ⟨c, -, h⟩ := column_bind_eq_unordered.mp h
        cases h
      · cases h
  · rintro ⟨f, o, b, c, rfl, ho, hc⟩
    simp only [condition, isComparable, if_true]
    exact column_bind_eq_unordered.mpr ⟨c, hc, comparison_eq_unordered.mpr ⟨⟨b, rfl⟩, ho⟩⟩

theorem item_eq_unordered {v : Value} :
    item rules v = .error .unorderedBoolean ↔ (Entry.condition v).Orders rules := by
  rw [item, bind_eq_error]
  constructor
  · rintro (h | ⟨c, hc, h⟩)
    · cases fails_read v _ h
    · obtain ⟨f, o, b, column, rfl, ho, hname⟩ := condition_eq_unordered.mp h
      exact .mk hc ho hname
  · rintro ⟨read, order, name⟩
    exact .inr ⟨_, read, condition_eq_unordered.mpr ⟨_, _, _, _, rfl, order, name⟩⟩

/-- What a field has to equal is never compared in order. -/
theorem equality_ne_unordered (k v : Value) : equality rules k v ≠ .error .unorderedBoolean := by
  intro h
  obtain ⟨c, -, h⟩ := column_bind_eq_unordered.mp h
  split at h
  · cases h
  · exact (comparison_eq_unordered.mp h).2.1 rfl

theorem compile_eq_unordered {e : Entry} :
    e.compile rules = .error .unorderedBoolean ↔ e.Orders rules := by
  cases e with
  | equality k v => exact iff_of_false (equality_ne_unordered k v) nofun
  | condition v => exact item_eq_unordered

/-- A filter is compiled until an order is asked for that a truth value does not have. -/
theorem ofValue_eq_unordered {v : Value} :
    ofValue rules v = .error .unorderedBoolean ↔ Unordered rules v := by
  rw [Unordered]
  cases he : entries? v with
  | some es =>
    rw [ofValue_of_entries rules he, mapM_eq_error]
    simp only [Entry.compile_eq_ok, compile_eq_unordered, Option.some.injEq]
  | none =>
    refine iff_of_false (fun h => ?_) nofun
    obtain ⟨-, hok⟩ | ⟨-, hc⟩ := ofValue_of_no_entries rules he
    · cases hok.symm.trans h
    · obtain hr | ⟨hr, -⟩ := Rejection.raised_cases
        (.invalidCondition v (.str "expected a mapping or a list of conditions"))
      · cases hr.symm.trans (Except.error.inj (hc.symm.trans h))
      · cases hr.symm.trans (Except.error.inj (hc.symm.trans h))

end Filter
end TableQuery
