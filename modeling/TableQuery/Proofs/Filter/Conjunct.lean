import TableQuery.Proofs.Outcome
import TableQuery.Query.Filter

/-! What a filter asks for, entry by entry, and the predicate that says it. -/

namespace TableQuery
namespace Filter

/-- One part of a filter: a field and what it has to equal, or a condition. -/
inductive Entry
  | equality (field value : Value)
  | condition (spec : Value)

/-- The parts of a mapping, a list or a tuple. No other value has any. -/
def entries? (v : Value) : Option (List Entry) :=
  match v.entries?, v.items? with
  | some es, _ => some (es.map fun e => .equality e.1 e.2)
  | none, some xs => some (xs.map .condition)
  | none, none => none

theorem entries?_of_items? {v : Value} {xs : List Value} (h : v.items? = some xs) :
    entries? v = some (xs.map .condition) := by
  cases v with
  | list _ | tuple _ | sort _ _ => cases h; rfl
  | _ => cases h

theorem entries?_of_map {v : Value} {fields : List (Value × Value)} (h : v.entries? = some fields) :
    entries? v = some (fields.map fun e => .equality e.1 e.2) := by
  rw [entries?, h]

/-- A comparison of a column. Truth values are compared as keywords, and have no order. -/
inductive Compares (column : String) : Comparison → Value → Predicate → Prop
  | equalFlag (b : Bool) : Compares column .eq (.bool b) (.isFlag column false b)
  | unequalFlag (b : Bool) : Compares column .ne (.bool b) (.isFlag column true b)
  | parameter (o : Comparison) (v : Value) (h : ∀ b, v ≠ .bool b) :
    Compares column o v (.compare column o v)

/-- The predicate that a condition stands for, on the column with the trimmed name of its field. -/
inductive States (rules : Naming) : Condition Value → Predicate → Prop
  | comparison {f : String} {c : String} {o : Comparison} {v : Value} {p : Predicate}
    (name : rules.column.name? (.str f) = some c) (comparable : isComparable v)
    (compares : Compares c o v p) : States rules (.comparison f o v) p
  | like {f : String} {c : String} {o : LikeOperator} {v : Value} {m : Option LikeMode} {s : String}
    (name : rules.column.name? (.str f) = some c) (text : v.text? = some s) :
    States rules (.like f o v m) (.like c o (Like.pattern m s))
  | membership {f : String} {c : String} {v : Value} {xs : List Value}
    (name : rules.column.name? (.str f) = some c) (items : v.items? = some xs) (ne : xs ≠ []) :
    States rules (.membership f v) (.oneOf c xs)
  | isNull {f : String} {c : String} (name : rules.column.name? (.str f) = some c) :
    States rules (.nullCheck f .isNull .none) (.isNull c)
  | isNotNull {f : String} {c : String} (name : rules.column.name? (.str f) = some c) :
    States rules (.nullCheck f .isNotNull .none) (.isNotNull c)

/-- The conjunct of an entry. -/
inductive Conjunct (rules : Naming) : Entry → Predicate → Prop
  | absent {k : Value} {c : String} (name : rules.column.name? k = some c) :
    Conjunct rules (.equality k .none) (.isNull c)
  | equality {k v : Value} {c : String} {p : Predicate} (name : rules.column.name? k = some c)
    (present : v ≠ .none) (compares : Compares c .eq v p) : Conjunct rules (.equality k v) p
  | condition {v : Value} {c : Condition Value} {p : Predicate} (read : Condition.ofValue v = .ok c)
    (states : States rules c p) : Conjunct rules (.condition v) p

theorem isNone_iff {v : Value} : v.isNone ↔ v = .none := by
  cases v <;> simp [Value.isNone]

theorem column_eq_ok {rules : Naming} {v : Value} {c : String} :
    column rules v = .ok c ↔ rules.column.name? v = some c := by
  unfold column
  cases h : rules.column.name? v with
  | none => simp
  | some name => simp

theorem comparison_of_not_bool {c : String} {o : Comparison} {v : Value} (hv : ∀ b, v ≠ .bool b) :
    comparison c o v = .ok (.compare c o v) := by
  cases v with
  | bool b => exact absurd rfl (hv b)
  | _ => rfl

theorem comparison_eq_ok {c : String} {o : Comparison} {v : Value} {p : Predicate} :
    comparison c o v = .ok p ↔ Compares c o v p := by
  constructor
  · intro h
    by_cases hv : ∀ b, v ≠ .bool b
    · rw [comparison_of_not_bool hv] at h
      cases h
      exact .parameter o v hv
    · push Not at hv
      obtain ⟨b, rfl⟩ := hv
      cases o <;> cases h
      · exact .equalFlag b
      · exact .unequalFlag b
  · rintro (b | b | ⟨o, v, hv⟩)
    · rfl
    · rfl
    · exact comparison_of_not_bool hv

/-- A condition compiles to the predicates that it states, and to no others. -/
theorem condition_eq_ok {rules : Naming} {c : Condition Value} {p : Predicate} :
    condition rules c = .ok p ↔ States rules c p := by
  constructor
  · intro h
    cases c with
    | base f => exact absurd h Outcome.reject_ne_ok
    | comparison f o v =>
      simp only [condition] at h
      split at h
      · rename_i hv
        obtain ⟨c, hc, h⟩ := Outcome.bind_eq_ok.mp h
        exact .comparison (column_eq_ok.mp hc) hv (comparison_eq_ok.mp h)
      · exact absurd h Outcome.reject_ne_ok
    | like f o v m =>
      simp only [condition] at h
      split at h
      · rename_i s hs
        obtain ⟨c, hc, h⟩ := Outcome.bind_eq_ok.mp h
        cases Outcome.pure_eq_ok.mp h
        exact .like (column_eq_ok.mp hc) hs
      · exact absurd h Outcome.reject_ne_ok
    | membership f v =>
      simp only [condition] at h
      split at h
      · rename_i x xs hx
        obtain ⟨c, hc, h⟩ := Outcome.bind_eq_ok.mp h
        cases Outcome.pure_eq_ok.mp h
        exact .membership (column_eq_ok.mp hc) hx (List.cons_ne_nil x xs)
      · exact absurd h Outcome.reject_ne_ok
    | nullCheck f o v =>
      simp only [condition] at h
      split at h
      · rename_i hv
        obtain rfl := isNone_iff.mp hv
        obtain ⟨c, hc, h⟩ := Outcome.bind_eq_ok.mp h
        cases o <;> cases Outcome.pure_eq_ok.mp h
        · exact .isNull (column_eq_ok.mp hc)
        · exact .isNotNull (column_eq_ok.mp hc)
      · exact absurd h Outcome.reject_ne_ok
  · intro h
    cases h with
    | comparison name comparable compares =>
      simp only [condition, comparable, if_true]
      exact Outcome.bind_eq_ok.mpr ⟨_, column_eq_ok.mpr name, comparison_eq_ok.mpr compares⟩
    | like name text =>
      simp only [condition, text]
      exact Outcome.bind_eq_ok.mpr ⟨_, column_eq_ok.mpr name, rfl⟩
    | @membership f c v xs name items ne =>
      obtain ⟨x, rest, rfl⟩ := List.exists_cons_of_ne_nil ne
      simp only [condition, items]
      exact Outcome.bind_eq_ok.mpr ⟨_, column_eq_ok.mpr name, rfl⟩
    | isNull name => exact Outcome.bind_eq_ok.mpr ⟨_, column_eq_ok.mpr name, rfl⟩
    | isNotNull name => exact Outcome.bind_eq_ok.mpr ⟨_, column_eq_ok.mpr name, rfl⟩

theorem equality_eq_ok {rules : Naming} {k v : Value} {p : Predicate} :
    equality rules k v = .ok p ↔ Conjunct rules (.equality k v) p := by
  constructor
  · intro h
    obtain ⟨c, hc, h⟩ := Outcome.bind_eq_ok.mp h
    by_cases hv : v = .none
    · subst hv
      cases Outcome.pure_eq_ok.mp h
      exact .absent (column_eq_ok.mp hc)
    · rw [if_neg (fun hn => hv (isNone_iff.mp hn))] at h
      exact .equality (column_eq_ok.mp hc) hv (comparison_eq_ok.mp h)
  · intro h
    cases h with
    | absent name => exact Outcome.bind_eq_ok.mpr ⟨_, column_eq_ok.mpr name, rfl⟩
    | equality name present compares =>
      refine Outcome.bind_eq_ok.mpr ⟨_, column_eq_ok.mpr name, ?_⟩
      rw [if_neg (fun hn => present (isNone_iff.mp hn))]
      exact comparison_eq_ok.mpr compares

theorem item_eq_ok {rules : Naming} {v : Value} {p : Predicate} :
    item rules v = .ok p ↔ Conjunct rules (.condition v) p := by
  constructor
  · intro h
    obtain ⟨c, hc, h⟩ := Outcome.bind_eq_ok.mp h
    exact .condition hc (condition_eq_ok.mp h)
  · rintro (_ | _ | ⟨read, states⟩)
    exact Outcome.bind_eq_ok.mpr ⟨_, read, condition_eq_ok.mpr states⟩

/-- What a column has to equal is compared for equality, which truth values have. -/
theorem exists_equality_of_name {rules : Naming} {k : Value} {c : String} (v : Value)
    (h : rules.column.name? k = some c) : ∃ p, equality rules k v = .ok p := by
  refine Outcome.exists_bind.mpr ⟨c, column_eq_ok.mpr h, ?_⟩
  cases v <;> exact ⟨_, rfl⟩

/-- What is made of an entry. -/
def Entry.compile (rules : Naming) : Entry → Outcome Predicate
  | equality k v => Filter.equality rules k v
  | condition v => item rules v

theorem Entry.compile_eq_ok {rules : Naming} {e : Entry} {p : Predicate} :
    e.compile rules = .ok p ↔ Conjunct rules e p := by
  cases e with
  | equality k v => exact equality_eq_ok
  | condition v => exact item_eq_ok

/-- The entries of a filter are compiled one after the other. -/
theorem ofValue_of_entries {v : Value} {es : List Entry} (rules : Naming) (h : entries? v = some es) :
    ofValue rules v = es.mapM (Entry.compile rules) := by
  have hn : ¬ v.isNone := by
    intro hv
    rw [isNone_iff.mp hv] at h
    cases h
  rw [ofValue, if_neg hn]
  rw [entries?] at h
  cases hv : v.entries? with
  | some fields =>
    rw [hv] at h
    cases h
    rw [List.mapM_map]
    rfl
  | none =>
    cases hi : v.items? with
    | some xs =>
      rw [hv, hi] at h
      cases h
      rw [List.mapM_map]
      rfl
    | none =>
      rw [hv, hi] at h
      cases h

/-- What has no entries is no filter, unless it is nothing. -/
theorem ofValue_of_no_entries {v : Value} (rules : Naming) (h : entries? v = none) :
    (v = .none ∧ ofValue rules v = .ok []) ∨
      (v ≠ .none ∧ ofValue rules v =
        reject (.invalidCondition v (.str "expected a mapping or a list of conditions"))) := by
  by_cases hn : v = .none
  · subst hn
    exact .inl ⟨rfl, rfl⟩
  · refine .inr ⟨hn, ?_⟩
    rw [ofValue, if_neg fun hv => hn (isNone_iff.mp hv)]
    rw [entries?] at h
    cases hv : v.entries? with
    | some fields =>
      rw [hv] at h
      cases h
    | none =>
      cases hi : v.items? with
      | some xs =>
        rw [hv, hi] at h
        cases h
      | none => rfl

/-- A filter compiles when it is absent or when each of its entries has a conjunct; these are its
predicates, in the order of the entries. -/
theorem ofValue_eq_ok {rules : Naming} {v : Value} {f : Filter} :
    ofValue rules v = .ok f ↔
      (v = .none ∧ f = []) ∨ ∃ es, entries? v = some es ∧ List.Forall₂ (Conjunct rules) es f := by
  cases he : entries? v with
  | some es =>
    have hv : v ≠ .none := by
      rintro rfl
      cases he
    simp only [ofValue_of_entries rules he, Outcome.mapM_eq_ok, Entry.compile_eq_ok, hv, false_and,
      false_or, Option.some.injEq, exists_eq_left']
  | none =>
    obtain ⟨rfl, h⟩ | ⟨hv, h⟩ := ofValue_of_no_entries rules he
    · simp [h, eq_comm]
    · simp [h, hv]

/-- What counts as present is what has entries and, beside that, sequences that no filter can be. -/
theorem isPresent_of_entries {v : Value} {es : List Entry} (h : entries? v = some es) :
    isPresent v ↔ es ≠ [] := by
  cases v <;> simp_all [entries?, Value.entries?, Value.items?, isPresent] <;> subst h <;> simp

end Filter
end TableQuery
