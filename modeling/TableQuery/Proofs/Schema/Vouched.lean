import TableQuery.Proofs.Schema.Conditions

/-! Predicates that a model vouches for: what comes of the entries that it lets through. -/

namespace TableQuery
namespace Schema
open Outcome

/-- A predicate on the column of a declared field, whose adapter has taken the values in it. Columns
have trimmed names. -/
inductive Vouched (m : Model) : Predicate → Prop
  | isNull {f : Field} (declared : f ∈ m.fields) : Vouched m (.isNull (Text.trim f.name))
  | isNotNull {f : Field} (declared : f ∈ m.fields) : Vouched m (.isNotNull (Text.trim f.name))
  | isFlag {f : Field} (declared : f ∈ m.fields) (negated : Bool) {b : Bool}
    (accepted : Accepts f (.bool b)) : Vouched m (.isFlag (Text.trim f.name) negated b)
  | compare {f : Field} (declared : f ∈ m.fields) (o : Comparison) {v : Value}
    (accepted : Accepts f v) : Vouched m (.compare (Text.trim f.name) o v)
  | like {f : Field} (declared : f ∈ m.fields) (o : LikeOperator) (mode : Option LikeMode)
    (s : String) : Vouched m (.like (Text.trim f.name) o (Like.pattern mode s))
  | oneOf {f : Field} (declared : f ∈ m.fields) {xs : List Value}
    (accepted : ∀ x ∈ xs, Accepts f x) : Vouched m (.oneOf (Text.trim f.name) xs)

variable {m : Model} {f : Field} {rules : Naming} {v k o w : Value} {c : Condition Value}
  {op : Operator} {p : Predicate} {column : String}

theorem eq_trim_of_name? {s : String} (h : rules.name? k = some column) (hs : k.text? = some s) :
    column = Text.trim s := by
  obtain ⟨t, ht, h⟩ := Option.bind_eq_some_iff.mp h
  cases hs.symm.trans ht
  split at h
  · cases h
    rfl
  · cases h

theorem parts?_of_entries {es : List (Value × Value)} (he : v.entries? = some es) :
    parts? v = some ((Value.lookup (.str "field") es).getD .none,
      (Value.lookup (.str "operator") es).getD .none, (Value.lookup (.str "value") es).getD .none) := by
  cases v with
  | map _ | frozen _ =>
    cases he
    rfl
  | _ => cases he

/-- A condition is read from the parts that were checked. -/
theorem parts_of_read {s : String} (hp : parts? v = some (k, o, w)) (hs : k.text? = some s)
    (ho : o.text?.bind Operator.ofText? = some op) (hr : Condition.ofValue v = .ok c) :
    c.field = s ∧ c.operator? = some op ∧ c.value? = some w := by
  -- A mapping is read part by part; a condition is there already.
  cases he : v.entries? with
  | some es =>
    obtain ⟨op', ho', hc⟩ := (Condition.ofValue_eq_ok he).mp hr
    cases (parts?_of_entries he).symm.trans hp
    cases ho'.symm.trans ho
    obtain ⟨hfield, hoperator, hvalue⟩ := Condition.parts_of_ofEntries ho hc
    exact ⟨Except.ok.inj (hfield.symm.trans (Condition.field_eq_ok hs)), hoperator, hvalue⟩
  | none =>
    cases v with
    | condition c' g =>
      cases hr
      cases c with
      | base n => cases hp
      | _ =>
        cases hp
        cases hs
        change Operator.ofText? _ = some op at ho
        rw [Operator.ofText?_text] at ho
        cases ho
        exact ⟨rfl, rfl, rfl⟩
    | map _ | frozen _ => cases he
    | _ => cases hp

theorem Vouched.of_compares {cmp : Comparison} (hf : f ∈ m.fields) (ha : Accepts f v)
    (h : Filter.Compares (Text.trim f.name) cmp v p) : Vouched m p := by
  cases h with
  | equalFlag b => exact .isFlag hf false ha
  | unequalFlag b => exact .isFlag hf true ha
  | parameter => exact .compare hf cmp ha

theorem Vouched.of_states (hf : f ∈ m.fields) (hfield : c.field = f.name)
    (hop : c.operator? = some op) (hv : c.value? = some w) (hfits : Fits f op w)
    (h : Filter.States rules c p) : Vouched m p := by
  have hcolumn : ∀ {column}, rules.column.name? (.str c.field) = some column →
      column = Text.trim f.name := by
    intro column hc
    rw [← hfield]
    exact eq_trim_of_name? hc rfl
  cases h with
  | comparison name comparable compares =>
    cases hop
    cases hv
    obtain rfl := hcolumn name
    cases hfits with
    | value _ present accepted => exact .of_compares hf accepted compares
  | @like g column l v mode s name text =>
    obtain rfl := hcolumn name
    exact .like hf l mode s
  | membership name items ne =>
    cases hop
    cases hv
    obtain rfl := hcolumn name
    cases hfits with
    | members items' _ accepted =>
      cases items.symm.trans items'
      exact .oneOf hf accepted
  | isNull name =>
    obtain rfl := hcolumn name
    exact .isNull hf
  | isNotNull name =>
    obtain rfl := hcolumn name
    exact .isNotNull hf

/-- The model vouches for what comes of an entry that it lets through. -/
theorem Vouched.of_conjunct {e : Filter.Entry} (hp : Passes m e) (h : Filter.Conjunct rules e p) :
    Vouched m p := by
  cases h with
  | absent name =>
    cases hp with
    | absent known | equality known =>
      obtain ⟨hf, hs⟩ := field?_eq_some known
      obtain rfl := eq_trim_of_name? name hs
      exact .isNull hf
  | equality name present compares =>
    cases hp with
    | absent => exact absurd rfl present
    | equality known accepted =>
      obtain ⟨hf, hs⟩ := field?_eq_some known
      obtain rfl := eq_trim_of_name? name hs
      exact .of_compares hf accepted compares
  | condition read states =>
    cases hp with
    | condition parts known operator fits =>
      obtain ⟨hf, hs⟩ := field?_eq_some known
      obtain ⟨hfield, hop, hv⟩ := parts_of_read parts hs operator read
      exact .of_states hf hfield hop hv fits states

theorem Cleared.vouched {filter : Filter} (hc : Cleared m v)
    (h : Filter.ofValue rules v = .ok filter) : ∀ p ∈ filter, Vouched m p := by
  intro p hp
  rcases Filter.ofValue_eq_ok.mp h with ⟨-, rfl⟩ | ⟨es, he, hf⟩
  · cases hp
  · obtain ⟨e, hmem, hconj⟩ := Lists.exists_of_mem_right hf hp
    exact .of_conjunct (hc es he e hmem) hconj

end Schema
end TableQuery
