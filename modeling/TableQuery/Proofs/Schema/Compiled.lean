import TableQuery.Proofs.Filter.Unordered
import TableQuery.Proofs.Schema.Vouched

/-! What a filter that a model lets through has to keep to beside that so that it compiles. -/

namespace TableQuery

namespace Condition

variable {es : Entries} {f : Family} {o : Operator}

/-- Entries that a condition of a family has room for: their keys are texts that name its parts, and a
pattern is a mode. -/
def Fitting (f : Family) (es : Entries) : Prop :=
  (∀ e ∈ es, ∃ s, Coerce.text false e.1 = .ok s ∧ s ∈ f.parts ∧ Value.hasKey (.str s) es) ∧
    (f = .like → ∃ mode, readPattern ((Value.lookup (.str "pattern") es).getD .none) = .ok mode)

theorem extraIssues_eq_nil : extraIssues f es = [] ↔
    ∀ e ∈ es, ∃ s, Coerce.text false e.1 = .ok s ∧ s ∈ f.parts ∧ Value.hasKey (.str s) es := by
  rw [extraIssues, List.filterMap_eq_nil_iff]
  refine forall₂_congr fun e _ => ?_
  rw [extraIssue]
  cases Coerce.text false e.1 with
  | error p => simp
  | ok s => simp [List.mem_filter]

/-- With a field and an operator, a condition is read where nothing is wrong with the other entries. -/
theorem exists_ofEntries {field : String} (hf : required es "field" (Coerce.text false) = .ok field)
    (ho : required es "operator" (readOperator (.ofOperator o)) = .ok o) :
    (∃ c, ofEntries (.ofOperator o) es = .ok c) ↔ Fitting (.ofOperator o) es := by
  rw [Fitting, ← extraIssues_eq_nil]
  unfold ofEntries
  dsimp only
  rw [hf, ho]
  generalize extraIssues (.ofOperator o) es = extra
  cases Value.lookup (.str "pattern") es with
  | none =>
    -- Where there is no pattern, it reads like one that is nothing.
    have hnone : readPattern .none = .ok none := rfl
    cases o <;> cases extra <;> simp [Family.ofOperator, partIssue, hnone]
  | some v =>
    rw [Option.getD_some]
    cases o with
    | like l =>
      cases hp : readPattern v <;> cases extra <;> simp [Family.ofOperator, partIssue, hp]
    | _ => cases extra <;> simp [Family.ofOperator, partIssue]

end Condition

namespace Schema
open Outcome TableQuery.Filter

variable {m : Model} {rules : Naming} {f : Field} {v : Value}

/-- The rules take the names of all fields. -/
def Nameable (rules : Naming) (m : Model) : Prop :=
  ∀ f ∈ m.fields, rules.column.isValid (.str f.name)

/-- What an item of a list has to keep to beside what the model looks at: a mapping has no other entries
than its operator has parts, and a comparison is not with a collection. -/
def Whole (v : Value) : Prop := ∀ k o w op, parts? v = some (k, o, w) →
  o.text?.bind Operator.ofText? = some op →
    (∀ es, v.entries? = some es → Condition.Fitting (.ofOperator op) es) ∧
    ((∃ c, op = .comparison c) → isComparable w)

theorem exists_name? (hn : Nameable rules m) {k : Value} (known : ModelOf.field? m k = some f) :
    ∃ c, rules.column.name? k = some c := by
  obtain ⟨hf, htext⟩ := field?_eq_some known
  have hvalid := Option.isSome_iff_exists.mp (hn f hf)
  rw [Naming.name?, Value.text?] at hvalid
  rw [Naming.name?, htext]
  exact hvalid

/-- A condition is read where a mapping has no other entries than it may have. -/
theorem exists_read {k o w : Value} {s : String} {op : Operator} (hp : parts? v = some (k, o, w))
    (hs : k.text? = some s) (ho : o.text?.bind Operator.ofText? = some op) :
    (∃ c, Condition.ofValue v = .ok c) ↔
      ∀ es, v.entries? = some es → Condition.Fitting (.ofOperator op) es := by
  cases he : v.entries? with
  | some es =>
    cases (parts?_of_entries he).symm.trans hp
    simp only [Condition.ofValue_eq_ok he, ho, Option.some.injEq, exists_eq_left', forall_eq']
    exact Condition.exists_ofEntries (Condition.field_eq_ok hs) (Condition.operator_eq_ok ho)
  | none =>
    refine iff_of_true ?_ fun es hes => absurd hes.symm (Option.some_ne_none es)
    cases v with
    | condition c g => exact ⟨c, rfl⟩
    | map _ | frozen _ => cases he
    | _ => cases hp

/-- All comparisons are made but those that ask for an order of truth values. -/
theorem exists_compares {field column : String} {o : Comparison} {w : Value}
    (hname : rules.column.name? (.str field) = some column)
    (horder : condition rules (.comparison field o w) ≠ .error .unorderedBoolean) :
    ∃ p, Compares column o w p := by
  by_cases hv : ∀ b, w ≠ .bool b
  · exact ⟨_, .parameter o w hv⟩
  · push Not at hv
    obtain ⟨b, rfl⟩ := hv
    by_contra hno
    push Not at hno
    refine horder (condition_eq_unordered.mpr ⟨field, o, b, column, rfl, ⟨?_, ?_⟩, hname⟩)
    · rintro rfl
      exact hno _ (.equalFlag b)
    · rintro rfl
      exact hno _ (.unequalFlag b)

/-- A condition whose value goes with its operator compiles unless it is a comparison with a collection,
or asks for an order of truth values. -/
theorem exists_condition {c : Condition Value} {op : Operator} {w : Value} {column : String}
    (ho : c.operator? = some op) (hw : c.value? = some w)
    (hname : rules.column.name? (.str c.field) = some column) (fits : Fits f op w)
    (horder : condition rules c ≠ .error .unorderedBoolean) :
    (∃ p, condition rules c = .ok p) ↔ ((∃ o, op = .comparison o) → isComparable w) := by
  simp only [condition_eq_ok]
  cases c with
  | base field => cases ho
  | comparison field o v =>
    cases ho
    cases hw
    constructor
    · rintro ⟨p, _ | _⟩ -
      assumption
    · intro hc
      have hcomparable := hc ⟨o, rfl⟩
      obtain ⟨p, hp⟩ := exists_compares hname horder
      exact ⟨p, .comparison hname hcomparable hp⟩
  | like field o v mode =>
    cases ho
    cases hw
    cases fits with
    | text _ text => exact iff_of_true ⟨_, .like hname text⟩ fun h => nomatch h
  | membership field v =>
    cases ho
    cases hw
    cases fits with
    | members items ne => exact iff_of_true ⟨_, .membership hname items ne⟩ fun h => nomatch h
  | nullCheck field o v =>
    cases ho
    cases hw
    cases fits with
    | absent =>
      refine iff_of_true ?_ fun h => nomatch h
      cases o with
      | isNull => exact ⟨_, .isNull hname⟩
      | isNotNull => exact ⟨_, .isNotNull hname⟩

/-- An item that the model lets through compiles where it keeps to the rest, unless it asks for an order
of truth values. -/
theorem exists_item (hn : Nameable rules m) (hp : Passes m (.condition v))
    (horder : ¬ (Entry.condition v).Orders rules) : (∃ p, item rules v = .ok p) ↔ Whole v := by
  obtain ⟨k, o, w, hparts, f, op, known, ho, fits⟩ := passes_condition_iff.mp hp
  obtain ⟨hf, hs⟩ := field?_eq_some known
  have hwhole : Whole v ↔ (∃ c, Condition.ofValue v = .ok c) ∧
      ((∃ c, op = .comparison c) → isComparable w) := by
    rw [exists_read hparts hs ho]
    refine ⟨fun h => h k o w op hparts ho, fun h k' o' w' op' hparts' ho' => ?_⟩
    cases hparts.symm.trans hparts'
    cases ho.symm.trans ho'
    exact h
  have hcompiles : ∀ c, Condition.ofValue v = .ok c →
      ((∃ p, condition rules c = .ok p) ↔ ((∃ c, op = .comparison c) → isComparable w)) := by
    intro c hc
    obtain ⟨hfield, hop, hw⟩ := parts_of_read hparts hs ho hc
    obtain ⟨column, hcolumn⟩ := Option.isSome_iff_exists.mp (hn f hf)
    refine exists_condition hop hw (hfield ▸ hcolumn) fits fun he => horder ?_
    exact item_eq_unordered.mp (bind_eq_error.mpr (.inr ⟨c, hc, he⟩))
  rw [hwhole]
  refine exists_bind.trans ⟨?_, ?_⟩
  · rintro ⟨c, hc, h⟩
    exact ⟨⟨c, hc⟩, (hcompiles c hc).mp h⟩
  · rintro ⟨⟨c, hc⟩, h⟩
    exact ⟨c, hc, (hcompiles c hc).mpr h⟩

theorem exists_equality (hn : Nameable rules m) {k : Value} (hp : Passes m (.equality k v)) :
    ∃ p, equality rules k v = .ok p := by
  have hknown : ∃ f, ModelOf.field? m k = some f := by
    cases hp with
    | absent known | equality known => exact ⟨_, known⟩
  obtain ⟨f, known⟩ := hknown
  obtain ⟨c, hc⟩ := exists_name? hn known
  exact exists_equality_of_name v hc

/-- How a filter compiles: to nothing if it is absent or empty, always if it is an equality map, and
if it is a list just where each item keeps to what is asked of it. Otherwise it is refused at an item that
does not, or fails in the report if something of that item cannot be written out. -/
structure Compiles (rules : Naming) (v : Value) : Prop where
  absent : v = .none → ofValue rules v = .ok []
  formed : v ≠ .none → ∃ es, entries? v = some es ∧
    ∀ f, ofValue rules v = .ok f → f.length = es.length
  map : v.entries?.isSome → ∃ f, ofValue rules v = .ok f
  list : ∀ xs, v.items? = some xs → (∀ x ∈ xs, ¬ (Entry.condition x).Orders rules) →
    ((∃ f, ofValue rules v = .ok f) ↔ ∀ x ∈ xs, Whole x) ∧
      ∀ e, ofValue rules v = .error e → ∃ x ∈ xs, ¬ Whole x ∧ e.OfQuery [x]

/-- A filter of which all entries are let through. -/
theorem Cleared.compiles (hn : Nameable rules m) (hv : v = .none ∨ (entries? v).isSome)
    (hc : Cleared m v) : Compiles rules v where
  absent := by
    rintro rfl
    rfl
  formed hne := by
    obtain ⟨es, hes⟩ := Option.isSome_iff_exists.mp (hv.resolve_left hne)
    refine ⟨es, hes, fun f hf => ?_⟩
    rw [ofValue_of_entries rules hes] at hf
    exact (mapM_eq_ok.mp hf).length_eq.symm
  map hsome := by
    obtain ⟨fields, hfields⟩ := Option.isSome_iff_exists.mp hsome
    have hes := entries?_of_map hfields
    rw [ofValue_of_entries rules hes, exists_mapM]
    intro e he
    have hp := hc _ hes e he
    obtain ⟨e', -, rfl⟩ := List.mem_map.mp he
    exact exists_equality hn hp
  list xs hi horder := by
    have hes := entries?_of_items? hi
    have hitems : ∀ x ∈ xs, (∃ p, item rules x = .ok p) ↔ Whole x := fun x hx =>
      exists_item hn (hc _ hes _ (List.mem_map_of_mem hx)) (horder x hx)
    refine ⟨?_, fun e he => ?_⟩
    · rw [ofValue_of_entries rules hes, exists_mapM, List.forall_mem_map]
      exact forall₂_congr hitems
    · rw [ofValue_of_entries rules hes] at he
      obtain ⟨entry, hmem, he⟩ := exists_of_mapM_error he
      obtain ⟨x, hx, rfl⟩ := List.mem_map.mp hmem
      refine ⟨x, hx, fun hwhole => ?_, (fails_item rules x e he).resolve_right ?_⟩
      · obtain ⟨p, hp⟩ := (hitems x hx).mpr hwhole
        cases he.symm.trans hp
      · rintro rfl
        exact horder x hx (compile_eq_unordered.mp he)

theorem formed_of_validateFilter {r : Result} (hr : validateFilter m v = .ok r)
    (hnone : r.findings = []) : (v = .none ∨ (entries? v).isSome) ∧ Cleared m v := by
  have hj := judged_of_validateFilter hr
  rw [hnone] at hj
  refine ⟨?_, hj.cleared⟩
  generalize hfound : ([] : List Finding) = found at hj
  cases hj with
  | absent => exact .inl rfl
  | entries hes => exact .inr (Option.isSome_iff_exists.mpr ⟨_, hes⟩)
  | neither _ _ some => exact absurd hfound.symm some

end Schema

end TableQuery
