import TableQuery.Proofs.Filter.Conjunct
import TableQuery.Proofs.Sql.Alike
import TableQuery.Proofs.Value.Keys

/-! Filters that differ in their values alone. -/

namespace TableQuery
namespace Filter

/-- An operand and another in its place: a value for a value of its kind, or members for members. -/
inductive OperandVaries : Value → Value → Prop
  | value {v w : Value} (kin : v.Kin w) : OperandVaries v w
  | members {v w : Value} {xs ys : List Value} (items : v.items? = some xs)
    (others : w.items? = some ys) (kin : List.Forall₂ Value.Kin xs ys) : OperandVaries v w

/-- The same condition with another operand. -/
def ConditionVaries (c c' : Condition Value) : Prop :=
  ∃ w, c' = c.map (fun _ => w) ∧ ∀ v ∈ c.value?, OperandVaries v w

/-- An entry of a condition that is a mapping. Only what stands under `value` may be another. -/
def PartVaries (e e' : Value × Value) : Prop :=
  e.1 = e'.1 ∧ (e.2 = e'.2 ∨ (e.1.text? = some "value" ∧ OperandVaries e.2 e'.2))

inductive SpecVaries : Value → Value → Prop
  | same (v : Value) : SpecVaries v v
  | typed {c c' : Condition Value} (g g' : Given) (h : ConditionVaries c c') :
    SpecVaries (.condition c g) (.condition c' g')
  | parts {v w : Value} {es es' : List (Value × Value)} (entries : v.entries? = some es)
    (others : w.entries? = some es') (h : List.Forall₂ PartVaries es es') : SpecVaries v w

inductive EntryVaries : Entry → Entry → Prop
  | equality (k : Value) {v w : Value} (kin : v.Kin w) : EntryVaries (.equality k v) (.equality k w)
  | condition {v w : Value} (h : SpecVaries v w) : EntryVaries (.condition v) (.condition w)

/-- Two filters that are the same, or the same entry by entry but for values. -/
inductive Varies : Value → Value → Prop
  | same (v : Value) : Varies v v
  | entries {v w : Value} {es es' : List Entry} (entries : entries? v = some es)
    (others : entries? w = some es') (h : List.Forall₂ EntryVaries es es') : Varies v w

end Filter

/-! Reading a condition from a mapping does not look at its value. -/

namespace Condition

theorem ofValue_eq_ok {v : Value} {es : List (Value × Value)} {c : Condition Value}
    (he : v.entries? = some es) : ofValue v = .ok c ↔
      ∃ o, ((Value.lookup (.str "operator") es).getD .none).text?.bind Operator.ofText? = some o ∧
        ofEntries (.ofOperator o) es = .ok c := by
  have hget : v.get "operator" = (Value.lookup (.str "operator") es).getD .none := by
    rw [Value.get, he]
    rfl
  unfold ofValue
  split
  · cases he
  · simp only [he, hget]
    cases ((Value.lookup (.str "operator") es).getD .none).text?.bind Operator.ofText? with
    | none => simp
    | some o =>
      simp only [Option.some.injEq, exists_eq_left']
      cases ofEntries (.ofOperator o) es with
      | error issues =>
        dsimp only
        split <;> simp
      | ok c' => simp

/-- Two entries under one key. They differ in what stands under `value` alone, and there they are
related. -/
def SameButOperand (R : Value → Value → Prop) (e e' : Value × Value) : Prop :=
  e.1 = e'.1 ∧ (e.2 = e'.2 ∨ (e.1.text? = some "value" ∧ R e.2 e'.2))

variable {es es' : Entries} {R : Value → Value → Prop}

theorem keys_eq (h : List.Forall₂ (SameButOperand R) es es') : es.map Prod.fst = es'.map Prod.fst := by
  rw [← List.forall₂_eq_eq_eq, List.forall₂_map_left_iff, List.forall₂_map_right_iff]
  exact h.imp fun _ _ he => he.1

theorem lookup_eq (h : List.Forall₂ (SameButOperand R) es es') {n : String} (hn : n ≠ "value") :
    Value.lookup (.str n) es = Value.lookup (.str n) es' := by
  have hrel : Option.Rel (· = ·) (Value.lookup (.str n) es) (Value.lookup (.str n) es') := by
    refine Value.rel_lookup (h.imp fun e e' he => ⟨he.1, fun hk => he.2.resolve_right fun hv => hn ?_⟩)
    exact Option.some.inj ((Value.same_str_iff.mp hk).symm.trans hv.1)
  generalize Value.lookup (.str n) es = found at hrel ⊢
  generalize Value.lookup (.str n) es' = found' at hrel ⊢
  cases hrel with
  | none => rfl
  | some he => exact congrArg some he

/-- What stands under `value`, or nothing where nothing does. -/
def operand (es : Entries) : Value := (Value.lookup (.str "value") es).getD .none

theorem required_eq {α : Type} (h : List.Forall₂ (SameButOperand R) es es') {n : String} (hn : n ≠ "value")
    (read : Value → Except Problem α) : required es n read = required es' n read := by
  unfold required
  rw [lookup_eq h hn]

theorem extraIssues_eq (h : List.Forall₂ (SameButOperand R) es es') (f : Family) :
    extraIssues f es = extraIssues f es' := by
  have hkeys := keys_eq h
  have hfound : (fun n => Value.hasKey (.str n) es) = fun n => Value.hasKey (.str n) es' :=
    funext fun n => Value.hasKey_congr hkeys (.str n)
  have hissues : ∀ (found : List String) (gs : Entries),
      (gs.filterMap fun e => extraIssue found true e.1) =
        (gs.map Prod.fst).filterMap (extraIssue found true) := by
    intro found gs
    rw [List.filterMap_map]
    rfl
  rw [extraIssues, extraIssues, hfound, hissues, hissues, hkeys]

theorem ofEntries_apart {f : Family} {c : Condition Value} (h : List.Forall₂ (SameButOperand R) es es')
    (hc : ofEntries f es = .ok c) :
    ofEntries f es' = .ok (c.map fun _ => operand es') ∧ ∀ v ∈ c.value?, v = operand es := by
  unfold ofEntries at hc ⊢
  rw [required_eq h (by decide), required_eq h (by decide), lookup_eq h (by decide),
    extraIssues_eq h] at hc
  dsimp only at hc ⊢
  split at hc
  · split at hc <;> cases hc <;> exact ⟨rfl, by simp [value?, operand]⟩
  · cases hc

theorem operand_rel (refl : ∀ v, R v v) (h : List.Forall₂ (SameButOperand R) es es') :
    R (operand es) (operand es') := by
  have hrel : Option.Rel R (Value.lookup (.str "value") es) (Value.lookup (.str "value") es') := by
    refine Value.rel_lookup (h.imp fun e e' he => ⟨he.1, fun _ => ?_⟩)
    rcases he.2 with hv | ⟨-, hv⟩
    · rw [hv]
      exact refl _
    · exact hv
  unfold operand
  generalize Value.lookup (.str "value") es = found at hrel ⊢
  generalize Value.lookup (.str "value") es' = found' at hrel ⊢
  cases hrel with
  | none => exact refl _
  | some hv => exact hv

/-- The condition that is read has the value that is given, and is the same for any other. -/
theorem ofValue_apart {v w : Value} {c c' : Condition Value} (refl : ∀ u, R u u)
    (he : v.entries? = some es) (he' : w.entries? = some es')
    (h : List.Forall₂ (SameButOperand R) es es') (hc : ofValue v = .ok c) (hc' : ofValue w = .ok c') :
    ∃ u, c' = c.map (fun _ => u) ∧ ∀ x ∈ c.value?, R x u := by
  obtain ⟨o, ho, hc⟩ := (ofValue_eq_ok he).mp hc
  obtain ⟨o', ho', hc'⟩ := (ofValue_eq_ok he').mp hc'
  rw [lookup_eq h (by decide)] at ho
  cases ho.symm.trans ho'
  obtain ⟨hread, hoperand⟩ := ofEntries_apart h hc
  cases hread.symm.trans hc'
  exact ⟨_, rfl, fun x hx => hoperand x hx ▸ operand_rel refl h⟩

/-- A condition has its own value, or any if it has none. -/
theorem exists_map_eq (refl : ∀ v, R v v) (c : Condition Value) :
    ∃ u, c = c.map (fun _ => u) ∧ ∀ x ∈ c.value?, R x u := by
  have hsame : ∀ {v : Value}, ∀ u ∈ some v, R u v := by
    rintro v u ⟨⟩
    exact refl v
  cases c with
  | base f => exact ⟨.none, rfl, by simp [value?]⟩
  | comparison f o v => exact ⟨v, rfl, hsame⟩
  | like f o v m => exact ⟨v, rfl, hsame⟩
  | membership f v => exact ⟨v, rfl, hsame⟩
  | nullCheck f o v => exact ⟨v, rfl, hsame⟩

end Condition

/-! The predicates of filters that differ in values alone do so, too. -/

namespace Filter
open Condition

theorem ConditionVaries.refl (c : Condition Value) : ConditionVaries c c :=
  exists_map_eq (R := OperandVaries) (fun v => .value (.same v)) c

theorem SpecVaries.condition {v w : Value} {c c' : Condition Value} (h : SpecVaries v w)
    (hc : Condition.ofValue v = .ok c) (hc' : Condition.ofValue w = .ok c') :
    ConditionVaries c c' := by
  cases h with
  | same =>
    cases hc.symm.trans hc'
    exact .refl c
  | typed g g' h =>
    cases hc
    cases hc'
    exact h
  | parts entries others h =>
    exact ofValue_apart (R := OperandVaries) (fun v => .value (.same v)) entries others h hc hc'

theorem Compares.alike {c : String} {o : Comparison} {v w : Value} {p q : Predicate}
    (h : Compares c o v p) (h' : Compares c o w q) (kin : v.Kin w) : p.Alike False q := by
  cases h with
  | equalFlag b =>
    cases kin <;> cases h' with
    | equalFlag b' => exact .isFlag c false False.elim
    | parameter _ _ hb => exact absurd rfl (hb _)
  | unequalFlag b =>
    cases kin <;> cases h' with
    | unequalFlag b' => exact .isFlag c true False.elim
    | parameter _ _ hb => exact absurd rfl (hb _)
  | parameter o v hb =>
    have hb' : ∀ b, w ≠ .bool b := by
      rintro b rfl
      cases kin with
      | same => exact hb b rfl
      | bool a => exact hb a rfl
    cases h' with
    | equalFlag b => exact absurd rfl (hb' b)
    | unequalFlag b => exact absurd rfl (hb' b)
    | parameter => exact .compare c o kin

theorem items?_of_isComparable {v : Value} (h : isComparable v) : v.items? = none := by
  cases v with
  | list xs => cases h
  | tuple xs => cases h
  | sort c d => cases h
  | _ => rfl

theorem States.alike {rules : Naming} {c c' : Condition Value} {p q : Predicate}
    (h : States rules c p) (h' : States rules c' q) (hv : ConditionVaries c c') :
    p.Alike False q := by
  obtain ⟨w, rfl, hoperand⟩ := hv
  -- Only the operands differ, so that both are predicates of one kind on one column.
  cases h with
  | comparison name comparable compares =>
    cases h' with
    | comparison name' comparable' compares' =>
      cases name.symm.trans name'
      refine compares.alike compares' ?_
      cases hoperand _ rfl with
      | value kin => exact kin
      | members items others kin =>
        rw [items?_of_isComparable comparable] at items
        cases items
  | like name text =>
    cases h' with
    | like name' text' =>
      cases name.symm.trans name'
      exact .like _ _ _ _
  | membership name items ne =>
    cases h' with
    | membership name' items' ne' =>
      cases name.symm.trans name'
      cases hoperand _ rfl with
      | value kin =>
        rw [kin.items?, items'] at items
        cases items
        exact .oneOf _ (List.forall₂_same.mpr fun v _ => .same v) False.elim
      | members hv hw kin =>
        cases items.symm.trans hv
        cases items'.symm.trans hw
        exact .oneOf _ kin False.elim
  | isNull name =>
    cases h' with
    | isNull name' =>
      cases name.symm.trans name'
      exact .isNull _
  | isNotNull name =>
    cases h' with
    | isNotNull name' =>
      cases name.symm.trans name'
      exact .isNotNull _

theorem Conjunct.alike {rules : Naming} {e e' : Entry} {p q : Predicate} (h : Conjunct rules e p)
    (h' : Conjunct rules e' q) (hv : EntryVaries e e') : p.Alike False q := by
  cases hv with
  | equality k kin =>
    cases h with
    | absent name =>
      cases kin
      cases h' with
      | absent name' =>
        cases name.symm.trans name'
        exact .isNull _
      | equality name' present compares => exact absurd rfl present
    | equality name present compares =>
      cases h' with
      | absent name' =>
        cases kin
        exact absurd rfl present
      | equality name' present' compares' =>
        cases name.symm.trans name'
        exact compares.alike compares' kin
  | condition hv =>
    cases h with
    | condition read states =>
      cases h' with
      | condition read' states' => exact states.alike states' (hv.condition read read')

/-- Filters whose entries are related compile to predicates that are. -/
theorem rel_of_entries {rules : Naming} {R : Entry → Entry → Prop} {S : Predicate → Predicate → Prop}
    (conjuncts : ∀ {e e' p q}, Conjunct rules e p → Conjunct rules e' q → R e e' → S p q)
    {v w : Value} {es es' : List Entry} {f g : Filter} (he : entries? v = some es)
    (he' : entries? w = some es') (h : List.Forall₂ R es es') (hf : ofValue rules v = .ok f)
    (hg : ofValue rules w = .ok g) : List.Forall₂ S f g := by
  have hcompiled : ∀ {u : Value} {us : List Entry} {ps : Filter}, entries? u = some us →
      ofValue rules u = .ok ps → List.Forall₂ (Conjunct rules) us ps := by
    intro u us ps hu hps
    rcases ofValue_eq_ok.mp hps with ⟨rfl, -⟩ | ⟨us', hus, hc⟩
    · cases hu
    · cases hu.symm.trans hus
      exact hc
  have hconjuncts := hcompiled he hf
  have hothers := hcompiled he' hg
  clear he he' hf hg hcompiled
  -- Along the entries: each has one conjunct on its side.
  induction h generalizing f g with
  | nil =>
    cases hconjuncts
    cases hothers
    exact .nil
  | cons he _ ih =>
    cases hconjuncts with
    | cons hp hps =>
      cases hothers with
      | cons hq hqs => exact .cons (conjuncts hp hq he) (ih hps hqs)

/-- Filters that differ in values alone compile to predicates that do so. -/
theorem Varies.alike {rules : Naming} {v w : Value} {f g : Filter} (h : Varies v w)
    (hf : ofValue rules v = .ok f) (hg : ofValue rules w = .ok g) : f.Alike False g := by
  cases h with
  | same =>
    cases hf.symm.trans hg
    exact List.forall₂_same.mpr fun p _ => .refl p
  | entries entries others hv => exact rel_of_entries Conjunct.alike entries others hv hf hg

end Filter
end TableQuery
