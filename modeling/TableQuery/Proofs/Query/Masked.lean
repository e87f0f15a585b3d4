import TableQuery.Proofs.Query.Varies
import TableQuery.Proofs.Sql.Masked

/-! Queries that are the same but for what the folded text of a statement hides. -/

namespace TableQuery

/-- Neither nothing, nor a truth value, nor a value that holds others. -/
def Value.isScalar : Value → Bool
  | .int _ | .float _ | .str _ | .bytes _ | .token _ => true
  | _ => false

namespace Filter

/-- An operand and another in its place: a scalar for one of the same type, or a list for a list. -/
inductive OperandMasked (d : Dialect) : Value → Value → Prop
  | same (v : Value) : OperandMasked d v v
  | scalar {v w : Value} (left : v.isScalar) (right : w.isScalar) (type : d.cast? v = d.cast? w) :
    OperandMasked d v w
  | members {v w : Value} {xs ys : List Value} (items : v.items? = some xs)
    (others : w.items? = some ys) : OperandMasked d v w

/-- A condition and the same one with another operand, as a value of its own or as a mapping. -/
inductive SpecMasked (d : Dialect) : Value → Value → Prop
  | same (v : Value) : SpecMasked d v v
  | typed {c : Condition Value} {w : Value} (g g' : Given) (h : ∀ v ∈ c.value?, OperandMasked d v w) :
    SpecMasked d (.condition c g) (.condition (c.map fun _ => w) g')
  | parts {v w : Value} {es es' : List (Value × Value)} (entries : v.entries? = some es)
    (others : w.entries? = some es')
    (h : List.Forall₂ (Condition.SameButOperand (OperandMasked d)) es es') : SpecMasked d v w

inductive EntryMasked (d : Dialect) : Entry → Entry → Prop
  | equality (k : Value) {v w : Value} (h : OperandMasked d v w) :
    EntryMasked d (.equality k v) (.equality k w)
  | condition {v w : Value} (h : SpecMasked d v w) : EntryMasked d (.condition v) (.condition w)

/-- Two filters that are the same, or the same entry by entry but for operands. -/
inductive Masked (d : Dialect) : Value → Value → Prop
  | same (v : Value) : Masked d v v
  | entries {v w : Value} {es es' : List Entry} (entries : entries? v = some es)
    (others : entries? w = some es') (h : List.Forall₂ (EntryMasked d) es es') : Masked d v w

end Filter

namespace Query

/-- The same bound, or another number that the dialect writes with the same type. -/
inductive BoundMasked (d : Dialect) : Coerce.Whole → Coerce.Whole → Prop
  | same (m : Coerce.Whole) : BoundMasked d m m
  | int {m n : Int} (type : d.cast? (.int m) = d.cast? (.int n)) : BoundMasked d (.int m) (.int n)

structure Masked (d : Dialect) (s s' : State) : Prop where
  table : s.table = s'.table
  projection : s.projection = s'.projection
  filter : Filter.Masked d s.filter s'.filter
  order : s.order = s'.order
  take : Option.Rel (BoundMasked d) s.take s'.take
  skip : Option.Rel (BoundMasked d) s.skip s'.skip

end Query

/-! The predicates of masked filters are laid out alike under the mask. -/

namespace Filter
open Layout

variable {d : Dialect} {v w : Value}

theorem OperandMasked.cast? (h : OperandMasked d v w) : d.cast? v = d.cast? w := by
  cases h with
  | same => rfl
  | scalar _ _ type => exact type
  | members items others =>
    have hnone : ∀ {u : Value} {us : List Value}, u.items? = some us → d.cast? u = d.shown none := by
      intro u us hu
      cases u with
      | list | tuple | sort => rfl
      | _ => cases hu
    rw [hnone items, hnone others]

/-- Only itself stands for a value that is neither a scalar nor a list. -/
theorem OperandMasked.eq {u : Value} (h : OperandMasked d v w) (hs : u.isScalar = false)
    (hi : u.items? = none) (hu : v = u ∨ w = u) : v = w := by
  cases h with
  | same => rfl
  | scalar left right =>
    rcases hu with rfl | rfl
    · cases hs.symm.trans left
    · cases hs.symm.trans right
  | members items others =>
    rcases hu with rfl | rfl
    · cases hi.symm.trans items
    · cases hi.symm.trans others

theorem Compares.masked {c : String} {o : Comparison} {p q : Predicate} (h : Compares c o v p)
    (h' : Compares c o w q) (hv : OperandMasked d v w) :
    (predicate d p).masked d = (predicate d q).masked d := by
  cases h with
  | equalFlag b =>
    obtain rfl := hv.eq rfl rfl (.inl rfl)
    cases h' with
    | equalFlag => rfl
    | parameter _ _ hb => exact absurd rfl (hb b)
  | unequalFlag b =>
    obtain rfl := hv.eq rfl rfl (.inl rfl)
    cases h' with
    | unequalFlag => rfl
    | parameter _ _ hb => exact absurd rfl (hb b)
  | parameter o v hb =>
    cases h' with
    | equalFlag b => exact absurd (hv.eq rfl rfl (.inr rfl)) (hb b)
    | unequalFlag b => exact absurd (hv.eq rfl rfl (.inr rfl)) (hb b)
    | parameter => exact masked_compare c o hv.cast?

theorem States.masked {rules : Naming} {c : Condition Value} {p q : Predicate} (h : States rules c p)
    (h' : States rules (c.map fun _ => w) q) (hw : ∀ v ∈ c.value?, OperandMasked d v w) :
    (predicate d p).masked d = (predicate d q).masked d := by
  cases h with
  | comparison name comparable compares =>
    cases h' with
    | comparison name' comparable' compares' =>
      cases name.symm.trans name'
      exact compares.masked compares' (hw _ rfl)
  | like name text =>
    cases h' with
    | like name' text' =>
      cases name.symm.trans name'
      exact masked_like _ _ _ _
  | membership name items ne =>
    cases h' with
    | membership name' items' ne' =>
      cases name.symm.trans name'
      exact masked_oneOf _ _ _
  | isNull name =>
    cases h' with
    | isNull name' =>
      cases name.symm.trans name'
      rfl
  | isNotNull name =>
    cases h' with
    | isNotNull name' =>
      cases name.symm.trans name'
      rfl

theorem SpecMasked.condition {c c' : Condition Value} (h : SpecMasked d v w)
    (hc : Condition.ofValue v = .ok c) (hc' : Condition.ofValue w = .ok c') :
    ∃ u, c' = c.map (fun _ => u) ∧ ∀ x ∈ c.value?, OperandMasked d x u := by
  cases h with
  | same =>
    cases hc.symm.trans hc'
    exact Condition.exists_map_eq .same c
  | typed g g' h =>
    cases hc
    cases hc'
    exact ⟨_, rfl, h⟩
  | parts entries others h => exact Condition.ofValue_apart .same entries others h hc hc'

theorem Conjunct.masked {rules : Naming} {e e' : Entry} {p q : Predicate} (h : Conjunct rules e p)
    (h' : Conjunct rules e' q) (he : EntryMasked d e e') :
    (predicate d p).masked d = (predicate d q).masked d := by
  cases he with
  | equality k hv =>
    cases h with
    | absent name =>
      obtain rfl := hv.eq rfl rfl (.inl rfl)
      cases h' with
      | absent name' =>
        cases name.symm.trans name'
        rfl
      | equality name' present compares => exact absurd rfl present
    | equality name present compares =>
      cases h' with
      | absent name' => exact absurd (hv.eq rfl rfl (.inr rfl)) present
      | equality name' present' compares' =>
        cases name.symm.trans name'
        exact compares.masked compares' hv
  | condition hv =>
    cases h with
    | condition read states =>
      cases h' with
      | condition read' states' =>
        obtain ⟨u, rfl, hu⟩ := hv.condition read read'
        exact states.masked states' hu

theorem Masked.predicates {rules : Naming} {f g : Filter} (h : Masked d v w)
    (hf : ofValue rules v = .ok f) (hg : ofValue rules w = .ok g) :
    List.Forall₂ (fun p q => (predicate d p).masked d = (predicate d q).masked d) f g := by
  cases h with
  | same =>
    cases hf.symm.trans hg
    exact List.forall₂_same.mpr fun _ _ => rfl
  | entries entries others hv => exact rel_of_entries Conjunct.masked entries others hv hf hg

end Filter

namespace Query

variable {rules : Naming} {d : Dialect} {s s' : State} {data data' : Value} {st st' : Statement}

theorem bound?_masked {m n : Option Coerce.Whole} {x y : Option Int} (h : Option.Rel (BoundMasked d) m n)
    (hx : bound? m = .ok x) (hy : bound? n = .ok y) :
    Option.Rel (fun m n => d.cast? (.int m) = d.cast? (.int n)) x y := by
  refine rel_bound? (S := fun m n => d.cast? (.int m) = d.cast? (.int n)) (fun _ => rfl)
    (fun {m n} hmn => ?_) h hx hy
  cases hmn with
  | same => exact .inl rfl
  | int type => exact .inr ⟨_, _, rfl, rfl, type⟩

/-- Selects of queries that are the same under the mask have one folded text. -/
theorem Masked.folded (h : Masked d s s') (hb : build rules .select s data = .ok st)
    (hb' : build rules .select s' data' = .ok st') : st.folded d = st'.folded d := by
  obtain ⟨c, t, f, order, take, skip, hc, ht, hf, ho, hl, hk, rfl⟩ := select_eq_ok.mp hb
  obtain ⟨c', t', f', order', take', skip', hc', ht', hf', ho', hl', hk', rfl⟩ := select_eq_ok.mp hb'
  rw [returning, h.projection] at hc
  cases hc.symm.trans hc'
  rw [h.table] at ht
  cases ht.symm.trans ht'
  rw [h.order] at ho
  cases ho.symm.trans ho'
  exact Layout.folded_select c t order (h.filter.predicates hf hf') (bound?_masked h.take hl hl')
    (bound?_masked h.skip hk hk')

end Query
end TableQuery
