import TableQuery.Proofs.Filter.Varies
import TableQuery.Proofs.Query.Parts

/-! Queries that differ in their values alone, and the statements that are built from them. -/

namespace TableQuery
namespace Query
open Outcome

/-- The same bound, or another integer that is bound with the same type. -/
inductive BoundVaries : Coerce.Whole → Coerce.Whole → Prop
  | same (m : Coerce.Whole) : BoundVaries m m
  | int {m n : Int} (kin : Value.Kin (.int m) (.int n)) : BoundVaries (.int m) (.int n)

structure Varies (s s' : State) : Prop where
  table : s.table = s'.table
  projection : s.projection = s'.projection
  filter : Filter.Varies s.filter s'.filter
  order : s.order = s'.order
  take : Option.Rel BoundVaries s.take s'.take
  skip : Option.Rel BoundVaries s.skip s'.skip

inductive RecordVaries : Value → Value → Prop
  | same (v : Value) : RecordVaries v v
  | entries {v w : Value} {es es' : List (Value × Value)} (entries : v.entries? = some es)
    (others : w.entries? = some es')
    (h : List.Forall₂ (fun e e' => e.1 = e'.1 ∧ e.2.Kin e'.2) es es') : RecordVaries v w

/-- Two records that have other values under the same keys, or two batches of such. -/
inductive DataVaries : Value → Value → Prop
  | record {v w : Value} (h : RecordVaries v w) : DataVaries v w
  | batch {v w : Value} {xs ys : List Value} (items : v.items? = some xs)
    (others : w.items? = some ys) (h : List.Forall₂ RecordVaries xs ys) : DataVaries v w

/-- Bounds that are the same or related integers are read as related integers. -/
theorem rel_bound? {R : Coerce.Whole → Coerce.Whole → Prop} {S : Int → Int → Prop} (refl : ∀ n, S n n)
    (ints : ∀ {m n}, R m n → m = n ∨ ∃ x y, m = .int x ∧ n = .int y ∧ S x y)
    {m n : Option Coerce.Whole} {x y : Option Int} (h : Option.Rel R m n)
    (hx : bound? m = .ok x) (hy : bound? n = .ok y) : Option.Rel S x y := by
  cases h with
  | none =>
    cases hx
    cases hy
    exact .none
  | some h =>
    rcases ints h with rfl | ⟨k, j, rfl, rfl, hkj⟩
    · cases hx.symm.trans hy
      cases x with
      | none => exact .none
      | some z => exact .some (refl z)
    · cases hx
      cases hy
      exact .some hkj

theorem bound?_alike {m n : Option Coerce.Whole} {x y : Option Int} (h : Option.Rel BoundVaries m n)
    (hx : bound? m = .ok x) (hy : bound? n = .ok y) : BoundsAlike x y := by
  refine rel_bound? (S := fun m n => Cast.ofValue? (.int m) = Cast.ofValue? (.int n)) (fun _ => rfl)
    (fun {m n} hmn => ?_) h hx hy
  cases hmn with
  | same => exact .inl rfl
  | int kin => exact .inr ⟨_, _, rfl, rfl, kin.cast⟩

/-- The keys of a record do not vary. -/
theorem RecordVaries.keys {v w : Value} {es es' : List (Value × Value)} (h : RecordVaries v w)
    (hv : record? v = some es) (hw : record? w = some es') : es.map Prod.fst = es'.map Prod.fst := by
  cases h with
  | same =>
    cases hv.symm.trans hw
    rfl
  | entries entries others h =>
    cases entries.symm.trans (record?_eq_some.mp hv).1
    cases others.symm.trans (record?_eq_some.mp hw).1
    rw [← List.forall₂_eq_eq_eq, List.forall₂_map_left_iff, List.forall₂_map_right_iff]
    exact h.imp fun _ _ he => he.1

theorem items?_of_record {v : Value} {es : List (Value × Value)} (h : record? v = some es) :
    v.items? = none := by
  have he := (record?_eq_some.mp h).1
  cases v with
  | map es => rfl
  | frozen es => rfl
  | _ => cases he

theorem DataVaries.keys {v w : Value} {es es' : List (Value × Value)} (h : DataVaries v w)
    (hv : record? v = some es) (hw : record? w = some es') : es.map Prod.fst = es'.map Prod.fst := by
  cases h with
  | record h => exact h.keys hv hw
  | batch items others h =>
    rw [items?_of_record hv] at items
    cases items

/-- The names of a payload are those of its keys. -/
theorem payload_names {rules : Naming} {es es' : List (Value × Value)}
    {row row' : List (String × Value)} (hk : es.map Prod.fst = es'.map Prod.fst)
    (h : payload rules es = .ok row) (h' : payload rules es' = .ok row') :
    row.map Prod.fst = row'.map Prod.fst := by
  have hnames : ∀ {es : List (Value × Value)} {row : List (String × Value)},
      payload rules es = .ok row →
      List.Forall₂ (fun k n => rules.column.name? k = some n) (es.map Prod.fst)
        (row.map Prod.fst) := by
    intro es row h
    rw [List.forall₂_map_left_iff, List.forall₂_map_right_iff]
    exact (payload_eq_ok.mp h).1.imp fun _ _ he => he.1
  refine List.right_unique_forall₂' (fun k n m hn hm => ?_) (hnames h) (hk ▸ hnames h')
  exact Option.some.inj (hn.symm.trans hm)

/-- So are those of the rows of a batch. -/
theorem batch_names {rules : Naming} {batch batch' : List (List (Value × Value))}
    {rows rows' : List (List (String × Value))}
    (hk : List.Forall₂ (fun es es' => es.map Prod.fst = es'.map Prod.fst) batch batch')
    (h : List.Forall₂ (fun r row => payload rules r = .ok row) batch rows)
    (h' : List.Forall₂ (fun r row => payload rules r = .ok row) batch' rows') :
    List.Forall₂ (fun r r' => r.map Prod.fst = r'.map Prod.fst) rows rows' := by
  induction hk generalizing rows rows' with
  | nil =>
    cases h
    cases h'
    exact .nil
  | cons he _ ih =>
    cases h with
    | cons hp hps =>
      cases h' with
      | cons hq hqs => exact .cons (payload_names he hp hq) (ih hps hqs)

theorem records_keys {xs ys : List Value} {batch batch' : List (List (Value × Value))}
    (h : List.Forall₂ RecordVaries xs ys)
    (hx : List.Forall₂ (fun v es => record? v = some es) xs batch)
    (hy : List.Forall₂ (fun v es => record? v = some es) ys batch') :
    List.Forall₂ (fun es es' => es.map Prod.fst = es'.map Prod.fst) batch batch' := by
  induction h generalizing batch batch' with
  | nil =>
    cases hx
    cases hy
    exact .nil
  | cons he _ ih =>
    cases hx with
    | cons hv hvs =>
      cases hy with
      | cons hw hws => exact .cons (he.keys hv hw) (ih hvs hws)

theorem DataVaries.items {v w : Value} {xs ys : List Value} (h : DataVaries v w)
    (hv : v.items? = some xs) (hw : w.items? = some ys) : List.Forall₂ RecordVaries xs ys := by
  cases h with
  | record h =>
    cases h with
    | same =>
      cases hv.symm.trans hw
      exact List.forall₂_same.mpr fun v _ => .same v
    | entries entries others h =>
      cases v with
      | map es => cases hv
      | frozen es => cases hv
      | _ => cases entries
  | batch items others h =>
    cases items.symm.trans hv
    cases others.symm.trans hw
    exact h

variable {rules : Naming} {s s' : State} {data data' : Value} {st st' : Statement}

theorem Varies.parts (h : Varies s s') : target rules (.str s.table) = target rules (.str s'.table) ∧
    returning rules s = returning rules s' := by
  rw [returning, returning, h.table, h.projection]
  exact ⟨rfl, rfl⟩

/-- Queries that differ in values alone are built into statements that do so. -/
theorem alike_of_build {kind : StatementKind} (hs : Varies s s') (hd : DataVaries data data')
    (h : build rules kind s data = .ok st) (h' : build rules kind s' data' = .ok st') :
    st.Alike False st' := by
  obtain ⟨htarget, hreturning⟩ := @hs.parts rules
  cases kind with
  | select =>
    obtain ⟨c, t, f, order, take, skip, hc, ht, hf, ho, hl, hk, rfl⟩ := select_eq_ok.mp h
    obtain ⟨c', t', f', order', take', skip', hc', ht', hf', ho', hl', hk', rfl⟩ :=
      select_eq_ok.mp h'
    cases hc.symm.trans (hreturning.trans hc')
    cases ht.symm.trans (htarget.trans ht')
    rw [hs.order] at ho
    cases ho.symm.trans ho'
    exact .select c t order (hs.filter.alike hf hf') (bound?_alike hs.take hl hl')
      (bound?_alike hs.skip hk hk')
  | count =>
    obtain ⟨t, f, ht, hf, rfl⟩ := count_eq_ok.mp h
    obtain ⟨t', f', ht', hf', rfl⟩ := count_eq_ok.mp h'
    cases ht.symm.trans (htarget.trans ht')
    exact .count t (hs.filter.alike hf hf')
  | insert =>
    obtain ⟨es, row, t, c, hr, hp, ht, hc, rfl⟩ := insert_eq_ok.mp h
    obtain ⟨es', row', t', c', hr', hp', ht', hc', rfl⟩ := insert_eq_ok.mp h'
    cases hc.symm.trans (hreturning.trans hc')
    cases ht.symm.trans (htarget.trans ht')
    have hnames := payload_names (hd.keys hr hr') hp hp'
    rw [hnames]
    refine .insert t _ c ?_
    simpa using congrArg List.length hnames
  | insertMany =>
    obtain ⟨items, batch, rows, t, c, hi, hb, -, hrows, ht, hc, rfl⟩ := insertMany_eq_ok h
    obtain ⟨items', batch', rows', t', c', hi', hb', -, hrows', ht', hc', rfl⟩ := insertMany_eq_ok h'
    cases hc.symm.trans (hreturning.trans hc')
    cases ht.symm.trans (htarget.trans ht')
    have hnames := batch_names (records_keys (hd.items hi hi') (records_eq_ok.mp hb)
      (records_eq_ok.mp hb')) hrows hrows'
    -- A batch is inserted under the names of its first row.
    have hfirst : (rows.headD []).map Prod.fst = (rows'.headD []).map Prod.fst := by
      cases hnames with
      | nil => rfl
      | cons hn _ => exact hn
    rw [hfirst]
    refine .insertMany t _ c ?_
    rw [List.forall₂_map_left_iff, List.forall₂_map_right_iff]
    exact hnames.imp fun r r' _ => by simp only [List.length_map]
  | update =>
    obtain ⟨es, as, t, f, c, -, hr, hp, ht, hf, hc, rfl⟩ := update_eq_ok.mp h
    obtain ⟨es', as', t', f', c', -, hr', hp', ht', hf', hc', rfl⟩ := update_eq_ok.mp h'
    cases hc.symm.trans (hreturning.trans hc')
    cases ht.symm.trans (htarget.trans ht')
    have hnames := payload_names (hd.keys hr hr') hp hp'
    rw [← List.forall₂_eq_eq_eq, List.forall₂_map_left_iff, List.forall₂_map_right_iff] at hnames
    exact .update t c hnames (hs.filter.alike hf hf')
  | delete =>
    obtain ⟨t, f, c, -, ht, hf, hc, rfl⟩ := delete_eq_ok.mp h
    obtain ⟨t', f', c', -, ht', hf', hc', rfl⟩ := delete_eq_ok.mp h'
    cases hc.symm.trans (hreturning.trans hc')
    cases ht.symm.trans (htarget.trans ht')
    exact .delete t c (hs.filter.alike hf hf')

end Query
end TableQuery
