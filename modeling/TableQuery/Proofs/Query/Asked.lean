import TableQuery.Proofs.Filter.Conjunct
import TableQuery.Proofs.Query.Parts
import TableQuery.Proofs.Sql.Meaning

/-! What a state asks for, part by part, and the query that is read as that. -/

namespace TableQuery

namespace Projection

/-- The columns of a projection: all where nothing is named, else those named, trimmed and in order. -/
inductive Names (rules : Naming) : List Value → Columns → Prop
  | all : Names rules [] .all
  | named {items : List Value} {ns : List String} (ne : ns ≠ [])
    (trimmed : List.Forall₂ (fun v n => rules.column.name? v = some n) items ns)
    (unstarred : Freeze.allColumns ∉ ns) (distinct : ns.Nodup) : Names rules items (.named ns)

theorem repeats_eq_nil {seen ns : List String} :
    repeats seen ns = [] ↔ ns.Nodup ∧ ∀ n ∈ ns, n ∉ seen := by
  induction ns generalizing seen with
  | nil => simp [repeats]
  | cons n ns ih =>
    rw [repeats, Lists.nodup_cons_fresh]
    split
    · rename_i hn
      exact iff_of_false (List.cons_ne_nil _ _) fun h => h.1 (List.contains_iff_mem.mp hn)
    · rename_i hn
      rw [ih]
      exact (and_iff_right (mt List.contains_iff_mem.mpr hn)).symm

theorem name?_eq_some {rules : Naming} {v : Value} {n : String} :
    name? rules v = some n ↔ rules.column.name? v = some n ∧ n ≠ Freeze.allColumns := by
  rw [name?, Option.filter_eq_some_iff]
  simp

theorem filterMap_name? {rules : Naming} {items : List Value} {ns : List String} :
    (items.filter fun v => (name? rules v).isNone) = [] ∧ items.filterMap (name? rules) = ns ↔
      List.Forall₂ (fun v n => name? rules v = some n) items ns := by
  rw [Lists.forall₂_filterMap, List.filter_eq_nil_iff]
  exact and_congr_left' (forall₂_congr fun v _ => by simp [Option.isSome_iff_ne_none])

/-- A projection is taken just where its names are good, and for these names. -/
theorem ofItems_eq_ok {rules : Naming} {items : List Value} {c : Columns} :
    ofItems rules items = .ok c ↔ Names rules items c := by
  constructor
  · intro h
    unfold ofItems at h
    split at h
    · rename_i he
      cases h
      rw [List.isEmpty_iff.mp he]
      exact .all
    · rename_i he
      dsimp only at h
      split at h
      · exact absurd h Outcome.reject_ne_ok
      · rename_i hinvalid
        split at h
        · exact absurd h Outcome.reject_ne_ok
        · rename_i hrepeats
          cases h
          have hnames := filterMap_name?.mp ⟨by simpa using hinvalid, rfl⟩
          refine .named ?_ (hnames.imp fun v n hn => (name?_eq_some.mp hn).1) (fun hm => ?_)
            (repeats_eq_nil.mp (by simpa using hrepeats)).1
          · intro hn
            rw [hn, List.forall₂_nil_right_iff] at hnames
            exact he (by rw [hnames]; rfl)
          · obtain ⟨v, -, hv⟩ := Lists.exists_of_mem_right hnames hm
            exact (name?_eq_some.mp hv).2 rfl
  · intro h
    cases h with
    | all => rfl
    | @named items ns ne trimmed unstarred distinct =>
      have hnames : List.Forall₂ (fun v n => name? rules v = some n) items ns := by
        have hstar : ∀ n ∈ ns, n ≠ Freeze.allColumns := fun n hn he => unstarred (he ▸ hn)
        exact ((List.forall₂_and_left _ _).mpr ⟨hstar, trimmed.flip⟩).flip.imp
          fun v n hn => name?_eq_some.mpr ⟨hn.2, hn.1⟩
      obtain ⟨hf, hns⟩ := filterMap_name?.mpr hnames
      have he : items.isEmpty = false := by
        cases trimmed with
        | nil => exact absurd rfl ne
        | cons _ _ => rfl
      have hrepeats : repeats [] ns = [] := repeats_eq_nil.mpr ⟨distinct, by simp⟩
      simp only [ofItems, he, Bool.false_eq_true, if_false, hf, hns, hrepeats, List.isEmpty_nil,
        Bool.not_true]

theorem Names.ne_nil {rules : Naming} {items : List Value} {c : Columns}
    (h : Names rules items c) : c ≠ .named [] := by
  rintro rfl
  cases h with
  | named ne => exact ne rfl

end Projection

namespace Sorting

/-- The column and the direction of a sort entry. -/
def Names (rules : Naming) (v : Value) (o : String × Direction) : Prop :=
  ∃ c d, entry v = .ok (c, d) ∧ rules.column.name? c = some o.1 ∧ direction? d = some o.2

theorem clause_eq_ok {rules : Naming} {v : Value} {o : String × Direction} :
    clause rules v = .ok o ↔ Names rules v o := by
  constructor
  · intro h
    obtain ⟨⟨c, d⟩, he, h⟩ := Outcome.bind_eq_ok.mp h
    cases hd : direction? d with
    | none =>
      simp only [hd] at h
      exact absurd h Outcome.reject_ne_ok
    | some direction =>
      cases hc : rules.column.name? c with
      | none =>
        simp only [hd, hc] at h
        exact absurd h Outcome.reject_ne_ok
      | some n =>
        simp only [hd, hc] at h
        cases h
        exact ⟨c, d, he, hc, hd⟩
  · rintro ⟨c, d, he, hc, hd⟩
    refine Outcome.bind_eq_ok.mpr ⟨(c, d), he, ?_⟩
    simp only [hd, hc]

theorem ofItems_eq_ok {rules : Naming} {items : List Value} {order : List (String × Direction)} :
    ofItems rules items = .ok order ↔ List.Forall₂ (Names rules) items order := by
  rw [ofItems, Outcome.mapM_eq_ok]
  simp only [clause_eq_ok]

end Sorting

namespace Filter
open Reading

/-- The column and the term that an entry is read as. -/
def Stands (rules : Naming) (d : Dialect) (e : Entry) (r : String × Term) : Prop :=
  ∃ p, Conjunct rules e p ∧ r.1 = p.column ∧ r.2.unnamed = .ofPredicate d p

/-- The terms of a filter, one for each entry; without a filter there are none. -/
def Terms (rules : Naming) (d : Dialect) (v : Value) (rs : List (String × Term)) : Prop :=
  (v = .none ∧ rs = []) ∨ ∃ es, entries? v = some es ∧ List.Forall₂ (Stands rules d) es rs

theorem Conjunct.unique {rules : Naming} {e : Entry} {p q : Predicate} (hp : Conjunct rules e p)
    (hq : Conjunct rules e q) : p = q := by
  cases e with
  | equality k v =>
    have := (equality_eq_ok.mpr hp).symm.trans (equality_eq_ok.mpr hq)
    cases this
    rfl
  | condition spec =>
    have := (item_eq_ok.mpr hp).symm.trans (item_eq_ok.mpr hq)
    cases this
    rfl

/-- The terms of a filter are what its predicates say. -/
theorem terms_iff {rules : Naming} {d : Dialect} {v : Value} {f : Filter}
    {rs : List (String × Term)} (h : ofValue rules v = .ok f) :
    Terms rules d v rs ↔
      rs.map (fun r => (r.1, r.2.unnamed)) = f.map fun p => (p.column, .ofPredicate d p) := by
  rcases ofValue_eq_ok.mp h with ⟨rfl, rfl⟩ | ⟨es, he, hc⟩
  · simp [Terms, entries?, Value.entries?, Value.items?]
  · have hv : v ≠ .none := by
      rintro rfl
      cases he
    simp only [Terms, hv, false_and, false_or, he, Option.some.injEq, exists_eq_left']
    clear he h hv
    induction hc generalizing rs with
    | nil => simp
    | @cons e p es f hp hf ih =>
      rw [List.forall₂_cons_left_iff, List.map_cons, List.map_eq_cons_iff]
      constructor
      · rintro ⟨r, rs, ⟨p', hp', hr⟩, hrs, rfl⟩
        obtain rfl := hp.unique hp'
        exact ⟨r, rs, rfl, by rw [hr.1, hr.2], ih.mp hrs⟩
      · rintro ⟨r, rs, rfl, hr, hrs⟩
        obtain ⟨hcolumn, hterm⟩ := Prod.mk.inj hr
        exact ⟨r, rs, ⟨p, hp, hcolumn, hterm⟩, ih.mpr hrs, rfl⟩

/-- A membership without members is no condition. -/
theorem oneOf_nil_not_mem {rules : Naming} {v : Value} {f : Filter}
    (h : ofValue rules v = .ok f) (c : String) : .oneOf c [] ∉ f := by
  intro hm
  rcases ofValue_eq_ok.mp h with ⟨-, rfl⟩ | ⟨es, -, hc⟩
  · cases hm
  · obtain ⟨e, -, he⟩ := Lists.exists_of_mem_right hc hm
    cases he with
    | equality name present compares => cases compares
    | condition read states =>
      cases states with
      | comparison name comparable compares => cases compares
      | membership name items ne => exact ne rfl

end Filter

namespace Query
open Reading

/-- The query is what the state asks for, part by part. -/
structure Asks (rules : Naming) (d : Dialect) (s : State) (q : Select) : Prop where
  columns : Projection.Names rules (s.projection.getD []) q.columns
  target : ∃ n, rules.name? (.str s.table) = some n ∧ q.target = .ofName rules.qualified n
  filter : Filter.Terms rules d s.filter q.filter
  order : List.Forall₂ (Sorting.Names rules) s.order q.order
  bounds : ∃ take skip, bound? s.take = .ok take ∧ bound? s.skip = .ok skip ∧
    (q.limit.map Place.unnamed, q.offset.map Place.unnamed) = Select.bounds d take skip

theorem target_eq_ok {rules : Naming} {v : Value} {t : Target} :
    target rules v = .ok t ↔ ∃ n, rules.name? v = some n ∧ t = .ofName rules.qualified n := by
  unfold target
  cases rules.name? v with
  | none => simp
  | some n => simp [eq_comm]

/-- A state asks for what its statement says. -/
theorem asks_iff {rules : Naming} {d : Dialect} {s : State} {c : Columns} {t : Target} {f : Filter}
    {order : List (String × Direction)} {take skip : Option Int} {q : Select}
    (h : select rules s = .ok (.select c t f order take skip)) :
    Asks rules d s q ↔ q.unnamed = .ofParts d c t f order take skip := by
  obtain ⟨c', t', f', order', take', skip', hc, ht, hf, ho, htake, hskip, he⟩ := select_eq_ok.mp h
  cases he
  constructor
  · rintro ⟨hcolumns, htarget, hfilter, horder, m, n, hm, hn, hbounds⟩
    have hq₁ := hc.symm.trans (Projection.ofItems_eq_ok.mpr hcolumns)
    have hq₂ := ht.symm.trans (target_eq_ok.mpr htarget)
    have hq₃ := ho.symm.trans (Sorting.ofItems_eq_ok.mpr horder)
    have hq₄ := htake.symm.trans hm
    have hq₅ := hskip.symm.trans hn
    cases hq₁
    cases hq₂
    cases hq₃
    cases hq₄
    cases hq₅
    have hlimit : q.limit.map Place.unnamed = (Select.bounds d take skip).1 :=
      congrArg Prod.fst hbounds
    have hoffset : q.offset.map Place.unnamed = (Select.bounds d take skip).2 :=
      congrArg Prod.snd hbounds
    simp only [Select.unnamed, Select.ofParts, (Filter.terms_iff hf).mp hfilter, hlimit, hoffset]
  · intro hq
    obtain ⟨c'', t'', g, order'', l, o⟩ := q
    obtain ⟨rfl, rfl, hg, rfl, hl, ho'⟩ := Select.mk.inj hq
    exact ⟨Projection.ofItems_eq_ok.mp hc, target_eq_ok.mp ht, (Filter.terms_iff hf).mpr hg,
      Sorting.ofItems_eq_ok.mp ho, take, skip, htake, hskip, Prod.ext hl ho'⟩

/-- What a state asks for can be read again. -/
theorem Asks.isFull {rules : Naming} {d : Dialect} {s : State} {q : Select} {f : Filter}
    (h : Asks rules d s q) (hf : Filter.ofValue rules s.filter = .ok f) : q.IsFull := by
  refine ⟨h.columns.ne_nil, fun e he => ?_⟩
  have hmem : (e.1, e.2.unnamed) ∈ f.map fun p => (p.column, Term.ofPredicate d p) := by
    rw [← (Filter.terms_iff hf).mp h.filter]
    exact List.mem_map_of_mem (f := fun e : String × Term => (e.1, e.2.unnamed)) he
  obtain ⟨p, hp, hpe⟩ := List.mem_map.mp hmem
  have hterm : Term.ofPredicate d p = e.2.unnamed := congrArg Prod.snd hpe
  have hfull := Term.isFull_ofPredicate d fun c he => Filter.oneOf_nil_not_mem hf c (he ▸ hp)
  exact Term.IsFull.of_unnamed (hterm ▸ hfull)

end Query
end TableQuery
