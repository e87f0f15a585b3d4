import TableQuery.Proofs.Filter.Conjunct
import TableQuery.Proofs.Sql.Writable
import TableQuery.Proofs.Value.Told
import TableQuery.Query.Build

/-! Equality maps spelled out as lists of conditions, one for each entry. Both ways of asking give the
same statement, or the same refusal of the first key that names no column. -/

namespace TableQuery

/-- A filter without member lists can always be written out on its own. -/
theorem Layout.exists_render_conjunction (d : Dialect) {f : Filter} (h : f.lists = []) :
    ∃ r, (conjunction d f).render d = .ok r := by
  have hcells : (conjunction d f).cellKeys = [] := by
    rw [cellKeys, conjunction, flatMap_join fun _ => rfl, List.flatMap_map]
    exact List.flatMap_eq_nil_iff.mpr fun p _ => cellKeys_predicate d p
  have hlists : (conjunction d f).lists = [] := by
    rw [Layout.lists, conjunction, flatMap_join fun _ => rfl, List.flatMap_map]
    simp only [Statement.lists_predicate]
    exact h
  have hregular : (conjunction d f).Regular := by
    refine regular_join (by decide) fun l hl => ?_
    obtain ⟨p, -, rfl⟩ := List.mem_map.mp hl
    exact regular_predicate d p
  have hfirst : (conjunction d f).CellsFirst := cellsFirst_append (l := []) rfl hcells
  refine (exists_render hregular hfirst fun hne => absurd hlists hne).mpr ⟨?_, ?_⟩
  · rw [hcells]
    exact fun _ _ => List.not_mem_nil
  · rw [hlists]
    exact fun _ h => absurd h List.not_mem_nil

namespace Filter

variable {rules : Naming} {k : String} {key v : Value} {es : List (Value × Value)}

/-- The condition that says of a column what an entry of an equality map says. -/
def asCondition (e : Value × Value) : Value :=
  if e.2.isNone then .map [(.str "field", e.1), (.str "operator", .str "IS NULL")]
  else .map [(.str "field", e.1), (.str "operator", .str "="), (.str "value", e.2)]

theorem read_absent (k : String) :
    Condition.ofValue (asCondition (.str k, .none)) = .ok (.nullCheck k .isNull .none) := by
  with_unfolding_all rfl

theorem read_present (k : String) (hv : v ≠ .none) :
    Condition.ofValue (asCondition (.str k, v)) = .ok (.comparison k .eq v) := by
  rw [asCondition, if_neg fun hn => hv (isNone_iff.mp hn)]
  with_unfolding_all rfl

/-- The value of a comparison is looked at before its column, and a value that can be compared is let
through. -/
theorem item_asCondition (hv : v = .none ∨ isComparable v) :
    item rules (asCondition (.str k, v)) = equality rules (.str k) v := by
  by_cases hn : v = .none
  · subst hn
    rw [item, read_absent]
    rfl
  · have hc : isComparable v := hv.resolve_left hn
    rw [item, read_present k hn, equality]
    simp only [if_neg fun h => hn (isNone_iff.mp h)]
    change condition rules (.comparison k .eq v) = _
    rw [condition, if_pos hc]

theorem mapM_asCondition (hk : ∀ e ∈ es, ∃ k, e.1 = .str k)
    (hv : ∀ e ∈ es, e.2 = .none ∨ isComparable e.2) :
    (es.map asCondition).mapM (item rules) = es.mapM fun e => equality rules e.1 e.2 := by
  induction es with
  | nil => rfl
  | cons e es ih =>
    obtain ⟨⟨k, hkey⟩, hkeys⟩ := List.forall_mem_cons.mp hk
    obtain ⟨hvalue, hvalues⟩ := List.forall_mem_cons.mp hv
    obtain ⟨key, v⟩ := e
    obtain rfl : key = .str k := hkey
    rw [List.map_cons, List.mapM_cons, List.mapM_cons, item_asCondition hvalue, ih hkeys hvalues]

theorem equality_of_not_isValid (v : Value) (h : ¬ rules.column.isValid key) :
    equality rules key v = reject (.invalidField key) := by
  have hc : rules.column.name? key = none := Option.not_isSome_iff_eq_none.mp h
  rw [equality, column, hc]
  rfl

/-- An equality map is refused for the first of its keys that names no column. -/
theorem mapM_equality_eq_error {f : Fault} :
    (es.mapM fun e => equality rules e.1 e.2) = .error f ↔
      ∃ before e behind, es = before ++ e :: behind ∧ (∀ b ∈ before, rules.column.isValid b.1) ∧
        ¬ rules.column.isValid e.1 ∧ f = (Rejection.invalidField e.1).raised := by
  rw [Outcome.mapM_eq_error]
  constructor
  · rintro ⟨before, e, behind, ps, rfl, hbefore, he⟩
    have hinvalid : ¬ rules.column.isValid e.1 := by
      intro h
      obtain ⟨c, hc⟩ := Option.isSome_iff_exists.mp h
      obtain ⟨p, hp⟩ := exists_equality_of_name e.2 hc
      cases hp.symm.trans he
    refine ⟨before, e, behind, rfl, fun b hb => ?_, hinvalid, ?_⟩
    · obtain ⟨p, -, hp⟩ := Lists.exists_of_mem_left hbefore hb
      by_contra h
      cases hp.symm.trans (equality_of_not_isValid b.2 h)
    · rw [equality_of_not_isValid e.2 hinvalid] at he
      exact (Except.error.inj he).symm
  · rintro ⟨before, e, behind, rfl, hbefore, he, rfl⟩
    have hread : ∀ b ∈ before, ∃ p, equality rules b.1 b.2 = .ok p := by
      intro b hb
      obtain ⟨c, hc⟩ := Option.isSome_iff_exists.mp (hbefore b hb)
      exact exists_equality_of_name b.2 hc
    obtain ⟨ps, hps⟩ := Outcome.exists_mapM.mpr hread
    exact ⟨before, e, behind, ps, rfl, Outcome.mapM_eq_ok.mp hps, equality_of_not_isValid e.2 he⟩

theorem lists_of_equality {p : Predicate} (h : equality rules key v = .ok p) : p.lists = [] := by
  cases equality_eq_ok.mp h with
  | absent name => rfl
  | equality name present compares => cases compares <;> rfl

/-- A filter written out on its own. Where nothing is asked for there is nothing to write. -/
def written? (rules : Naming) (d : Dialect) (v : Value) : Outcome (Option Rendered) := do
  let f ← ofValue rules v
  if f.isEmpty then pure none else some <$> (Layout.conjunction d f).render d

theorem ofValue_of_map (he : v.entries? = some es) :
    ofValue rules v = es.mapM fun e => equality rules e.1 e.2 := by
  rw [ofValue_of_entries rules (entries?_of_map he), List.mapM_map]
  rfl

theorem ofValue_of_items {xs : List Value} (hx : v.items? = some xs) :
    ofValue rules v = xs.mapM (item rules) := by
  rw [ofValue_of_entries rules (entries?_of_items? hx), List.mapM_map]
  rfl

/-- What an equality map asks for can be written out once it is read. -/
theorem exists_written? {d : Dialect} {f : Filter} (he : v.entries? = some es)
    (hf : ofValue rules v = .ok f) :
    ∃ w, written? rules d v = .ok w ∧ (w = none ↔ f = []) := by
  have hlists : f.lists = [] := by
    rw [ofValue_of_map he] at hf
    refine List.flatMap_eq_nil_iff.mpr fun p hp => ?_
    obtain ⟨e, -, he⟩ := Lists.exists_of_mem_right (Outcome.mapM_eq_ok.mp hf) hp
    exact lists_of_equality he
  obtain ⟨r, hr⟩ := Layout.exists_render_conjunction d hlists
  cases f with
  | nil => exact ⟨none, Outcome.bind_eq_ok.mpr ⟨[], hf, rfl⟩, by simp⟩
  | cons p f =>
    refine ⟨some r, Outcome.bind_eq_ok.mpr ⟨p :: f, hf, ?_⟩, by simp⟩
    exact Outcome.map_eq_ok.mpr ⟨r, hr, rfl⟩

theorem written?_eq_none {d : Dialect} (he : v.entries? = some es) :
    written? rules d v = .ok none ↔ es = [] := by
  constructor
  · intro h
    obtain ⟨f, hf, -⟩ := Outcome.bind_eq_ok.mp h
    obtain ⟨w, hw, hnone⟩ := exists_written? (d := d) he hf
    obtain rfl : none = w := Except.ok.inj (h.symm.trans hw)
    rw [ofValue_of_map he, hnone.mp rfl] at hf
    cases Outcome.mapM_eq_ok.mp hf
    rfl
  · rintro rfl
    have hf : ofValue rules v = .ok [] := by
      rw [ofValue_of_map he]
      rfl
    exact Outcome.bind_eq_ok.mpr ⟨[], hf, rfl⟩

theorem written?_eq_error {d : Dialect} {f : Fault} (he : v.entries? = some es) :
    written? rules d v = .error f ↔ ofValue rules v = .error f := by
  refine ⟨fun h => ?_, fun h => Outcome.bind_eq_error.mpr (.inl h)⟩
  rcases Outcome.bind_eq_error.mp h with h | ⟨ps, hps, -⟩
  · exact h
  · obtain ⟨w, hw, -⟩ := exists_written? (d := d) he hps
    cases h.symm.trans hw

/-- Building looks at a filter only for what it comes to, and for whether it is there. -/
theorem build_eq_of_filter {kind : StatementKind} {s : State} {data w : Value}
    (hf : ofValue rules v = ofValue rules w) (hp : isPresent v = isPresent w) :
    Query.build rules kind { s with filter := v } data =
      Query.build rules kind { s with filter := w } data := by
  cases kind <;>
    simp only [Query.build, Query.select, Query.count, Query.insert, Query.insertMany, Query.update,
      Query.delete, Query.returning, hf, hp]

/-- An equality map over texts, with values that can be compared or none, comes to what the list of its
conditions comes to: on its own and in every statement. It asks for nothing when it is empty, and is
refused for the first key that names no column. -/
theorem written?_asCondition {d : Dialect} {m l : Value} (hm : m.entries? = some es)
    (hl : l.items? = some (es.map asCondition)) (hk : ∀ e ∈ es, ∃ k, e.1 = .str k)
    (hv : ∀ e ∈ es, e.2 = .none ∨ isComparable e.2) :
    written? rules d m = written? rules d l ∧
    (written? rules d m = .ok none ↔ es = []) ∧
    (∀ f, written? rules d m = .error f ↔
      ∃ before e behind, es = before ++ e :: behind ∧ (∀ b ∈ before, rules.column.isValid b.1) ∧
        ¬ rules.column.isValid e.1 ∧ f = .rejected (.invalidField e.1)) ∧
    ∀ (kind : StatementKind) (s : State) (data : Value), Query.build rules kind { s with filter := m } data =
      Query.build rules kind { s with filter := l } data := by
  have hsame : ofValue rules m = ofValue rules l := by
    rw [ofValue_of_map hm, ofValue_of_items hl, mapM_asCondition hk hv]
  have hpresent : isPresent m = isPresent l := by
    rw [Bool.eq_iff_iff, isPresent_of_entries (entries?_of_map hm),
      isPresent_of_entries (entries?_of_items? hl)]
    simp only [ne_eq, List.map_eq_nil_iff]
  refine ⟨?_, written?_eq_none hm, fun f => ?_, fun kind s data => build_eq_of_filter hsame hpresent⟩
  · rw [written?, hsame]
    rfl
  · rw [written?_eq_error hm, ofValue_of_map hm, mapM_equality_eq_error]
    -- Keys that are texts can be cited.
    refine exists_congr fun before => exists_congr fun e => exists_congr fun behind => ?_
    refine and_congr_right fun hes => and_congr_right fun _ => and_congr_right fun _ => ?_
    obtain ⟨k, hkey⟩ := hk e (hes ▸ List.mem_append_right _ List.mem_cons_self)
    rw [hkey, Rejection.raised_of_hasText rfl]

/-- Two keys that name columns stand before one that names none. -/
theorem written?_age_name_nameless :
    let es : List (Value × Value) :=
      [(.str " age ", .int 3), (.str "name", .none), (.str "", .bool true)]
    (∀ e ∈ es, ∃ k, e.1 = .str k) ∧ (∀ e ∈ es, e.2 = .none ∨ isComparable e.2) ∧
    written? {} .sqlite (.frozen es) = written? {} .sqlite (.tuple (es.map asCondition)) ∧
    written? {} .sqlite (.frozen es) = .error (.rejected (.invalidField (.str ""))) := by
  intro es
  have hk : ∀ e ∈ es, ∃ k, e.1 = .str k := by simp [es]
  have hv : ∀ e ∈ es, e.2 = .none ∨ isComparable e.2 := by simp [es, isComparable]
  obtain ⟨hsame, -, hrefused, -⟩ := @written?_asCondition {} es .sqlite (.frozen es)
    (.tuple (es.map asCondition)) rfl rfl hk hv
  refine ⟨hk, hv, hsame, (hrefused _).mpr ⟨es.take 2, (.str "", .bool true), [], rfl, ?_, ?_, rfl⟩⟩
  · decide +kernel
  · decide +kernel

end Filter
end TableQuery
