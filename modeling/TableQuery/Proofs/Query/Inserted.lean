import TableQuery.Proofs.Query.Given
import TableQuery.Proofs.Value.Keys

/-! The values of an INSERT: all those of its records, each of which has the columns of the first. -/

namespace TableQuery
namespace Layout

/-- A row is written out with a value under each name. -/
theorem values_cells {ns : List String} {vs : List Value} (h : vs.length ≤ ns.length) :
    ((ns.zip vs).flatMap fun c => Piece.values (.slot (.cell c.1 c.2))) = vs := by
  change ((ns.zip vs).flatMap fun c => [c.2]) = vs
  rw [← List.map_eq_flatMap]
  exact List.map_snd_zip h

theorem values_insert (d : Dialect) (t : Target) {ns : List String} {vs : List Value} (c : Columns)
    (h : vs.length ≤ ns.length) : (ofStatement d (.insert t ns vs c)).values = vs := by
  rw [values, flatMap_insert (fun _ => rfl) fun _ => rfl, values_cells h]

theorem mem_values_insertMany (d : Dialect) (t : Target) {ns : List String}
    {rows : List (List Value)} (c : Columns) (h : ∀ row ∈ rows, row.length ≤ ns.length)
    {row : List Value} (hrow : row ∈ rows) {v : Value} (hv : v ∈ row) :
    v ∈ (ofStatement d (.insertMany t ns rows c)).values := by
  rw [values, flatMap_insertMany (fun _ => rfl) fun _ => rfl]
  obtain ⟨i, hi, rfl⟩ := List.mem_iff_getElem.mp hrow
  refine List.mem_flatMap.mpr ⟨_, List.mem_mapIdx.mpr ⟨i, hi, rfl⟩, ?_⟩
  rw [flatMap_row fun _ => rfl, values_cells ?_]
  · exact hv
  · rw [List.length_map]
    exact h _ hrow

end Layout

namespace Query
open Layout Outcome

variable {rules : Naming} {s : State} {data : Value} {st : Statement}

theorem name?_of_same {k k' : Value} {n : String} (h : Value.same k k')
    (hn : rules.name? k = some n) : rules.name? k' = some n := by
  obtain ⟨t, ht, -⟩ := Option.bind_eq_some_iff.mp hn
  rw [← hn, Naming.name?, Naming.name?, ht, Value.text?_of_same h ht]

theorem mem_named {entries : List (Value × Value)} {row : List (String × Value)}
    (h : payload rules entries = .ok row) {e : Value × Value} (he : e ∈ entries) :
    ∃ n, rules.column.name? e.1 = some n ∧ row.lookup n = some e.2 := by
  obtain ⟨hnamed, hnodup⟩ := payload_eq_ok.mp h
  obtain ⟨⟨n, v⟩, ha, hn, hv⟩ := Lists.exists_of_mem_left hnamed he
  exact ⟨n, hn, hv ▸ Lists.lookup_of_mem hnodup ha⟩

/-- Every record has its columns among those of the first one. -/
theorem mem_first {batch : List (List (Value × Value))} {rows : List (List (String × Value))}
    (hc : consistent ((batch.headD []).map Prod.fst) 1 batch.tail = .ok ())
    (hrows : List.Forall₂ (fun r row => payload rules r = .ok row) batch rows)
    {es : List (Value × Value)} (hes : es ∈ batch) {e : Value × Value} (he : e ∈ es) {n : String}
    (hn : rules.column.name? e.1 = some n) : n ∈ (rows.headD []).map Prod.fst := by
  cases hrows with
  | nil => cases hes
  | @cons first row rest rows hfirst hrest =>
    obtain ⟨e', he', hn'⟩ : ∃ e' ∈ first, rules.column.name? e'.1 = some n := by
      rcases List.mem_cons.mp hes with rfl | hes
      · exact ⟨e, he, hn⟩
      · have hkeys := consistent_eq_ok.mp hc es hes
        obtain ⟨hall, -⟩ := Bool.and_eq_true_iff.mp hkeys
        obtain ⟨k, hk, hsame⟩ := List.any_eq_true.mp
          (List.all_eq_true.mp hall e.1 (List.mem_map_of_mem he))
        obtain ⟨e', he', rfl⟩ := List.mem_map.mp hk
        exact ⟨e', he', name?_of_same hsame hn⟩
    obtain ⟨m, hm, hlookup⟩ := mem_named hfirst he'
    cases hn'.symm.trans hm
    exact Binding.mem_keys_of_lookup hlookup

/-- Every value that a query gives has a place in its statement. -/
theorem mem_values_of_build {d : Dialect} {kind : StatementKind}
    (h : build rules kind s data = .ok st) : ∃ xs, Gives d s data kind xs ∧
      (∀ v, some v ∈ xs → v ∈ (ofStatement d st).values) ∧ "" ∉ st.cellNames := by
  -- A statement that inserts nothing has one place for each value; rows are taken one by one.
  by_cases hk : Addresses kind
  · obtain ⟨xs, hx, hplaced, hnames⟩ := placed_of_build (d := d) hk h
    refine ⟨xs, hx, fun v hv => ?_, hnames⟩
    obtain ⟨w, hw, he⟩ := Lists.exists_of_mem_left hplaced.expects hv
    rcases he with he | ⟨he, -⟩
    · cases he
      exact hw
    · cases he
  · cases kind with
    | insert =>
      obtain ⟨entries, row, t, columns, hr, hp, -, -, rfl⟩ := insert_eq_ok.mp h
      obtain ⟨hnamed, -⟩ := payload_eq_ok.mp hp
      refine ⟨_, .insert hr, fun v hv => ?_, fun hempty => ?_⟩
      · rw [values_insert d t columns (by simp)]
        obtain ⟨v', hv', hsome⟩ := List.mem_map.mp hv
        cases hsome
        obtain ⟨e, he, rfl⟩ := List.mem_map.mp hv'
        obtain ⟨a, ha, -, hv⟩ := Lists.exists_of_mem_left hnamed he
        exact hv ▸ List.mem_map_of_mem ha
      · obtain ⟨a, ha, he⟩ := List.mem_map.mp hempty
        obtain ⟨e, -, hname, -⟩ := Lists.exists_of_mem_right hnamed ha
        exact name_ne_empty hname he
    | insertMany =>
      obtain ⟨items, batch, rows, t, columns, hitems, hb, hc, hrows, -, -, rfl⟩ := insertMany_eq_ok h
      refine ⟨_, .insertMany hitems (records_eq_ok.mp hb), fun v hv => ?_, List.not_mem_nil⟩
      obtain ⟨v', hv', hsome⟩ := List.mem_map.mp hv
      cases hsome
      obtain ⟨es, hes, hv⟩ := List.mem_flatMap.mp hv'
      obtain ⟨e, he, rfl⟩ := List.mem_map.mp hv
      obtain ⟨row, hrow, hp⟩ := Lists.exists_of_mem_left hrows hes
      obtain ⟨n, hn, hlookup⟩ := mem_named hp he
      refine mem_values_insertMany d t columns ?_ (List.mem_map_of_mem hrow) ?_
      · intro r hr
        obtain ⟨r', -, rfl⟩ := List.mem_map.mp hr
        rw [List.length_map]
      · refine List.mem_map.mpr ⟨n, mem_first hc hrows hes he hn, ?_⟩
        rw [hlookup]
        rfl
    | _ => exact absurd ⟨by decide, by decide⟩ hk

end Query
end TableQuery
