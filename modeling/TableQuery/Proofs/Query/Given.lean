import TableQuery.Proofs.Filter.Conjunct
import TableQuery.Proofs.Query.Parts
import TableQuery.Proofs.Sql.Gathered
import TableQuery.Proofs.Sql.Legible

/-! The values that a query gives, each in the place that it is given for. -/

namespace TableQuery
namespace Filter

/-- The value of a comparison. A truth value is written out, and one that is absent not compared. -/
def compared : Value → List Value
  | .none | .bool _ => []
  | v => [v]

/-- The values that a condition gives. -/
def given : Condition Value → List Value
  | .comparison _ _ v => compared v
  | .like _ _ v m => (v.text?.map fun s => .str (Like.pattern m s)).toList
  | .membership _ v => Binding.memberValues (v.items?.getD [])
  | .base _ | .nullCheck .. => []

/-- The values that an entry gives. -/
def Entry.Gives : Entry → List Value → Prop
  | .equality _ v, xs => xs = compared v
  | .condition spec, xs => ∃ c, Condition.ofValue spec = .ok c ∧ xs = given c

/-- The values that a filter gives, entry by entry. -/
def Gives (v : Value) (xs : List Value) : Prop :=
  (v = .none ∧ xs = []) ∨
    ∃ es xss, entries? v = some es ∧ List.Forall₂ Entry.Gives es xss ∧ xs = xss.flatten

theorem Compares.values {c : String} {o : Comparison} {v : Value} {p : Predicate}
    (h : Compares c o v p) (hv : v ≠ .none) : p.values = compared v := by
  cases h with
  | equalFlag b => rfl
  | unequalFlag b => rfl
  | parameter o v hb =>
    cases v with
    | none => exact absurd rfl hv
    | bool b => exact absurd rfl (hb b)
    | _ => rfl

theorem Conjunct.gives {rules : Naming} {e : Entry} {p : Predicate} (h : Conjunct rules e p) :
    e.Gives p.values := by
  cases h with
  | absent name => rfl
  | equality name present compares => exact compares.values present
  | condition read states =>
    refine ⟨_, read, ?_⟩
    cases states with
    | comparison name comparable compares =>
      refine compares.values ?_
      rintro rfl
      cases comparable
    | like name text =>
      rw [given, text]
      rfl
    | membership name items ne =>
      rw [given, items]
      rfl
    | isNull name => rfl
    | isNotNull name => rfl

theorem gives_of_ofValue {rules : Naming} {v : Value} {f : Filter} (h : ofValue rules v = .ok f) :
    Gives v (f.flatMap Predicate.values) := by
  rcases ofValue_eq_ok.mp h with ⟨rfl, rfl⟩ | ⟨es, he, hc⟩
  · exact .inl ⟨rfl, rfl⟩
  · refine .inr ⟨es, f.map Predicate.values, he, ?_, List.flatMap_def ..⟩
    rw [List.forall₂_map_right_iff]
    exact hc.imp fun _ _ h => h.gives

end Filter

namespace Query
open Layout Outcome

/-- The values that a query gives to the places of its statement, in their order; those of a batch
record by record. -/
inductive Gives (d : Dialect) (s : State) (data : Value) :
    StatementKind → List (Option Value) → Prop
  | select {xs : List Value} {take skip : Option Int} (filter : Filter.Gives s.filter xs)
    (limit : bound? s.take = .ok take) (offset : bound? s.skip = .ok skip) :
    Gives d s data .select (xs.map some ++ boundValues d take skip)
  | count {xs : List Value} (filter : Filter.Gives s.filter xs) : Gives d s data .count (xs.map some)
  | insert {entries : List (Value × Value)} (record : record? data = some entries) :
    Gives d s data .insert ((entries.map Prod.snd).map some)
  | insertMany {items : List Value} {batch : List (List (Value × Value))}
    (given : data.items? = some items)
    (records : List.Forall₂ (fun v es => record? v = some es) items batch) :
    Gives d s data .insertMany ((batch.flatMap fun es => es.map Prod.snd).map some)
  | update {entries : List (Value × Value)} {xs : List Value} (record : record? data = some entries)
    (filter : Filter.Gives s.filter xs) :
    Gives d s data .update ((entries.map Prod.snd).map some ++ xs.map some)
  | delete {xs : List Value} (filter : Filter.Gives s.filter xs) :
    Gives d s data .delete (xs.map some)

/-- A statement that asks for rows, or changes or removes some. -/
def Addresses (kind : StatementKind) : Prop := kind ≠ .insert ∧ kind ≠ .insertMany

theorem placed_of_build {rules : Naming} {d : Dialect} {kind : StatementKind} {s : State}
    {data : Value} {st : Statement} (hk : Addresses kind) (h : build rules kind s data = .ok st) :
    ∃ xs, Gives d s data kind xs ∧ (ofStatement d st).Placed d xs ∧ "" ∉ st.cellNames := by
  have hvalues := values_predicate d
  cases kind with
  | insert => exact absurd rfl hk.1
  | insertMany => exact absurd rfl hk.2
  | select =>
    obtain ⟨columns, t, f, order, take, skip, -, -, hf, -, hl, ho, rfl⟩ := select_eq_ok.mp h
    refine ⟨_, .select (Filter.gives_of_ofValue hf) hl ho, placed_of_no_cells ?_ ?_, by simp [Statement.cellNames]⟩
    · rw [Expects, Layout.values, flatMap_select (fun _ => rfl) (fun _ => rfl) hvalues]
      refine List.rel_append ?_ (expects_pagination d take skip)
      rw [List.forall₂_map_left_iff, List.forall₂_same]
      exact fun v _ => .inl rfl
    · exact cellKeys_select ..
  | count =>
    obtain ⟨t, f, -, hf, rfl⟩ := count_eq_ok.mp h
    refine ⟨_, .count (Filter.gives_of_ofValue hf), placed_of_no_cells ?_ ?_, by simp [Statement.cellNames]⟩
    · exact expects_of_values (flatMap_count (fun _ => rfl) (fun _ => rfl) hvalues t f)
    · exact cellKeys_count ..
  | update =>
    obtain ⟨entries, assignments, t, f, columns, -, hr, hp, -, hf, -, rfl⟩ := update_eq_ok.mp h
    obtain ⟨hnamed, hnodup⟩ := payload_eq_ok.mp hp
    have hsnd : assignments.map Prod.snd = entries.map Prod.snd := by
      rw [← List.forall₂_eq_eq_eq, List.forall₂_map_left_iff, List.forall₂_map_right_iff]
      exact hnamed.flip.imp fun _ _ h => h.2
    refine ⟨_, .update hr (Filter.gives_of_ofValue hf), hsnd ▸ placed_update hnodup, ?_⟩
    intro hempty
    obtain ⟨a, ha, he⟩ := List.mem_map.mp hempty
    obtain ⟨e, -, hname, -⟩ := Lists.exists_of_mem_right hnamed ha
    exact name_ne_empty hname he
  | delete =>
    obtain ⟨t, f, columns, -, -, hf, -, rfl⟩ := delete_eq_ok.mp h
    refine ⟨_, .delete (Filter.gives_of_ofValue hf), placed_of_no_cells ?_ ?_, by simp [Statement.cellNames]⟩
    · exact expects_of_values (flatMap_delete (fun _ => rfl) (fun _ => rfl) hvalues t f columns)
    · exact cellKeys_delete ..

open Lexeme in
/-- The values of a statement that asks for rows, changes or removes some. Where nothing in its names reads like a
mark, it is written out as it is laid out; and then every place finds the value that the query gives
for it just where that is faithful to its order and its columns. -/
theorem places_supplied {rules : Naming} {d : Dialect} {kind : StatementKind} {s : State}
    {data : Value} {st : Statement} {r : Rendered} (hk : Addresses kind)
    (h : build rules kind s data = .ok st) (hr : st.render d = .ok r) :
    ((ofStatement d st).Legible d → st.plain d = .ok r) ∧
    (st.plain d = .ok r → Shows d (ofStatement d st) (lex d r.sql) ∧ ∃ xs, Gives d s data kind xs ∧
      (ofStatement d st).Expects d xs ∧
      (r.Supplies d xs ↔ (ofStatement d st).Faithful d xs)) := by
  obtain ⟨xs, hx, hplaced, hnames⟩ := placed_of_build (d := d) hk h
  have hreg := regular_ofStatement d hnames
  refine ⟨fun hl => plain_of_legible hl hreg hr, fun hp => ⟨shows_plain hreg hp, xs, hx, hplaced.expects, ?_⟩⟩
  exact supplies_iff hreg hplaced.first hplaced.keys hp hplaced.expects

/-- An update of one column, where a list has two members. -/
theorem places_supplied_update :
    let s : State :=
      { table := "users",
        filter := .list [.condition (.membership "id" (.list [.int 1, .int 2])) {}] }
    let data : Value := .map [(.str "name", .str "x")]
    Addresses .update ∧ ∃ st r, build {} .update s data = .ok st ∧
      st.render .postgresql = .ok r ∧
      r.sql = "UPDATE \"users\" SET \"name\"=%(name)s WHERE \"id\" IN " ++
        "(%(id_1_1)s::INTEGER, %(id_1_2)s::INTEGER) RETURNING *" ∧
      ∃ xs, Gives .postgresql s data .update xs ∧ r.Supplies .postgresql xs := by
  intro s data
  have hb : build {} .update s data = .ok (.update ⟨none, "users"⟩ [("name", .str "x")]
      [.oneOf "id" [.int 1, .int 2]] .all) := by
    dsimp only [s, data]
    rfl
  obtain ⟨r, hr, hsql⟩ := Outcome.exists_of_isOk (x := Statement.render .postgresql
      (.update ⟨none, "users"⟩ [("name", .str "x")] [.oneOf "id" [.int 1, .int 2]] .all))
    (p := fun r => r.sql = "UPDATE \"users\" SET \"name\"=%(name)s WHERE \"id\" IN " ++
      "(%(id_1_1)s::INTEGER, %(id_1_2)s::INTEGER) RETURNING *") (by decide +kernel)
  have hk : Addresses .update := ⟨by decide, by decide⟩
  obtain ⟨hplain, hplaces⟩ := places_supplied hk hb hr
  obtain ⟨-, xs, hx, -, hiff⟩ := hplaces (hplain (by decide +kernel))
  have haligned : ∀ vs ∈ [[Value.int 1, .int 2]], Binding.Aligned vs :=
    List.forall_mem_singleton.mpr trivial
  exact ⟨hk, _, r, hb, hr, hsql, xs, hx, hiff.mpr ⟨.inr (by decide +kernel), haligned⟩⟩

/-- Behind a list, a column whose name cannot be written in a mark loses its value. -/
theorem column_not_supplied :
    let s : State :=
      { table := "t", filter := .list [.condition (.membership "id" (.list [.int 1])) {}] }
    let data : Value := .map [(.str "a b", .int 1), (.str "a_b", .int 2)]
    ∃ st r, build {} .update s data = .ok st ∧ st.render .postgresql = .ok r ∧
      r.sql = "UPDATE \"t\" SET \"a b\"=%(a_b)s, \"a_b\"=%(a_b__1)s WHERE \"id\" IN " ++
        "(%(id_1_1)s::INTEGER) RETURNING *" ∧
      ∃ xs, Gives .postgresql s data .update xs ∧ ¬ r.Supplies .postgresql xs := by
  intro s data
  have hb : build {} .update s data = .ok (.update ⟨none, "t"⟩ [("a b", .int 1), ("a_b", .int 2)]
      [.oneOf "id" [.int 1]] .all) := by
    dsimp only [s, data]
    rfl
  obtain ⟨r, hr, hsql⟩ := Outcome.exists_of_isOk (x := Statement.render .postgresql
      (.update ⟨none, "t"⟩ [("a b", .int 1), ("a_b", .int 2)] [.oneOf "id" [.int 1]] .all))
    (p := fun r => r.sql = "UPDATE \"t\" SET \"a b\"=%(a_b)s, \"a_b\"=%(a_b__1)s WHERE " ++
      "\"id\" IN (%(id_1_1)s::INTEGER) RETURNING *") (by decide +kernel)
  obtain ⟨xs, hx, hplaced, hnames⟩ := placed_of_build ⟨by decide, by decide⟩ hb
  have hreg := regular_ofStatement .postgresql hnames
  have hplain := plain_of_legible (by decide +kernel) hreg hr
  refine ⟨_, r, hb, hr, hsql, xs, hx, fun h => ?_⟩
  have hfaithful := (supplies_iff hreg hplaced.first hplaced.keys hplain hplaced.expects).mp h
  rcases hfaithful.1 with hlists | hkeys
  · exact List.cons_ne_nil [Value.int 1] [] hlists
  · exact absurd (hkeys "a b" (by decide)) (by decide +kernel)

end Query
end TableQuery
