import TableQuery.Proofs.Query.Asked
import TableQuery.Proofs.Sql.Legible

/-! The text of a SELECT, read back as the query that the state asks for. -/

namespace TableQuery
namespace Query
open Reading Lexeme

/-- The text is that of one query, and of nothing beside it. -/
structure ReadsBack (d : Dialect) (sql : String) (q : Select) : Prop where
  read : select? d (lex d sql) = some q
  again : ofSelect d q = lex d sql

theorem readsBack_iff {rules : Naming} {d : Dialect} {s : State} {c : Columns} {t : Target}
    {f : Filter} {order : List (String × Direction)} {take skip : Option Int} {sql : String}
    (h : select rules s = .ok (.select c t f order take skip)) :
    (∃ q, ReadsBack d sql q ∧ Asks rules d s q) ↔
      Shows d (Layout.ofStatement d (.select c t f order take skip)) (lex d sql) := by
  obtain ⟨_, _, _, _, _, _, _, _, hf, _, _, _, he⟩ := select_eq_ok.mp h
  cases he
  rw [shows_select_iff]
  constructor
  · rintro ⟨q, hq, hasks⟩
    exact ⟨q, hq.again.symm, (asks_iff h).mp hasks⟩
  · rintro ⟨q, hl, hq⟩
    have hasks := (asks_iff h).mpr hq
    exact ⟨q, ⟨hl ▸ select?_ofSelect d (hasks.isFull hf), hl.symm⟩, hasks⟩

/-- Where no name reads like a mark the text shows the pieces that it was laid out in. -/
theorem readsBack_of_legible {rules : Naming} {d : Dialect} {s : State} {st : Statement} {r : Rendered}
    (h : select rules s = .ok st) (hr : st.render d = .ok r)
    (hl : (Layout.ofStatement d st).Legible d) : ∃ q, ReadsBack d r.sql q ∧ Asks rules d s q := by
  obtain ⟨c, t, f, order, take, skip, -, -, -, -, -, -, rfl⟩ := select_eq_ok.mp h
  have hreg := Layout.regular_ofStatement d (s := .select c t f order take skip) List.not_mem_nil
  exact (readsBack_iff h).mpr (shows_plain hreg (Layout.plain_of_legible hl hreg hr))

/-- A SELECT in whose names nothing reads like a mark is read back from its text as what the state
asks for. In general it is just where the text still shows the pieces that it was laid out in. -/
theorem select_readsBack {rules : Naming} {d : Dialect} {s : State} {data : Value}
    {st : Statement} {r : Rendered} (h : build rules .select s data = .ok st)
    (hr : st.render d = .ok r) :
    ((Layout.ofStatement d st).Legible d → ∃ q, ReadsBack d r.sql q ∧ Asks rules d s q) ∧
    ((∃ q, ReadsBack d r.sql q ∧ Asks rules d s q) ↔
      Shows d (Layout.ofStatement d st) (lex d r.sql)) := by
  obtain ⟨c, t, f, order, take, skip, -, -, -, -, -, -, rfl⟩ := select_eq_ok.mp h
  exact ⟨readsBack_of_legible h hr, readsBack_iff h⟩

/-- Names with blanks around them or with a quote in them, and a list of members. -/
theorem select_readsBack_members :
    let s : State :=
      { table := "users", projection := some [.str " id ", .str "na\"me"],
        filter := .list [.condition (.membership "id" (.list [.int 1, .int 2])) {}],
        order := [.sort (.str "id") (.str "DESC")] }
    ∃ st r, build {} .select s .none = .ok st ∧ st.render .sqlite = .ok r ∧
      r.sql = "SELECT \"id\", \"na\"\"me\" \nFROM \"users\" \nWHERE \"id\" IN (?, ?) " ++
        "ORDER BY \"id\" DESC" ∧
      ∃ q, ReadsBack .sqlite r.sql q ∧ Asks {} .sqlite s q := by
  intro s
  obtain ⟨st, hb, hl, hst⟩ : ∃ st, build {} .select s .none = .ok st ∧
      (Layout.ofStatement .sqlite st).Legible .sqlite ∧
      ((st.render .sqlite).toOption.any fun r => r.sql =
        "SELECT \"id\", \"na\"\"me\" \nFROM \"users\" \nWHERE \"id\" IN (?, ?) " ++
          "ORDER BY \"id\" DESC") = true :=
    Outcome.exists_of_isOk (by decide +kernel)
  obtain ⟨r, hr, hsql⟩ := Outcome.exists_of_isOk hst
  exact ⟨st, r, hb, hr, hsql, (select_readsBack hb hr).1 hl⟩

/-- A column that is called like the mark of a parameter is lost where that mark is replaced. -/
theorem marked_name_not_readsBack :
    let s : State :=
      { table := "t", projection := some [.str "%(a_1)s"], filter := .map [(.str "a", .int 1)] }
    ∃ st r, build {} .select s .none = .ok st ∧ st.render .sqlite = .ok r ∧
      r.sql = "SELECT \"?\" \nFROM \"t\" \nWHERE \"a\" = ?" ∧
      ¬ ∃ q, ReadsBack .sqlite r.sql q ∧ Asks {} .sqlite s q := by
  intro s
  have hb : build {} .select s .none = .ok (.select (.named ["%(a_1)s"]) ⟨none, "t"⟩
      [.compare "a" .eq (.int 1)] [] none none) := by
    dsimp only [s]
    rfl
  obtain ⟨r, hr, hsql, hlost⟩ := Outcome.exists_of_isOk (x := Statement.render .sqlite
      (.select (.named ["%(a_1)s"]) ⟨none, "t"⟩ [.compare "a" .eq (.int 1)] [] none none))
    (p := fun r => r.sql = "SELECT \"?\" \nFROM \"t\" \nWHERE \"a\" = ?" ∧
      ¬ (lex .sqlite r.sql).map unnamed = ofLayout .sqlite (Layout.ofStatement .sqlite
        (.select (.named ["%(a_1)s"]) ⟨none, "t"⟩ [.compare "a" .eq (.int 1)] [] none none)))
    (by decide +kernel)
  exact ⟨_, r, hb, hr, hsql, fun h => hlost ((readsBack_iff hb).mp h)⟩

end Query
end TableQuery
