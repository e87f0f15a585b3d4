import TableQuery.Proofs.Query.Asked
import TableQuery.Proofs.Query.Inserted
import TableQuery.Proofs.Query.Varies
import TableQuery.Proofs.Sql.Bound
import TableQuery.Proofs.Sql.SameText
import TableQuery.Proofs.Sql.Shown

/-! How far the text of a query depends on its values, and where these are instead. -/

namespace TableQuery
namespace Query
open Layout Lexeme

variable {rules : Naming} {d : Dialect} {kind : StatementKind} {s s' : State} {data data' : Value}
  {st st' : Statement} {r r' : Rendered}

theorem oneOf_nil_not_mem (h : build rules kind s data = .ok st) (c : String) :
    .oneOf c [] ∉ st.filter := by
  cases kind with
  | select =>
    obtain ⟨_, _, f, _, _, _, -, -, hf, -, -, -, rfl⟩ := select_eq_ok.mp h
    exact Filter.oneOf_nil_not_mem hf c
  | count =>
    obtain ⟨_, f, -, hf, rfl⟩ := count_eq_ok.mp h
    exact Filter.oneOf_nil_not_mem hf c
  | insert =>
    obtain ⟨_, _, _, _, -, -, -, -, rfl⟩ := insert_eq_ok.mp h
    exact List.not_mem_nil
  | insertMany =>
    obtain ⟨_, _, _, _, _, -, -, -, -, -, -, rfl⟩ := insertMany_eq_ok h
    exact List.not_mem_nil
  | update =>
    obtain ⟨_, _, _, f, _, -, -, -, -, hf, -, rfl⟩ := update_eq_ok.mp h
    exact Filter.oneOf_nil_not_mem hf c
  | delete =>
    obtain ⟨_, f, _, -, -, hf, -, rfl⟩ := delete_eq_ok.mp h
    exact Filter.oneOf_nil_not_mem hf c

/-- Two statements that are written out as they are laid out have different texts where these show
different values. -/
theorem shown_of_sql_eq (halike : st.Alike False st') (h : build rules kind s data = .ok st)
    (h' : build rules kind s' data' = .ok st') (hr : st.render d = .ok r)
    (hr' : st'.render d = .ok r') (hl : (ofStatement d st).Legible d) (he : r.sql = r'.sql) :
    st.flags = st'.flags ∧ st.widths = st'.widths := by
  have hshows : ∀ {s : State} {data : Value} {st : Statement} {r : Rendered},
      build rules kind s data = .ok st → st.render d = .ok r → (ofStatement d st).Legible d →
      (lex d r.sql).map unnamed = ofLayout d (ofStatement d st) := by
    intro s data st r h hr hl
    obtain ⟨-, -, -, hnames⟩ := mem_values_of_build (d := d) h
    have hreg := regular_ofStatement d hnames
    exact shows_plain hreg (plain_of_legible hl hreg hr)
  have hlayout := hshows h hr hl
  rw [he, hshows h' hr' (hl.of_alike (alike_ofStatement halike))] at hlayout
  exact Reading.shown_of_ofLayout halike (oneOf_nil_not_mem h) (oneOf_nil_not_mem h') hlayout.symm

/-- Two queries that differ in values alone have the same text where they compare with the same truth
values and their rows have the same widths, and where names are legible, just there. All other values
are parameters. -/
theorem text_independent (hs : Varies s s') (hd : DataVaries data data')
    (h : build rules kind s data = .ok st) (h' : build rules kind s' data' = .ok st')
    (hr : st.render d = .ok r) (hr' : st'.render d = .ok r') :
    (st.flags = st'.flags → st.widths = st'.widths → r.sql = r'.sql) ∧
    ((ofStatement d st).Legible d → r.sql = r'.sql →
      st.flags = st'.flags ∧ st.widths = st'.widths) ∧
    ((d = .sqlite → (ofStatement d st).Legible d) →
      ∃ xs, Gives d s data kind xs ∧ ∀ v, some v ∈ xs → v ∈ r.params.map Prod.snd) := by
  have halike := alike_of_build hs hd h h'
  refine ⟨fun hf hw => ?_, shown_of_sql_eq halike h h' hr hr', fun hl => ?_⟩
  · exact sql_eq_of_alike (alike_ofStatement (halike.strict hf hw)) hr hr'
  · obtain ⟨xs, hx, hvalues, hnames⟩ := mem_values_of_build (d := d) h
    exact ⟨xs, hx, fun v hv => mem_params (regular_ofStatement d hnames) hl hr v (hvalues v hv)⟩

/-- Other numbers and other members, of which one is absent. -/
theorem text_independent_members :
    let s : State :=
      { table := "users", take := some (.int 10),
        filter := .list [.condition (.comparison "age" .gt (.int 30)) {},
          .condition (.membership "id" (.list [.int 1, .none])) {}] }
    let s' : State :=
      { table := "users", take := some (.int 20),
        filter := .list [.condition (.comparison "age" .gt (.int 41)) {},
          .condition (.membership "id" (.list [.int 7, .none])) {}] }
    Varies s s' ∧ DataVaries .none .none ∧ ∃ st st' r r', build {} .select s .none = .ok st ∧
      build {} .select s' .none = .ok st' ∧ st.render .postgresql = .ok r ∧
      st'.render .postgresql = .ok r' ∧ r.sql = r'.sql ∧
      ∃ xs, Gives .postgresql s .none .select xs ∧
        ∀ v, some v ∈ xs → v ∈ r.params.map Prod.snd := by
  intro s s'
  have hs : Varies s s' := by
    refine ⟨rfl, rfl, .entries rfl rfl ?_, rfl, .some (.int (.int 10 20 rfl)), .none⟩
    refine .cons (.condition (.typed _ _ ⟨.int 41, rfl, ?_⟩))
      (.cons (.condition (.typed _ _ ⟨.list [.int 7, .none], rfl, ?_⟩)) .nil)
    · rintro v ⟨⟩
      exact .value (.int 30 41 rfl)
    · rintro v ⟨⟩
      exact .members rfl rfl (.cons (.int 1 7 rfl) (.cons (.same _) .nil))
  have hd : DataVaries .none .none := .record (.same _)
  have hb : build {} .select s .none = .ok (.select .all ⟨none, "users"⟩
      [.compare "age" .gt (.int 30), .oneOf "id" [.int 1, .none]] [] (some 10) none) := by
    dsimp only [s]
    rfl
  have hb' : build {} .select s' .none = .ok (.select .all ⟨none, "users"⟩
      [.compare "age" .gt (.int 41), .oneOf "id" [.int 7, .none]] [] (some 20) none) := by
    dsimp only [s']
    rfl
  obtain ⟨r, hr, -⟩ := Outcome.exists_of_isOk (x := Statement.render .postgresql
      (.select .all ⟨none, "users"⟩ [.compare "age" .gt (.int 30), .oneOf "id" [.int 1, .none]] []
        (some 10) none))
    (p := fun _ => True) (by decide +kernel)
  obtain ⟨r', hr', -⟩ := Outcome.exists_of_isOk (x := Statement.render .postgresql
      (.select .all ⟨none, "users"⟩ [.compare "age" .gt (.int 41), .oneOf "id" [.int 7, .none]] []
        (some 20) none))
    (p := fun _ => True) (by decide +kernel)
  obtain ⟨hsame, -, hbound⟩ := text_independent hs hd hb hb' hr hr'
  exact ⟨hs, hd, _, _, r, r', hb, hb', hr, hr', hsame rfl rfl, hbound nofun⟩

/-- A truth value that is compared with is a word of the text, and no parameter. -/
theorem truth_value_shown :
    let s : State := { table := "t", filter := .map [(.str "a", .bool true)] }
    let s' : State := { table := "t", filter := .map [(.str "a", .bool false)] }
    Varies s s' ∧ ∃ st st' r r', build {} .count s .none = .ok st ∧
      build {} .count s' .none = .ok st' ∧ st.render .postgresql = .ok r ∧
      st'.render .postgresql = .ok r' ∧
      r.sql = "SELECT count(*) AS count \nFROM \"t\" \nWHERE \"a\" = true" ∧
      r'.sql = "SELECT count(*) AS count \nFROM \"t\" \nWHERE \"a\" = false" ∧
      r.params.isEmpty ∧ r'.params.isEmpty := by
  intro s s'
  have hs : Varies s s' := by
    refine ⟨rfl, rfl, .entries rfl rfl ?_, rfl, .none, .none⟩
    exact .cons (.equality _ (.bool true false)) .nil
  have hb : build {} .count s .none = .ok (.count ⟨none, "t"⟩ [.isFlag "a" false true]) := by
    dsimp only [s]
    rfl
  have hb' : build {} .count s' .none = .ok (.count ⟨none, "t"⟩ [.isFlag "a" false false]) := by
    dsimp only [s']
    rfl
  obtain ⟨r, hr, hsql, hparams⟩ := Outcome.exists_of_isOk (x := Statement.render .postgresql
      (.count ⟨none, "t"⟩ [.isFlag "a" false true]))
    (p := fun r => r.sql = "SELECT count(*) AS count \nFROM \"t\" \nWHERE \"a\" = true" ∧
      r.params.isEmpty) (by decide +kernel)
  obtain ⟨r', hr', hsql', hparams'⟩ := Outcome.exists_of_isOk (x := Statement.render .postgresql
      (.count ⟨none, "t"⟩ [.isFlag "a" false false]))
    (p := fun r => r.sql = "SELECT count(*) AS count \nFROM \"t\" \nWHERE \"a\" = false" ∧
      r.params.isEmpty) (by decide +kernel)
  exact ⟨hs, _, _, r, r', hb, hb', hr, hr', hsql, hsql', hparams, hparams'⟩

end Query
end TableQuery
