import TableQuery.Proofs.Query.Strict
import TableQuery.Proofs.Sql.Taken
import TableQuery.Proofs.Sql.Written

/-! One filter in statements of all kinds: its places have the same names beside any columns, sorting,
bounds and assignments, unless a column is assigned that has the name of one of them. -/

namespace TableQuery
namespace Statement
open Layout Binding Lexeme Reading

variable {d : Dialect} {st st' : Statement}

theorem cellKeys_conjunction (d : Dialect) (f : Filter) : (conjunction d f).cellKeys = [] := by
  rw [Layout.cellKeys, conjunction, flatMap_join fun _ => rfl, List.flatMap_map]
  exact List.flatMap_eq_nil_iff.mpr fun p _ => cellKeys_predicate d p

theorem counted_conjunction (d : Dialect) (f : Filter) :
    (conjunction d f).flatMap Piece.counted = f.flatMap Predicate.bases := by
  rw [conjunction, flatMap_join fun _ => rfl, List.flatMap_map]
  exact List.flatMap_congr fun p _ => counted_predicate d p

theorem lists_conjunction (d : Dialect) (f : Filter) : (conjunction d f).lists = f.lists := by
  rw [Layout.lists, conjunction, flatMap_join fun _ => rfl, List.flatMap_map]
  exact List.flatMap_congr fun p _ => lists_predicate d p

theorem length_bases (f : Filter) : (f.flatMap Predicate.bases).length ≤ f.length := by
  induction f with
  | nil => exact le_rfl
  | cons p f ih =>
    have hp : p.bases.length ≤ 1 := by cases p <;> simp [Predicate.bases]
    rw [List.flatMap_cons, List.length_append, List.length_cons]
    omega

theorem cellKeys_ofStatement (d : Dialect) (hne : st.filter ≠ []) :
    (ofStatement d st).cellKeys = st.cellNames := by
  obtain ⟨hcells, hnames⟩ | ⟨-, hfilter⟩ | ⟨t, as, f, c, rfl⟩ := cells_or_filter d st
  · rw [hcells, hnames]
  · exact absurd hfilter hne
  · exact cellKeys_update d t as f c

theorem cellKeys_lead (d : Dialect) (hne : st.filter ≠ []) : st.lead.cellKeys = st.cellNames := by
  rw [← cellKeys_ofStatement d hne, ofStatement_eq d hne, Layout.cellKeys, Layout.cellKeys,
    List.flatMap_append, List.flatMap_cons, List.flatMap_append]
  change _ = _ ++ ([] ++ (Layout.cellKeys (conjunction d st.filter) ++ Layout.cellKeys (st.tail d)))
  rw [cellKeys_conjunction, cellKeys_tail, List.append_nil, List.append_nil]
  exact (List.append_nil _).symm

/-- A bound that is counted with fifty-one digits is not cut. -/
theorem narrow_bound {most : Nat} (h : most < Nat.pow 10 51) :
    Names.Narrow .postgresql most "param" := by
  refine ⟨wordy_param, by decide, fun n hn => ?_⟩
  have hdigits : (toString n).length ≤ 51 := by
    rw [← String.length_toList, Nat.toString_eq_repr, Nat.toList_repr]
    exact (Nat.length_toDigits_le_iff (by omega) (by omega)).mpr (hn.trans_lt h)
  have hparam : "param_".length = 6 := rfl
  change ("param_" ++ toString n).length ≤ 57
  rw [String.length_append, hparam]
  omega

/-- A statement with a filter, whose names are made up of letters, digits and underscores, and whose
cells have names of their own. -/
structure Worded (d : Dialect) (st : Statement) : Prop where
  filtered : st.filter ≠ []
  strict : ∀ q ∈ ofStatement d st, q.Strict
  cells : st.cellNames.Nodup

theorem Worded.cellKeys (h : Worded d st) : ∀ k ∈ st.cellNames, Wordy k := by
  rw [← cellKeys_ofStatement d h.filtered]
  exact Strict.cellKeys h.strict

theorem Worded.counted (h : Worded d st) :
    (∀ b ∈ (conjunction d st.filter).flatMap Piece.counted, Wordy b) ∧
      ∀ b ∈ (st.tail d).flatMap Piece.counted, Wordy b := by
  have hall := Strict.counted h.strict
  rw [ofStatement_eq d h.filtered, List.flatMap_append, List.flatMap_cons, List.flatMap_append] at hall
  have hbehind := (List.forall_mem_append.mp (List.forall_mem_append.mp hall).2).2
  exact List.forall_mem_append.mp hbehind

namespace Written

variable (w : Written d st) (w' : Written d st')

/-- In front of the filter nothing is counted, and nothing taken but the names of cells. -/
theorem first_eq (h : Worded d st) :
    w.first = { keys := st.cellNames.reverse, taken := st.cellNames.reverse } := by
  have hlead := cellKeys_lead d h.filtered
  obtain ⟨hcounts, hcut, hkeys, htaken⟩ := nameAll_cells w.named_lead (counted_lead st)
    (hlead ▸ h.cells) fun k hk => ⟨(h.cellKeys k (hlead ▸ hk)).escape, List.not_mem_nil⟩
  rw [hlead, List.append_nil] at hkeys htaken
  generalize w.first = n at hcounts hcut hkeys htaken
  obtain ⟨counts, cut, keys, taken⟩ := n
  subst hcounts hcut hkeys htaken
  rfl

theorem settled_first (h : Worded d st) : w.first.Settled d := by
  rw [w.first_eq h]
  exact fun x hx => .inr hx

theorem like_first (h : Worded d st) (h' : Worded d st') : Names.Like d w.first w'.first := by
  refine ⟨?_, ?_, w.settled_first h, w'.settled_first h'⟩ <;> rw [w.first_eq h, w'.first_eq h']

/-- The places of one filter have the same names in all statements. -/
theorem inner_eq (h : Worded d st) (h' : Worded d st') (hf : st.filter = st'.filter) :
    w.inner = w'.inner ∧ Names.Like d w.second w'.second :=
  nameAll_like (w.like_first w' h h') (cellKeys_conjunction d st.filter) h.counted.1 w.named_inner
    (hf ▸ w'.named_inner)

theorem names_lead (h : Worded d st) : w.lead.filterMap (·.name?) = st.cellNames := by
  have htaken := (nameAll_eq_ok w.named_lead List.nodup_nil).2.1
  rw [w.first_eq h, List.append_nil] at htaken
  exact List.reverse_injective htaken.symm

theorem names_unbounded (hb : st.Unbounded) : w.tail.filterMap (·.name?) = [] :=
  names_uncounted (cellKeys_tail d st) (flatMap_unbounded (fun _ => rfl) (fun _ => rfl) hb) w.named_tail

theorem taken_last : w.last.taken = (w.tail.filterMap (·.name?)).reverse ++
    ((w.inner.filterMap (·.name?)).reverse ++ w.first.taken) := by
  rw [(nameAll_eq_ok w.named_tail w.labels_inner.2).2.1,
    (nameAll_eq_ok w.named_inner w.labels_lead.2).2.1]

/-- Beside the filter, only cells and bounds take names. -/
theorem adds_taken (h : Worded d st) (h' : Worded d st') (hf : st.filter = st'.filter)
    (hc : st'.cellNames = []) (hb : st'.Unbounded) :
    Adds (st.cellNames ++ w.tail.filterMap (·.name?)) w'.last.taken w.last.taken := by
  have hleft : w'.last.taken = (w.inner.filterMap (·.name?)).reverse := by
    rw [w'.taken_last, w'.names_unbounded hb, w'.first_eq h', hc, (w.inner_eq w' h h' hf).1]
    exact List.append_nil _
  rw [hleft, w.taken_last, w.first_eq h]
  constructor
  · exact fun x hx => List.mem_append_right _ (List.mem_append_left _ hx)
  · intro x hx
    rcases List.mem_append.mp hx with hx | hx
    · exact .inr (List.mem_append_right _ (List.mem_reverse.mp hx))
    · exact (List.mem_append.mp hx).imp_right fun hx =>
        List.mem_append_left _ (List.mem_reverse.mp hx)

/-- Within the filter no base is counted further than it has predicates. -/
theorem within_second (h : Worded d st) : w.second.Within d st.filter.length [] := by
  refine nameAll_within (cellKeys_conjunction d st.filter) w.named_inner
    ⟨w.settled_first h, ⟨0, ?_, ?_⟩, h.counted.1⟩
  · rw [w.first_eq h]
    exact Names.few_nil
  · rw [counted_conjunction, Nat.zero_add]
    exact length_bases st.filter

/-- Names of bounds have one underscore, unless they are cut. -/
theorem count_tail (w : Written .postgresql st) (h : Worded .postgresql st)
    (hfew : st.Unbounded ∨ st.filter.length + 2 < Nat.pow 10 51) :
    ∀ x ∈ w.tail.filterMap (·.name?), x.toList.count '_' = 1 := by
  rcases hfew with hb | hfew
  · rw [w.names_unbounded hb]
    exact fun _ hx => absurd hx List.not_mem_nil
  obtain ⟨k, hk, hbounds⟩ := counted_tail .postgresql st
  obtain ⟨hsettled, ⟨j, hj, hmost⟩, -⟩ := w.within_second h
  have htail : w.second.Within .postgresql (st.filter.length + 2) (st.tail .postgresql) := by
    refine ⟨hsettled, ⟨j, hj, ?_⟩, h.counted.2⟩
    rw [hbounds, List.length_replicate]
    exact Nat.add_le_add hmost hk
  refine count_nameAll (cellKeys_tail _ st) w.named_tail htail fun b hb => ?_
  rw [hbounds] at hb
  exact List.eq_of_mem_replicate hb ▸ narrow_bound hfew

/-- Members have two underscores in their names. -/
theorem count_members (w : Written d st) : ∀ p ∈ w.members, 2 ≤ p.1.toList.count '_' :=
  (inherits_count 1).spreadAll w.spread fun _ _ hm =>
    underscore_nameAll (cellKeys_conjunction d st.filter) w.named_inner _
      (List.mem_filterMap.mpr ⟨_, hm, rfl⟩)

/-- A filter has the same places as where it stands alone, unless a cell has the name of a member. -/
theorem blocks_eq (w : Written .postgresql st) (w' : Written .postgresql st')
    (h : Worded .postgresql st) (h' : Worded .postgresql st') (hf : st.filter = st'.filter)
    (hc : st'.cellNames = []) (hb : st'.Unbounded)
    (hfew : st.Unbounded ∨ st.filter.length + 2 < Nat.pow 10 51)
    (hfree : ∀ n ∈ st.cellNames, n ∉ w'.members.map Prod.fst) : w.blocks = w'.blocks := by
  have hspread := spreadAll_adds (w.adds_taken w' h h' hf hc hb) w'.spread fun p hp hm => by
    rcases List.mem_append.mp hm with hm | hm
    · exact hfree p.1 hm (List.mem_map_of_mem hp)
    · have hone := w.count_tail h hfew p.1 hm
      have htwo := w'.count_members p hp
      omega
  rw [← (w.inner_eq w' h h' hf).1] at hspread
  exact (Prod.mk.inj (Except.ok.inj (w.spread.symm.trans hspread))).1

/-- No place of the filter has the name of a cell. -/
theorem not_mem_holes (h : Worded d st) {n : String} (hn : n ∈ st.cellNames) :
    some n ∉ holes (ofBlocks d w.blocks) := by
  intro hm
  rw [w.holes_blocks] at hm
  obtain ⟨p, hp, hkey⟩ := List.mem_map.mp hm
  have hname : p.1 = n := by
    cases d with
    | postgresql => exact Option.some.inj hkey
    | sqlite => cases hkey
  have hplace := names_spreads w.spreads (hname ▸ List.mem_map_of_mem (f := Prod.fst) hp)
  have hnd := w.nodup h.filtered
  rw [pieces, List.filterMap_append, w.names_lead h, List.append_assoc] at hnd
  refine (List.nodup_append.mp hnd).2.2 n hn n ?_ rfl
  have hjoint : (joint st :: (w.inner ++ w.tail)).filterMap (·.name?) =
      w.inner.filterMap (·.name?) ++ w.tail.filterMap (·.name?) := List.filterMap_append
  rw [hjoint]
  rcases List.mem_append.mp hplace with hm | hm
  · exact List.mem_append_left _ (List.mem_append_left _ hm)
  · exact List.mem_append_right _ hm

/-- The places have the values of the filter, if no bound comes between these. -/
theorem resolved_eq (h : Worded d st) {terms : List (String × Term)}
    (hc : ofTerms d terms = ofBlocks d w.blocks)
    (hbound : d = .postgresql ∨ st.filter.lists = [] ∨ st.Unbounded) :
    w.rendered.resolved d ⟨w.lead.flatMap (ofNamed d) ++ chars st.gap, terms,
      w.tail.flatMap (ofNamed d)⟩ = (st.filter.resolved d).map some := by
  cases d with
  | postgresql =>
    have hcells := cellKeys_ofStatement .postgresql h.filtered
    exact resolved_postgresql h.filtered (hcells ▸ h.cells)
      (fun k hk => (h.cellKeys k (hcells ▸ hk)).escape) hc
  | sqlite =>
    have hlists := lists_conjunction .sqlite st.filter
    rw [Filter.resolved, ← hlists]
    refine resolved_sqlite ?_ hc
    rcases hbound with hd | hnone | hb
    · cases hd
    · exact .inr (hlists.trans hnone)
    · exact .inl (flatMap_unbounded (fun _ => rfl) (fun _ => rfl) hb)

end Written
end Statement

namespace Query
open Layout Binding Lexeme Reading Statement

variable {rules : Naming} {kind : StatementKind} {d : Dialect} {s s' : State} {data data' : Value}
  {st st' : Statement} {r r' : Rendered}

/-- A statement with a filter, built under strict rules, is written out around its filter. -/
theorem exists_written (hs : rules.strict = true) (hk : Addresses kind)
    (hp : Filter.isPresent s.filter = true) (h : build rules kind s data = .ok st)
    (hr : st.render d = .ok r) : Filter.ofValue rules s.filter = .ok st.filter ∧ Worded d st ∧
      "" ∉ st.cellNames ∧ ∃ w : Written d st, w.rendered = r := by
  have hf : Filter.ofValue rules s.filter = .ok st.filter := by
    rcases filter_of_build h with ⟨hi, -⟩ | hf
    · exact absurd hi (not_or.mpr hk)
    · exact hf
  obtain ⟨-, -, -, -, hne⟩ := present_conjuncts hp hf
  have hstrict := strict_of_build hs h d
  obtain ⟨xs, -, hplaced, hnames⟩ := placed_of_build (d := d) hk h
  have hplain := plain_of_legible (Strict.legible hstrict) (regular_ofStatement d hnames) hr
  exact ⟨hf, ⟨hne, hstrict, cellKeys_ofStatement d hne ▸ hplaced.keys⟩, hnames, Written.exists_rendered hne hplain⟩

/-- The clause of a statement beside that of its count. -/
structure AsCounted (d : Dialect) (st : Statement) (r r' : Rendered) (c c' : Clause) : Prop where
  /-- They say the same of the same columns. -/
  unnamed : c.terms.map (fun e => (e.1, e.2.unnamed)) = c'.terms.map fun e => (e.1, e.2.unnamed)
  /-- They are the same where places have no names. -/
  positions : d = .sqlite → c.terms = c'.terms
  /-- They are the same where no assigned column has the name of a parameter of the count. A name that
  is counted is cut only behind so many others. -/
  names : st.Unbounded ∨ st.filter.length + 2 < Nat.pow 10 51 →
    (∀ n ∈ st.cellNames, n ∉ r'.params.map Prod.fst) → c.terms = c'.terms
  /-- No place has the name of an assigned column, whatever it is called in the count. -/
  renamed : ∀ n ∈ st.cellNames, some n ∉ holes (ofTerms d c.terms)
  /-- The places have the same values, if no bound comes between these. -/
  values : d = .postgresql ∨ st.filter.lists = [] ∨ st.Unbounded →
    r.resolved d c = (st.filter.resolved d).map some ∧
      r'.resolved d c' = (st.filter.resolved d).map some

/-- Under strict rules, every statement filters as its count does. -/
theorem clause_as_counted (hs : rules.strict = true) (hk : Addresses kind)
    (hf : s.filter = s'.filter) (hp : Filter.isPresent s.filter = true)
    (h : build rules kind s data = .ok st) (hr : st.render d = .ok r)
    (h' : build rules .count s' data' = .ok st') (hr' : st'.render d = .ok r') :
    ∃ c c', HasClause d r.sql c ∧ HasClause d r'.sql c' ∧ Filter.Terms rules d s.filter c.terms ∧
      AsCounted d st r r' c c' := by
  obtain ⟨hof, hw, hcells, w, rfl⟩ := exists_written hs hk hp h hr
  obtain ⟨hof', hw', hcells', w', rfl⟩ :=
    exists_written hs ⟨by decide, by decide⟩ (hf ▸ hp) h' hr'
  have hsame : st.filter = st'.filter := Except.ok.inj (hof.symm.trans (hf ▸ hof'))
  obtain ⟨hbare, hbounds⟩ : st'.cellNames = [] ∧ st'.Unbounded := by
    obtain ⟨t, f, -, -, rfl⟩ := count_eq_ok.mp h'
    exact ⟨rfl, trivial⟩
  have hfull := Filter.oneOf_nil_not_mem hof
  obtain ⟨terms, hc, hterms, hun⟩ := w.exists_clause hw.filtered hfull hcells
  obtain ⟨terms', hc', hterms', hun'⟩ := w'.exists_clause hw'.filtered (hsame ▸ hfull) hcells'
  rw [← hsame] at hun'
  have heq : ofBlocks d w.blocks = ofBlocks d w'.blocks → terms = terms' := fun hb =>
    Written.terms_injective hw.filtered hfull hun hun' (hterms.trans (hb.trans hterms'.symm))
  have hpositions : d = .sqlite → terms = terms' := by
    rintro rfl
    exact heq (by rw [Written.ofBlocks_sqlite, Written.ofBlocks_sqlite, hsame])
  refine ⟨_, _, hc, hc', (Filter.terms_iff hof).mpr hun, hun.trans hun'.symm, hpositions, ?_, ?_, ?_⟩
  · intro hfew hfree
    cases d with
    | sqlite => exact hpositions rfl
    | postgresql =>
      refine heq (congrArg _ (w.blocks_eq w' hw hw' hsame hbare hbounds hfew fun n hn hm => ?_))
      refine hfree n hn ?_
      rw [Written.rendered, List.map_append]
      exact List.mem_append_right _ hm
  · exact fun n hn hm => w.not_mem_holes hw hn (hterms ▸ hm)
  · exact fun hbound => ⟨w.resolved_eq hw hterms hbound,
      hsame ▸ w'.resolved_eq hw' hterms' (.inr (.inr hbounds))⟩

/-- A query that was built and written out, with what holds of its text. -/
theorem exists_render_of_isOk (d : Dialect) (rules : Naming) (kind : StatementKind) (s : State)
    (data : Value) (p : Rendered → Prop) [DecidablePred p]
    (h : ((build rules kind s data >>= Statement.render d).toOption.any fun r => p r) = true) :
    ∃ st r, build rules kind s data = .ok st ∧ st.render d = .ok r ∧ p r := by
  obtain ⟨r, hr, hp⟩ := Outcome.exists_of_isOk h
  obtain ⟨st, hst, hr⟩ := Outcome.bind_eq_ok.mp hr
  exact ⟨st, r, hst, hr, hp⟩

/-- An update of a column whose name is not that of a member. -/
theorem update_as_counted :
    let rules : Naming := { strict := true }
    let s : State :=
      { table := "users",
        filter := .list [.condition (.membership "id" (.list [.int 1, .int 2])) {}] }
    let data : Value := .map [(.str "name", .str "x")]
    rules.strict = true ∧ Addresses .update ∧ Filter.isPresent s.filter = true ∧ ∃ st st' r r',
      build rules .update s data = .ok st ∧ st.render .postgresql = .ok r ∧
      build rules .count s .none = .ok st' ∧ st'.render .postgresql = .ok r' ∧
      ∃ c c', HasClause .postgresql r.sql c ∧ HasClause .postgresql r'.sql c' ∧
        c.terms = c'.terms ∧ r.resolved .postgresql c = [some (.int 1), some (.int 2)] := by
  intro rules s data
  have hb : build rules .update s data = .ok (.update ⟨none, "users"⟩ [("name", .str "x")]
      [.oneOf "id" [.int 1, .int 2]] .all) := by
    dsimp only [rules, s, data]
    rfl
  have hb' : build rules .count s .none = .ok (.count ⟨none, "users"⟩
      [.oneOf "id" [.int 1, .int 2]]) := by
    dsimp only [rules, s]
    rfl
  obtain ⟨r, hr, -⟩ := Outcome.exists_of_isOk (x := Statement.render .postgresql
      (.update ⟨none, "users"⟩ [("name", .str "x")] [.oneOf "id" [.int 1, .int 2]] .all))
    (p := fun _ => True) (by decide +kernel)
  obtain ⟨r', hr', hparams⟩ := Outcome.exists_of_isOk (x := Statement.render .postgresql
      (.count ⟨none, "users"⟩ [.oneOf "id" [.int 1, .int 2]]))
    (p := fun r => r.params.map Prod.fst = ["id_1_1", "id_1_2"]) (by decide +kernel)
  have hk : Addresses .update := ⟨by decide, by decide⟩
  obtain ⟨c, c', hc, hc', -, has⟩ := clause_as_counted rfl hk rfl (by rfl) hb hr hb' hr'
  refine ⟨rfl, hk, rfl, _, _, r, r', hb, hr, hb', hr', c, c', hc, hc', has.names (.inl trivial) ?_,
    (has.values (.inl rfl)).1⟩
  rw [hparams]
  decide

/-- Where a column is assigned that has the name of a member, the member is called otherwise. -/
theorem member_renamed :
    let rules : Naming := { strict := true }
    let s : State :=
      { table := "users",
        filter := .list [.condition (.membership "id" (.list [.int 1, .int 2])) {}] }
    let data : Value := .map [(.str "id_1_1", .int 5)]
    rules.strict = true ∧ Filter.isPresent s.filter = true ∧
    (∃ st r, build rules .select s data = .ok st ∧ st.render .postgresql = .ok r) ∧
    (∃ st r, build rules .delete s data = .ok st ∧ st.render .postgresql = .ok r) ∧
    ∃ st st' r r', build rules .update s data = .ok st ∧ st.render .postgresql = .ok r ∧
      build rules .count s data = .ok st' ∧ st'.render .postgresql = .ok r' ∧
      ∃ c c', HasClause .postgresql r.sql c ∧ HasClause .postgresql r'.sql c' ∧
        textAll .postgresql (ofTerms .postgresql c.terms) =
          "\"id\" IN (%(id_1_1__1)s::INTEGER, %(id_1_2)s::INTEGER)" ∧
        textAll .postgresql (ofTerms .postgresql c'.terms) =
          "\"id\" IN (%(id_1_1)s::INTEGER, %(id_1_2)s::INTEGER)" := by
  intro rules s data
  obtain ⟨ss, rs, hs, hrs, -⟩ := exists_render_of_isOk .postgresql rules .select s data (fun _ => True)
    (by decide +kernel)
  obtain ⟨sd, rd, hd, hrd, -⟩ := exists_render_of_isOk .postgresql rules .delete s data (fun _ => True)
    (by decide +kernel)
  obtain ⟨su, ru, hu, hru, hclause⟩ := exists_render_of_isOk .postgresql rules .update s data
    (fun r => clauseText? .postgresql r.sql =
      some "\"id\" IN (%(id_1_1__1)s::INTEGER, %(id_1_2)s::INTEGER)") (by decide +kernel)
  obtain ⟨sc, rc, hc, hrc, hclause'⟩ := exists_render_of_isOk .postgresql rules .count s data
    (fun r => clauseText? .postgresql r.sql =
      some "\"id\" IN (%(id_1_1)s::INTEGER, %(id_1_2)s::INTEGER)") (by decide +kernel)
  obtain ⟨c, hread, htext⟩ := clauseText?_eq_some.mp hclause
  obtain ⟨c', hread', htext'⟩ := clauseText?_eq_some.mp hclause'
  exact ⟨rfl, rfl, ⟨ss, rs, hs, hrs⟩, ⟨sd, rd, hd, hrd⟩, su, sc, ru, rc, hu, hru, hc, hrc, c, c', hread,
    hread', htext, htext'⟩

end Query
end TableQuery
