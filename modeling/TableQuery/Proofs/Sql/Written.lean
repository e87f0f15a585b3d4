import TableQuery.Proofs.Sql.Around
import TableQuery.Proofs.Sql.Bound
import TableQuery.Proofs.Sql.Writable

/-! Statements with a filter, written out piece by piece around it: the clause that is read in the text,
and what its places resolve to. -/

namespace TableQuery

namespace Binding
open Lexeme

theorem nameAll_append {d : Dialect} {n n' : Names} {l m : Layout} {ps : List Named} :
    nameAll d n (l ++ m) = .ok (ps, n') ↔ ∃ qs k rs, nameAll d n l = .ok (qs, k) ∧
      nameAll d k m = .ok (rs, n') ∧ ps = qs ++ rs := by
  induction l generalizing n ps with
  | nil =>
    constructor
    · exact fun h => ⟨[], n, ps, rfl, h, rfl⟩
    · rintro ⟨_, _, rs, ⟨⟩, hrs, rfl⟩
      exact hrs
  | cons p l ih =>
    rw [List.cons_append, nameAll_cons]
    constructor
    · rintro ⟨q, k, rest, hq, hrest, rfl⟩
      obtain ⟨qs, j, rs, hqs, hrs, rfl⟩ := ih.mp hrest
      exact ⟨q :: qs, j, rs, nameAll_cons.mpr ⟨q, k, qs, hq, hqs, rfl⟩, hrs, rfl⟩
    · rintro ⟨_, j, rs, h, hrs, rfl⟩
      obtain ⟨q, k, qs, hq, hqs, rfl⟩ := nameAll_cons.mp h
      exact ⟨q, k, qs ++ rs, hq, ih.mpr ⟨qs, j, rs, hqs, hrs, rfl⟩, rfl⟩

theorem spreadAll_append {d : Dialect} {taken : List String} {ps qs : List Named}
    {bs : List (List Named)} {ms : List (String × Value)}
    (h : spreadAll d taken (ps ++ qs) = .ok (bs, ms)) : ∃ cs ks es ls,
      spreadAll d taken ps = .ok (cs, ks) ∧
      spreadAll d ((ks.map Prod.fst).reverse ++ taken) qs = .ok (es, ls) ∧
      bs = cs ++ es ∧ ms = ks ++ ls := by
  induction ps generalizing taken bs ms with
  | nil => exact ⟨[], [], bs, ms, rfl, h, rfl, rfl⟩
  | cons p ps ih =>
    cases p with
    | members x vs =>
      obtain ⟨b, params, taken', bs', ms', hb, hbs, rfl, rfl⟩ := spreadAll_members.mp h
      obtain ⟨cs, ks, es, ls, hcs, hes, rfl, rfl⟩ := ih hbs
      refine ⟨b :: cs, params ++ ks, es, ls,
        spreadAll_members.mpr ⟨b, params, taken', cs, ks, hb, hcs, rfl, rfl⟩, ?_, rfl,
        (List.append_assoc ..).symm⟩
      rw [(expand_eq_ok hb).2.2.1] at hes
      rwa [List.map_append, List.reverse_append, List.append_assoc]
    | _ =>
      obtain ⟨⟨bs', ms'⟩, hbs, h⟩ := Outcome.bind_eq_ok.mp h
      cases Outcome.pure_eq_ok.mp h
      obtain ⟨cs, ks, es, ls, hcs, hes, rfl, rfl⟩ := ih hbs
      exact ⟨_ :: cs, ks, es, ls, Outcome.bind_eq_ok.mpr ⟨_, hcs, rfl⟩, hes, rfl, rfl⟩

/-- What stands for a piece has no list in it that is still to be written out. -/
theorem Spread.ne_members {d : Dialect} {p : Piece} {b : List Named} (h : Spread d p b) {q : Named}
    (hq : q ∈ b) : ∀ x vs, q ≠ .members x vs := by
  rintro x vs rfl
  cases h with
  | members here fit => cases single_of_mem_members here fit _ hq
  | _ => cases List.mem_singleton.mp hq

theorem memberLists_eq_nil {l : Layout} {ps : List Named} (hl : List.Forall₂ Labels l ps)
    (h : l.lists = []) : memberLists ps = [] :=
  List.map_eq_nil_iff.mp ((memberLists_labels hl).trans h)

theorem spread_blocks {d : Dialect} {l : Layout} {ps : List Named} (hl : List.Forall₂ Labels l ps)
    (h : memberLists ps = []) : List.Forall₂ (Spread d) l (blocks ps) :=
  (spreadAll_eq_ok (spreadAll_blocks d [] h) List.nodup_nil).1.spread hl

end Binding

/-- What the places of a clause resolve to: what the parameters have under their names, or in their
positions behind those of the places in front. -/
def Rendered.resolved (d : Dialect) (r : Rendered) (c : Reading.Clause) : List (Option Value) :=
  let places := Lexeme.holes (Reading.ofTerms d c.terms)
  match d with
  | .postgresql => places.map fun k => k.bind fun n => r.params.lookup n
  | .sqlite => places.mapIdx fun i _ => r.params[(Lexeme.holes c.before).length + i]?.map Prod.snd

/-- What the places of a filter find by their names, or what is bound for them. -/
def Filter.resolved (d : Dialect) (f : Filter) : List Value :=
  match d with
  | .postgresql => (Layout.conjunction d f).flatMap Piece.found
  | .sqlite => (Layout.conjunction d f).singles ++ f.lists.flatMap Binding.memberValues

namespace Statement
open Layout Binding Lexeme Reading

/-- A statement written out around its filter: the pieces in front of it, within it and behind it, each
with what is named after them, and the blocks and the parameters of the lists within. -/
structure Written (d : Dialect) (st : Statement) where
  lead : List Named
  inner : List Named
  tail : List Named
  first : Names
  second : Names
  last : Names
  blocks : List (List Named)
  members : List (String × Value)
  named_lead : nameAll d {} st.lead = .ok (lead, first)
  named_inner : nameAll d first (conjunction d st.filter) = .ok (inner, second)
  named_tail : nameAll d second (st.tail d) = .ok (tail, last)
  spread : spreadAll d last.taken inner = .ok (blocks, members)

namespace Written

variable {d : Dialect} {st : Statement} (w : Written d st)

/-- The words that lead in the filter. -/
def joint (st : Statement) : Named := .text (st.gap ++ "WHERE ")

def pieces : List Named := w.lead ++ joint st :: (w.inner ++ w.tail)

def all : List (List Named) :=
  Binding.blocks (w.lead ++ [joint st]) ++ (w.blocks ++ Binding.blocks w.tail)

def rendered : Rendered where
  sql := writtenAll d w.all.flatten
  params := values (!(memberLists w.pieces).isEmpty) w.pieces ++ w.members

theorem named (hne : st.filter ≠ []) : nameAll d {} (ofStatement d st) = .ok (w.pieces, w.last) := by
  rw [ofStatement_eq d hne]
  have hbehind := nameAll_append.mpr ⟨w.inner, w.second, w.tail, w.named_inner, w.named_tail, rfl⟩
  exact nameAll_append.mpr ⟨w.lead, w.first, _, w.named_lead,
    nameAll_cons.mpr ⟨joint st, w.first, _, rfl, hbehind, rfl⟩, rfl⟩

theorem labels_lead : List.Forall₂ Labels st.lead w.lead ∧ w.first.taken.Nodup :=
  have h := nameAll_eq_ok w.named_lead List.nodup_nil
  ⟨h.1, h.2.2⟩

theorem labels_inner : List.Forall₂ Labels (conjunction d st.filter) w.inner ∧ w.second.taken.Nodup :=
  have h := nameAll_eq_ok w.named_inner w.labels_lead.2
  ⟨h.1, h.2.2⟩

theorem labels_tail : List.Forall₂ Labels (st.tail d) w.tail ∧ w.last.taken.Nodup :=
  have h := nameAll_eq_ok w.named_tail w.labels_inner.2
  ⟨h.1, h.2.2⟩

theorem lists_lead : memberLists w.lead = [] :=
  memberLists_eq_nil w.labels_lead.1 (Statement.lists_lead st)

theorem lists_tail : memberLists w.tail = [] :=
  memberLists_eq_nil w.labels_tail.1 (Statement.lists_tail d st)

theorem spreads : Spreads d w.inner w.blocks w.members :=
  (spreadAll_eq_ok w.spread w.labels_tail.2).1

/-- No two parameters have the same name. -/
theorem nodup (hne : st.filter ≠ []) :
    (w.pieces.filterMap (·.name?) ++ w.members.map Prod.fst).Nodup := by
  obtain ⟨-, htaken, -⟩ := nameAll_eq_ok (w.named hne) List.nodup_nil
  have hnd := (spreadAll_eq_ok w.spread w.labels_tail.2).2
  rw [htaken, List.append_nil, ← List.reverse_append] at hnd
  exact List.nodup_reverse.mp hnd

theorem spread_all (hne : st.filter ≠ []) : List.Forall₂ (Spread d) (ofStatement d st) w.all := by
  have hlead := spread_blocks (d := d) w.labels_lead.1 w.lists_lead
  have htail := spread_blocks (d := d) w.labels_tail.1 w.lists_tail
  have hinner := w.spreads.spread w.labels_inner.1
  rw [ofStatement_eq d hne, all, Binding.blocks, List.map_append, List.append_assoc]
  exact List.rel_append hlead (.cons (.text _) (List.rel_append hinner htail))

/-- A statement with a filter that is written piece by piece is written around its filter. -/
theorem exists_rendered (hne : st.filter ≠ []) {r : Rendered} (h : st.plain d = .ok r) :
    ∃ w : Written d st, w.rendered = r := by
  obtain ⟨⟨ps, n⟩, hps, h⟩ := Outcome.bind_eq_ok.mp h
  obtain ⟨⟨bs, ms⟩, hbs, h⟩ := Outcome.bind_eq_ok.mp h
  cases Outcome.pure_eq_ok.mp h
  rw [ofStatement_eq d hne] at hps
  obtain ⟨lead, first, rest, hlead, hrest, rfl⟩ := nameAll_append.mp hps
  obtain ⟨_, _, _, hjoint, hbehind, rfl⟩ := nameAll_cons.mp hrest
  cases hjoint
  obtain ⟨inner, second, tail, hinner, htail, rfl⟩ := nameAll_append.mp hbehind
  obtain ⟨hl₁, -, hnd₁⟩ := nameAll_eq_ok hlead List.nodup_nil
  obtain ⟨-, -, hnd₂⟩ := nameAll_eq_ok hinner hnd₁
  obtain ⟨hl₃, -, -⟩ := nameAll_eq_ok htail hnd₂
  have hfront : memberLists (lead ++ [joint st]) = [] := by
    rw [memberLists, List.filterMap_append]
    exact List.append_eq_nil_iff.mpr ⟨memberLists_eq_nil hl₁ (Statement.lists_lead st), rfl⟩
  rw [← List.singleton_append, ← List.append_assoc] at hbs
  obtain ⟨cs, ks, es, ls, hcs, hes, rfl, rfl⟩ := spreadAll_append hbs
  cases hcs.symm.trans (spreadAll_blocks d n.taken hfront)
  obtain ⟨blocks, members, gs, js, hblocks, hgs, rfl, rfl⟩ := spreadAll_append hes
  cases hgs.symm.trans (spreadAll_blocks d _ (memberLists_eq_nil hl₃ (Statement.lists_tail d st)))
  refine ⟨⟨lead, inner, tail, first, second, n, blocks, members, hlead, hinner, htail, hblocks⟩, ?_⟩
  simp only [rendered, List.append_nil]
  rfl

/-! The clause that is read in the text. -/

theorem lex_rendered (hne : st.filter ≠ []) (hcells : "" ∉ st.cellNames) :
    lex d w.rendered.sql = w.lead.flatMap (ofNamed d) ++ chars st.gap ++ (chars "WHERE " ++
      (ofBlocks d w.blocks ++ w.tail.flatMap (ofNamed d))) := by
  have hjoint : ofNamed d (joint st) = chars st.gap ++ chars "WHERE " := by
    rw [joint, ofNamed, chars, String.toList_append, List.map_append]
    rfl
  rw [rendered, lex_written (regular_ofStatement d hcells) (w.spread_all hne), ofBlocks, all,
    List.flatten_append, List.flatten_append, flatten_blocks, flatten_blocks]
  simp only [List.flatMap_append, List.flatMap_cons, List.flatMap_nil, List.append_nil, hjoint,
    List.append_assoc]
  rfl

theorem textAll_lex (hne : st.filter ≠ []) (hcells : "" ∉ st.cellNames) :
    textAll d (lex d w.rendered.sql) = w.rendered.sql := by
  rw [rendered, lex_written (regular_ofStatement d hcells) (w.spread_all hne)]
  refine textAll_flatMap d fun q hq => ?_
  obtain ⟨b, hb, hq⟩ := List.mem_flatten.mp hq
  obtain ⟨p, -, hp⟩ := Lists.exists_of_mem_right (w.spread_all hne) hb
  exact hp.ne_members hq

theorem lead_ne (w : Written d st) :
    ∀ x ∈ w.lead.flatMap (ofNamed d) ++ chars st.gap, x ≠ .char 'W' := by
  have hchars : ∀ {s : String}, 'W' ∉ s.toList → ∀ x ∈ chars s, x ≠ .char 'W' := by
    intro s hs x hx he
    obtain ⟨c, hc, rfl⟩ := List.mem_map.mp hx
    cases he
    exact hs hc
  refine List.forall_mem_append.mpr ⟨fun x hx => ?_, ?_⟩
  · obtain ⟨q, hq, hx⟩ := List.mem_flatMap.mp hx
    obtain ⟨p, hp, hpq⟩ := Lists.exists_of_mem_right w.labels_lead.1 hq
    cases leads_lead st p hp with
    | text h =>
      cases hpq
      exact hchars h x hx
    | quoted n =>
      cases hpq
      cases List.mem_singleton.mp hx
      exact Lexeme.noConfusion
    | cell key v =>
      cases hpq
      rcases List.mem_cons.mp hx with rfl | hx
      · exact Lexeme.noConfusion
      · cases d <;> exact absurd hx List.not_mem_nil
  · have hgap : st.gap = " \n" ∨ st.gap = " " := by cases st <;> simp [gap]
    rcases hgap with h | h <;> rw [h] <;> exact hchars (by decide)

theorem begins_tail (w : Written d st) : Begins ends (w.tail.flatMap (ofNamed d)) := by
  have hl := w.labels_tail.1
  rcases tail_begins d st with h | ⟨s, hs, l, h⟩ <;> rw [h] at hl
  · rw [List.forall₂_nil_left_iff.mp hl]
    exact .inl rfl
  · obtain ⟨q, qs, hq, -, he⟩ := List.forall₂_cons_left_iff.mp hl
    cases hq
    rw [he]
    exact .inr ⟨s, hs, _, List.flatMap_cons⟩

theorem full_of_unnamed {f : Filter} {terms : List (String × Term)} (hne : f ≠ [])
    (hfull : ∀ c, .oneOf c [] ∉ f) (h : terms.map (fun e => (e.1, e.2.unnamed)) =
      f.map fun p => (p.column, .ofPredicate d p)) : terms ≠ [] ∧ ∀ e ∈ terms, e.2.IsFull := by
  constructor
  · rintro rfl
    exact hne (List.map_eq_nil_iff.mp h.symm)
  · intro e he
    have hmem : (e.1, e.2.unnamed) ∈ f.map fun p => (p.column, Term.ofPredicate d p) :=
      h ▸ List.mem_map_of_mem (f := fun e : String × Term => (e.1, e.2.unnamed)) he
    obtain ⟨p, hp, hpe⟩ := List.mem_map.mp hmem
    have hterm : Term.ofPredicate d p = e.2.unnamed := congrArg Prod.snd hpe
    exact .of_unnamed (hterm ▸ Term.isFull_ofPredicate d fun c hc => hfull c (hc ▸ hp))

/-- The terms of a filter differ only in the names of their places, and no two are written alike. -/
theorem terms_injective {f : Filter} {terms terms' : List (String × Term)} (hne : f ≠ [])
    (hfull : ∀ c, .oneOf c [] ∉ f)
    (h : terms.map (fun e => (e.1, e.2.unnamed)) = f.map fun p => (p.column, .ofPredicate d p))
    (h' : terms'.map (fun e => (e.1, e.2.unnamed)) = f.map fun p => (p.column, .ofPredicate d p))
    (he : ofTerms d terms = ofTerms d terms') : terms = terms' := by
  obtain ⟨hsome, hall⟩ := full_of_unnamed hne hfull h
  obtain ⟨hsome', hall'⟩ := full_of_unnamed hne hfull h'
  exact ofTerms_injective d hsome hsome' hall hall' he

/-- The text has a WHERE clause, the terms of which say what the predicates of the filter do. -/
theorem exists_clause (hne : st.filter ≠ []) (hfull : ∀ c, .oneOf c [] ∉ st.filter)
    (hcells : "" ∉ st.cellNames) : ∃ terms, HasClause d w.rendered.sql
        ⟨w.lead.flatMap (ofNamed d) ++ chars st.gap, terms, w.tail.flatMap (ofNamed d)⟩ ∧
      ofTerms d terms = ofBlocks d w.blocks ∧
      terms.map (fun e => (e.1, e.2.unnamed)) =
        st.filter.map fun p => (p.column, .ofPredicate d p) := by
  have hshown := unnamed_ofBlocks (w.spreads.spread w.labels_inner.1)
  rw [ofLayout_conjunction] at hshown
  obtain ⟨terms, hterms, hun⟩ := ((lifts_ofConjunct d).intercalate (.chars " AND ") _ _).mp hshown
  obtain ⟨hsome, hall⟩ := full_of_unnamed hne hfull hun
  have hlex := w.lex_rendered hne hcells
  rw [hterms] at hlex
  have hread := clause?_ofClause d (c := ⟨_, terms, _⟩) w.lead_ne hsome hall
    (w.begins_tail.word? (s := ":") (by decide) (by decide))
    (w.begins_tail.word? (s := " AND ") (by decide) (by decide))
  exact ⟨terms, ⟨(congrArg _ hlex).trans hread,
    (congrArg _ hlex).symm.trans (w.textAll_lex hne hcells)⟩, hterms.symm, hun⟩

/-- Without names the places are as they are laid out. -/
theorem ofBlocks_sqlite {w : Written .sqlite st} :
    ofBlocks .sqlite w.blocks = ofLayout .sqlite (conjunction .sqlite st.filter) := by
  rw [← unnamed_ofBlocks (w.spreads.spread w.labels_inner.1), ofBlocks, List.map_flatMap]
  refine List.flatMap_congr fun q _ => ?_
  cases q with
  | text s => exact (unnamed_chars s).symm
  | value column x v cast =>
    rw [ofNamed, List.map_cons, unnamed_chars]
    rfl
  | _ => rfl

/-! What its places resolve to. -/

theorem holes_blocks (w : Written d st) : holes (ofBlocks d w.blocks) =
    (values false w.blocks.flatten).map fun p => key d p.1 := holes_ofNamed d _

/-- Where cells are called as their columns are, all parameters go by their names. -/
theorem params_rendered (hne : st.filter ≠ []) (hcells : (ofStatement d st).cellKeys.Nodup)
    (hfree : ∀ k ∈ (ofStatement d st).cellKeys, escape k = k) :
    w.rendered.params = values false w.pieces ++ w.members := by
  have hcolumn : values true w.pieces = values false w.pieces :=
    column_eq_name (w.named hne) (cellsFirst_ofStatement d st) hcells
      fun k hk => ⟨hfree k hk, List.not_mem_nil⟩
  rw [rendered]
  cases (memberLists w.pieces).isEmpty <;> simp [hcolumn]

theorem values_pieces (w : Written d st) (byColumn : Bool) : values byColumn w.pieces =
    values byColumn w.lead ++ (values byColumn w.inner ++ values byColumn w.tail) := by
  rw [pieces, values_append, ← values_append byColumn w.inner]
  rfl

/-- By their names the places find what the predicates decide, whatever else is in the statement. -/
theorem resolved_postgresql {w : Written .postgresql st} {c : Clause} (hne : st.filter ≠ [])
    (hcells : (ofStatement .postgresql st).cellKeys.Nodup)
    (hfree : ∀ k ∈ (ofStatement .postgresql st).cellKeys, escape k = k)
    (hc : ofTerms .postgresql c.terms = ofBlocks .postgresql w.blocks) :
    w.rendered.resolved .postgresql c =
      ((conjunction .postgresql st.filter).flatMap Piece.found).map some := by
  have hnd : ((values false w.pieces ++ w.members).map Prod.fst).Nodup := by
    rw [List.map_append]
    exact (w.nodup hne).sublist ((names_sublist w.pieces).append_right _)
  obtain ⟨hpieces, hmembers⟩ := finds_append.mp (finds_lookup hnd)
  have hinner : Finds (fun n => (values false w.pieces ++ w.members).lookup n)
      (values false w.inner) := by
    intro p hp
    refine hpieces p ?_
    rw [values_pieces]
    exact List.mem_append_right _ (List.mem_append_left _ hp)
  rw [← look_spreads w.spreads w.labels_inner.1 hinner hmembers, Rendered.resolved, hc,
    holes_blocks, ← w.params_rendered hne hcells hfree, List.map_map,
    List.map_map]
  rfl

theorem length_values (l : Layout) :
    l.values.length = (l.singles ++ l.lists.flatMap memberValues).length := by
  induction l with
  | nil => rfl
  | cons p l ih =>
    have hp : p.values.length = p.single.length + (p.lists.flatMap memberValues).length := by
      cases p with
      | slot s => cases s <;> simp [Piece.values, Piece.single, Piece.lists, Slot.values]
      | _ => rfl
    simp only [Layout.values, Layout.singles, Layout.lists, List.flatMap_cons, List.length_append,
      List.flatMap_append] at ih ⊢
    omega

/-- In their order of binding, the values of the filter stand behind those of the cells, and together if
nothing is bound between the single ones and those in lists. -/
theorem values_rendered {w : Written d st}
    (hbound : (st.tail d).singles = [] ∨ (conjunction d st.filter).lists = []) :
    ∃ rest, w.rendered.params.map Prod.snd = st.lead.singles ++
      (((conjunction d st.filter).singles ++
        (conjunction d st.filter).lists.flatMap memberValues) ++ rest) := by
  have hparams : w.rendered.params.map Prod.snd = st.lead.singles ++
      ((conjunction d st.filter).singles ++ (st.tail d).singles) ++
        (conjunction d st.filter).lists.flatMap memberValues := by
    rw [rendered, List.map_append, values_pieces, List.map_append, List.map_append,
      singles_labels w.labels_lead.1, singles_labels w.labels_inner.1,
      singles_labels w.labels_tail.1, (values_params w.spreads w.labels_inner.1 true).2]
  rw [hparams]
  rcases hbound with h | h <;> rw [h]
  · exact ⟨[], by simp⟩
  · exact ⟨(st.tail d).singles, by simp⟩

theorem length_holes_lead : (holes (w.lead.flatMap (ofNamed d) ++ chars st.gap)).length =
    st.lead.singles.length := by
  have hgap : holes (chars st.gap) = [] := by
    rw [holes, chars, List.filterMap_map]
    exact List.filterMap_eq_nil_iff.mpr fun _ _ => rfl
  rw [holes, List.filterMap_append]
  change (holes _ ++ holes _).length = _
  rw [hgap, List.append_nil, holes_ofNamed, List.length_map,
    ← singles_labels w.labels_lead.1 false, List.length_map]

/-- Then the places find these by position, whatever stands in front. -/
theorem resolved_sqlite {w : Written .sqlite st} {terms : List (String × Term)}
    (hbound : (st.tail .sqlite).singles = [] ∨ (conjunction .sqlite st.filter).lists = [])
    (hc : ofTerms .sqlite terms = ofBlocks .sqlite w.blocks) :
    w.rendered.resolved .sqlite ⟨w.lead.flatMap (ofNamed .sqlite) ++ chars st.gap, terms,
        w.tail.flatMap (ofNamed .sqlite)⟩ =
      ((conjunction .sqlite st.filter).singles ++
        (conjunction .sqlite st.filter).lists.flatMap memberValues).map some := by
  obtain ⟨rest, hparams⟩ := values_rendered (w := w) hbound
  generalize hvs : (conjunction .sqlite st.filter).singles ++
    (conjunction .sqlite st.filter).lists.flatMap memberValues = vs at hparams ⊢
  have hlength : (holes (ofTerms .sqlite terms)).length = vs.length := by
    rw [hc, holes_blocks, List.length_map, ← hvs, ← length_values,
      ← values_spreads (w.spreads.spread w.labels_inner.1), List.length_map]
  have hfound : ∀ i (hi : i < vs.length),
      (w.rendered.params[st.lead.singles.length + i]?).map Prod.snd = some vs[i] := by
    intro i hi
    rw [← List.getElem?_map, hparams, List.getElem?_append_right (Nat.le_add_right ..),
      Nat.add_sub_cancel_left, List.getElem?_append_left hi, List.getElem?_eq_getElem hi]
  rw [Rendered.resolved]
  simp only [w.length_holes_lead]
  refine List.ext_getElem (by rw [List.length_mapIdx, List.length_map, hlength]) fun i hi hi' => ?_
  rw [List.getElem_mapIdx, List.getElem_map]
  exact hfound i (by rwa [List.length_map] at hi')

end Written
end Statement
end TableQuery
