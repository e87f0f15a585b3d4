import TableQuery.Proofs.Sql.Alike

/-! Statements that are alike in all that a text depends on have the same text, whatever their values
are and whatever reads like a mark in their names. -/

namespace TableQuery
namespace Binding

/-- Named pieces that differ in their values alone. -/
inductive Named.Alike : Named → Named → Prop
  | text (s : String) : Alike (.text s) (.text s)
  | quoted (n : String) : Alike (.quoted n) (.quoted n)
  | value (column name : String) (v w : Value) (cast : Option Cast) :
    Alike (.value column name v cast) (.value column name w cast)
  | members (name : String) {vs ws : List Value} (kin : List.Forall₂ Value.Kin vs ws)
    (same : widths? vs = widths? ws) : Alike (.members name vs) (.members name ws)

abbrev AllAlike : List Named → List Named → Prop := List.Forall₂ Named.Alike

/-! Names do not depend on values. -/

theorem name_alike {d : Dialect} {n m m' : Names} {p p' : Piece} {q q' : Named}
    (h : p.Alike True p') (hq : name d n p = .ok (q, m)) (hq' : name d n p' = .ok (q', m')) :
    q.Alike q' ∧ m = m' := by
  cases h with
  | text same =>
    cases same trivial
    cases hq
    cases hq'
    exact ⟨.text _, rfl⟩
  | quoted s =>
    cases hq
    cases hq'
    exact ⟨.quoted s, rfl⟩
  | cell key v w =>
    cases hq
    cases hq'
    exact ⟨.value key _ v w none, rfl⟩
  | operand base v w cast =>
    obtain ⟨⟨x, k⟩, hx, hq⟩ := Outcome.bind_eq_ok.mp hq
    obtain ⟨⟨x', k'⟩, hx', hq'⟩ := Outcome.bind_eq_ok.mp hq'
    cases hx.symm.trans hx'
    cases Outcome.pure_eq_ok.mp hq
    cases Outcome.pure_eq_ok.mp hq'
    exact ⟨.value x x v w cast, rfl⟩
  | members base kin same =>
    obtain ⟨⟨x, k⟩, hx, hq⟩ := Outcome.bind_eq_ok.mp hq
    obtain ⟨⟨x', k'⟩, hx', hq'⟩ := Outcome.bind_eq_ok.mp hq'
    cases hx.symm.trans hx'
    cases Outcome.pure_eq_ok.mp hq
    cases Outcome.pure_eq_ok.mp hq'
    exact ⟨.members x kin (same trivial), rfl⟩

theorem nameAll_alike {d : Dialect} {n m m' : Names} {l l' : Layout} {ps ps' : List Named}
    (h : l.Alike True l') (hp : nameAll d n l = .ok (ps, m))
    (hp' : nameAll d n l' = .ok (ps', m')) : AllAlike ps ps' ∧ m = m' := by
  induction h generalizing n ps ps' with
  | nil =>
    cases hp
    cases hp'
    exact ⟨.nil, rfl⟩
  | cons hab _ ih =>
    obtain ⟨q, k, qs, hq, hqs, rfl⟩ := nameAll_cons.mp hp
    obtain ⟨q', k', qs', hq', hqs', rfl⟩ := nameAll_cons.mp hp'
    obtain ⟨hfirst, rfl⟩ := name_alike hab hq hq'
    obtain ⟨hrest, rfl⟩ := ih hqs hqs'
    exact ⟨.cons hfirst hrest, rfl⟩

/-! Member lists written out. -/

theorem freeAll_congr {taken : List String} {ps qs : List (String × Value)}
    (h : ps.map Prod.fst = qs.map Prod.fst) :
    (freeAll taken ps).1.map Prod.fst = (freeAll taken qs).1.map Prod.fst ∧
      (freeAll taken ps).2 = (freeAll taken qs).2 := by
  induction ps generalizing taken qs with
  | nil =>
    cases List.map_eq_nil_iff.mp h.symm
    exact ⟨rfl, rfl⟩
  | cons p ps ih =>
    cases qs with
    | nil => cases h
    | cons q qs =>
      obtain ⟨x, v⟩ := p
      obtain ⟨y, w⟩ := q
      obtain ⟨rfl, hqs⟩ : x = y ∧ ps.map Prod.fst = qs.map Prod.fst := List.cons.inj h
      have hrest := @ih (free taken x :: taken) qs hqs
      exact ⟨congrArg (free taken x :: ·) hrest.1, hrest.2⟩

theorem places_alike {ps qs : List (String × Value)} (h : ps.map Prod.fst = qs.map Prod.fst)
    (cast : Option Cast) : AllAlike (places cast ps) (places cast qs) := by
  refine Lists.forall₂_intercalate (.cons (.text _) .nil) ?_
  rw [List.forall₂_map_left_iff, List.forall₂_map_right_iff]
  rw [← List.forall₂_eq_eq_eq, List.forall₂_map_left_iff, List.forall₂_map_right_iff] at h
  refine h.imp fun p q hpq => .cons ?_ .nil
  rw [hpq]
  exact .value _ _ _ _ _

theorem cells_congr (name : String) {rows rows' : List (List Value)}
    (h : rows.map List.length = rows'.map List.length) :
    (cells name rows).map Prod.fst = (cells name rows').map Prod.fst := by
  rw [← List.forall₂_eq_eq_eq, List.forall₂_map_left_iff, List.forall₂_map_right_iff] at h
  rw [cells, cells, List.map_flatten, List.map_flatten]
  refine congrArg List.flatten (List.forall₂_eq_eq_eq ▸ ?_)
  rw [List.forall₂_map_left_iff, List.forall₂_map_right_iff]
  refine Lists.forall₂_mapIdx h fun i row row' hlen => ?_
  refine List.ext_getElem (by simpa using hlen) fun j hj hj' => ?_
  simp

theorem rowsPieces_alike {names : List String} {i : Nat} {rows rows' : List (List Value)}
    {blocks blocks' : List (List Named)} (hl : rows.map List.length = rows'.map List.length)
    (h : RowBlocks names i rows blocks) (h' : RowBlocks names i rows' blocks') :
    List.Forall₂ AllAlike blocks blocks' := by
  induction h generalizing rows' blocks' with
  | nil =>
    cases List.map_eq_nil_iff.mp hl.symm
    cases h'
    exact .nil
  | @cons i row rows blocks full rest ih =>
    cases h' with
    | nil => cases hl
    | @cons _ row' rows' blocks' full' rest' =>
      obtain ⟨hlen, hl⟩ := List.cons.inj hl
      refine .cons ?_ (ih hl rest')
      have hnames : rowNames names i row' = rowNames names i row := by
        rw [rowNames, rowNames, hlen]
      rw [hnames] at full' ⊢
      have hzip : ((rowNames names i row).zip row).map Prod.fst =
          ((rowNames names i row).zip row').map Prod.fst := by
        rw [List.map_fst_zip full.le, List.map_fst_zip full'.le]
      exact List.rel_append (.cons (.text _) (places_alike hzip none)) (.cons (.text _) .nil)

theorem head?_cast {vs ws : List Value} (h : List.Forall₂ Value.Kin vs ws) :
    vs.head?.bind Cast.ofValue? = ws.head?.bind Cast.ofValue? := by
  cases h with
  | nil => rfl
  | cons hv _ => exact hv.cast

theorem expand_alike {d : Dialect} {taken t t' : List String} {x : String} {vs ws : List Value}
    {b b' : List Named} {ms ms' : List (String × Value)} (kin : List.Forall₂ Value.Kin vs ws)
    (same : widths? vs = widths? ws) (h : expand d taken x vs = .ok (b, ms, t))
    (h' : expand d taken x ws = .ok (b', ms', t')) : AllAlike b b' ∧ t = t' := by
  unfold expand at h h'
  unfold widths? at same
  cases hr : rows? vs with
  | none =>
    rw [hr] at h same
    have hr' : rows? ws = none := Option.map_eq_none_iff.mp same.symm
    rw [hr'] at h'
    cases h
    cases h'
    -- The names are made of the positions alone.
    have hnames : (vs.mapIdx fun i v => (x ++ "_" ++ toString (i + 1), v)).map Prod.fst =
        (ws.mapIdx fun i v => (x ++ "_" ++ toString (i + 1), v)).map Prod.fst :=
      List.ext_getElem (by simpa using kin.length_eq) (by simp)
    obtain ⟨hn, ht⟩ := @freeAll_congr taken _ _ hnames
    rw [head?_cast kin]
    exact ⟨places_alike hn _, ht⟩
  | some rs =>
    rw [hr] at h same
    obtain ⟨rs', hr', hw⟩ := Option.map_eq_some_iff.mp same.symm
    rw [hr'] at h'
    obtain ⟨rows, hrows, h⟩ := Outcome.bind_eq_ok.mp h
    obtain ⟨blocks, hblocks, h⟩ := Outcome.bind_eq_ok.mp h
    obtain ⟨rows', hrows', h'⟩ := Outcome.bind_eq_ok.mp h'
    obtain ⟨blocks', hblocks', h'⟩ := Outcome.bind_eq_ok.mp h'
    cases Outcome.pure_eq_ok.mp h
    cases Outcome.pure_eq_ok.mp h'
    have hitems : ∀ {us : List Value} {rows : List (List Value)}, us.mapM iterateRow = .ok rows →
        rows = us.map row := by
      intro us rows hm
      refine eq_map_row ?_
      simpa using Outcome.mapM_eq_ok.mp hm
    have hlen : rows.map List.length = rows'.map List.length := by
      rw [hitems hrows, hitems hrows', List.map_map, List.map_map]
      exact hw.symm
    obtain ⟨hn, ht⟩ := @freeAll_congr taken _ _ (cells_congr x hlen)
    rw [← hn] at hblocks'
    have hb := rowsPieces_alike hlen (rowsPieces_eq_ok hblocks) (rowsPieces_eq_ok hblocks')
    have hlead : AllAlike (rowsLead d) (rowsLead d) := by
      cases d with
      | postgresql => exact .nil
      | sqlite => exact .cons (.text _) .nil
    exact ⟨List.rel_append hlead (Lists.forall₂_intercalate (.cons (.text _) .nil) hb), ht⟩

/-! The passes over the whole text. -/

variable {d : Dialect} {ps ps' : List Named}

theorem AllAlike.map_written (h : AllAlike ps ps') : ps.map (written d) = ps'.map (written d) := by
  induction h with
  | nil => rfl
  | cons hq _ ih =>
    rw [List.map_cons, List.map_cons, ih]
    cases hq <;> rfl

theorem AllAlike.names_eq (h : AllAlike ps ps') :
    ps.filterMap (·.name?) = ps'.filterMap (·.name?) := by
  induction h with
  | nil => rfl
  | cons hq _ ih =>
    rw [List.filterMap_cons, List.filterMap_cons, ih]
    cases hq <;> rfl

theorem AllAlike.settle_eq (h : AllAlike ps ps') : settle d ps = settle d ps' := by
  have hmarked : ps.map (marked d) = ps'.map (marked d) := by
    induction h with
    | nil => rfl
    | cons hq _ ih =>
      rw [List.map_cons, List.map_cons, ih]
      cases hq <;> rfl
  simp only [settle, template, hmarked, h.names_eq]

theorem memberLists_alike (h : AllAlike ps ps') :
    List.Forall₂ (fun l l' => l.1 = l'.1 ∧ (List.Forall₂ Value.Kin l.2 l'.2 ∧
      widths? l.2 = widths? l'.2)) (memberLists ps) (memberLists ps') := by
  induction h with
  | nil => exact .nil
  | cons hq _ ih =>
    cases hq with
    | members x kin same => exact .cons ⟨rfl, kin, same⟩ ih
    | _ => exact ih

theorem Expands.alike {known taken done names : List String}
    {lists lists' : List (String × List Value)} {texts texts' : List (String × String)}
    {ms ms' : List (String × Value)}
    (hl : ∀ x, Option.Rel (fun vs ws => List.Forall₂ Value.Kin vs ws ∧ widths? vs = widths? ws)
      (lists.lookup x) (lists'.lookup x))
    (h : Expands d known lists taken done names texts ms)
    (h' : Expands d known lists' taken done names texts' ms') : texts = texts' := by
  -- Both pass over the same names, as both have lists under the same names.
  have hnone : ∀ x, lists.lookup x = none ↔ lists'.lookup x = none := by
    intro x
    have hx := hl x
    generalize lists.lookup x = found at hx ⊢
    generalize lists'.lookup x = found' at hx ⊢
    cases hx <;> simp
  induction h generalizing texts' ms' with
  | nil =>
    cases h'
    rfl
  | passed _ pass _ ih =>
    cases h' with
    | passed _ _ rest => exact ih rest
    | list _ fresh found =>
      have hfound := (hnone _).mp (pass.resolve_left fresh)
      cases found.symm.trans hfound
  | @list _ _ _ _ x _ _ _ _ _ _ fresh found expanded _ ih =>
    cases h' with
    | passed _ pass =>
      have hfound := (hnone _).mpr (pass.resolve_left fresh)
      cases found.symm.trans hfound
    | list _ _ found' expanded' rest =>
      have hx := hl x
      rw [found, found'] at hx
      obtain ⟨hkin, hwidths⟩ := Option.rel_some_some.mp hx
      obtain ⟨halike, rfl⟩ := expand_alike hkin hwidths expanded expanded'
      rw [writtenAll, writtenAll, halike.map_written, ih rest]

end Binding

namespace Layout
open Binding

theorem sql_eq_of_alike {d : Dialect} {l l' : Layout} {r r' : Rendered} (h : l.Alike True l')
    (hr : l.render d = .ok r) (hr' : l'.render d = .ok r') : r.sql = r'.sql := by
  obtain ⟨⟨ps, n⟩, hp, hr⟩ := Outcome.bind_eq_ok.mp hr
  obtain ⟨⟨ps', n'⟩, hp', hr'⟩ := Outcome.bind_eq_ok.mp hr'
  obtain ⟨halike, rfl⟩ := nameAll_alike h hp hp'
  have hlists := memberLists_alike halike
  have hsettle : settle d ps = settle d ps' := halike.settle_eq
  rcases write_eq_ok hr with ⟨hnone, rfl⟩ | ⟨hsome, texts, ms, sql, ht, hsql, rfl⟩
  · rcases write_eq_ok hr' with ⟨-, rfl⟩ | ⟨hsome', -⟩
    · exact congrArg Prod.fst hsettle
    · rw [hnone] at hlists
      exact absurd (List.forall₂_nil_left_iff.mp hlists) hsome'
  · rcases write_eq_ok hr' with ⟨hnone', -⟩ | ⟨-, texts', ms', sql', ht', hsql', rfl⟩
    · rw [hnone'] at hlists
      exact absurd (List.forall₂_nil_right_iff.mp hlists) hsome
    · rw [← hsettle, ← halike.names_eq] at ht'
      obtain rfl := ht.alike (Lists.rel_lookup hlists) ht'
      rw [← hsettle] at hsql'
      exact Except.ok.inj (hsql.symm.trans hsql')

end Layout
end TableQuery
