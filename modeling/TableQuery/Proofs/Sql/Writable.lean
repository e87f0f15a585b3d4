import TableQuery.Proofs.Sql.Gathered
import TableQuery.Proofs.Sql.Legible

/-! Which statements can be written out: those in which no parameter of the filter has the name of a
column that is assigned, and whose lists of rows have a name for every place. -/

namespace TableQuery
namespace Binding
open Outcome Placeholder

variable {d : Dialect}

/-! Names. -/

/-- The names under these bases, one after the other, before they are escaped. -/
def Names.nextAll (d : Dialect) : Names → List String → List String
  | _, [] => []
  | n, base :: bases => (n.next d base).1 :: nextAll d (n.next d base).2 bases

/-- A name depends on what is counted and cut, not on what is taken. -/
theorem next_congr {n m : Names} (hcounts : n.counts = m.counts) (hcut : n.cut = m.cut)
    (base : String) : (n.next d base).1 = (m.next d base).1 ∧
      (n.next d base).2.counts = (m.next d base).2.counts ∧
      (n.next d base).2.cut = (m.next d base).2.cut := by
  simp only [Names.next, hcounts, hcut]
  split <;> exact ⟨rfl, rfl, rfl⟩

theorem nextAll_congr {n m : Names} (hcounts : n.counts = m.counts) (hcut : n.cut = m.cut)
    (bases : List String) : n.nextAll d bases = m.nextAll d bases := by
  induction bases generalizing n m with
  | nil => rfl
  | cons base bases ih =>
    obtain ⟨hname, hcounts', hcut'⟩ := next_congr (d := d) hcounts hcut base
    rw [Names.nextAll, Names.nextAll, hname, ih hcounts' hcut']

theorem next_keys (n : Names) (base : String) : (n.next d base).2.keys = n.keys := by
  simp only [Names.next]
  split <;> rfl

theorem exists_counted {n : Names} {base : String} :
    (∃ r, n.counted d base = .ok r) ↔ (n.next d base).1 ∉ n.keys := by
  simp only [Names.counted, next_keys, List.contains_iff_mem]
  split
  · rename_i h
    refine iff_of_false ?_ (not_not_intro h)
    rintro ⟨r, ⟨⟩⟩
  · rename_i h
    exact iff_of_true ⟨_, rfl⟩ h

theorem counted_state {n m : Names} {base x : String} (h : n.counted d base = .ok (x, m)) :
    m.counts = (n.next d base).2.counts ∧ m.cut = (n.next d base).2.cut ∧ m.keys = n.keys := by
  simp only [Names.counted] at h
  split at h
  · cases h
  · cases h
    exact ⟨rfl, rfl, next_keys n base⟩

theorem exists_nameAll_of_name {n m : Names} {p : Piece} {q : Named} {l : Layout}
    (hq : name d n p = .ok (q, m)) :
    (∃ r, nameAll d n (p :: l) = .ok r) ↔ ∃ r, nameAll d m l = .ok r := by
  rw [nameAll, hq]
  change (∃ r, (nameAll d m l >>= fun s => pure (q :: s.1, s.2)) = .ok r) ↔ _
  exact exists_bind.trans ⟨fun ⟨r, hr, _⟩ => ⟨r, hr⟩, fun ⟨r, hr⟩ => ⟨r, hr, _, rfl⟩⟩

/-- A place that is counted, with no cells in it or behind it. -/
theorem exists_nameAll_counted {n : Names} {p : Piece} {l : Layout} {base : String}
    {k : String → Named} (hp : p.counted = [base]) (hl : Layout.cellKeys (p :: l) = [])
    (hname : name d n p = n.counted d base >>= fun r => pure (k r.1, r.2))
    (ih : ∀ m : Names, (∃ r, nameAll d m l = .ok r) ↔
      ∀ x ∈ m.nextAll d (l.flatMap Piece.counted), x ∉ Layout.cellKeys l ∧ x ∉ m.keys) :
    (∃ r, nameAll d n (p :: l) = .ok r) ↔
      ∀ x ∈ n.nextAll d (List.flatMap Piece.counted (p :: l)),
        x ∉ Layout.cellKeys (p :: l) ∧ x ∉ n.keys := by
  have hrest : Layout.cellKeys l = [] := (List.append_eq_nil_iff.mp hl).2
  simp only [hrest, List.not_mem_nil, not_false_eq_true, true_and] at ih
  simp only [hl, List.not_mem_nil, not_false_eq_true, true_and]
  rw [List.flatMap_cons, hp, List.singleton_append, Names.nextAll, List.forall_mem_cons,
    ← exists_counted]
  by_cases hx : ∃ r, n.counted d base = .ok r
  · obtain ⟨⟨x, m⟩, hm⟩ := hx
    obtain ⟨hcounts, hcut, hkeys⟩ := counted_state hm
    have hq : name d n p = .ok (k x, m) := by
      rw [hname, hm]
      rfl
    rw [exists_nameAll_of_name hq, ih, hkeys, nextAll_congr hcounts hcut]
    exact ⟨fun h => ⟨⟨_, hm⟩, h⟩, fun h => h.2⟩
  · refine iff_of_false (fun ⟨r, hr⟩ => hx ?_) fun h => hx h.1
    obtain ⟨q, hq, -⟩ := bind_eq_ok.mp hr
    obtain ⟨y, hy, -⟩ := bind_eq_ok.mp (hname.symm.trans hq)
    exact ⟨y, hy⟩

/-- Where cells come first, every place gets its name, unless one that is counted has the name of a
column which names a cell. -/
theorem exists_nameAll {n : Names} {l : Layout} (hfirst : l.CellsFirst) :
    (∃ r, nameAll d n l = .ok r) ↔
      ∀ x ∈ n.nextAll d (l.flatMap Piece.counted), x ∉ l.cellKeys ∧ x ∉ n.keys := by
  induction l generalizing n with
  | nil => exact iff_of_true ⟨_, rfl⟩ fun _ hx => absurd hx List.not_mem_nil
  | cons p l ih =>
    obtain ⟨hbehind, hfirst⟩ := List.pairwise_cons.mp hfirst
    replace ih : ∀ m : Names, (∃ r, nameAll d m l = .ok r) ↔
        ∀ x ∈ m.nextAll d (l.flatMap Piece.counted), x ∉ Layout.cellKeys l ∧ x ∉ m.keys :=
      fun m => ih hfirst
    -- Only a counted place can fail, and no cell behind it can still come to clash with it.
    have hnone : p.counted ≠ [] → Layout.cellKeys l = [] :=
      fun hp => List.flatMap_eq_nil_iff.mpr fun q hq => hbehind q hq hp
    cases p with
    | text s => exact (exists_nameAll_of_name rfl).trans (ih n)
    | quoted s => exact (exists_nameAll_of_name rfl).trans (ih n)
    | slot s =>
      cases s with
      | cell key v =>
        let m := (Names.take { n with keys := key :: n.keys } key).2
        have hq : name d n (.slot (.cell key v)) = .ok (.value key _ v none, m) := rfl
        have hnext : m.nextAll d (l.flatMap Piece.counted) = n.nextAll d (l.flatMap Piece.counted) :=
          nextAll_congr (n := m) (m := n) rfl rfl _
        rw [exists_nameAll_of_name hq, ih, hnext]
        refine forall₂_congr fun x _ => ?_
        change x ∉ Layout.cellKeys l ∧ x ∉ key :: n.keys ↔ x ∉ key :: Layout.cellKeys l ∧ x ∉ n.keys
        simp only [List.mem_cons, not_or, and_assoc, and_left_comm]
      | operand base v cast =>
        exact exists_nameAll_counted (k := fun x => .value x x v cast) rfl
          (hnone (List.cons_ne_nil base [])) rfl ih
      | members base vs =>
        exact exists_nameAll_counted (k := fun x => .members x vs) rfl
          (hnone (List.cons_ne_nil base [])) rfl ih

/-! Lists. -/

/-- Members that can be written out: single values, or rows of which none reaches beyond the names
that there are for the members of all of them. -/
def Listable (vs : List Value) : Prop :=
  rows? vs = none ∨ (∀ v ∈ vs, v.iterate?.isSome) ∧
    ∀ p ∈ (vs.map fun v => (row v).length).zipIdx, (p.2 + 1) * p.1 ≤ (vs.flatMap row).length

instance (vs : List Value) : Decidable (Listable vs) :=
  decidable_of_iff ((rows? vs).isNone ∨ (∀ v ∈ vs, v.iterate?.isSome) ∧
    ∀ p ∈ (vs.map fun v => (row v).length).zipIdx, (p.2 + 1) * p.1 ≤ (vs.flatMap row).length)
    (or_congr_left Option.isNone_iff_eq_none)

theorem exists_rowPieces {names : List String} {i : Nat} {row : List Value} :
    (∃ ps, rowPieces names i row = .ok ps) ↔ (i + 1) * row.length ≤ names.length := by
  have hfew : min row.length (names.length - i * row.length) < row.length ↔
      ¬ (i + 1) * row.length ≤ names.length := by
    rcases Nat.eq_zero_or_pos row.length with hw | hw
    · simp [hw]
    · rw [Nat.succ_mul]
      omega
  simp only [rowPieces, List.length_take, List.length_drop, hfew]
  split
  · rename_i h
    refine iff_of_false ?_ h
    rintro ⟨ps, ⟨⟩⟩
  · rename_i h
    exact iff_of_true ⟨_, rfl⟩ (not_not.mp h)

theorem exists_rowsPieces {names : List String} {i : Nat} {rows : List (List Value)} :
    (∃ ps, rowsPieces names i rows = .ok ps) ↔
      ∀ p ∈ (rows.map List.length).zipIdx i, (p.2 + 1) * p.1 ≤ names.length := by
  induction rows generalizing i with
  | nil => exact iff_of_true ⟨[], rfl⟩ fun _ hp => absurd hp List.not_mem_nil
  | cons row rows ih =>
    rw [List.map_cons, List.zipIdx_cons, List.forall_mem_cons, ← ih, ← exists_rowPieces, rowsPieces,
      exists_bind]
    constructor
    · rintro ⟨ps, hps, hrest⟩
      obtain ⟨rest, hrest, -⟩ := exists_bind.mp hrest
      exact ⟨⟨ps, hps⟩, rest, hrest⟩
    · rintro ⟨⟨ps, hps⟩, rest, hrest⟩
      exact ⟨ps, hps, exists_bind.mpr ⟨rest, hrest, _, rfl⟩⟩

theorem exists_iterateRows {vs : List Value} :
    (∃ rows, vs.mapM iterateRow = .ok rows) ↔ ∀ v ∈ vs, v.iterate?.isSome := by
  rw [exists_mapM]
  refine forall₂_congr fun v _ => ?_
  simp only [iterateRow_eq_ok, Option.isSome_iff_exists]

theorem exists_expand {taken : List String} {x : String} {vs : List Value} :
    (∃ r, expand d taken x vs = .ok r) ↔ Listable vs := by
  rw [expand, Listable]
  cases hr : rows? vs with
  | none => exact iff_of_true ⟨_, rfl⟩ (.inl rfl)
  | some rs =>
    obtain rfl := rows?_eq_some hr
    -- There are as many names as there are cells, and these hold the members of all rows.
    have hnames : ∀ rows : List (List Value),
        ((freeAll taken (cells x rows)).1.map Prod.fst).length = rows.flatten.length := by
      intro rows
      have hlength := congrArg List.length ((freeAll_spec taken (cells x rows)).1.trans (cells_snd x rows))
      rwa [List.length_map] at hlength ⊢
    simp only [reduceCtorEq, false_or, ← exists_iterateRows, exists_bind]
    constructor
    · rintro ⟨rows, hrows, blocks, hblocks, -⟩
      obtain rfl := eq_map_row (by simpa using mapM_eq_ok.mp hrows)
      have h := exists_rowsPieces.mp ⟨blocks, hblocks⟩
      rw [hnames, List.map_map] at h
      exact ⟨⟨_, hrows⟩, h⟩
    · rintro ⟨⟨rows, hrows⟩, h⟩
      obtain rfl := eq_map_row (by simpa using mapM_eq_ok.mp hrows)
      refine ⟨_, hrows, ?_⟩
      obtain ⟨blocks, hblocks⟩ := exists_rowsPieces.mpr (by
        rw [hnames, List.map_map]
        exact h)
      exact ⟨blocks, hblocks, _, rfl⟩

/-- Lists that can be written out all get their texts. -/
theorem exists_expands {known : List String} {lists : List (String × List Value)}
    (taken done : List String) {names : List String} (hk : ∀ x ∈ names, x ∈ known)
    (hl : ∀ x vs, lists.lookup x = some vs → Listable vs) :
    ∃ texts params, Expands d known lists taken done names texts params ∧
      ∀ x ∈ names, x ∉ done → (lists.lookup x).isSome → (texts.lookup x).isSome := by
  induction names generalizing taken done with
  | nil => exact ⟨[], [], .nil taken done, fun _ hx => absurd hx List.not_mem_nil⟩
  | cons x names ih =>
    obtain ⟨hkx, hk⟩ := List.forall_mem_cons.mp hk
    by_cases hpass : x ∈ done ∨ lists.lookup x = none
    · obtain ⟨texts, params, he, hfound⟩ := ih taken done hk
      refine ⟨texts, params, .passed hkx hpass he, fun y hy hyd hyl => hfound y ?_ hyd hyl⟩
      refine (List.mem_cons.mp hy).resolve_left ?_
      rintro rfl
      rcases hpass with hd | hnone
      · exact hyd hd
      · rw [hnone] at hyl
        cases hyl
    · obtain ⟨hd, hsome⟩ := not_or.mp hpass
      obtain ⟨vs, hx⟩ := Option.ne_none_iff_exists'.mp hsome
      have hblock : ∃ r, expand d taken x vs = .ok r := exists_expand.mpr (hl x vs hx)
      obtain ⟨⟨block, here, taken'⟩, hb⟩ := hblock
      obtain ⟨texts, params, he, hfound⟩ := ih taken' (x :: done) hk
      refine ⟨(x, writtenAll d block) :: texts, here ++ params, .list hkx hd hx hb he,
        fun y hy hyd hyl => ?_⟩
      -- The text of this list stands in front of the texts of the others.
      by_cases hyx : y = x
      · rw [hyx, List.lookup_cons_self]
        rfl
      · rw [Lists.lookup_cons_of_ne hyx]
        refine hfound y ((List.mem_cons.mp hy).resolve_left hyx) ?_ hyl
        exact fun hm => (List.mem_cons.mp hm).elim hyx hyd

/-- Lists that got their texts can be written out. -/
theorem Expands.listable {known taken done names : List String} {lists : List (String × List Value)}
    {texts : List (String × String)} {params : List (String × Value)}
    (h : Expands d known lists taken done names texts params) {x : String} {vs : List Value}
    (hx : x ∈ names) (hd : x ∉ done) (hl : lists.lookup x = some vs) : Listable vs := by
  induction h with
  | nil => cases hx
  | passed _ pass _ ih =>
    refine ih ((List.mem_cons.mp hx).resolve_left ?_) hd
    rintro rfl
    rcases pass with hdone | hnone
    · exact hd hdone
    · cases hl.symm.trans hnone
  | @list _ _ _ _ y _ _ _ _ _ _ _ found expanded _ ih =>
    by_cases hxy : x = y
    · subst hxy
      cases hl.symm.trans found
      exact exists_expand.mp ⟨_, expanded⟩
    · refine ih ((List.mem_cons.mp hx).resolve_left hxy) ?_
      exact fun hm => (List.mem_cons.mp hm).elim hxy hd

/-! Whole texts. -/

theorem exists_unfold {texts : List (String × String)} {ps : List Named} (hown : ∀ q ∈ ps, Own d q)
    (ht : ∀ x vs, .members x vs ∈ ps → (texts.lookup x).isSome) :
    ∃ sql, unfold texts (writtenAll d ps) = .ok sql := by
  refine exists_bind.mpr ?_
  rw [scanMembers_eq (scans_writtenAll hown)]
  have hmarks : ∀ m ∈ ps.flatMap (memberMarks d), ∃ t, unfoldMark texts m = .ok t := by
    intro m hm
    obtain ⟨q, hq, hm⟩ := List.mem_flatMap.mp hm
    have hchars : ∀ cs : List Char, m ∈ cs.map Placeholder.char → ∃ t, unfoldMark texts m = .ok t := by
      intro cs hc
      obtain ⟨c, -, rfl⟩ := List.mem_map.mp hc
      exact ⟨_, rfl⟩
    cases q with
    | members x vs =>
      cases List.mem_singleton.mp hm
      obtain ⟨t, hx⟩ := Option.isSome_iff_exists.mp (ht x vs hq)
      simp only [unfoldMark, String.ofList_toList, hx]
      exact ⟨t, rfl⟩
    | _ => exact hchars _ hm
  obtain ⟨parts, hparts⟩ := exists_mapM.mpr hmarks
  exact ⟨parts, hparts, _, rfl⟩

/-- Where every mark is read as what it is, pieces can be written out when their lists can. -/
theorem exists_write {taken : List String} {ps : List Named}
    (hn : (ps.filterMap (·.name?)).Nodup) (hown : memberLists ps ≠ [] → ∀ q ∈ ps, Own d q) :
    (∃ r, write d taken ps = .ok r) ↔ ∀ e ∈ memberLists ps, Listable e.2 := by
  by_cases hlists : memberLists ps = []
  · have hw : write d taken ps = .ok ⟨(settle d ps).1, values false ps⟩ := by
      simp only [write, hlists, List.isEmpty_nil, if_true]
    exact iff_of_true ⟨_, hw⟩ (by rw [hlists]; exact fun _ he => absurd he List.not_mem_nil)
  · have hsettle := settle_eq (d := d) fun _ => hown hlists
    have hnames := (memberLists_sublist ps).nodup hn
    constructor
    · rintro ⟨r, hr⟩ ⟨x, vs⟩ he
      obtain ⟨hnone, -⟩ | ⟨-, texts, members, sql, htexts, -⟩ := write_eq_ok hr
      · exact absurd hnone hlists
      · rw [hsettle] at htexts
        have hx : x ∈ ps.filterMap (·.name?) :=
          (memberLists_sublist ps).subset (List.mem_map_of_mem (f := Prod.fst) he)
        exact htexts.listable hx List.not_mem_nil (Lists.lookup_of_mem hnames he)
    · intro h
      have hlistable : ∀ x vs, (memberLists ps).lookup x = some vs → Listable vs :=
        fun x vs hx => h (x, vs) (Lists.mem_of_lookup hx)
      have hknown : ∀ x ∈ ps.filterMap (·.name?), x ∈ ps.filterMap (·.name?) := fun _ hx => hx
      obtain ⟨texts, members, htexts, hfound⟩ := exists_expands (d := d) taken [] hknown hlistable
      have hmembers : ∀ x vs, .members x vs ∈ ps → (texts.lookup x).isSome := by
        intro x vs hq
        refine hfound x (List.mem_filterMap.mpr ⟨_, hq, rfl⟩) List.not_mem_nil ?_
        rw [lookup_memberLists hn hq rfl]
        rfl
      obtain ⟨sql, hsql⟩ := exists_unfold (hown hlists) hmembers
      have hne : (memberLists ps).isEmpty = false := by simpa using hlists
      simp only [write, hne, Bool.false_eq_true, if_false, hsettle]
      exact ⟨_, bind_eq_ok.mpr ⟨_, expandAll_eq_ok.mpr htexts, bind_eq_ok.mpr ⟨sql, hsql, rfl⟩⟩⟩

end Binding

namespace Layout
open Binding Outcome

variable {d : Dialect} {l : Layout}

/-- A layout can be written out when no counted parameter has the name of a cell, and no list lacks
names for its rows. Only where it has lists does it matter how its names read. -/
theorem exists_render (hreg : l.Regular) (hfirst : l.CellsFirst)
    (hlegible : l.lists ≠ [] → l.Legible d) :
    (∃ r, l.render d = .ok r) ↔
      (∀ x ∈ Names.nextAll d {} (l.flatMap Piece.counted), x ∉ l.cellKeys) ∧
        ∀ vs ∈ l.lists, Listable vs := by
  have hnames := exists_nameAll (d := d) (n := {}) hfirst
  simp only [List.not_mem_nil, not_false_eq_true, and_true] at hnames
  rw [← hnames, render, exists_bind]
  have hwrite : ∀ ps n, nameAll d {} l = .ok (ps, n) →
      ((∃ r, write d n.taken ps = .ok r) ↔ ∀ vs ∈ l.lists, Listable vs) := by
    intro ps n hps
    obtain ⟨hl, ht, hnd⟩ := nameAll_eq_ok hps List.nodup_nil
    -- No two pieces have one name, so that a list is found under its own.
    have hn : (ps.filterMap (·.name?)).Nodup := by
      rw [ht, List.append_nil] at hnd
      exact List.nodup_reverse.mp hnd
    have hlists := memberLists_labels hl
    rw [exists_write hn fun hne => ?_, ← hlists, List.forall_mem_map]
    have hsome : l.lists ≠ [] := by
      rw [← hlists]
      exact fun he => hne (List.map_eq_nil_iff.mp he)
    exact (hlegible hsome).own hreg (.inr (listBases_ne_nil hl hne)) hl
  constructor
  · rintro ⟨⟨ps, n⟩, hps, hr⟩
    exact ⟨⟨_, hps⟩, (hwrite ps n hps).mp hr⟩
  · rintro ⟨⟨⟨ps, n⟩, hps⟩, h⟩
    exact ⟨(ps, n), hps, (hwrite ps n hps).mpr h⟩

end Layout

/-! Statements. -/

namespace Predicate

/-- What the names of the places of a predicate are counted under. -/
def bases : Predicate → List String
  | compare c .. | like c .. | oneOf c _ => [Layout.base c]
  | _ => []

def lists : Predicate → List (List Value)
  | oneOf _ vs => [vs]
  | _ => []

end Predicate

namespace Filter

/-- What the places of a filter are called, before anything that cannot stand in a mark is replaced. -/
def placeNames (d : Dialect) (f : Filter) : List String :=
  Binding.Names.nextAll d {} (f.flatMap Predicate.bases)

def lists (f : Filter) : List (List Value) := f.flatMap Predicate.lists

end Filter

namespace Statement
open Layout

/-- No place of the filter has the name of a column that is assigned, and no list lacks names for its
rows. -/
structure Writable (d : Dialect) (st : Statement) : Prop where
  names : ∀ x ∈ st.filter.placeNames d, x ∉ st.cellNames
  lists : ∀ vs ∈ st.filter.lists, Binding.Listable vs

/-- Where a statement has lists, nothing in its names reads like a mark. -/
def Legible (d : Dialect) (st : Statement) : Prop :=
  st.filter.lists ≠ [] → (ofStatement d st).Legible d

instance (d : Dialect) (st : Statement) : Decidable (Writable d st) :=
  decidable_of_iff ((∀ x ∈ st.filter.placeNames d, x ∉ st.cellNames) ∧
    ∀ vs ∈ st.filter.lists, Binding.Listable vs)
    ⟨fun h => ⟨h.1, h.2⟩, fun h => ⟨h.names, h.lists⟩⟩

instance (d : Dialect) (st : Statement) : Decidable (Legible d st) :=
  inferInstanceAs (Decidable (_ → _))

variable {d : Dialect} {st : Statement}

theorem counted_predicate (d : Dialect) (p : Predicate) :
    (predicate d p).flatMap Piece.counted = p.bases := by
  cases p with
  | like c o s => cases d <;> cases o <;> rfl
  | _ => rfl

theorem lists_predicate (d : Dialect) (p : Predicate) :
    (predicate d p).flatMap Piece.lists = p.lists := by
  cases p with
  | like c o s => cases d <;> cases o <;> rfl
  | _ => rfl

theorem flatMap_cells_eq_nil {α : Type} {f : Piece → List α} (hf : ∀ k v, f (.slot (.cell k v)) = [])
    (cells : List (String × Value)) : (cells.flatMap fun a => f (.slot (.cell a.1 a.2))) = [] :=
  List.flatMap_eq_nil_iff.mpr fun a _ => hf a.1 a.2

/-- Where a statement is inserted, nothing but its cells is gathered. -/
theorem flatMap_insertMany_eq_nil {α : Type} {f : Piece → List α} (ht : ∀ s, f (.text s) = [])
    (hq : ∀ n, f (.quoted n) = []) (hc : ∀ k v, f (.slot (.cell k v)) = []) (d : Dialect) (t : Target)
    (ns : List String) (rows : List (List Value)) (c : Columns) :
    (ofStatement d (.insertMany t ns rows c)).flatMap f = [] := by
  rw [flatMap_insertMany ht hq]
  refine List.flatMap_eq_nil_iff.mpr fun l hl => ?_
  obtain ⟨i, hi, rfl⟩ := List.mem_mapIdx.mp hl
  rw [flatMap_row ht, flatMap_cells_eq_nil hc]

theorem lists_ofStatement (d : Dialect) (st : Statement) :
    (ofStatement d st).lists = st.filter.lists := by
  have ht : ∀ s, Piece.lists (.text s) = [] := fun _ => rfl
  have hq : ∀ n, Piece.lists (.quoted n) = [] := fun _ => rfl
  have hc : ∀ k v, Piece.lists (.slot (.cell k v)) = [] := fun _ _ => rfl
  have hp := lists_predicate d
  have hpagination : ∀ take skip, (pagination d take skip).flatMap Piece.lists = [] := by
    intro take skip
    cases d <;> cases take <;> cases skip <;> rfl
  cases st with
  | select c t f o take skip =>
    rw [Layout.lists, flatMap_select ht hq hp, hpagination, List.append_nil]
    rfl
  | count t f => exact flatMap_count ht hq hp t f
  | insert t ns vs c =>
    rw [Layout.lists, flatMap_insert ht hq, flatMap_cells_eq_nil hc]
    rfl
  | insertMany t ns rows c => exact flatMap_insertMany_eq_nil ht hq hc d t ns rows c
  | update t as f c =>
    rw [Layout.lists, flatMap_update ht hq hp, flatMap_cells_eq_nil hc]
    rfl
  | delete t f c => exact flatMap_delete ht hq hp t f c

/-- A statement has no cells, or no filter, or it is an update. -/
theorem cells_or_filter (d : Dialect) (st : Statement) :
    ((ofStatement d st).cellKeys = [] ∧ st.cellNames = []) ∨
    ((ofStatement d st).flatMap Piece.counted = [] ∧ st.filter = []) ∨
    ∃ t as f c, st = .update t as f c := by
  cases st with
  | select c t f o take skip => exact .inl ⟨cellKeys_select .., rfl⟩
  | count t f => exact .inl ⟨cellKeys_count .., rfl⟩
  | delete t f c => exact .inl ⟨cellKeys_delete .., rfl⟩
  | insert t ns vs c =>
    refine .inr (.inl ⟨?_, rfl⟩)
    rw [flatMap_insert (fun _ => rfl) fun _ => rfl, flatMap_cells_eq_nil fun _ _ => rfl]
  | insertMany t ns rows c =>
    exact .inr (.inl ⟨flatMap_insertMany_eq_nil (fun _ => rfl) (fun _ => rfl) (fun _ _ => rfl) .., rfl⟩)
  | update t as f c => exact .inr (.inr ⟨t, as, f, c, rfl⟩)

theorem cellsFirst_ofStatement (d : Dialect) (st : Statement) : (ofStatement d st).CellsFirst := by
  obtain ⟨hcells, -⟩ | ⟨hcounted, -⟩ | ⟨t, as, f, c, rfl⟩ := cells_or_filter d st
  · exact cellsFirst_append (l := []) rfl hcells
  · exact List.append_nil (ofStatement d st) ▸ cellsFirst_append hcounted (m := []) rfl
  · exact cellsFirst_update d t as f c

/-- What is counted beside cells is the filter, and the cells have the names of columns. -/
theorem placeNames_ofStatement (d : Dialect) (st : Statement) :
    (∀ x ∈ Binding.Names.nextAll d {} ((ofStatement d st).flatMap Piece.counted),
      x ∉ (ofStatement d st).cellKeys) ↔ ∀ x ∈ st.filter.placeNames d, x ∉ st.cellNames := by
  obtain ⟨hcells, hnames⟩ | ⟨hcounted, hfilter⟩ | ⟨t, as, f, c, rfl⟩ := cells_or_filter d st
  · rw [hcells, hnames]
    exact iff_of_true (fun _ _ => List.not_mem_nil) fun _ _ => List.not_mem_nil
  · rw [hcounted, hfilter]
    exact iff_of_true (fun _ hx => absurd hx List.not_mem_nil) fun _ hx => absurd hx List.not_mem_nil
  · rw [cellKeys_update, flatMap_update (fun _ => rfl) (fun _ => rfl) (counted_predicate d),
      flatMap_cells_eq_nil fun _ _ => rfl]
    rfl

/-- What it takes for a statement to be written out. -/
theorem exists_render (hcells : "" ∉ st.cellNames) (hl : st.Legible d) :
    (∃ r, st.render d = .ok r) ↔ st.Writable d := by
  have hlists := lists_ofStatement d st
  rw [render, Layout.exists_render (regular_ofStatement d hcells) (cellsFirst_ofStatement d st)
    (hlists ▸ hl), placeNames_ofStatement, hlists]
  exact ⟨fun h => ⟨h.1, h.2⟩, fun h => ⟨h.names, h.lists⟩⟩

end Statement
end TableQuery
