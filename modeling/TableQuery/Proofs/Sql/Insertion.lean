import TableQuery.Proofs.Sql.Counted
import TableQuery.Proofs.Sql.Written

/-! Statements that insert many rows: the INSERT that is read in the text of one, and what its places
resolve to. -/

namespace TableQuery

namespace Reading
open Lexeme

/-- An INSERT of rows under the names of columns. -/
structure Insertion where
  target : Target
  names : List String
  rows : List (List Place)
  returning : Columns
deriving DecidableEq

/-- One INSERT, which takes up the whole text. -/
def insertion? (ls : List Lexeme) : Option Insertion := do
  let ls ← word? "INSERT INTO " ls
  let (target, ls) ← target? ls
  let ls ← word? " (" ls
  let (names, ls) ← sepBy name? ", " (ls.length + 1) ls
  let ls ← word? ") VALUES " ls
  let (rows, ls) ← sepBy row? ", " (ls.length + 1) ls
  let ls ← word? " RETURNING " ls
  let (returning, ls) ← columns? ls
  if ls = [] then some ⟨target, names, rows, returning⟩ else none

def ofInsertion (q : Insertion) : List Lexeme :=
  chars "INSERT INTO " ++ (ofTarget q.target ++ (chars " (" ++
    (commas (q.names.map fun n => [.name n]) ++ (chars ") VALUES " ++
      (commas (q.rows.map ofRow) ++ (chars " RETURNING " ++ ofColumns q.returning))))))

/-- An INSERT that can be read again: its lists are not empty. -/
structure Insertion.IsFull (q : Insertion) : Prop where
  names : q.names ≠ []
  rows : q.rows ≠ []
  returning : q.returning ≠ .named []

/-- An INSERT that was written is read as itself, and nothing else is read. -/
theorem insertion?_ofInsertion {q : Insertion} (hq : q.IsFull) :
    insertion? (ofInsertion q) = some q := by
  obtain ⟨t, ns, rows, c⟩ := q
  obtain ⟨hns, hrows, hc⟩ := hq
  have hname : ∀ n ∈ ns, ∀ rest, Clean rest → name? ([.name n] ++ rest) = some (n, rest) :=
    fun n _ rest _ => rfl
  have hrow : ∀ ps ∈ rows, ∀ rest, Clean rest → row? (ofRow ps ++ rest) = some (ps, rest) :=
    fun ps _ rest _ => row?_ofRow ps rest
  have htarget := @target?_ofTarget t (chars " (" ++ (commas (ns.map fun n => [.name n]) ++
    (chars ") VALUES " ++ (commas (rows.map ofRow) ++ (chars " RETURNING " ++ ofColumns c))))) rfl
  have hnames := @sepBy_length _ _ _ ", " _
    (chars ") VALUES " ++ (commas (rows.map ofRow) ++ (chars " RETURNING " ++ ofColumns c)))
    hname hns (by decide) clean_comma rfl rfl
  have hvalues := @sepBy_length _ _ _ ", " _ (chars " RETURNING " ++ ofColumns c) hrow hrows
    (by decide) clean_comma rfl rfl
  have hreturning := @columns?_ofColumns c hc [] rfl rfl
  rw [List.append_nil] at hreturning
  unfold commas at htarget hnames
  simp only [insertion?, ofInsertion, commas, word?_chars, htarget, hnames, hvalues, hreturning,
    Option.bind_eq_bind, Option.bind_some, if_true]

/-- The text is this INSERT, and made up of nothing else. -/
structure HasInsertion (d : Dialect) (sql : String) (q : Insertion) : Prop where
  read : insertion? (lex d sql) = some q
  again : textAll d (ofInsertion q) = sql

end Reading

/-- What a place resolves to: what the parameters have under its name, or behind so many others. -/
def Rendered.valueAt (d : Dialect) (r : Rendered) (k : Nat) (p : Reading.Place) : Option Value :=
  match d with
  | .postgresql => p.key.bind fun n => r.params.lookup n
  | .sqlite => r.params[k]?.map Prod.snd

/-- What the places of rows resolve to, behind so many others. -/
def Rendered.valuesAt (d : Dialect) (r : Rendered) :
    (k : Nat) → List (List Reading.Place) → List (List (Option Value))
  | _, [] => []
  | k, row :: rows =>
    (row.mapIdx fun j p => r.valueAt d (k + j) p) :: r.valuesAt d (k + row.length) rows

/-- The place of a cell. -/
def Reading.Place.ofCell (d : Dialect) (c : String × Value) : Reading.Place :=
  ⟨Lexeme.key d c.1, none⟩

/-- A parameter with a name of its own is what its place resolves to. -/
theorem Rendered.valueAt_ofCell (d : Dialect) {r : Rendered} (h : (r.params.map Prod.fst).Nodup)
    {k : Nat} {c : String × Value} (hc : r.params[k]? = some c) :
    r.valueAt d k (.ofCell d c) = some c.2 := by
  cases d with
  | postgresql => exact Lists.lookup_of_mem h (List.mem_of_getElem? hc)
  | sqlite => simp only [valueAt, hc, Option.map_some]

/-- Rows whose cells are the parameters in their order resolve to the values of these. -/
theorem Rendered.valuesAt_ofCells (d : Dialect) {r : Rendered} (h : (r.params.map Prod.fst).Nodup)
    (before : List (String × Value)) {rows : List (List (String × Value))}
    (hp : r.params = before ++ rows.flatten) :
    r.valuesAt d before.length (rows.map (List.map (.ofCell d))) =
      rows.map (List.map fun c => some c.2) := by
  induction rows generalizing before with
  | nil => rfl
  | cons row rows ih =>
    rw [List.flatten_cons, ← List.append_assoc] at hp
    have hrest := ih (before ++ row) hp
    rw [List.length_append] at hrest
    rw [List.map_cons, List.map_cons, valuesAt, List.length_map, hrest]
    congr 1
    refine List.ext_getElem (by simp) fun j hj _ => ?_
    rw [List.length_mapIdx, List.length_map] at hj
    rw [List.getElem_mapIdx, List.getElem_map, List.getElem_map]
    refine valueAt_ofCell d h ?_
    rw [hp, List.append_assoc, List.getElem?_append_right (Nat.le_add_right ..),
      Nat.add_sub_cancel_left, List.getElem?_append_left hj, List.getElem?_eq_getElem hj]

/-! Layouts in which nothing is counted. -/

/-- A piece whose cell, if it has one, is called as its column is. -/
def Piece.called (p : Piece) : Binding.Named := Binding.label (p.cellKeys.headD "") p

/-- The column and the value of a cell. -/
def Piece.cell : Piece → List (String × Value)
  | .slot (.cell key v) => [(key, v)]
  | _ => []

namespace Binding
open Lexeme

variable {d : Dialect} {l : Layout}

/-- Where nothing is counted and no cell needs another name, all cells are called as their columns
are. -/
theorem exists_called {n : Names} (hl : l.flatMap Piece.counted = []) (hkeys : l.cellKeys.Nodup)
    (hfree : ∀ k ∈ l.cellKeys, escape k = k ∧ k ∉ n.taken) :
    ∃ n', nameAll d n l = .ok (l.map Piece.called, n') := by
  induction l generalizing n with
  | nil => exact ⟨n, rfl⟩
  | cons p l ih =>
    obtain ⟨hp, hl⟩ := List.append_eq_nil_iff.mp hl
    have hcons : Layout.cellKeys (p :: l) = p.cellKeys ++ Layout.cellKeys l := List.flatMap_cons
    rcases cell_cases p with hc | ⟨key, v, rfl⟩
    · rw [hcons, hc, List.nil_append] at hkeys hfree
      obtain ⟨n', hrest⟩ := ih hl hkeys hfree
      have hname := (name_uncounted (d := d) (n := n) hp hc).1
      refine ⟨n', nameAll_cons.mpr ⟨_, n, _, hname, hrest, ?_⟩⟩
      rw [List.map_cons, Piece.called, hc]
      rfl
    · obtain ⟨hname, hkeys, hfree⟩ := free_cell hkeys hfree
      obtain ⟨n', hrest⟩ := ih (n := { n with keys := key :: n.keys, taken := key :: n.taken }) hl
        hkeys hfree
      refine ⟨n', nameAll_cons.mpr ⟨.value key key v none, _, _, ?_, hrest, rfl⟩⟩
      simp only [name, Names.take, hname]

theorem values_called (hl : l.flatMap Piece.counted = []) :
    values false (l.map Piece.called) = l.flatMap Piece.cell := by
  induction l with
  | nil => rfl
  | cons p l ih =>
    obtain ⟨hp, hl⟩ := List.append_eq_nil_iff.mp hl
    rw [List.flatMap_cons, ← ih hl]
    cases p with
    | slot s =>
      cases s with
      | cell key v => rfl
      | operand base v cast => cases hp
      | members base vs => cases hp
    | _ => rfl

theorem map_fst_cell (l : Layout) : (l.flatMap Piece.cell).map Prod.fst = l.cellKeys := by
  rw [List.map_flatMap, Layout.cellKeys]
  refine List.flatMap_congr fun p _ => ?_
  cases p with
  | slot s => cases s <;> rfl
  | _ => rfl

end Binding

namespace Lexeme

/-- What is read at a piece whose cell is called as its column is. -/
def ofCalled (d : Dialect) (p : Piece) : List Lexeme := ofNamed d p.called

theorem ofCalled_row (d : Dialect) (cells : List (String × Value)) :
    (Layout.row cells).flatMap (ofCalled d) = Reading.ofRow (cells.map (.ofCell d)) := by
  have hcell : ∀ c : String × Value, List.flatMap (ofCalled d) [.slot (.cell c.1 c.2)] =
      Reading.ofPlace (.ofCell d c) := by
    intro c
    cases d <;> rfl
  rw [Layout.row, List.flatMap_append, List.flatMap_cons, Reading.lexemes_join fun _ => rfl,
    List.map_map, List.append_assoc, Reading.ofRow, Reading.ofPlaces, List.map_map]
  simp only [Function.comp_def, hcell]
  rfl

end Lexeme

namespace Layout
open Binding Lexeme

variable {d : Dialect} {l : Layout}

theorem lists_eq_nil (h : l.flatMap Piece.counted = []) : l.lists = [] := by
  refine List.flatMap_eq_nil_iff.mpr fun p hp => ?_
  have hcounted := List.flatMap_eq_nil_iff.mp h p hp
  cases p with
  | slot s =>
    cases s with
    | members base vs => cases hcounted
    | _ => rfl
  | _ => rfl

/-- A layout in which nothing is counted is written with its cells called as their columns are, and
these are its parameters. -/
theorem exists_render_called (hl : l.Legible d) (hreg : l.Regular)
    (hcounted : l.flatMap Piece.counted = []) (hkeys : l.cellKeys.Nodup)
    (hescape : ∀ k ∈ l.cellKeys, escape k = k) : ∃ r, l.render d = .ok r ∧
      lex d r.sql = l.flatMap (ofCalled d) ∧ textAll d (l.flatMap (ofCalled d)) = r.sql ∧
      r.params = l.flatMap Piece.cell := by
  obtain ⟨n, hps⟩ := exists_called (d := d) (n := {}) hcounted hkeys fun k hk =>
    ⟨hescape k hk, List.not_mem_nil⟩
  obtain ⟨hlabels, -, -⟩ := nameAll_eq_ok hps List.nodup_nil
  have hnone := memberLists_eq_nil hlabels (lists_eq_nil hcounted)
  have hsettle := settle_eq fun hd => hl.own hreg (.inl hd) hlabels
  have hcalled : (l.map Piece.called).flatMap (ofNamed d) = l.flatMap (ofCalled d) :=
    List.flatMap_map ..
  refine ⟨⟨writtenAll d (l.map Piece.called), l.flatMap Piece.cell⟩,
    Outcome.bind_eq_ok.mpr ⟨_, hps, ?_⟩, ?_, ?_, rfl⟩
  · simp only [write, hnone, List.isEmpty_nil, if_true, hsettle, values_called hcounted]
  · have hlex := lex_written hreg (spread_blocks (d := d) hlabels hnone)
    rwa [ofBlocks, flatten_blocks, hcalled] at hlex
  · rw [← hcalled]
    refine textAll_flatMap d fun q hq x vs he => ?_
    have hm : (x, vs) ∈ memberLists (l.map Piece.called) :=
      List.mem_filterMap.mpr ⟨q, hq, by rw [he]⟩
    rw [hnone] at hm
    cases hm

end Layout

/-! Many rows. -/

namespace Layout
open Binding Lexeme Reading

/-- The cells of rows, each with the number of its row in its name. -/
def numberedRows (ns : List String) (rows : List (List Value)) : List (List (String × Value)) :=
  rows.mapIdx fun i vs => (ns.map (numbered i)).zip vs

variable {d : Dialect} {t : Target} {ns : List String} {rows : List (List Value)} {c : Columns}

theorem ofStatement_insertMany (d : Dialect) (t : Target) (ns : List String)
    (rows : List (List Value)) (c : Columns) : ofStatement d (.insertMany t ns rows c) =
      insertInto t ns ++ join ", " ((numberedRows ns rows).map row) ++ returning c := by
  rw [numberedRows, Lists.map_mapIdx]
  rfl

theorem ofCalled_insertMany (d : Dialect) (t : Target) (ns : List String)
    (rows : List (List Value)) (c : Columns) :
    (ofStatement d (.insertMany t ns rows c)).flatMap (ofCalled d) =
      ofInsertion ⟨t, ns, (numberedRows ns rows).map (List.map (.ofCell d)), c⟩ := by
  have ht : ∀ s, ofCalled d (.text s) = chars s := fun _ => rfl
  have hq : ∀ n, ofCalled d (.quoted n) = [.name n] := fun _ => rfl
  simp only [ofStatement_insertMany, insertInto, returning, List.flatMap_append, List.flatMap_cons,
    List.flatMap_nil, ht, lexemes_join ht, lexemes_names ht hq, lexemes_columns ht hq,
    lexemes_target ht hq, List.map_map, Function.comp_def, ofCalled_row, List.append_nil,
    List.append_assoc, ofInsertion, commas]

theorem cells_insertMany (d : Dialect) (t : Target) (ns : List String) (rows : List (List Value))
    (c : Columns) : (ofStatement d (.insertMany t ns rows c)).flatMap Piece.cell =
      (numberedRows ns rows).flatten := by
  have hrow : ∀ cells, (row cells).flatMap Piece.cell = cells := by
    intro cells
    rw [flatMap_row fun _ => rfl]
    exact List.flatMap_singleton' cells
  rw [flatMap_insertMany (fun _ => rfl) fun _ => rfl, numberedRows, List.flatMap_def, Lists.map_mapIdx]
  simp only [hrow]

/-- The name of a column and the number of a row are read off the name of a cell. -/
theorem numbered_inj {i j : Nat} {n m : String} (h : numbered i n = numbered j m) :
    i = j ∧ n = m := by
  have hr := congrArg (fun s : String => s.toList.reverse) h
  have hsplit : ∀ (k : Nat) (s : String), (numbered k s).toList.reverse =
      ((toString k).toList.reverse ++ ['m']) ++ '_' :: s.toList.reverse := by
    intro k s
    simp [numbered]
  have hdigits : ∀ k : Nat, '_' ∉ (toString k).toList.reverse ++ ['m'] := by
    intro k hk
    rcases List.mem_append.mp hk with hk | hk
    · exact underscore_not_mem_digits k (List.mem_reverse.mp hk)
    · exact absurd hk (by decide)
  simp only [hsplit] at hr
  obtain ⟨hk, hn⟩ := eq_of_append_underscore (hdigits i) (hdigits j) hr
  have hij := List.reverse_injective (List.append_cancel_right hk)
  exact ⟨toString_nat_injective (String.toList_inj.mp hij),
    String.toList_inj.mp (List.reverse_injective hn)⟩

theorem wordy_numbered {n : String} (h : Wordy n) (i : Nat) : Wordy (numbered i n) := by
  intro c hc
  rw [numbered, String.toList_append, String.toList_append, List.append_assoc] at hc
  rcases List.mem_append.mp hc with hc | hc
  · exact h c hc
  rcases List.mem_append.mp hc with hc | hc
  · exact (show Wordy "_m" by decide) c hc
  · exact isWord_of_mem_digits hc

theorem wordy_of_mem_numberedRows (h : ∀ n ∈ ns, Wordy n) {k : String}
    (hk : k ∈ (numberedRows ns rows).flatten.map Prod.fst) : Wordy k := by
  obtain ⟨c, hc, rfl⟩ := List.mem_map.mp hk
  obtain ⟨cells, hcells, hc⟩ := List.mem_flatten.mp hc
  obtain ⟨i, hi, rfl⟩ := List.mem_mapIdx.mp hcells
  obtain ⟨n, hn, he⟩ := List.mem_map.mp (List.of_mem_zip hc).1
  exact he ▸ wordy_numbered (h n hn) i

/-- No two cells have the same name, whatever the columns are called. -/
theorem nodup_numberedRows (hns : ns.Nodup) (hrows : ∀ row ∈ rows, row.length = ns.length) :
    ((numberedRows ns rows).flatten.map Prod.fst).Nodup := by
  have hnames : ∀ row ∈ rows, ∀ i, ((ns.map (numbered i)).zip row).map Prod.fst =
      ns.map (numbered i) := by
    intro row hrow i
    refine List.map_fst_zip ?_
    rw [List.length_map, hrows row hrow]
  rw [List.map_flatten, List.nodup_flatten, numberedRows, Lists.map_mapIdx]
  constructor
  · intro names hn
    obtain ⟨i, hi, rfl⟩ := List.mem_mapIdx.mp hn
    rw [hnames _ (List.getElem_mem hi)]
    exact hns.map fun _ _ h => (numbered_inj h).2
  · rw [List.pairwise_iff_getElem]
    intro i j hi hj hij
    rw [List.length_mapIdx] at hi hj
    rw [List.getElem_mapIdx, List.getElem_mapIdx]
    change List.Disjoint (((ns.map (numbered i)).zip rows[i]).map Prod.fst)
      (((ns.map (numbered j)).zip rows[j]).map Prod.fst)
    rw [hnames _ (List.getElem_mem hi), hnames _ (List.getElem_mem hj)]
    intro x hx hx'
    obtain ⟨n, -, rfl⟩ := List.mem_map.mp hx
    obtain ⟨m, -, hm⟩ := List.mem_map.mp hx'
    exact absurd (numbered_inj hm).1 (Nat.ne_of_gt hij)

theorem length_numberedRows (hrows : ∀ row ∈ rows, row.length = ns.length) :
    (numberedRows ns rows).flatten.length = rows.length * ns.length := by
  have hlengths : ∀ cells ∈ numberedRows ns rows, cells.length = ns.length := by
    intro cells hc
    obtain ⟨i, hi, rfl⟩ := List.mem_mapIdx.mp hc
    rw [List.length_zip, List.length_map, hrows _ (List.getElem_mem hi), min_self]
  rw [List.length_flatten, List.eq_replicate_of_mem (l := (numberedRows ns rows).map List.length)
    (List.forall_mem_map.mpr hlengths), List.sum_replicate_nat, List.length_map, numberedRows,
    List.length_mapIdx]

/-- What the cells of rows are written with are their values. -/
theorem values_numberedRows (hrows : ∀ row ∈ rows, row.length = ns.length) :
    (numberedRows ns rows).map (List.map fun c => some c.2) = rows.map (List.map some) := by
  rw [numberedRows, Lists.map_mapIdx]
  refine List.ext_getElem (by simp) fun i hi _ => ?_
  rw [List.length_mapIdx] at hi
  rw [List.getElem_mapIdx, List.getElem_map]
  change ((ns.map (numbered i)).zip rows[i]).map (some ∘ Prod.snd) = _
  rw [← List.map_map, List.map_snd_zip]
  rw [List.length_map, hrows _ (List.getElem_mem hi)]

end Layout

namespace Statement
open Layout Binding Lexeme Reading

variable {d : Dialect} {t : Target} {ns : List String} {rows : List (List Value)} {c : Columns}

/-- Rows of one length, under names that are written as they are, come out as one INSERT, whose places
resolve to their values. -/
theorem exists_insertion (hl : (ofStatement d (.insertMany t ns rows c)).Legible d)
    (hw : ∀ n ∈ ns, Wordy n) (hns : ns ≠ []) (hnd : ns.Nodup) (hrows : rows ≠ [])
    (hlen : ∀ row ∈ rows, row.length = ns.length) (hc : c ≠ .named []) :
    ∃ r q, (Statement.insertMany t ns rows c).render d = .ok r ∧ HasInsertion d r.sql q ∧
      q.target = t ∧ q.names = ns ∧ q.returning = c ∧
      r.valuesAt d 0 q.rows = rows.map (List.map some) ∧
      r.params.length = rows.length * ns.length := by
  have hcells := cells_insertMany d t ns rows c
  have hnames := nodup_numberedRows hnd hlen
  have hkeys : (ofStatement d (.insertMany t ns rows c)).cellKeys =
      (numberedRows ns rows).flatten.map Prod.fst := by
    rw [← map_fst_cell, hcells]
  obtain ⟨r, hr, hlex, htext, hparams⟩ := exists_render_called hl
    (regular_ofStatement d List.not_mem_nil)
    (flatMap_insertMany_eq_nil (fun _ => rfl) (fun _ => rfl) (fun _ _ => rfl) ..) (hkeys ▸ hnames)
    fun k hk => (wordy_of_mem_numberedRows hw (hkeys ▸ hk)).escape
  rw [ofCalled_insertMany] at hlex htext
  rw [hcells] at hparams
  refine ⟨r, _, hr, ⟨(congrArg insertion? hlex).trans (insertion?_ofInsertion ⟨hns, ?_, hc⟩), htext⟩,
    rfl, rfl, rfl, ?_, ?_⟩
  · simpa [numberedRows] using hrows
  · rw [← values_numberedRows hlen]
    exact Rendered.valuesAt_ofCells d (hparams ▸ hnames) [] hparams
  · rw [hparams, length_numberedRows hlen]

end Statement
end TableQuery
