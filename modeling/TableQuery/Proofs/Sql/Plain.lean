import TableQuery.Proofs.Sql.Names

/-! Statements written piece by piece, with no pass over the finished text. -/

namespace TableQuery
namespace Binding

/-- The pieces with each member list written out in its place, and the parameters of the members. -/
def spreadAll (d : Dialect) : (taken : List String) → List Named →
    Outcome (List (List Named) × List (String × Value))
  | _, [] => .ok ([], [])
  | taken, .members x vs :: ps => do
    let (block, params, taken) ← expand d taken x vs
    let (blocks, more) ← spreadAll d taken ps
    pure (block :: blocks, params ++ more)
  | taken, p :: ps => do
    let (blocks, more) ← spreadAll d taken ps
    pure ([p] :: blocks, more)

def writtenAll (d : Dialect) (ps : List Named) : String := String.join (ps.map (written d))

/-- The members of a row. -/
def row (v : Value) : List Value := v.iterate?.getD []

/-- The names that row `i` is written with. -/
def rowNames (names : List String) (i : Nat) (row : List Value) : List String :=
  (names.drop (i * row.length)).take row.length

def rowBlock (ns : List String) (row : List Value) : List Named :=
  .text "(" :: places none (ns.zip row) ++ [.text ")"]

/-- Rows from number `i` on, and the blocks that stand for them. -/
inductive RowBlocks (names : List String) : Nat → List (List Value) → List (List Named) → Prop
  | nil (i : Nat) : RowBlocks names i [] []
  | cons {i : Nat} {row : List Value} {rows : List (List Value)} {blocks : List (List Named)}
    (full : (rowNames names i row).length = row.length)
    (rest : RowBlocks names (i + 1) rows blocks) :
    RowBlocks names i (row :: rows) (rowBlock (rowNames names i row) row :: blocks)

/-- A list of members, its parameters and the pieces that stand for it. -/
inductive Members (d : Dialect) : List Value → List (String × Value) → List Named → Prop
  | flat {vs : List Value} {params : List (String × Value)} (single : rows? vs = none)
    (supplied : params.map Prod.snd = vs) :
    Members d vs params (places (vs.head?.bind Cast.ofValue?) params)
  | rows {vs : List Value} {rows : List (List Value)} {params : List (String × Value)}
    {blocks : List (List Named)} (many : rows? vs = some vs)
    (items : List.Forall₂ (fun v row => v.iterate? = some row) vs rows)
    (supplied : params.map Prod.snd = rows.flatten)
    (shown : RowBlocks (params.map Prod.fst) 0 rows blocks) :
    Members d vs params (rowsLead d ++ listed blocks)

/-- Named pieces, the blocks that stand for them, and the parameters of their member lists. -/
inductive Spreads (d : Dialect) :
    List Named → List (List Named) → List (String × Value) → Prop
  | nil : Spreads d [] [] []
  | text {s : String} {ps : List Named} {bs : List (List Named)} {ms : List (String × Value)}
    (rest : Spreads d ps bs ms) : Spreads d (.text s :: ps) ([.text s] :: bs) ms
  | quoted {s : String} {ps : List Named} {bs : List (List Named)} {ms : List (String × Value)}
    (rest : Spreads d ps bs ms) : Spreads d (.quoted s :: ps) ([.quoted s] :: bs) ms
  | value {key x : String} {v : Value} {cast : Option Cast} {ps : List Named}
    {bs : List (List Named)} {ms : List (String × Value)} (rest : Spreads d ps bs ms) :
    Spreads d (.value key x v cast :: ps) ([.value key x v cast] :: bs) ms
  | members {x : String} {vs : List Value} {params : List (String × Value)} {b ps : List Named}
    {bs : List (List Named)} {ms : List (String × Value)} (here : Members d vs params b)
    (fit : Fit x → ∀ p ∈ params, Fit p.1) (rest : Spreads d ps bs ms) :
    Spreads d (.members x vs :: ps) (b :: bs) (params ++ ms)

/-- A piece of a layout and the block that stands for it. -/
inductive Spread (d : Dialect) : Piece → List Named → Prop
  | text (s : String) : Spread d (.text s) [.text s]
  | quoted (n : String) : Spread d (.quoted n) [.quoted n]
  | cell {key x : String} (v : Value) (fit : key ≠ "" → Fit x) :
    Spread d (.slot (.cell key v)) [.value key x v none]
  | operand {base x : String} (v : Value) (cast : Option Cast) (fit : Fit x) :
    Spread d (.slot (.operand base v cast)) [.value x x v cast]
  | members {base : String} {vs : List Value} {params : List (String × Value)} {b : List Named}
    (here : Members d vs params b) (fit : ∀ p ∈ params, Fit p.1) :
    Spread d (.slot (.members base vs)) b

theorem Spreads.spread {d : Dialect} {l : Layout} {ps : List Named} {bs : List (List Named)}
    {ms : List (String × Value)} (h : Spreads d ps bs ms) (hl : List.Forall₂ Labels l ps) :
    List.Forall₂ (Spread d) l bs := by
  induction h generalizing l with
  | nil =>
    cases hl
    exact .nil
  | text _ ih =>
    obtain ⟨p, l, hp, hrest, rfl⟩ := List.forall₂_cons_right_iff.mp hl
    cases hp
    exact .cons (.text _) (ih hrest)
  | quoted _ ih =>
    obtain ⟨p, l, hp, hrest, rfl⟩ := List.forall₂_cons_right_iff.mp hl
    cases hp
    exact .cons (.quoted _) (ih hrest)
  | value _ ih =>
    obtain ⟨p, l, hp, hrest, rfl⟩ := List.forall₂_cons_right_iff.mp hl
    cases hp with
    | cell _ fit => exact .cons (.cell _ fit) (ih hrest)
    | operand _ _ fit => exact .cons (.operand _ _ fit) (ih hrest)
  | members here fit _ ih =>
    obtain ⟨p, l, hp, hrest, rfl⟩ := List.forall₂_cons_right_iff.mp hl
    cases hp with
    | members _ hx _ => exact .cons (.members here (fit hx)) (ih hrest)

theorem freeAll_spec (taken : List String) (ps : List (String × Value)) :
    (freeAll taken ps).1.map Prod.snd = ps.map Prod.snd ∧
    (freeAll taken ps).2 = ((freeAll taken ps).1.map Prod.fst).reverse ++ taken ∧
    (taken.Nodup → (freeAll taken ps).2.Nodup) := by
  induction ps generalizing taken with
  | nil => exact ⟨rfl, rfl, id⟩
  | cons p ps ih =>
    obtain ⟨name, v⟩ := p
    obtain ⟨hv, ht, hn⟩ := ih (free taken name :: taken)
    refine ⟨?_, ?_, fun h => hn (List.nodup_cons.mpr ⟨free_not_mem taken name, h⟩)⟩
    · simp only [freeAll, List.map_cons, hv]
    · simp only [freeAll, List.map_cons, List.reverse_cons, List.append_assoc,
        List.singleton_append, ht]

/-- What members get from the name of their list, whatever names are taken. -/
structure Inherits (Q P : String → Prop) : Prop where
  first : ∀ x (k : Nat), Q x → P (x ++ "_" ++ toString k)
  next : ∀ x (k : Nat), P x → P (x ++ "_" ++ toString k)
  free : ∀ taken x, P x → P (free taken x)

theorem inherits_fit : Inherits Fit Fit :=
  ⟨fun _ k h => h.counted k, fun _ k h => h.counted k, fun taken _ h => h.free taken⟩

theorem Inherits.freeAll {Q P : String → Prop} (hi : Inherits Q P) {taken : List String}
    {ps : List (String × Value)} (h : ∀ p ∈ ps, P p.1) : ∀ p ∈ (freeAll taken ps).1, P p.1 := by
  induction ps generalizing taken with
  | nil => simp [Binding.freeAll]
  | cons p ps ih =>
    intro q hq
    rcases List.mem_cons.mp hq with rfl | hq
    · exact hi.free taken p.1 (h p (List.mem_cons_self ..))
    · exact ih (fun r hr => h r (List.mem_cons_of_mem p hr)) q hq

theorem snd_mapIdx (name : Nat → String) (vs : List Value) :
    (vs.mapIdx fun i v => (name i, v)).map Prod.snd = vs :=
  List.ext_getElem (by simp) (by simp)

theorem cells_snd (name : String) (rows : List (List Value)) :
    (cells name rows).map Prod.snd = rows.flatten := by
  rw [cells, List.map_flatten]
  congr 1
  refine List.ext_getElem (by simp) fun i h h' => ?_
  rw [List.getElem_map, List.getElem_mapIdx, snd_mapIdx]

theorem Inherits.cells {Q P : String → Prop} (hi : Inherits Q P) {name : String} (h : Q name)
    {rows : List (List Value)} : ∀ p ∈ cells name rows, P p.1 := by
  intro p hp
  obtain ⟨ps, hps, hp⟩ := List.mem_flatten.mp hp
  obtain ⟨i, hi', rfl⟩ := List.mem_mapIdx.mp hps
  obtain ⟨j, hj, rfl⟩ := List.mem_mapIdx.mp hp
  exact hi.next _ (j + 1) (hi.first name (i + 1) h)

theorem Inherits.numbered {Q P : String → Prop} (hi : Inherits Q P) {name : String} (h : Q name)
    {vs : List Value} : ∀ p ∈ vs.mapIdx fun i v => (name ++ "_" ++ toString (i + 1), v), P p.1 := by
  intro p hp
  obtain ⟨i, hi', rfl⟩ := List.mem_mapIdx.mp hp
  exact hi.first name (i + 1) h

theorem rows?_eq_some {vs rows : List Value} (h : rows? vs = some rows) : rows = vs := by
  cases vs with
  | nil => cases h
  | cons v vs =>
    simp only [rows?] at h
    split at h
    · cases h
      rfl
    · cases h

@[simp]
theorem iterateRow_eq_ok {v : Value} {row : List Value} :
    iterateRow v = .ok row ↔ v.iterate? = some row := by
  unfold iterateRow
  cases v.iterate? <;> simp

theorem eq_map_row {vs : List Value} {rows : List (List Value)}
    (h : List.Forall₂ (fun v row => v.iterate? = some row) vs rows) : rows = vs.map row := by
  induction h with
  | nil => rfl
  | cons hv _ ih => rw [List.map_cons, row, hv, ih, Option.getD_some]

theorem RowBlocks.exists_of_mem {names : List String} {i : Nat} {rows : List (List Value)}
    {blocks : List (List Named)} (h : RowBlocks names i rows blocks) {block : List Named}
    (hb : block ∈ blocks) : ∃ j row, block = rowBlock (rowNames names j row) row := by
  induction h with
  | nil => cases hb
  | @cons i row rows blocks full rest ih =>
    rcases List.mem_cons.mp hb with rfl | hb
    · exact ⟨i, row, rfl⟩
    · exact ih hb

theorem mem_of_mem_rowNames {names : List String} {i : Nat} {row : List Value} {n : String}
    (h : n ∈ rowNames names i row) : n ∈ names :=
  List.mem_of_mem_drop (List.mem_of_mem_take h)

theorem rowsPieces_eq_ok {names : List String} {i : Nat} {rows : List (List Value)}
    {blocks : List (List Named)} (h : rowsPieces names i rows = .ok blocks) :
    RowBlocks names i rows blocks := by
  induction rows generalizing i blocks with
  | nil =>
    cases h
    exact .nil i
  | cons row rows ih =>
    obtain ⟨block, hb, h⟩ := Outcome.bind_eq_ok.mp h
    obtain ⟨blocks, hbs, h⟩ := Outcome.bind_eq_ok.mp h
    cases Outcome.pure_eq_ok.mp h
    simp only [rowPieces] at hb
    split at hb
    · cases hb
    · rename_i hlen
      cases hb
      refine .cons (le_antisymm ?_ (not_lt.mp hlen)) (ih hbs)
      exact List.length_take_le _ _

theorem Inherits.expand {Q P : String → Prop} (hi : Inherits Q P) {d : Dialect}
    {taken taken' : List String} {x : String} {vs : List Value} {ps : List Named}
    {params : List (String × Value)} (h : expand d taken x vs = .ok (ps, params, taken'))
    (hx : Q x) : ∀ p ∈ params, P p.1 := by
  unfold Binding.expand at h
  cases hr : rows? vs with
  | some rows =>
    rw [hr] at h
    obtain ⟨items, hitems, h⟩ := Outcome.bind_eq_ok.mp h
    obtain ⟨blocks, hblocks, h⟩ := Outcome.bind_eq_ok.mp h
    cases Outcome.pure_eq_ok.mp h
    exact hi.freeAll (hi.cells hx)
  | none =>
    rw [hr] at h
    cases h
    exact hi.freeAll (hi.numbered hx)

/-- The members of a list get names of their own, and every member its place. -/
theorem expand_eq_ok {d : Dialect} {taken taken' : List String} {x : String} {vs : List Value}
    {ps : List Named} {params : List (String × Value)}
    (h : expand d taken x vs = .ok (ps, params, taken')) :
    Members d vs params ps ∧ (Fit x → ∀ p ∈ params, Fit p.1) ∧
      taken' = (params.map Prod.fst).reverse ++ taken ∧ (taken.Nodup → taken'.Nodup) := by
  have hfit := inherits_fit.expand h
  unfold expand at h
  cases hr : rows? vs with
  | some rs =>
    obtain rfl := rows?_eq_some hr
    rw [hr] at h
    obtain ⟨rows, hrows, h⟩ := Outcome.bind_eq_ok.mp h
    obtain ⟨blocks, hblocks, h⟩ := Outcome.bind_eq_ok.mp h
    cases Outcome.pure_eq_ok.mp h
    obtain ⟨hv, ht, hn⟩ := freeAll_spec taken (cells x rows)
    refine ⟨.rows hr ?_ (hv.trans (cells_snd x rows)) (rowsPieces_eq_ok hblocks), hfit, ht, hn⟩
    simpa using Outcome.mapM_eq_ok.mp hrows
  | none =>
    rw [hr] at h
    cases h
    obtain ⟨hv, ht, hn⟩ :=
      freeAll_spec taken (vs.mapIdx fun i v => (x ++ "_" ++ toString (i + 1), v))
    exact ⟨.flat hr (hv.trans (snd_mapIdx _ vs)), hfit, ht, hn⟩

theorem spreadAll_members {d : Dialect} {taken : List String} {x : String} {vs : List Value}
    {ps : List Named} {bs : List (List Named)} {ms : List (String × Value)} :
    spreadAll d taken (.members x vs :: ps) = .ok (bs, ms) ↔ ∃ b params taken' bs' ms',
      expand d taken x vs = .ok (b, params, taken') ∧ spreadAll d taken' ps = .ok (bs', ms') ∧
      bs = b :: bs' ∧ ms = params ++ ms' := by
  constructor
  · intro h
    obtain ⟨⟨b, params, taken'⟩, hb, h⟩ := Outcome.bind_eq_ok.mp h
    obtain ⟨⟨bs', ms'⟩, hbs, h⟩ := Outcome.bind_eq_ok.mp h
    cases Outcome.pure_eq_ok.mp h
    exact ⟨b, params, taken', bs', ms', hb, hbs, rfl, rfl⟩
  · rintro ⟨b, params, taken', bs', ms', hb, hbs, rfl, rfl⟩
    exact Outcome.bind_eq_ok.mpr ⟨_, hb, Outcome.bind_eq_ok.mpr ⟨_, hbs, rfl⟩⟩

theorem Inherits.spreadAll {Q P : String → Prop} (hi : Inherits Q P) {d : Dialect}
    {taken : List String} {ps : List Named} {bs : List (List Named)} {ms : List (String × Value)}
    (h : spreadAll d taken ps = .ok (bs, ms)) (hx : ∀ x vs, .members x vs ∈ ps → Q x) :
    ∀ p ∈ ms, P p.1 := by
  induction ps generalizing taken bs ms with
  | nil =>
    cases h
    exact fun p hp => absurd hp List.not_mem_nil
  | cons p ps ih =>
    have hrest : ∀ x vs, .members x vs ∈ ps → Q x := fun x vs hm => hx x vs (List.mem_cons_of_mem p hm)
    cases p with
    | members x vs =>
      obtain ⟨b, params, taken', bs', ms', hb, hbs, rfl, rfl⟩ := spreadAll_members.mp h
      exact List.forall_mem_append.mpr
        ⟨hi.expand hb (hx x vs (List.mem_cons_self ..)), ih hbs hrest⟩
    | _ =>
      obtain ⟨⟨bs', ms'⟩, hbs, h⟩ := Outcome.bind_eq_ok.mp h
      cases Outcome.pure_eq_ok.mp h
      exact ih hbs hrest

theorem spreadAll_eq_ok {d : Dialect} {taken : List String} {ps : List Named}
    {bs : List (List Named)} {ms : List (String × Value)}
    (h : spreadAll d taken ps = .ok (bs, ms)) (hn : taken.Nodup) :
    Spreads d ps bs ms ∧ ((ms.map Prod.fst).reverse ++ taken).Nodup := by
  induction ps generalizing taken bs ms with
  | nil =>
    cases h
    exact ⟨.nil, hn⟩
  | cons p ps ih =>
    cases p with
    | members x vs =>
      obtain ⟨b, params, taken', bs', ms', hb, hbs, rfl, rfl⟩ := spreadAll_members.mp h
      obtain ⟨hm, hf, rfl, hn'⟩ := expand_eq_ok hb
      obtain ⟨hs, hnd⟩ := ih hbs (hn' hn)
      exact ⟨.members hm hf hs, by simpa using hnd⟩
    | text s =>
      obtain ⟨⟨bs', ms'⟩, hbs, h⟩ := Outcome.bind_eq_ok.mp h
      cases Outcome.pure_eq_ok.mp h
      exact ⟨.text (ih hbs hn).1, (ih hbs hn).2⟩
    | quoted s =>
      obtain ⟨⟨bs', ms'⟩, hbs, h⟩ := Outcome.bind_eq_ok.mp h
      cases Outcome.pure_eq_ok.mp h
      exact ⟨.quoted (ih hbs hn).1, (ih hbs hn).2⟩
    | value key x v cast =>
      obtain ⟨⟨bs', ms'⟩, hbs, h⟩ := Outcome.bind_eq_ok.mp h
      cases Outcome.pure_eq_ok.mp h
      exact ⟨.value (ih hbs hn).1, (ih hbs hn).2⟩

end Binding

namespace Layout
open Binding

/-- The statement with every piece written where it stands. -/
def plain (d : Dialect) (l : Layout) : Outcome Rendered := do
  let (pieces, names) ← nameAll d {} l
  let (blocks, members) ← spreadAll d names.taken pieces
  pure ⟨writtenAll d blocks.flatten, values (!(memberLists pieces).isEmpty) pieces ++ members⟩

/-- What a statement written piece by piece consists of. No two parameters have the same name. -/
theorem plain_eq_ok {d : Dialect} {l : Layout} {r : Rendered} (h : l.plain d = .ok r) :
    ∃ pieces blocks members, (∃ n, nameAll d {} l = .ok (pieces, n)) ∧
      List.Forall₂ Labels l pieces ∧ Spreads d pieces blocks members ∧
      (pieces.filterMap (·.name?) ++ members.map Prod.fst).Nodup ∧
      r.sql = writtenAll d blocks.flatten ∧
      r.params = values (!(memberLists pieces).isEmpty) pieces ++ members := by
  obtain ⟨⟨pieces, n⟩, hp, h⟩ := Outcome.bind_eq_ok.mp h
  obtain ⟨⟨blocks, members⟩, hb, h⟩ := Outcome.bind_eq_ok.mp h
  cases Outcome.pure_eq_ok.mp h
  obtain ⟨hl, ht, hn⟩ := nameAll_eq_ok hp List.nodup_nil
  obtain ⟨hs, hnd⟩ := spreadAll_eq_ok hb hn
  refine ⟨pieces, blocks, members, ⟨n, hp⟩, hl, hs, ?_, rfl, rfl⟩
  rw [ht, List.append_nil, ← List.reverse_append] at hnd
  exact List.nodup_reverse.mp hnd

end Layout

def Statement.plain (d : Dialect) (s : Statement) : Outcome Rendered :=
  (Layout.ofStatement d s).plain d

end TableQuery
