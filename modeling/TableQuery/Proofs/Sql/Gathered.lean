import TableQuery.Proofs.Sql.Supply

/-! What is gathered from the pieces of a whole statement. -/

namespace TableQuery

/-- The values of the places of a predicate. -/
def Predicate.values : Predicate → List Value
  | compare _ _ v => [v]
  | like _ _ s => [.str s]
  | oneOf _ vs => Binding.memberValues vs
  | _ => []

namespace Layout

section Pieces

variable {α : Type} {f : Piece → List α}

theorem flatMap_join (hf : ∀ s, f (.text s) = []) (separator : String) (ls : List Layout) :
    (join separator ls).flatMap f = ls.flatMap fun l => l.flatMap f := by
  induction ls with
  | nil => rfl
  | cons l ls ih =>
    cases ls with
    | nil => simp [join]
    | cons m ls =>
      rw [join_cons_cons, List.flatMap_append, List.flatMap_cons, hf, ih, List.flatMap_cons]
      rfl

theorem flatMap_filter (ht : ∀ s, f (.text s) = []) {g : Predicate → List α} {d : Dialect}
    (hp : ∀ p, (predicate d p).flatMap f = g p) (before : String) (ps : Filter) :
    (filter d before ps).flatMap f = ps.flatMap g := by
  cases ps with
  | nil => rfl
  | cons p ps =>
    change (Piece.text before :: conjunction d (p :: ps)).flatMap f = _
    rw [List.flatMap_cons, ht, conjunction, flatMap_join ht, List.flatMap_map]
    simp only [hp, List.nil_append]

theorem flatMap_row (ht : ∀ s, f (.text s) = []) (cells : List (String × Value)) :
    (row cells).flatMap f = cells.flatMap fun c => f (.slot (.cell c.1 c.2)) := by
  rw [row, List.flatMap_append, List.flatMap_cons, ht, flatMap_join ht, List.flatMap_map]
  simp [ht]

variable (ht : ∀ s, f (.text s) = []) (hq : ∀ n, f (.quoted n) = [])
include ht hq

theorem flatMap_names (ns : List String) : (names ns).flatMap f = [] := by
  rw [names, flatMap_join ht, List.flatMap_map]
  simp [hq]

theorem flatMap_columns (c : Columns) : (columns c).flatMap f = [] := by
  cases c with
  | all => simp [columns, ht]
  | named ns => exact flatMap_names ht hq ns

theorem flatMap_returning (c : Columns) : (returning c).flatMap f = [] := by
  rw [returning, List.flatMap_cons, ht, flatMap_columns ht hq]
  rfl

theorem flatMap_target (t : Target) : (target t).flatMap f = [] := by
  obtain ⟨schema, table⟩ := t
  cases schema <;> simp [target, ht, hq]

theorem flatMap_insertInto (t : Target) (ns : List String) : (insertInto t ns).flatMap f = [] := by
  simp only [insertInto, List.flatMap_append, List.flatMap_cons, ht, flatMap_target ht hq,
    flatMap_names ht hq, List.flatMap_nil, List.append_nil]

theorem flatMap_order (items : List (String × Direction)) : (order items).flatMap f = [] := by
  unfold order
  split
  · rfl
  · rw [List.flatMap_cons, ht, flatMap_join ht, List.flatMap_map]
    simp [orderItem, ht, hq]

end Pieces

section Statements

variable {α : Type} {f : Piece → List α} {g : Predicate → List α} {d : Dialect}
  (ht : ∀ s, f (.text s) = []) (hq : ∀ n, f (.quoted n) = [])
  (hp : ∀ p, (predicate d p).flatMap f = g p)
include ht hq hp

theorem flatMap_select (c : Columns) (t : Target) (ps : Filter) (o : List (String × Direction))
    (take skip : Option Int) : (ofStatement d (.select c t ps o take skip)).flatMap f =
      ps.flatMap g ++ (pagination d take skip).flatMap f := by
  simp only [ofStatement, List.flatMap_append, List.flatMap_cons, ht, flatMap_columns ht hq,
    flatMap_target ht hq, flatMap_order ht hq, flatMap_filter ht hp, List.nil_append,
    List.append_nil]

theorem flatMap_count (t : Target) (ps : Filter) :
    (ofStatement d (.count t ps)).flatMap f = ps.flatMap g := by
  simp only [ofStatement, List.flatMap_append, List.flatMap_cons, ht, flatMap_target ht hq,
    flatMap_filter ht hp, List.nil_append]

theorem flatMap_delete (t : Target) (ps : Filter) (c : Columns) :
    (ofStatement d (.delete t ps c)).flatMap f = ps.flatMap g := by
  simp only [ofStatement, List.flatMap_append, List.flatMap_cons, ht, flatMap_target ht hq,
    flatMap_filter ht hp, flatMap_returning ht hq, List.nil_append, List.append_nil]

omit hp in
/-- The part of an update before its filter. -/
theorem flatMap_assigned (t : Target) (as : List (String × Value)) :
    (.text "UPDATE " :: target t ++ .text " SET " ::
      join ", " (as.map fun a => assignment a.1 a.2)).flatMap f =
      as.flatMap fun a => f (.slot (.cell a.1 a.2)) := by
  simp only [List.flatMap_append, List.flatMap_cons, ht, flatMap_target ht hq, flatMap_join ht,
    List.flatMap_map, assignment, hq, List.flatMap_nil, List.nil_append, List.append_nil]

theorem flatMap_update (t : Target) (as : List (String × Value)) (ps : Filter) (c : Columns) :
    (ofStatement d (.update t as ps c)).flatMap f =
      (as.flatMap fun a => f (.slot (.cell a.1 a.2))) ++ ps.flatMap g := by
  rw [ofStatement, List.flatMap_append, List.flatMap_append, flatMap_assigned ht hq,
    flatMap_filter ht hp, flatMap_returning ht hq, List.append_nil]

end Statements

section Inserts

variable {α : Type} {f : Piece → List α} (ht : ∀ s, f (.text s) = []) (hq : ∀ n, f (.quoted n) = [])
include ht hq

theorem flatMap_insert (d : Dialect) (t : Target) (ns : List String) (vs : List Value) (c : Columns) :
    (ofStatement d (.insert t ns vs c)).flatMap f =
      (ns.zip vs).flatMap fun a => f (.slot (.cell a.1 a.2)) := by
  rw [ofStatement, List.flatMap_append, List.flatMap_append, flatMap_insertInto ht hq,
    flatMap_row ht, flatMap_returning ht hq, List.nil_append, List.append_nil]

theorem flatMap_insertMany (d : Dialect) (t : Target) (ns : List String) (rows : List (List Value))
    (c : Columns) : (ofStatement d (.insertMany t ns rows c)).flatMap f =
      (rows.mapIdx fun i vs => row ((ns.map (numbered i)).zip vs)).flatMap fun l => l.flatMap f := by
  rw [ofStatement, List.flatMap_append, List.flatMap_append, flatMap_insertInto ht hq,
    flatMap_join ht, flatMap_returning ht hq, List.nil_append, List.append_nil]

end Inserts

theorem values_predicate (d : Dialect) (p : Predicate) :
    (predicate d p).flatMap Piece.values = p.values := by
  cases p with
  | like c o s => cases d <;> cases o <;> rfl
  | oneOf c vs => exact List.append_nil _
  | _ => rfl

theorem cellKeys_predicate (d : Dialect) (p : Predicate) :
    (predicate d p).flatMap Piece.cellKeys = [] := by
  cases p with
  | like c o s => cases d <;> cases o <;> rfl
  | _ => rfl

theorem cellKeys_pagination (d : Dialect) (take skip : Option Int) :
    (pagination d take skip).flatMap Piece.cellKeys = [] := by
  cases d <;> cases take <;> cases skip <;> rfl

/-- The values of the bounds. Where one is not set, its place has a constant. -/
def boundValues (d : Dialect) (take skip : Option Int) : List (Option Value) :=
  match d, take, skip with
  | _, none, none => []
  | .sqlite, take, skip => [take.map .int, skip.map .int]
  | .postgresql, take, skip => (take.toList ++ skip.toList).map fun n => some (.int n)

theorem expects_pagination (d : Dialect) (take skip : Option Int) :
    (pagination d take skip).Expects d (boundValues d take skip) := by
  have hset : ∀ n : Int, some (Value.int n) = some (.int n) ∨ (some (Value.int n) = none ∧ d = .sqlite) :=
    fun n => .inl rfl
  cases d <;> rcases take with _ | n <;> rcases skip with _ | k
  case sqlite.none.some => exact .cons (.inr ⟨rfl, rfl⟩) (.cons (.inl rfl) .nil)
  case sqlite.some.none => exact .cons (.inl rfl) (.cons (.inr ⟨rfl, rfl⟩) .nil)
  case sqlite.some.some => exact .cons (.inl rfl) (.cons (.inl rfl) .nil)
  case postgresql.none.some => exact .cons (.inl rfl) .nil
  case postgresql.some.none => exact .cons (.inl rfl) .nil
  case postgresql.some.some => exact .cons (.inl rfl) (.cons (.inl rfl) .nil)
  all_goals exact .nil

theorem expects_of_values {d : Dialect} {l : Layout} {vs : List Value} (h : l.values = vs) :
    l.Expects d (vs.map some) := by
  rw [Expects, h, List.forall₂_map_left_iff, List.forall₂_same]
  exact fun v _ => .inl rfl

theorem cellsFirst_append {l m : Layout} (hl : l.flatMap Piece.counted = []) (hm : m.cellKeys = []) :
    CellsFirst (l ++ m) := by
  refine List.pairwise_append.mpr ⟨?_, ?_, ?_⟩
  · exact List.pairwise_of_forall_mem_list fun p hp _ _ hc =>
      absurd (List.flatMap_eq_nil_iff.mp hl p hp) hc
  · exact List.pairwise_of_forall_mem_list fun _ _ q hq _ => List.flatMap_eq_nil_iff.mp hm q hq
  · exact fun _ _ q hq _ => List.flatMap_eq_nil_iff.mp hm q hq

/-- What holds of the places of a statement: what they are to have, and how those are called that go
by the name of a column. -/
structure Placed (d : Dialect) (l : Layout) (xs : List (Option Value)) : Prop where
  expects : l.Expects d xs
  first : l.CellsFirst
  keys : l.cellKeys.Nodup

theorem placed_of_no_cells {d : Dialect} {l : Layout} {xs : List (Option Value)}
    (hx : l.Expects d xs) (hc : l.cellKeys = []) : l.Placed d xs := by
  refine ⟨hx, cellsFirst_append (l := []) rfl hc, ?_⟩
  rw [hc]
  exact List.nodup_nil

/-! Only an update has cells beside a filter. -/

theorem cellKeys_select (d : Dialect) (c : Columns) (t : Target) (ps : Filter)
    (o : List (String × Direction)) (take skip : Option Int) :
    (ofStatement d (.select c t ps o take skip)).cellKeys = [] := by
  rw [cellKeys, flatMap_select (fun _ => rfl) (fun _ => rfl) (cellKeys_predicate d),
    cellKeys_pagination]
  simp

theorem cellKeys_count (d : Dialect) (t : Target) (ps : Filter) :
    (ofStatement d (.count t ps)).cellKeys = [] := by
  rw [cellKeys, flatMap_count (fun _ => rfl) (fun _ => rfl) (cellKeys_predicate d)]
  simp

theorem cellKeys_delete (d : Dialect) (t : Target) (ps : Filter) (c : Columns) :
    (ofStatement d (.delete t ps c)).cellKeys = [] := by
  rw [cellKeys, flatMap_delete (fun _ => rfl) (fun _ => rfl) (cellKeys_predicate d)]
  simp

theorem cellKeys_update (d : Dialect) (t : Target) (as : List (String × Value)) (ps : Filter)
    (c : Columns) : (ofStatement d (.update t as ps c)).cellKeys = as.map Prod.fst := by
  rw [cellKeys, flatMap_update (fun _ => rfl) (fun _ => rfl) (cellKeys_predicate d)]
  simp [Piece.cellKeys, ← List.map_eq_flatMap]

theorem cellsFirst_update (d : Dialect) (t : Target) (as : List (String × Value)) (ps : Filter)
    (c : Columns) : (ofStatement d (.update t as ps c)).CellsFirst := by
  rw [ofStatement, List.append_assoc]
  refine cellsFirst_append ?_ ?_
  · rw [flatMap_assigned (fun _ => rfl) fun _ => rfl]
    simp [Piece.counted]
  · rw [cellKeys, List.flatMap_append, flatMap_filter (fun _ => rfl) (cellKeys_predicate d),
      flatMap_returning (fun _ => rfl) fun _ => rfl]
    simp

theorem placed_update {d : Dialect} {t : Target} {as : List (String × Value)} {ps : Filter}
    {c : Columns} (hn : (as.map Prod.fst).Nodup) : (ofStatement d (.update t as ps c)).Placed d
      ((as.map Prod.snd).map some ++ (ps.flatMap Predicate.values).map some) := by
  refine ⟨?_, cellsFirst_update d t as ps c, (cellKeys_update d t as ps c) ▸ hn⟩
  rw [← List.map_append]
  refine expects_of_values ?_
  rw [values, flatMap_update (fun _ => rfl) (fun _ => rfl) (values_predicate d)]
  simp [Piece.values, Slot.values, ← List.map_eq_flatMap]

end Layout

end TableQuery
