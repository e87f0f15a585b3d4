import TableQuery.Proofs.Sql.Clause
import TableQuery.Proofs.Sql.Gathered
import TableQuery.Proofs.Sql.Meaning

/-! Statements around their filters: what is written in front of a filter, in it, and behind it. -/

namespace TableQuery

/-- A piece that stands in front of a filter: no place that is counted, and no words with a W. -/
inductive Piece.Leads : Piece → Prop
  | text {s : String} (h : 'W' ∉ s.toList) : Leads (.text s)
  | quoted (n : String) : Leads (.quoted n)
  | cell (key : String) (v : Value) : Leads (.slot (.cell key v))

namespace Layout

theorem forall_join {P : Piece → Prop} {separator : String} {ls : List Layout}
    (hs : P (.text separator)) (h : ∀ l ∈ ls, ∀ p ∈ l, P p) : ∀ p ∈ join separator ls, P p := by
  induction ls with
  | nil => exact fun p hp => absurd hp List.not_mem_nil
  | cons l ls ih =>
    obtain ⟨hl, hls⟩ := List.forall_mem_cons.mp h
    cases ls with
    | nil => simpa [join] using hl
    | cons m ls =>
      rw [join_cons_cons]
      exact List.forall_mem_append.mpr ⟨hl, List.forall_mem_cons.mpr ⟨hs, ih hls⟩⟩

theorem leads_target (t : Target) : ∀ p ∈ target t, p.Leads := by
  obtain ⟨schema, table⟩ := t
  cases schema with
  | none => exact List.forall_mem_singleton.mpr (.quoted table)
  | some s =>
    exact List.forall_mem_cons.mpr ⟨.quoted s, List.forall_mem_cons.mpr
      ⟨.text (by decide), List.forall_mem_singleton.mpr (.quoted table)⟩⟩

theorem leads_columns (c : Columns) : ∀ p ∈ columns c, p.Leads := by
  cases c with
  | all => exact List.forall_mem_singleton.mpr (.text (by decide))
  | named ns =>
    refine forall_join (.text (by decide)) fun l hl => ?_
    obtain ⟨n, -, rfl⟩ := List.mem_map.mp hl
    exact List.forall_mem_singleton.mpr (.quoted n)

theorem leads_assignments (as : List (String × Value)) :
    ∀ p ∈ join ", " (as.map fun a => assignment a.1 a.2), p.Leads := by
  refine forall_join (.text (by decide)) fun l hl => ?_
  obtain ⟨a, -, rfl⟩ := List.mem_map.mp hl
  exact List.forall_mem_cons.mpr ⟨.quoted a.1, List.forall_mem_cons.mpr
    ⟨.text (by decide), List.forall_mem_singleton.mpr (.cell a.1 a.2)⟩⟩

end Layout

namespace Statement
open Layout

/-- What stands in front of the filter. -/
def lead : Statement → Layout
  | select c t .. => .text "SELECT " :: columns c ++ .text " \nFROM " :: Layout.target t
  | count t _ => .text "SELECT count(*) AS count \nFROM " :: Layout.target t
  | update t as .. => .text "UPDATE " :: Layout.target t ++ .text " SET " ::
      join ", " (as.map fun a => assignment a.1 a.2)
  | delete t .. => .text "DELETE FROM " :: Layout.target t
  | insert .. | insertMany .. => []

/-- What stands between that and the words that lead in the filter. -/
def gap : Statement → String
  | select .. | count .. => " \n"
  | _ => " "

/-- What stands behind the filter. -/
def tail (d : Dialect) : Statement → Layout
  | select _ _ _ o take skip => order o ++ pagination d take skip
  | update _ _ _ c | delete _ _ c => returning c
  | _ => []

variable {d : Dialect} {st : Statement}

theorem ofStatement_eq (d : Dialect) (h : st.filter ≠ []) : ofStatement d st =
    st.lead ++ .text (st.gap ++ "WHERE ") :: (conjunction d st.filter ++ st.tail d) := by
  have hfilter : ∀ before (f : Filter), f ≠ [] → Layout.filter d before f =
      .text before :: conjunction d f := by
    intro before f hf
    rw [Layout.filter, if_neg (by simpa using hf)]
  cases st with
  | insert t ns vs c => exact absurd rfl h
  | insertMany t ns rows c => exact absurd rfl h
  | select c t f o take skip =>
    rw [ofStatement, hfilter _ f h]
    simp only [lead, tail, List.append_assoc, List.cons_append]
    rfl
  | count t f =>
    rw [ofStatement, hfilter _ f h]
    simp only [tail, List.append_nil]
    rfl
  | update t as f c =>
    rw [ofStatement, hfilter _ f h]
    simp only [lead, tail, List.append_assoc, List.cons_append]
    rfl
  | delete t f c =>
    rw [ofStatement, hfilter _ f h]
    simp only [lead, tail, List.append_assoc, List.cons_append]
    rfl

theorem leads_lead (st : Statement) : ∀ p ∈ st.lead, p.Leads := by
  cases st with
  | select c t f o take skip =>
    refine List.forall_mem_append.mpr ⟨List.forall_mem_cons.mpr ⟨.text (by decide), leads_columns c⟩,
      List.forall_mem_cons.mpr ⟨.text (by decide), leads_target t⟩⟩
  | count t f => exact List.forall_mem_cons.mpr ⟨.text (by decide), leads_target t⟩
  | update t as f c =>
    refine List.forall_mem_append.mpr ⟨List.forall_mem_cons.mpr ⟨.text (by decide), leads_target t⟩,
      List.forall_mem_cons.mpr ⟨.text (by decide), leads_assignments as⟩⟩
  | delete t f c => exact List.forall_mem_cons.mpr ⟨.text (by decide), leads_target t⟩
  | insert t ns vs c => exact fun _ hp => absurd hp List.not_mem_nil
  | insertMany t ns rows c => exact fun _ hp => absurd hp List.not_mem_nil

/-- In front of a filter there are no places but cells. -/
theorem flatMap_lead {α : Type} {f g : Piece → List α} (ht : ∀ s, f (.text s) = g (.text s))
    (hq : ∀ n, f (.quoted n) = g (.quoted n))
    (hc : ∀ k v, f (.slot (.cell k v)) = g (.slot (.cell k v))) (st : Statement) :
    st.lead.flatMap f = st.lead.flatMap g := by
  refine List.flatMap_congr fun p hp => ?_
  cases leads_lead st p hp with
  | text h => exact ht _
  | quoted n => exact hq n
  | cell key v => exact hc key v

theorem counted_lead (st : Statement) : st.lead.flatMap Piece.counted = [] :=
  (flatMap_lead (g := fun _ => []) (fun _ => rfl) (fun _ => rfl) (fun _ _ => rfl) st).trans
    (List.flatMap_eq_nil_iff.mpr fun _ _ => rfl)

theorem lists_lead (st : Statement) : st.lead.lists = [] :=
  (flatMap_lead (g := fun _ => []) (fun _ => rfl) (fun _ => rfl) (fun _ _ => rfl) st).trans
    (List.flatMap_eq_nil_iff.mpr fun _ _ => rfl)

/-- The words that can stand first behind a filter. -/
def ends : List String :=
  [" RETURNING ", " ORDER BY ", " \n LIMIT ", "\n LIMIT ", "\n LIMIT ALL OFFSET "]

theorem tail_begins (d : Dialect) (st : Statement) :
    st.tail d = [] ∨ ∃ s ∈ ends, ∃ l, st.tail d = .text s :: l := by
  cases st with
  | select c t f o take skip =>
    cases o with
    | cons o os => exact .inr ⟨" ORDER BY ", by decide, _, rfl⟩
    | nil =>
      cases d <;> rcases take with _ | n <;> rcases skip with _ | k
      case postgresql.none.none => exact .inl rfl
      case sqlite.none.none => exact .inl rfl
      all_goals exact .inr ⟨_, by decide, _, rfl⟩
  | update t as f c => exact .inr ⟨" RETURNING ", by decide, _, rfl⟩
  | delete t f c => exact .inr ⟨" RETURNING ", by decide, _, rfl⟩
  | _ => exact .inl rfl

/-- No bounds are set. Only a SELECT can have any. -/
def Unbounded : Statement → Prop
  | select _ _ _ _ take skip => take = none ∧ skip = none
  | _ => True

section Tail

variable {α : Type} {f : Piece → List α} (ht : ∀ s, f (.text s) = []) (hq : ∀ n, f (.quoted n) = [])
include ht hq

/-- Behind a filter there are no places but bounds. -/
theorem flatMap_tail (hb : ∀ n, f (bound n) = []) (st : Statement) : (st.tail d).flatMap f = [] := by
  cases st with
  | select c t g o take skip =>
    rw [tail, List.flatMap_append, flatMap_order ht hq, List.nil_append]
    cases d <;> cases take <;> cases skip <;> simp [pagination, ht, hb]
  | update t as g c => exact flatMap_returning ht hq c
  | delete t g c => exact flatMap_returning ht hq c
  | _ => rfl

theorem flatMap_unbounded (h : st.Unbounded) : (st.tail d).flatMap f = [] := by
  cases st with
  | select c t g o take skip =>
    obtain ⟨rfl, rfl⟩ := h
    rw [tail, List.flatMap_append, flatMap_order ht hq]
    cases d <;> rfl
  | update t as g c => exact flatMap_returning ht hq c
  | delete t g c => exact flatMap_returning ht hq c
  | _ => rfl

end Tail

theorem lists_tail (d : Dialect) (st : Statement) : (st.tail d).lists = [] :=
  flatMap_tail (fun _ => rfl) (fun _ => rfl) (fun _ => rfl) st

theorem cellKeys_tail (d : Dialect) (st : Statement) : (st.tail d).cellKeys = [] :=
  flatMap_tail (fun _ => rfl) (fun _ => rfl) (fun _ => rfl) st

/-- There are two bounds at most, which are counted under one base. -/
theorem counted_tail (d : Dialect) (st : Statement) :
    ∃ k ≤ 2, (st.tail d).flatMap Piece.counted = List.replicate k "param" := by
  have hnone : ∀ c, (returning c).flatMap Piece.counted = [] :=
    flatMap_returning (fun _ => rfl) fun _ => rfl
  cases st with
  | select c t g o take skip =>
    rw [tail, List.flatMap_append, flatMap_order (fun _ => rfl) fun _ => rfl, List.nil_append]
    cases d <;> rcases take with _ | n <;> rcases skip with _ | m
    case postgresql.none.none => exact ⟨0, by omega, rfl⟩
    case sqlite.none.none => exact ⟨0, by omega, rfl⟩
    case postgresql.none.some => exact ⟨1, by omega, rfl⟩
    case postgresql.some.none => exact ⟨1, by omega, rfl⟩
    all_goals exact ⟨2, le_rfl, rfl⟩
  | update t as g c => exact ⟨0, by omega, hnone c⟩
  | delete t g c => exact ⟨0, by omega, hnone c⟩
  | _ => exact ⟨0, by omega, rfl⟩

end Statement
end TableQuery
