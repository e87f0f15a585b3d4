import TableQuery.Proofs.Sql.Legible
import TableQuery.Proofs.Sql.Supply

/-! Every value of a place is bound to a parameter. -/

namespace TableQuery
namespace Binding

theorem singles_labels {l : Layout} {ps : List Named} (h : List.Forall₂ Labels l ps)
    (byColumn : Bool) : (values byColumn ps).map Prod.snd = l.singles := by
  induction h with
  | nil => rfl
  | cons hp _ ih =>
    cases hp with
    | cell v fit => exact congrArg (v :: ·) ih
    | operand v cast fit => exact congrArg (v :: ·) ih
    | _ => exact ih

/-- A list whose name comes up has its members bound. -/
theorem Expands.memberValues_subset {d : Dialect} {known taken done names : List String}
    {lists : List (String × List Value)} {texts : List (String × String)}
    {ms : List (String × Value)} (h : Expands d known lists taken done names texts ms)
    {x : String} {vs : List Value} (hx : x ∈ names) (hd : x ∉ done)
    (hl : lists.lookup x = some vs) : memberValues vs ⊆ ms.map Prod.snd := by
  induction h with
  | nil => cases hx
  | passed _ pass _ ih =>
    refine ih ((List.mem_cons.mp hx).resolve_left ?_) hd
    rintro rfl
    rcases pass with hdone | hnone
    · exact hd hdone
    · cases hl.symm.trans hnone
  | @list _ _ _ _ y _ _ _ _ _ _ _ found expanded _ ih =>
    rw [List.map_append]
    by_cases hxy : x = y
    · subst hxy
      cases hl.symm.trans found
      rw [(values_members (expand_eq_ok expanded).1).1]
      exact List.subset_append_left ..
    · refine List.subset_append_of_subset_right _ (ih ((List.mem_cons.mp hx).resolve_left hxy) ?_)
      exact fun hm => (List.mem_cons.mp hm).elim hxy hd

end Binding

namespace Layout
open Binding

theorem mem_values {l : Layout} {v : Value} (h : v ∈ l.values) :
    v ∈ l.singles ∨ ∃ vs ∈ l.lists, v ∈ memberValues vs := by
  obtain ⟨p, hp, hv⟩ := List.mem_flatMap.mp h
  cases p with
  | text s => cases hv
  | quoted n => cases hv
  | slot s =>
    cases s with
    | cell key w => exact .inl (List.mem_flatMap.mpr ⟨_, hp, hv⟩)
    | operand base w cast => exact .inl (List.mem_flatMap.mpr ⟨_, hp, hv⟩)
    | members base vs =>
      exact .inr ⟨vs, List.mem_flatMap.mpr ⟨_, hp, List.mem_singleton_self vs⟩, hv⟩

/-- The values of all places are among the parameters. Where places have no names, lists are found by
the marks in the text, which have to be legible. -/
theorem mem_params {d : Dialect} {l : Layout} {r : Rendered} (hr : l.Regular)
    (hl : d = .sqlite → l.Legible d) (h : l.render d = .ok r) :
    ∀ v ∈ l.values, v ∈ r.params.map Prod.snd := by
  intro v hv
  obtain ⟨⟨ps, n⟩, hps, h⟩ := Outcome.bind_eq_ok.mp h
  obtain ⟨hlabels, ht, hnd⟩ := nameAll_eq_ok hps List.nodup_nil
  have hlists := memberLists_labels hlabels
  rcases write_eq_ok h with ⟨hnone, rfl⟩ | ⟨hsome, texts, ms, sql, htexts, -, rfl⟩
  · rw [singles_labels hlabels]
    refine (mem_values hv).resolve_right ?_
    rintro ⟨vs, hvs, -⟩
    rw [← hlists, hnone] at hvs
    cases hvs
  · have hnames : (settle d ps).2 = ps.filterMap (·.name?) := by
      cases d with
      | postgresql => rfl
      | sqlite => rw [settle_eq fun hd => (hl hd).own hr (.inl hd) hlabels]
    have hn : (ps.filterMap (·.name?)).Nodup := by
      rw [ht, List.append_nil] at hnd
      exact List.nodup_reverse.mp hnd
    rw [List.map_append, singles_labels hlabels]
    rcases mem_values hv with hv | ⟨vs, hvs, hv⟩
    · exact List.mem_append_left _ hv
    · rw [← hlists] at hvs
      obtain ⟨⟨x, us⟩, hxs, rfl⟩ := List.mem_map.mp hvs
      obtain ⟨q, hq, hqx⟩ := List.mem_filterMap.mp hxs
      cases q with
      | members y ws =>
        cases hqx
        have hlookup := lookup_memberLists hn hq rfl
        have hx : x ∈ (settle d ps).2 := by
          rw [hnames]
          exact List.mem_filterMap.mpr ⟨_, hq, rfl⟩
        exact List.mem_append_right _
          (htexts.memberValues_subset hx List.not_mem_nil hlookup hv)
      | _ => cases hqx

end Layout
end TableQuery
