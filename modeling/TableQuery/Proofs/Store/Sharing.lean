import Mathlib.Data.Finset.Card
import Mathlib.Logic.Relation
import TableQuery.Proofs.Store.Cells

/-! Which cells a value is built on, and that it shows the same for as long as these stay as they
are. -/

namespace TableQuery
namespace Store
open Relation

/-- The second cell stands in the first. -/
def Contains (s : Store) (n m : Nat) : Prop := m ∈ (s.cell n).cells

/-- A cell stands in the value, or in one that does, and so on. -/
def Holds (s : Store) (v : Value) (n : Nat) : Prop := ∃ m ∈ v.cells, ReflTransGen s.Contains m n

/-- The cells of the value are there, and none of them contains itself. -/
def Settled (s : Store) (v : Value) : Prop :=
  ∀ n, s.Holds v n → n < s.cells.length ∧ ¬ TransGen s.Contains n n

variable {s s' : Store} {v : Value} {n m : Nat}

theorem cell_of_length_le (h : s.cells.length ≤ n) : s.cell n = .none := by
  rw [cell, List.getD_eq_getElem?_getD, List.getElem?_eq_none h, Option.getD_none]

theorem Contains.lt_length (h : s.Contains n m) : n < s.cells.length := by
  by_contra hn
  rw [Contains, cell_of_length_le (Nat.le_of_not_lt hn)] at h
  exact List.not_mem_nil h

section Depth
open Classical

/-- The cells that are reached from one. -/
noncomputable def reach (s : Store) (n : Nat) : Finset Nat :=
  (Finset.range s.cells.length).filter (ReflTransGen s.Contains n)

theorem mem_reach : m ∈ s.reach n ↔ m < s.cells.length ∧ ReflTransGen s.Contains n m := by
  rw [reach, Finset.mem_filter, Finset.mem_range]

theorem card_reach_le (s : Store) (n : Nat) : (s.reach n).card ≤ s.cells.length := by
  calc (s.reach n).card ≤ (Finset.range s.cells.length).card := Finset.card_filter_le _ _
    _ = s.cells.length := Finset.card_range _

/-- Below a cell that does not contain itself there are fewer cells. -/
theorem card_reach_lt (h : s.Contains n m) (hn : ¬ TransGen s.Contains n n) :
    (s.reach m).card < (s.reach n).card := by
  apply Finset.card_lt_card
  refine Finset.ssubset_iff_subset_ne.mpr ⟨fun k hk => ?_, fun he => ?_⟩
  · obtain ⟨hlt, hmk⟩ := mem_reach.mp hk
    exact mem_reach.mpr ⟨hlt, .head h hmk⟩
  · have hself : n ∈ s.reach m := he ▸ mem_reach.mpr ⟨h.lt_length, .refl⟩
    exact hn (TransGen.head' h (mem_reach.mp hself).2)

/-- Looking deeper than there are cells to be reached shows nothing new. -/
theorem content_stable {depth : Nat} (hn : ∀ m, ReflTransGen s.Contains n m → ¬ TransGen s.Contains m m)
    (hd : (s.reach n).card ≤ depth) {deeper : Nat} (hle : depth ≤ deeper) :
    s.content deeper n = s.content depth n := by
  induction depth generalizing n deeper with
  | zero =>
    -- A cell that reaches nothing is not there at all, not even itself.
    have hlen : s.cells.length ≤ n := by
      by_contra hlt
      have hmem : n ∈ s.reach n := mem_reach.mpr ⟨Nat.lt_of_not_le hlt, .refl⟩
      exact absurd (Finset.card_pos.mpr ⟨n, hmem⟩) (by omega)
    cases deeper with
    | zero => rfl
    | succ deeper =>
      change (s.cell n).fill _ = .none
      rw [cell_of_length_le hlen]
      rfl
  | succ depth ih =>
    obtain ⟨deeper, rfl⟩ : ∃ k, deeper = k + 1 := ⟨deeper - 1, by omega⟩
    rw [content, content]
    apply Value.fill_congr
    intro m hm
    have hlt := card_reach_lt hm (hn n .refl)
    exact ih (fun k hk => hn k (.head hm hk)) (by omega) (by omega)

end Depth

theorem Settled.of_mem (h : s.Settled v) (hn : n ∈ v.cells) :
    ∀ m, ReflTransGen s.Contains n m → ¬ TransGen s.Contains m m :=
  fun m hm => (h m ⟨n, hn, hm⟩).2

theorem Holds.of_contains (h : s.Holds v n) (hm : s.Contains n m) : s.Holds v m := by
  obtain ⟨k, hk, hkn⟩ := h
  exact ⟨k, hk, hkn.tail hm⟩

theorem Holds.of_cells {w : Value} (h : s.Holds w n) (hw : ∀ m ∈ w.cells, s.Holds v m) :
    s.Holds v n := by
  obtain ⟨m, hm, hmn⟩ := h
  obtain ⟨k, hk, hkm⟩ := hw m hm
  exact ⟨k, hk, hkm.trans hmn⟩

theorem not_holds_of_cells_nil (h : v.cells = []) : ¬ s.Holds v n := by
  rintro ⟨m, hm, -⟩
  rw [h] at hm
  exact List.not_mem_nil hm

theorem Holds.exists_of_cells {w : Value} {us : List Value} (h : s.Holds w n)
    (hw : ∀ m ∈ w.cells, ∃ u ∈ us, m ∈ u.cells) : ∃ u ∈ us, s.Holds u n := by
  obtain ⟨m, hm, hmn⟩ := h
  obtain ⟨u, hu, hmu⟩ := hw m hm
  exact ⟨u, hu, m, hmu, hmn⟩

theorem holds_of_iterate {w : Value} {xs : List Value} (hv : v.iterate? = some xs) (hw : w ∈ xs)
    (h : s.Holds w n) : s.Holds v n :=
  h.of_cells fun m hm => ⟨m, Value.cells_of_mem_iterate hv hw hm, .refl⟩

/-- What stands in the outer layer of a value stands in the value. -/
theorem Holds.of_look (h : s.Holds (s.look v) n) : s.Holds v n := by
  refine h.of_cells fun m hm => ?_
  cases v with
  | shared k => exact ⟨k, List.mem_singleton_self k, .single hm⟩
  | _ => exact ⟨m, hm, .refl⟩

theorem content_eq_of_agree (h : ∀ n, s.Holds v n → s'.cell n = s.cell n) (depth : Nat)
    (hn : s.Holds v n) : s'.content depth n = s.content depth n := by
  induction depth generalizing n with
  | zero => rfl
  | succ depth ih =>
    rw [content, content, h n hn]
    exact Value.fill_congr _ fun m hm => ih (hn.of_contains hm)

/-- A value shows the same in every store that has grown around its cells. -/
theorem resolve_eq_of_agree (hv : s.Settled v) (hl : s.cells.length ≤ s'.cells.length)
    (h : ∀ n, s.Holds v n → s'.cell n = s.cell n) : s'.resolve v = s.resolve v := by
  apply Value.fill_congr
  intro n hn
  rw [content_eq_of_agree h _ ⟨n, hn, .refl⟩]
  exact content_stable (hv.of_mem hn) (card_reach_le s n) hl

/-- Opening the outer layer first makes no difference. -/
theorem resolve_look (hv : s.Settled v) : s.resolve (s.look v) = s.resolve v := by
  cases v with
  | shared n =>
    change s.content (s.cells.length + 1) n = s.content s.cells.length n
    exact content_stable (hv.of_mem (List.mem_singleton_self n)) (card_reach_le s n) (Nat.le_succ _)
  | _ => rfl

/-- Where the held cells are as they were, the value holds the same ones. -/
theorem holds_congr (h : ∀ n, s.Holds v n → s'.cell n = s.cell n) : s'.Holds v n ↔ s.Holds v n := by
  constructor
  · rintro ⟨m, hm, hmn⟩
    induction hmn with
    | refl => exact ⟨m, hm, .refl⟩
    | @tail a b _ hab ih =>
      rw [Contains, h a ih] at hab
      exact ih.of_contains hab
  · rintro ⟨m, hm, hmn⟩
    refine ⟨m, hm, ?_⟩
    induction hmn with
    | refl => exact .refl
    | @tail a b ha hab ih =>
      refine ih.tail ?_
      rw [Contains, h a ⟨m, hm, ha⟩]
      exact hab

theorem Settled.congr (hv : s.Settled v) (hl : s.cells.length ≤ s'.cells.length)
    (h : ∀ n, s.Holds v n → s'.cell n = s.cell n) : s'.Settled v := by
  intro n hn
  have hheld := (holds_congr h).mp hn
  refine ⟨(hv n hheld).1.trans_le hl, fun hc => ?_⟩
  -- A round trip only meets cells that are held, which contain what they contained before.
  have hback : ∀ {a b}, s.Holds v a → TransGen s'.Contains a b → TransGen s.Contains a b ∧ s.Holds v b := by
    intro a b ha hab
    induction hab with
    | single hab =>
      rw [Contains, h a ha] at hab
      exact ⟨.single hab, ha.of_contains hab⟩
    | @tail c d _ hcd ih =>
      rw [Contains, h c ih.2] at hcd
      exact ⟨ih.1.tail hcd, ih.2.of_contains hcd⟩
  exact (hv n hheld).2 (hback hheld hc).1

/-- Where cells only contain earlier ones, a value holds nothing later than what stands in it. -/
theorem Holds.le_of_descending (hs : ∀ n m, s.Contains n m → m < n) (h : s.Holds v n) :
    ∃ m ∈ v.cells, n ≤ m := by
  obtain ⟨m, hm, hmn⟩ := h
  refine ⟨m, hm, ?_⟩
  induction hmn with
  | refl => exact Nat.le_refl _
  | tail _ hcd ih => exact (hs _ _ hcd).le.trans ih

theorem settled_of_descending (hs : ∀ n m, s.Contains n m → m < n)
    (hv : ∀ n ∈ v.cells, n < s.cells.length) : s.Settled v := by
  intro n hn
  obtain ⟨m, hm, hle⟩ := hn.le_of_descending hs
  refine ⟨hle.trans_lt (hv m hm), fun hc => ?_⟩
  have hlt : ∀ k, TransGen s.Contains n k → k < n := by
    intro k hk
    induction hk with
    | single h => exact hs _ _ h
    | tail _ h ih => exact (hs _ _ h).trans ih
  exact absurd (hlt n hc) (Nat.lt_irrefl n)

end Store
end TableQuery
