import TableQuery.Proofs.Store.Change

/-! Cells are lists and mappings, and whatever a caller does to one, it stays what it is. -/

namespace TableQuery

namespace Value
open Outcome

inductive Shape
  | list | map
deriving DecidableEq, Repr

/-- What a cell can be. -/
def shape? : Value → Option Shape
  | list _ => some .list
  | map _ => some .map
  | _ => .none

theorem isMapping_of_shape {v : Value} {k : Shape} (h : v.shape? = some k) :
    v.isMapping = decide (k = .map) := by
  cases v with
  | list _ | map _ => cases h; rfl
  | _ => cases h

theorem refuseChange_ne_ok {α : Type} {v key : Value} {atPosition elsewhere : String} {a : α} :
    (v.refuseChange key atPosition elsewhere : Outcome α) ≠ .ok a := by
  intro h
  simp only [refuseChange] at h
  split at h
  · obtain ⟨_, -, h⟩ := bind_eq_ok.mp h
    cases h
  · cases h

end Value

namespace Store
open Outcome

/-- Only lists and mappings can be changed, and they stay such. -/
theorem Change.shape_of_on {c : Change} {v w : Value} (h : c.on v = .ok w) :
    ∃ k, v.shape? = some k ∧ w.shape? = some k := by
  cases c with
  | append x =>
    simp only [Change.on, Value.append] at h
    split at h
    · cases h
      exact ⟨.list, rfl, rfl⟩
    · cases h
  | erase key =>
    simp only [Change.on, Value.erase] at h
    split at h
    · obtain ⟨i, -, h⟩ := bind_eq_ok.mp h
      cases pure_eq_ok.mp h
      exact ⟨.list, rfl, rfl⟩
    · obtain ⟨k, -, h⟩ := bind_eq_ok.mp h
      split at h
      · cases pure_eq_ok.mp h
        exact ⟨.map, rfl, rfl⟩
      · cases h
    · exact absurd h Value.refuseChange_ne_ok
  | put key x =>
    simp only [Change.on, Value.put] at h
    split at h
    · obtain ⟨i, -, h⟩ := bind_eq_ok.mp h
      cases pure_eq_ok.mp h
      exact ⟨.list, rfl, rfl⟩
    · obtain ⟨k, -, h⟩ := bind_eq_ok.mp h
      cases pure_eq_ok.mp h
      exact ⟨.map, rfl, rfl⟩
    · exact absurd h Value.refuseChange_ne_ok

/-- Every cell is a list or a mapping. -/
def Proper (s : Store) : Prop := ∀ v ∈ s.cells, v.shape?.isSome

/-- The cells are still there, each as the list or mapping that it was. -/
structure Keeps (s s' : Store) : Prop where
  length : s.cells.length ≤ s'.cells.length
  shape : ∀ n < s.cells.length, (s'.cell n).shape? = (s.cell n).shape?

variable {s s' : Store}

theorem Proper.cell (hs : s.Proper) {n : Nat} (hn : n < s.cells.length) :
    (s.cell n).shape?.isSome := by
  rw [Store.cell, List.getD_eq_getElem?_getD, List.getElem?_eq_getElem hn, Option.getD_some]
  exact hs _ (List.getElem_mem hn)

theorem Keeps.of_extended (h : s.cells <+: s'.cells) : s.Keeps s' :=
  ⟨h.length_le, fun _ hn => congrArg Value.shape? (cell_of_extended h hn)⟩

theorem Keeps.isMapping_cell (hk : s.Keeps s') (hs : s.Proper) {n : Nat} (hn : n < s.cells.length) :
    (s'.cell n).isMapping = (s.cell n).isMapping := by
  obtain ⟨k, hshape⟩ := Option.isSome_iff_exists.mp (hs.cell hn)
  rw [Value.isMapping_of_shape hshape, Value.isMapping_of_shape ((hk.shape n hn).trans hshape)]

/-- What opens to no mapping does not do so later either, if it is there. -/
theorem Keeps.look (hk : s.Keeps s') (hs : s.Proper) {v : Value}
    (h : (s.look v).isMapping = false ∧ ∀ n, v = .shared n → n < s.cells.length) :
    (s'.look v).isMapping = false ∧ ∀ n, v = .shared n → n < s'.cells.length := by
  obtain ⟨hno, hlt⟩ := h
  refine ⟨?_, fun n hn => (hlt n hn).trans_le hk.length⟩
  cases v with
  | shared n => exact (hk.isMapping_cell hs (hlt n rfl)).trans hno
  | _ => exact hno

theorem Proper.alloc (hs : s.Proper) {v : Value} (hv : v.shape?.isSome) : (s.alloc v).2.Proper := by
  intro w hw
  rcases List.mem_append.mp hw with hw | hw
  · exact hs w hw
  · cases List.mem_singleton.mp hw
    exact hv

mutual

/-- What is made a cell is a list or a mapping. -/
theorem Proper.adopt {s : Store} (hs : s.Proper) : (v : Value) → (s.adopt v).2.Proper
  | .list xs => by
    rw [Store.adopt]
    exact (hs.adoptAll xs).alloc rfl
  | .map es => by
    rw [Store.adopt]
    exact (hs.adoptEntries es).alloc rfl
  | .tuple xs => by
    rw [Store.adopt]
    exact hs.adoptAll xs
  | .sort c d => by
    rw [Store.adopt]
    exact (hs.adopt c).adopt d
  | .condition c _ => by
    rw [Store.adopt]
    exact hs.adoptCondition c
  | .none | .bool _ | .int _ | .float _ | .str _ | .bytes _ | .sequence _ _ | .set _ | .frozen _
  | .token _ | .record _ _ _ | .shared _ => hs

theorem Proper.adoptAll {s : Store} (hs : s.Proper) : (xs : List Value) → (s.adoptAll xs).2.Proper
  | [] => hs
  | x :: xs => by
    rw [Store.adoptAll]
    exact (hs.adopt x).adoptAll xs

theorem Proper.adoptEntries {s : Store} (hs : s.Proper) :
    (es : List (Value × Value)) → (s.adoptEntries es).2.Proper
  | [] => hs
  | (k, v) :: es => by
    rw [Store.adoptEntries]
    exact (hs.adopt v).adoptEntries es

theorem Proper.adoptCondition {s : Store} (hs : s.Proper) :
    (c : Condition Value) → (s.adoptCondition c).2.Proper
  | .base _ => hs
  | .comparison _ _ v | .like _ _ v _ | .membership _ v | .nullCheck _ _ v => by
    rw [Store.adoptCondition]
    exact hs.adopt v

end

theorem Proper.adoptChange (hs : s.Proper) (c : Change) : (s.adoptChange c).2.Proper := by
  cases c with
  | append x => exact hs.adopt x
  | put key x => exact hs.adopt x
  | erase key => exact hs

/-- A change to a cell leaves it the list or mapping that it was, and makes no other cells than lists
and mappings. -/
theorem Proper.change (hs : s.Proper) {v : Value} {path : List Value} {c : Change}
    (h : s.change v path c = .ok s') : s'.Proper ∧ s.Keeps s' := by
  have hgrown : (s.adoptChange c).2.Proper := hs.adoptChange c
  have hkeeps : s.Keeps (s.adoptChange c).2 := .of_extended (prefix_adoptChange s c)
  obtain ⟨hnone, rfl⟩ | ⟨n, content, hn, hon, rfl⟩ := change_eq_ok h
  · exact ⟨hgrown, hkeeps⟩
  · generalize (s.adoptChange c).2 = grown at *
    obtain ⟨k, hold, hnew⟩ := Change.shape_of_on hon
    refine ⟨fun w hw => ?_, ?_, fun m hm => ?_⟩
    · rcases List.mem_or_eq_of_mem_set hw with hw | rfl
      · exact hgrown w hw
      · exact Option.isSome_iff_exists.mpr ⟨k, hnew⟩
    · rw [List.length_set]
      exact hkeeps.length
    · rw [← hkeeps.shape m hm]
      by_cases he : n = m
      · subst he
        rw [cell_set_self content (hm.trans_le hkeeps.length), hnew, hold]
      · rw [cell_set_ne grown content he]

end Store
end TableQuery
