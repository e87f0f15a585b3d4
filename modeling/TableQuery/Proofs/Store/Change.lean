import TableQuery.Proofs.Outcome
import TableQuery.Proofs.Store.Sharing

/-! What a change does to a store: one cell gets a new content, and the store may grow. -/

namespace TableQuery
namespace Store

theorem prefix_alloc (s : Store) (v : Value) : s.cells <+: (s.alloc v).2.cells :=
  List.prefix_append _ _

mutual

/-- New cells stand behind the old ones. -/
theorem prefix_adopt (s : Store) : (v : Value) → s.cells <+: (s.adopt v).2.cells
  | .list xs => by
    rw [adopt]
    exact (prefix_adoptAll s xs).trans (prefix_alloc _ _)
  | .map es => by
    rw [adopt]
    exact (prefix_adoptEntries s es).trans (prefix_alloc _ _)
  | .tuple xs => by
    rw [adopt]
    exact prefix_adoptAll s xs
  | .sort c d => by
    rw [adopt]
    exact (prefix_adopt s c).trans (prefix_adopt _ d)
  | .condition c _ => by
    rw [adopt]
    exact prefix_adoptCondition s c
  | .none | .bool _ | .int _ | .float _ | .str _ | .bytes _ | .sequence _ _ | .set _ | .frozen _
  | .token _ | .record _ _ _ | .shared _ => List.prefix_rfl

theorem prefix_adoptAll (s : Store) : (xs : List Value) → s.cells <+: (s.adoptAll xs).2.cells
  | [] => List.prefix_rfl
  | x :: xs => by
    rw [adoptAll]
    exact (prefix_adopt s x).trans (prefix_adoptAll _ xs)

theorem prefix_adoptEntries (s : Store) :
    (es : List (Value × Value)) → s.cells <+: (s.adoptEntries es).2.cells
  | [] => List.prefix_rfl
  | (k, v) :: es => by
    rw [adoptEntries]
    exact (prefix_adopt s v).trans (prefix_adoptEntries _ es)

theorem prefix_adoptCondition (s : Store) :
    (c : Condition Value) → s.cells <+: (s.adoptCondition c).2.cells
  | .base _ => List.prefix_rfl
  | .comparison _ _ v | .like _ _ v _ | .membership _ v | .nullCheck _ _ v => by
    rw [adoptCondition]
    exact prefix_adopt s v

end

theorem prefix_adoptChange (s : Store) (c : Change) : s.cells <+: (s.adoptChange c).2.cells := by
  cases c with
  | append x => exact prefix_adopt s x
  | put key x => exact prefix_adopt s x
  | erase key => exact List.prefix_rfl

theorem cell_of_extended {s s' : Store} (h : s.cells <+: s'.cells) {n : Nat}
    (hn : n < s.cells.length) : s'.cell n = s.cell n := by
  obtain ⟨rest, hrest⟩ := h
  rw [cell, cell, List.getD_eq_getElem?_getD, List.getD_eq_getElem?_getD, ← hrest,
    List.getElem?_append_left hn]

theorem cell_set_ne (s : Store) {n m : Nat} (v : Value) (h : m ≠ n) :
    cell ⟨s.cells.set m v⟩ n = s.cell n := by
  rw [cell, cell, List.getD_eq_getElem?_getD, List.getD_eq_getElem?_getD, List.getElem?_set_ne h]

/-- The cell that a value is, if it is one. -/
def asCell? : Value → Option Nat
  | .shared n => some n
  | _ => none

/-- The cell at the end of a path, if there is one. -/
def target? (s : Store) (v : Value) (path : List Value) : Option Nat :=
  (s.walk v (path.map s.resolve)).toOption.bind asCell?

theorem cell_set_self {s : Store} {n : Nat} (v : Value) (h : n < s.cells.length) :
    cell ⟨s.cells.set n v⟩ n = v := by
  rw [cell, List.getD_eq_getElem?_getD, List.getElem?_set_self h, Option.getD_some]

/-- A change finds its target, makes the new part the caller's own, and gives the target the content
that comes of it. -/
theorem change_eq_ok {s s' : Store} {v : Value} {path : List Value} {c : Change}
    (h : s.change v path c = .ok s') :
    (s.target? v path = none ∧ s' = (s.adoptChange c).2) ∨
      ∃ n content, s.target? v path = some n ∧
        (s.adoptChange c).1.on ((s.adoptChange c).2.cell n) = .ok content ∧
        s' = ⟨(s.adoptChange c).2.cells.set n content⟩ := by
  obtain ⟨target, ht, h⟩ := Outcome.bind_eq_ok.mp h
  obtain ⟨content, hon, h⟩ := Outcome.bind_eq_ok.mp h
  have htarget : s.target? v path = asCell? target := by
    rw [target?, ht]
    rfl
  cases target with
  | shared n => exact .inr ⟨n, content, htarget, hon, (Outcome.pure_eq_ok.mp h).symm⟩
  | _ => exact .inl ⟨htarget, (Outcome.pure_eq_ok.mp h).symm⟩

/-- Cells other than the one that is changed stay as they are. -/
theorem change_cells {s s' : Store} {v : Value} {path : List Value} {c : Change}
    (h : s.change v path c = .ok s') : s.cells.length ≤ s'.cells.length ∧
      ∀ n < s.cells.length, s.target? v path ≠ some n → s'.cell n = s.cell n := by
  have hpre := prefix_adoptChange s c
  obtain ⟨-, rfl⟩ | ⟨m, content, hm, -, rfl⟩ := change_eq_ok h
  · exact ⟨hpre.length_le, fun n hn _ => cell_of_extended hpre hn⟩
  · rw [List.length_set]
    refine ⟨hpre.length_le, fun n hn hne => ?_⟩
    rw [cell_set_ne _ content fun he => hne (hm.trans (congrArg some he)), cell_of_extended hpre hn]

end Store
end TableQuery
