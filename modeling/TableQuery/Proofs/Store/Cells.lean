import TableQuery.Handle.Store

/-! The cells that stand in a value. What a value shows depends on no others. -/

namespace TableQuery
namespace Value

mutual

/-- The cells that stand in a value itself, and not only within other cells. -/
def cells : Value → List Nat
  | list xs | tuple xs | sequence _ xs | set xs => cellsOfAll xs
  | map es | frozen es => cellsOfEntries es
  | sort c d => cells c ++ cells d
  | condition c _ => cellsOfCondition c
  | record _ fs gs => cellsOfFields fs ++ cellsOfFields gs
  | shared n => [n]
  | _ => []

def cellsOfAll : List Value → List Nat
  | [] => []
  | x :: xs => cells x ++ cellsOfAll xs

def cellsOfEntries : List (Value × Value) → List Nat
  | [] => []
  | (k, v) :: es => cells k ++ cells v ++ cellsOfEntries es

def cellsOfFields : List (String × Value) → List Nat
  | [] => []
  | (_, v) :: fs => cells v ++ cellsOfFields fs

def cellsOfCondition : Condition Value → List Nat
  | .base _ => []
  | .comparison _ _ v | .like _ _ v _ | .membership _ v | .nullCheck _ _ v => cells v

end

section Congruence

variable {f g : Nat → Value}

mutual

/-- Values that are filled alike where they have cells come out the same. -/
theorem fill_congr : (v : Value) → (∀ n ∈ v.cells, f n = g n) → v.fill f = v.fill g
  | list xs, h => congrArg list (fillAll_congr xs h)
  | tuple xs, h => congrArg tuple (fillAll_congr xs h)
  | sequence t xs, h => congrArg (sequence t) (fillAll_congr xs h)
  | set xs, h => congrArg set (fillAll_congr xs h)
  | map es, h => congrArg map (fillEntries_congr es h)
  | frozen es, h => congrArg frozen (fillEntries_congr es h)
  | sort c d, h => by
    obtain ⟨hc, hd⟩ := List.forall_mem_append.mp h
    rw [fill, fill, fill_congr c hc, fill_congr d hd]
  | condition c gv, h => congrArg (condition · gv) (fillCondition_congr c h)
  | record m fs gs, h => by
    obtain ⟨hf, hg⟩ := List.forall_mem_append.mp h
    rw [fill, fill, fillFields_congr fs hf, fillFields_congr gs hg]
  | shared n, h => h n (List.mem_singleton_self n)
  | none, _ | bool _, _ | int _, _ | float _, _ | str _, _ | bytes _, _ | token _, _ => rfl

theorem fillAll_congr : (xs : List Value) → (∀ n ∈ cellsOfAll xs, f n = g n) →
    fillAll f xs = fillAll g xs
  | [], _ => rfl
  | x :: xs, h => by
    obtain ⟨hx, hxs⟩ := List.forall_mem_append.mp h
    rw [fillAll, fillAll, fill_congr x hx, fillAll_congr xs hxs]

theorem fillEntries_congr : (es : List (Value × Value)) → (∀ n ∈ cellsOfEntries es, f n = g n) →
    fillEntries f es = fillEntries g es
  | [], _ => rfl
  | (k, v) :: es, h => by
    obtain ⟨hkv, hes⟩ := List.forall_mem_append.mp h
    obtain ⟨hk, hv⟩ := List.forall_mem_append.mp hkv
    rw [fillEntries, fillEntries, fill_congr k hk, fill_congr v hv, fillEntries_congr es hes]

theorem fillFields_congr : (fs : List (String × Value)) → (∀ n ∈ cellsOfFields fs, f n = g n) →
    fillFields f fs = fillFields g fs
  | [], _ => rfl
  | (k, v) :: fs, h => by
    obtain ⟨hv, hfs⟩ := List.forall_mem_append.mp h
    rw [fillFields, fillFields, fill_congr v hv, fillFields_congr fs hfs]

theorem fillCondition_congr : (c : Condition Value) → (∀ n ∈ cellsOfCondition c, f n = g n) →
    fillCondition f c = fillCondition g c
  | .base _, _ => rfl
  | .comparison c o v, h => congrArg (Condition.comparison c o) (fill_congr v h)
  | .like c o v m, h => congrArg (Condition.like c o · m) (fill_congr v h)
  | .membership c v, h => congrArg (Condition.membership c) (fill_congr v h)
  | .nullCheck c o v, h => congrArg (Condition.nullCheck c o) (fill_congr v h)

end

end Congruence

theorem mem_cellsOfAll {xs : List Value} {n : Nat} :
    n ∈ cellsOfAll xs ↔ ∃ x ∈ xs, n ∈ x.cells := by
  induction xs with
  | nil => simp [cellsOfAll]
  | cons x xs ih => simp [cellsOfAll, ih]

theorem mem_cellsOfEntries {es : List (Value × Value)} {n : Nat} :
    n ∈ cellsOfEntries es ↔ ∃ e ∈ es, n ∈ e.1.cells ∨ n ∈ e.2.cells := by
  induction es with
  | nil => simp [cellsOfEntries]
  | cons e es ih =>
    obtain ⟨k, v⟩ := e
    simp [cellsOfEntries, ih, or_assoc]

/-- Texts have nothing in them. -/
theorem cells_of_text {v : Value} (h : v.text?.isSome) : v.cells = [] := by
  cases v with
  | str _ | token _ => rfl
  | _ => cases h

theorem cells_of_mem_entries {v : Value} {es : List (Value × Value)} (h : v.entries? = some es)
    {n : Nat} : n ∈ v.cells ↔ ∃ e ∈ es, n ∈ e.1.cells ∨ n ∈ e.2.cells := by
  cases v with
  | map _ | frozen _ => cases h; exact mem_cellsOfEntries
  | _ => cases h

theorem mem_cellsOfFields {fs : List (String × Value)} {n : Nat} :
    n ∈ cellsOfFields fs ↔ ∃ f ∈ fs, n ∈ f.2.cells := by
  induction fs with
  | nil => simp [cellsOfFields]
  | cons f fs ih => simp [cellsOfFields, ih]

/-- A name with a value beside it. -/
theorem cells_pair (s : String) (v : Value) : (tuple [str s, v]).cells = v.cells := by
  simp [cells, cellsOfAll]

/-- The parts of a condition are texts, but for its value. -/
theorem cells_of_mem_parts {c : Condition Value} {p : String × Value} (hp : p ∈ c.parts str none)
    {n : Nat} (hn : n ∈ p.2.cells) : n ∈ cellsOfCondition c := by
  have htext : ∀ s, n ∉ (str s).cells := fun s => List.not_mem_nil
  cases c with
  | like f o v m =>
    simp only [Condition.parts, List.mem_cons, List.not_mem_nil, or_false] at hp
    rcases hp with rfl | rfl | rfl | rfl
    · exact absurd hn (htext _)
    · exact absurd hn (htext _)
    · exact hn
    · cases m <;> exact absurd hn List.not_mem_nil
  | base f =>
    cases List.mem_singleton.mp hp
    exact absurd hn (htext f)
  | comparison f _ v | membership f v | nullCheck f _ v =>
    simp only [Condition.parts, List.mem_cons, List.not_mem_nil, or_false] at hp
    rcases hp with rfl | rfl | rfl
    · exact absurd hn (htext _)
    · exact absurd hn (htext _)
    · exact hn

/-- What going through a value gives has no cells that the value does not have. -/
theorem cells_of_mem_iterate {v x : Value} {xs : List Value} (h : v.iterate? = some xs)
    (hx : x ∈ xs) {n : Nat} (hn : n ∈ x.cells) : n ∈ v.cells := by
  cases v with
  | list _ | tuple _ | sequence _ _ | set _ =>
    cases h
    exact mem_cellsOfAll.mpr ⟨x, hx, hn⟩
  | map _ | frozen _ =>
    cases h
    obtain ⟨e, he, rfl⟩ := List.mem_map.mp hx
    exact mem_cellsOfEntries.mpr ⟨e, he, .inl hn⟩
  | sort c d =>
    cases h
    simp only [List.mem_cons, List.not_mem_nil, or_false] at hx
    rcases hx with rfl | rfl
    · exact List.mem_append_left _ hn
    · exact List.mem_append_right _ hn
  | bytes b =>
    cases h
    obtain ⟨o, -, rfl⟩ := List.mem_map.mp hx
    exact hn
  | condition c _ =>
    cases h
    obtain ⟨p, hp, rfl⟩ := List.mem_map.mp hx
    rw [cells_pair] at hn
    exact cells_of_mem_parts hp hn
  | record m fs gs =>
    cases h
    obtain ⟨p, hp, rfl⟩ := List.mem_map.mp hx
    rw [cells_pair] at hn
    rcases List.mem_append.mp hp with hp | hp
    · exact List.mem_append_left _ (mem_cellsOfFields.mpr ⟨p, hp, hn⟩)
    · exact List.mem_append_right _ (mem_cellsOfFields.mpr ⟨p, hp, hn⟩)
  | str s =>
    cases h
    obtain ⟨c, -, rfl⟩ := List.mem_map.mp hx
    exact hn
  | token t =>
    have ht : (token t).text?.map (fun s => s.toList.map fun c => str (String.singleton c)) =
      some xs := h
    obtain ⟨s, -, rfl⟩ := Option.map_eq_some_iff.mp ht
    obtain ⟨c, -, rfl⟩ := List.mem_map.mp hx
    exact hn
  | none | bool _ | int _ | float _ | shared _ => cases h

theorem iterate?_of_items? {v : Value} {xs : List Value} (h : v.items? = some xs) : v.iterate? = some xs := by
  cases v with
  | list _ | tuple _ | sort _ _ => exact h
  | _ => cases h

end Value
end TableQuery
