import TableQuery.Proofs.Handle.Copied
import TableQuery.Proofs.Handle.Preview

/-! A change that a caller makes later is seen by a handle only where it is made to an object below the
layers that were copied. -/

namespace TableQuery
namespace Session

/-- A step that hands over objects that are there and do not contain themselves, or that changes none
of the given cells. -/
def Act.Spares (s : Session) (passed : Set Nat) : Act → Prop
  | .chain _ c => s.store.Settled c.argument
  | .terminal _ _ => True
  | .change v path _ => ∀ n ∈ passed, s.store.target? v path ≠ some n

/-- The cells that were passed, with those that a chain call is given below the copied layers. -/
def Act.passes (s : Session) (passed : Set Nat) : Act → Set Nat
  | .chain _ c => passed ∪ {n | ∃ w ∈ c.nested s.store, s.store.Holds w n}
  | _ => passed

/-- A run that never changes an object that it has passed below the copied layers of an argument. -/
def Spares (x : Behaviour) : Session → Set Nat → List Act → Prop
  | _, _, [] => True
  | s, passed, a :: as => a.Spares s passed ∧ Spares x (s.step x a).2 (a.passes s passed) as

/-- The handles hold none but the given cells. -/
def Within (s : Session) (passed : Set Nat) : Prop :=
  ∀ h ∈ s.handles, h.Settled s.store ∧ ∀ n, h.Holds s.store n → n ∈ passed

variable {x : Behaviour} {s : Session} {passed : Set Nat}

/-- A step that spares what the handles hold leaves each of them as it reads. -/
theorem Within.step (hw : s.Within passed) {a : Act} (ha : a.Spares s passed) :
    (s.step x a).2.Within (a.passes s passed) ∧
      ∀ h ∈ s.handles, h.current (s.step x a).2.store = h.current s.store := by
  obtain ⟨f, he⟩ | ⟨i, c, h, h', rfl, hh, hc, he⟩ | ⟨i, c, h, rfl, -, he⟩ |
    ⟨v, path, c, store, rfl, hc, he⟩ := step_cases x s a
  · rw [he]
    refine ⟨fun h hh => ⟨(hw h hh).1, fun n hn => ?_⟩, fun _ _ => rfl⟩
    cases a with
    | chain => exact .inl ((hw h hh).2 n hn)
    | _ => exact (hw h hh).2 n hn
  · rw [he]
    refine ⟨fun g hg => ?_, fun _ _ => rfl⟩
    rcases List.mem_append.mp hg with hg | hg
    · exact ⟨(hw g hg).1, fun n hn => .inl ((hw g hg).2 n hn)⟩
    · cases List.mem_singleton.mp hg
      refine ⟨Handle.settled_of_apply (hw h hh).1 ha hc, fun n hn => ?_⟩
      exact (Handle.holds_of_apply hc hn).imp ((hw h hh).2 n) id
  · rw [he]
    exact ⟨hw, fun _ _ => rfl⟩
  · rw [he]
    obtain ⟨hl, hcells⟩ := Store.change_cells hc
    -- What a handle holds is there, and is not what is changed.
    have hagree : ∀ h ∈ s.handles, ∀ n, h.Holds s.store n → store.cell n = s.store.cell n := by
      intro h hh n hn
      obtain ⟨v, hv, hvn⟩ := hn
      exact hcells n ((hw h hh).1 v hv n hvn).1 (ha n ((hw h hh).2 n ⟨v, hv, hvn⟩))
    refine ⟨fun h hh => ?_, fun h hh => ?_⟩
    · exact ⟨(hw h hh).1.congr hl (hagree h hh),
        fun n hn => (hw h hh).2 n ((Handle.holds_congr (hagree h hh)).mp hn)⟩
    · exact Handle.current_eq_of_agree (hw h hh).1 hl (hagree h hh)

theorem Within.current_run (hw : s.Within passed) {as : List Act} (ha : Spares x s passed as) :
    ∀ h ∈ s.handles, h.current (s.run x as).store = h.current s.store := by
  induction as generalizing s passed with
  | nil => exact fun _ _ => rfl
  | cons a as ih =>
    intro h hh
    obtain ⟨hw', hcurrent⟩ := hw.step (x := x) ha.1
    exact (ih hw' ha.2 h ((handles_prefix_step x s a).subset hh)).trans (hcurrent h hh)

/-- After a part of the run, the rest of it spares what has been passed by then. -/
theorem Within.run (hw : s.Within passed) {before after : List Act}
    (ha : Spares x s passed (before ++ after)) :
    ∃ passed', (s.run x before).Within passed' ∧ Spares x (s.run x before) passed' after := by
  induction before generalizing s passed with
  | nil => exact ⟨passed, hw, ha⟩
  | cons a before ih => exact ih (hw.step ha.1).1 ha.2

/-- A handle that nothing has been asked of yet holds nothing. -/
theorem within_of_new (hs : ∀ h ∈ s.handles, h.state = { table := h.name }) : s.Within ∅ := by
  have hnone : ∀ h ∈ s.handles, ∀ v ∈ h.parts, v.cells = [] := by
    intro h hh v hv
    rw [Handle.parts, hs h hh] at hv
    cases List.mem_singleton.mp hv
    rfl
  refine fun h hh => ⟨fun v hv n hn => ?_, fun n hn => ?_⟩
  · exact absurd hn (Store.not_holds_of_cells_nil (hnone h hh v hv))
  · obtain ⟨v, hv, hn⟩ := hn
    exact absurd hn (Store.not_holds_of_cells_nil (hnone h hh v hv))

/-- Calls of any handles and changes by the caller, in any order: where none of the changes is made to
an object that a call was given below the copied layers of its argument, every handle that there is at
some point previews the same from then on, in every kind and dialect, and its calls dispatch the same.
The layers that are copied may be changed in any way, and so may whatever is changed only later. -/
theorem changes_unseen (x : Behaviour) (s : Session)
    (hs : ∀ h ∈ s.handles, h.state = { table := h.name }) (before after : List Act)
    (ha : Spares x s ∅ (before ++ after)) :
    let earlier := s.run x before
    let later := s.run x (before ++ after)
    ∀ h ∈ earlier.handles, h ∈ later.handles ∧
      (∀ e kind data dialect, Handle.preview e (h.current later.store) kind data dialect =
        Handle.preview e (h.current earlier.store) kind data dialect) ∧
      ∀ t, (h.current later.store).statement t = (h.current earlier.store).statement t := by
  intro earlier later h hh
  -- By then the handles hold nothing but what was passed, and the rest of the run spares that.
  obtain ⟨passed, hw, hrest⟩ := (within_of_new hs).run ha
  have hlater : later = earlier.run x after := run_append before after
  have hcurrent : h.current later.store = h.current earlier.store := by
    rw [hlater]
    exact hw.current_run hrest h hh
  refine ⟨?_, fun e kind data dialect => by rw [hcurrent], fun t => by rw [hcurrent]⟩
  rw [hlater]
  exact (handles_prefix_run x earlier after).subset hh

/-- A list of identifiers in a condition in a list, and a handle that nothing has been asked of yet. -/
def listedIds : Session where
  store := ⟨[.list [.int 1, .int 2],
    .map [(.str "field", .str "id"), (.str "operator", .str "IN"), (.str "value", .shared 0)],
    .list [.shared 1]]⟩
  handles := [{ rules := {}, state := { table := "t" } }]

theorem listedIds_descending : ∀ n m, listedIds.store.Contains n m → m < n := by
  intro n m h
  have hall : ∀ n < 3, ∀ m ∈ (listedIds.store.cell n).cells, m < n := by decide +kernel
  exact hall n h.lt_length m h

/-- Below the copied layers there is the list of identifiers only. -/
theorem listedIds_nested {n : Nat} (hn : n ∈ Act.passes listedIds ∅ (.chain 0 (.filter (.shared 2)))) :
    n = 0 := by
  rcases hn with hn | ⟨w, hw, hn⟩
  · cases hn
  · have hzero : ∀ w ∈ (Handle.Call.filter (.shared 2)).nested listedIds.store,
        ∀ m ∈ w.cells, m = 0 := by decide +kernel
    obtain ⟨m, hm, hle⟩ := hn.le_of_descending listedIds_descending
    rw [hzero w hw m hm] at hle
    exact Nat.le_zero.mp hle

/-- Another operator in the condition, and one more condition in the list. -/
theorem changes_unseen_condition :
    let x : Behaviour := ⟨fun _ => .ok [], fun _ => .ok .none⟩
    let before : List Act := [.chain 0 (.filter (.shared 2))]
    let after : List Act := [.change (.shared 2) [.int 0] (.put (.str "operator") (.str "=")),
      .change (.shared 2) [] (.append .none)]
    let earlier := listedIds.run x before
    let later := listedIds.run x (before ++ after)
    (∀ h ∈ listedIds.handles, h.state = { table := h.name }) ∧
    Spares x listedIds ∅ (before ++ after) ∧
    later.store.cells = [.list [.int 1, .int 2],
      .map [(.str "field", .str "id"), (.str "operator", .str "="), (.str "value", .shared 0)],
      .list [.shared 1, .none]] ∧
    ∃ h ∈ earlier.handles, ∃ r,
      Handle.preview .recorder (h.current earlier.store) (.str "COUNT") .none none = .ok r ∧
      Handle.preview .recorder (h.current later.store) (.str "COUNT") .none none = .ok r ∧
      r.params.length = 2 := by
  intro x before after earlier later
  have hnew : ∀ h ∈ listedIds.handles, h.state = { table := h.name } := by
    intro h hh
    cases List.mem_singleton.mp hh
    rfl
  have hspares : Spares x listedIds ∅ (before ++ after) := by
    refine ⟨Store.settled_of_descending listedIds_descending ?_, fun n hn => ?_, fun n hn => ?_,
      trivial⟩
    · intro n hn
      cases List.mem_singleton.mp hn
      decide
    · cases listedIds_nested hn
      decide +kernel
    · cases listedIds_nested hn
      decide +kernel
  have hcells : later.store.cells = [.list [.int 1, .int 2],
      .map [(.str "field", .str "id"), (.str "operator", .str "="), (.str "value", .shared 0)],
      .list [.shared 1, .none]] := by
    with_unfolding_all rfl
  obtain ⟨h, hh⟩ : ∃ h, earlier.handles[1]? = some h := ⟨_, rfl⟩
  have hmem : h ∈ earlier.handles := List.mem_of_getElem? hh
  obtain ⟨r, hr, hlen⟩ := Outcome.exists_of_isOk
    (x := Handle.preview .recorder (h.current earlier.store) (.str "COUNT") .none none)
    (p := fun r => r.params.length = 2) (by
      cases hh
      decide +kernel)
  have hsame := (changes_unseen x listedIds hnew before after hspares h hmem).2.1 .recorder
    (.str "COUNT") .none none
  exact ⟨hnew, hspares, hcells, h, hmem, r, hr, hsame.trans hr, hlen⟩

/-- One more identifier in the list within the condition: that layer is not copied. -/
theorem change_of_members_seen :
    let x : Behaviour := ⟨fun _ => .ok [], fun _ => .ok .none⟩
    let before : List Act := [.chain 0 (.filter (.shared 2))]
    let after : List Act := [.change (.shared 2) [.int 0, .str "value"] (.append (.int 3))]
    let earlier := listedIds.run x before
    let later := listedIds.run x (before ++ after)
    ∃ h ∈ earlier.handles, ∃ r r',
      Handle.preview .recorder (h.current earlier.store) (.str "SELECT") .none none = .ok r ∧
      Handle.preview .recorder (h.current later.store) (.str "SELECT") .none none = .ok r' ∧
      r.params.length = 2 ∧ r'.params.length = 3 := by
  intro x before after earlier later
  obtain ⟨h, hh⟩ : ∃ h, earlier.handles[1]? = some h := ⟨_, rfl⟩
  obtain ⟨r, hr, hlen⟩ := Outcome.exists_of_isOk
    (x := Handle.preview .recorder (h.current earlier.store) (.str "SELECT") .none none)
    (p := fun r => r.params.length = 2) (by
      cases hh
      decide +kernel)
  obtain ⟨r', hr', hlen'⟩ := Outcome.exists_of_isOk
    (x := Handle.preview .recorder (h.current later.store) (.str "SELECT") .none none)
    (p := fun r => r.params.length = 3) (by
      cases hh
      decide +kernel)
  exact ⟨h, List.mem_of_getElem? hh, r, r', hr, hr', hlen, hlen'⟩

end Session
end TableQuery
