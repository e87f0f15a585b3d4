import TableQuery.Proofs.Handle.Copied
import TableQuery.Proofs.Naming
import TableQuery.Proofs.Schema.Frozen
import TableQuery.Proofs.Store.Shape

/-! What holds of every handle that a client hands out, and of every handle that a chain call makes of
one: its name is one under its own rules, its bounds are bounds, and what it keeps cannot be changed in
the layers that were copied. -/

namespace TableQuery

namespace Filter

/-- What a handle keeps of a filter: a mapping that nobody can change, a tuple whose mappings nobody can
change, or what is no mapping, list or tuple at all. -/
inductive Kept : Value → Prop
  | mapping (es : List (Value × Value)) : Kept (.frozen es)
  | sequence {xs : List Value} (frozen : ∀ x ∈ xs, x.isMapping = true → ∃ es, x = .frozen es) :
    Kept (.tuple xs)
  | other {v : Value} (mapping : v.isMapping = false) (items : v.items? = none) : Kept v

end Filter

/-- A handle of which every part is what it should be. Its order is a tuple whatever it was given, and the
mappings in it are copies. -/
structure Handle.Sound (h : Handle) : Prop where
  trimmed : Text.trim h.name = h.name
  named : h.name ≠ ""
  valid : h.rules.name? (.str h.name) = some h.name
  skip : ∀ w, h.state.skip = some w → ∃ n : Int, w = .int n ∧ 0 ≤ n
  take : ∀ w, h.state.take = some w → ∃ n : Int, w = .int n ∧ 0 < n
  projection : ∀ ps, h.state.projection = some ps → Value.sameAll ps [.str Freeze.allColumns] = false
  order : ∃ xs, ("order_by", Value.tuple xs) ∈ h.state.fields ∧
    ∀ x ∈ xs, x.isMapping = true → ∃ es, x = .map es
  filter : Filter.Kept h.state.filter

namespace Value

variable {f : Nat → Value} {v : Value}

/-! Filling cells leaves a value of the kind that it is. -/

theorem isMapping_fill (hv : Store.asCell? v = .none) : (v.fill f).isMapping = v.isMapping := by
  cases v with
  | shared n => cases hv
  | _ => rfl

theorem items?_fill (hv : Store.asCell? v = .none) (hi : v.items? = .none) :
    (v.fill f).items? = .none := by
  cases v with
  | shared n => cases hv
  | list xs | tuple xs => cases hi
  | sort c d => cases hi
  | _ => rfl

theorem same_fill_str (hv : Store.asCell? v = .none) (s : String) :
    same (v.fill f) (.str s) = same v (.str s) := by
  cases v with
  | shared n => cases hv
  | _ => simp [fill, same, number?]

end Value

namespace Store

variable {s s' : Store}

/-- A value opened once is no cell, and all layers of it are these layers filled. -/
theorem Proper.resolve_eq (hs : s.Proper) (v : Value) :
    asCell? (s.look v) = none ∧ ∃ f, s.resolve v = (s.look v).fill f := by
  cases v with
  | shared n =>
    rcases Nat.lt_or_ge n s.cells.length with hn | hn
    · refine ⟨?_, ?_⟩
      · have hshape := hs.cell hn
        change asCell? (s.cell n) = none
        cases hc : s.cell n with
        | shared m => rw [hc] at hshape; cases hshape
        | _ => rfl
      · obtain ⟨d, hd⟩ : ∃ d, s.cells.length = d + 1 := ⟨s.cells.length - 1, by omega⟩
        refine ⟨s.content d, ?_⟩
        change s.content s.cells.length n = _
        rw [hd]
        rfl
    · -- There is no such cell, and nothing is seen in its place.
      have hcell := cell_of_length_le hn
      refine ⟨congrArg asCell? hcell, s.content 0, ?_⟩
      change s.content s.cells.length n = (s.cell n).fill _
      rw [hcell]
      cases hd : s.cells.length with
      | zero => rfl
      | succ d =>
        rw [content, hcell]
        rfl
  | _ => exact ⟨rfl, _, rfl⟩

theorem Proper.isMapping_resolve (hs : s.Proper) (v : Value) :
    (s.resolve v).isMapping = (s.look v).isMapping := by
  obtain ⟨hv, f, hf⟩ := hs.resolve_eq v
  rw [hf, Value.isMapping_fill hv]

theorem Proper.same_resolve_str (hs : s.Proper) (v : Value) (t : String) :
    Value.same (s.resolve v) (.str t) = Value.same v (.str t) := by
  cases v with
  | shared n =>
    obtain ⟨hv, f, hf⟩ := hs.resolve_eq (.shared n)
    rw [hf, Value.same_fill_str hv]
    -- Neither a cell nor the list, the mapping or the nothing in it is a text.
    rcases Nat.lt_or_ge n s.cells.length with hn | hn
    · have hshape := hs.cell hn
      change Value.same (s.cell n) _ = _
      cases hc : s.cell n with
      | list _ | map _ => simp [Value.same, Value.number?]
      | _ => rw [hc] at hshape; cases hshape
    · change Value.same (s.cell n) _ = _
      rw [cell_of_length_le hn]
      simp [Value.same, Value.number?]
  | _ => exact Value.same_fill_str rfl t

theorem Proper.sameAll_resolve (hs : s.Proper) (xs : List Value) (t : String) :
    Value.sameAll (xs.map s.resolve) [.str t] = Value.sameAll xs [.str t] := by
  cases xs with
  | nil => rfl
  | cons x xs =>
    rw [List.map_cons, Value.sameAll, Value.sameAll, hs.same_resolve_str]
    cases xs with
    | nil => rfl
    | cons y xs => rw [List.map_cons, Value.sameAll, Value.sameAll] <;> simp

/-- A member that opens to no mapping is there if it is a cell, where all cells of the whole are. -/
theorem unmapped_item {v x : Value} {xs : List Value} (hv : ∀ n, s.Holds v n → n < s.cells.length)
    (hi : (s.look v).iterate? = some xs) (hx : x ∈ xs) (he : (s.look x).entries? = none) :
    (s.look x).isMapping = false ∧ ∀ n, x = .shared n → n < s.cells.length := by
  refine ⟨by rw [Value.isMapping, he]; rfl, fun n hn => hv n ?_⟩
  have hheld : s.Holds x n := ⟨n, hn ▸ List.mem_singleton_self n, .refl⟩
  exact (holds_of_iterate hi hx hheld).of_look

end Store

/-- What is kept of a filter, with some of it still in cells. An item that is a cell is there, and holds
no mapping. -/
inductive Filter.Retained (s : Store) : Value → Prop
  | mapping (es : List (Value × Value)) : Retained s (.frozen es)
  | sequence {xs : List Value} (items : ∀ x ∈ xs, (∃ es, x = .frozen es) ∨
      (s.look x).isMapping = false ∧ ∀ n, x = .shared n → n < s.cells.length) : Retained s (.tuple xs)
  | other {v : Value} (mapping : v.isMapping = false) (items : v.items? = none)
    (cell : Store.asCell? v = none) : Retained s v

namespace Filter.Retained

variable {s s' : Store} {v : Value}

theorem kept (hs : s.Proper) (h : Retained s v) : Kept (s.resolve v) := by
  cases h with
  | mapping es => exact .mapping _
  | @sequence xs items =>
    change Kept (.tuple (Value.fillAll _ xs))
    rw [Store.fillAll_eq_map]
    refine .sequence fun y hy hm => ?_
    obtain ⟨x, hx, rfl⟩ := List.mem_map.mp hy
    obtain ⟨es, rfl⟩ | ⟨hno, -⟩ := items x hx
    · exact ⟨_, rfl⟩
    · rw [← hs.isMapping_resolve x] at hno
      cases hno.symm.trans hm
  | other mapping items cell =>
    refine .other ?_ (Value.items?_fill cell items)
    rw [Store.resolve, Value.isMapping_fill cell, mapping]

theorem keep (hs : s.Proper) (hk : s.Keeps s') (h : Retained s v) : Retained s' v := by
  cases h with
  | mapping es => exact .mapping es
  | sequence items => exact .sequence fun x hx => (items x hx).imp id (hk.look hs)
  | other mapping items cell => exact .other mapping items cell

/-- A filter that is copied while all of it is there. -/
theorem freeze (hs : s.Proper) (hv : ∀ n, s.Holds v n → n < s.cells.length) :
    Retained s (Freeze.filter s.look v) := by
  rw [Freeze.filter]
  cases he : (s.look v).entries? with
  | some es => exact .mapping es
  | none =>
    cases hi : (s.look v).items? with
    | none =>
      refine .other ?_ hi (hs.resolve_eq v).1
      rw [Value.isMapping, he]
      rfl
    | some xs =>
      refine .sequence fun y hy => ?_
      obtain ⟨x, hx, rfl⟩ := List.mem_map.mp hy
      cases hex : (s.look x).entries? with
      | some es =>
        rw [Freeze.item, hex]
        exact .inl ⟨es, rfl⟩
      | none =>
        rw [Freeze.item, hex]
        exact .inr (Store.unmapped_item hv (Value.iterate?_of_items? hi) hx hex)

end Filter.Retained

/-- An entry of an order as it is kept. One that is a cell is there, and holds no mapping. -/
def Sorting.Retained (s : Store) (x : Value) : Prop :=
  (∃ es, x = .map es) ∨ (s.look x).isMapping = false ∧ ∀ n, x = .shared n → n < s.cells.length

namespace Sorting.Retained

variable {s s' : Store} {x : Value}

theorem kept (hs : s.Proper) (h : Retained s x) (hm : (s.resolve x).isMapping = true) :
    ∃ es, s.resolve x = .map es := by
  obtain ⟨es, rfl⟩ | ⟨hno, -⟩ := h
  · exact ⟨_, rfl⟩
  · rw [← hs.isMapping_resolve x] at hno
    cases hno.symm.trans hm

theorem keep (hs : s.Proper) (hk : s.Keeps s') (h : Retained s x) : Retained s' x :=
  h.imp id (hk.look hs)

end Sorting.Retained

/-- The entries of an order that is taken while all of it is there. -/
theorem Freeze.retained_of_order {s : Store} {v : Value} {xs : List Value}
    (hv : ∀ n, s.Holds v n → n < s.cells.length) (h : Freeze.order s.look v = .ok xs) :
    ∀ x ∈ xs, Sorting.Retained s x := by
  rw [Freeze.order] at h
  split at h
  · cases h
    exact fun x hx => absurd hx List.not_mem_nil
  · split at h
    · rename_i hsingle
      cases h
      intro x hx
      obtain rfl := List.mem_singleton.mp hx
      cases hl : s.look v with
      | map es | frozen es => exact .inl ⟨es, rfl⟩
      | sort c d | tuple xs => exact .inr ⟨rfl, fun n hn => by cases hn⟩
      | _ => rw [hl] at hsingle; cases hsingle
    · obtain ⟨ws, hws, h⟩ := Outcome.bind_eq_ok.mp h
      cases Outcome.pure_eq_ok.mp h
      have hi := Handle.iterate_eq_ok hws
      intro x hx
      obtain ⟨w, hw, rfl⟩ := List.mem_map.mp hx
      cases he : (s.look w).entries? with
      | some es =>
        rw [Freeze.orderItem, he]
        exact .inl ⟨es, rfl⟩
      | none =>
        rw [Freeze.orderItem, he]
        exact .inr (Store.unmapped_item hv hi hw he)

namespace Pagination

variable {v : Value} {n : Int}

theorem count?_eq_some {least : Int} (h : count? least v = some n) : least ≤ n := by
  cases v with
  | int m =>
    rw [count?] at h
    split at h
    · cases h
      assumption
    · cases h
  | _ => cases h

theorem skip_eq_ok (h : skip v = .ok (some n)) : 0 ≤ n := by
  rw [skip] at h
  split at h
  · exact count?_eq_some (Except.ok.inj h)
  · cases h

theorem take_eq_ok (h : take v = .ok (some n)) : 0 < n := by
  rw [take] at h
  split at h
  · exact count?_eq_some (Except.ok.inj h)
  · cases h

end Pagination

theorem Freeze.projection_eq_ok {s : Store} {v : Value} {ps : List Value}
    (h : projection s.look v = .ok (some ps)) : Value.sameAll ps [.str allColumns] = false := by
  rw [projection] at h
  split at h
  · cases h
  · rename_i hno
    split at h
    · cases h
      rw [Value.sameAll, Value.sameAll, Bool.and_true]
      exact (Bool.or_eq_false_iff.mp (Bool.eq_false_of_not_eq_true hno)).2
    · obtain ⟨xs, -, h⟩ := Outcome.bind_eq_ok.mp h
      have h := Outcome.pure_eq_ok.mp h
      split at h
      · cases h
      · rename_i hne
        cases h
        exact Bool.eq_false_of_not_eq_true hne

namespace Handle

/-- A handle of which every part is what it should be, with some of them still in cells. -/
structure Formed (s : Store) (h : Handle) : Prop where
  valid : h.rules.name? (.str h.name) = some h.name
  skip : ∀ w, h.state.skip = some w → ∃ n : Int, w = .int n ∧ 0 ≤ n
  take : ∀ w, h.state.take = some w → ∃ n : Int, w = .int n ∧ 0 < n
  projection : ∀ ps, h.state.projection = some ps → Value.sameAll ps [.str Freeze.allColumns] = false
  order : ∀ x ∈ h.state.order, Sorting.Retained s x
  filter : Filter.Retained s h.state.filter

namespace Formed

variable {s s' : Store} {h h' : Handle}

theorem sound (hs : s.Proper) (hf : h.Formed s) : (h.current s).Sound where
  trimmed := Naming.trim_of_name? hf.valid
  named := Query.name_ne_empty hf.valid
  valid := hf.valid
  skip := hf.skip
  take := hf.take
  projection := by
    intro ps hps
    obtain ⟨xs, hxs, rfl⟩ := Option.map_eq_some_iff.mp hps
    rw [hs.sameAll_resolve]
    exact hf.projection xs hxs
  order := by
    refine ⟨(h.current s).state.order, by simp [State.fields], fun y hy hm => ?_⟩
    obtain ⟨x, hx, rfl⟩ := List.mem_map.mp hy
    exact (hf.order x hx).kept hs hm
  filter := hf.filter.kept hs

/-- Whatever becomes of the cells, a handle stays well formed as long as they stay what they are. -/
theorem keep (hs : s.Proper) (hk : s.Keeps s') (hf : h.Formed s) : h.Formed s' :=
  { hf with order := fun x hx => (hf.order x hx).keep hs hk, filter := hf.filter.keep hs hk }

/-- A handle that nothing has been asked of yet. -/
theorem new {rules : Naming} {v : Value} {n : String} (hn : rules.name? v = some n)
    (model : Option Schema.Overlay) : Formed s { rules, state := { table := n }, model } where
  valid := Naming.name?_of_name? hn
  skip := nofun
  take := nofun
  projection := nofun
  order := nofun
  filter := .other rfl rfl rfl

/-- A chain call that is accepted makes a well-formed handle of one. -/
theorem apply {c : Call} (hs : s.Proper) (hc : ∀ n, s.Holds c.argument n → n < s.cells.length)
    (hf : h.Formed s) (ha : h.apply s c = .ok h') : h'.Formed s := by
  cases c with
  | select v =>
    obtain ⟨ps, hps, ha⟩ := Outcome.bind_eq_ok.mp ha
    cases Outcome.pure_eq_ok.mp ha
    refine { hf with projection := fun xs hxs => ?_ }
    cases hxs
    exact Freeze.projection_eq_ok hps
  | filter v =>
    obtain ⟨-, -, ha⟩ := Outcome.bind_eq_ok.mp ha
    cases Outcome.pure_eq_ok.mp ha
    exact { hf with filter := .freeze hs hc }
  | order v =>
    obtain ⟨ws, hws, ha⟩ := Outcome.bind_eq_ok.mp ha
    cases Outcome.pure_eq_ok.mp ha
    exact { hf with order := Freeze.retained_of_order hc hws }
  | skip v =>
    obtain ⟨n, hn, ha⟩ := Outcome.bind_eq_ok.mp ha
    cases Outcome.pure_eq_ok.mp ha
    refine { hf with skip := fun w hw => ?_ }
    obtain ⟨k, rfl, rfl⟩ := Option.map_eq_some_iff.mp hw
    exact ⟨k, rfl, Pagination.skip_eq_ok hn⟩
  | take v =>
    obtain ⟨n, hn, ha⟩ := Outcome.bind_eq_ok.mp ha
    cases Outcome.pure_eq_ok.mp ha
    refine { hf with take := fun w hw => ?_ }
    obtain ⟨k, rfl, rfl⟩ := Option.map_eq_some_iff.mp hw
    exact ⟨k, rfl, Pagination.take_eq_ok hn⟩

end Formed
end Handle
end TableQuery
