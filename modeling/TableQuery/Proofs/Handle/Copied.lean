import TableQuery.Proofs.Handle.Session

/-! What handles keep of their arguments: copies of the outer layers, and below these the caller's own
objects. -/

namespace TableQuery

namespace Store

variable {s : Store} {v w : Value} {n : Nat}

/-- Keys and values of entries. -/
def members (es : List (Value × Value)) : List Value := es.flatMap fun e => [e.1, e.2]

/-- The members of a mapping; any other value by itself. -/
def opened (s : Store) (v : Value) : List Value :=
  match (s.look v).entries? with
  | some es => members es
  | none => [v]

theorem exists_mem_members {es : List (Value × Value)} {m : Nat} :
    (∃ u ∈ members es, m ∈ u.cells) ↔ ∃ e ∈ es, m ∈ e.1.cells ∨ m ∈ e.2.cells := by
  simp only [members, List.mem_flatMap, List.mem_cons, List.not_mem_nil, or_false]
  constructor
  · rintro ⟨u, ⟨e, he, rfl | rfl⟩, hm⟩
    · exact ⟨e, he, .inl hm⟩
    · exact ⟨e, he, .inr hm⟩
  · rintro ⟨e, he, hm | hm⟩
    · exact ⟨e.1, ⟨e, he, .inl rfl⟩, hm⟩
    · exact ⟨e.2, ⟨e, he, .inr rfl⟩, hm⟩

theorem holds_of_members {es : List (Value × Value)} (hv : v.entries? = some es)
    (hw : w ∈ members es) (h : s.Holds w n) : s.Holds v n :=
  h.of_cells fun m hm =>
    ⟨m, (Value.cells_of_mem_entries hv).mpr (exists_mem_members.mp ⟨w, hw, hm⟩), .refl⟩

theorem holds_of_opened (hw : w ∈ s.opened v) (h : s.Holds w n) : s.Holds v n := by
  rw [opened] at hw
  split at hw
  · rename_i es he
    exact (holds_of_members he hw h).of_look
  · cases List.mem_singleton.mp hw
    exact h

end Store

namespace Handle

open Store

/-- What stands in an argument below the layers that are copied: in a projection its members, in a
mapping its keys and values, and in a list of conditions or of sort entries the keys and values of the
mappings in it, and whatever is no mapping. -/
def Call.nested (s : Store) : Call → List Value
  | select v => (s.look v).iterate?.getD []
  | filter v =>
    match (s.look v).entries?, (s.look v).items? with
    | some es, _ => members es
    | none, some xs => xs.flatMap s.opened
    | none, none => [s.look v]
  | order v =>
    if Freeze.isSingleEntry (s.look v) then s.opened (s.look v)
    else ((s.look v).iterate?.getD []).flatMap s.opened
  | skip _ | take _ => []

variable {s : Store} {c : Call} {h h' : Handle} {v w : Value} {n : Nat}

theorem holds_of_nested (hw : w ∈ c.nested s) (hn : s.Holds w n) : s.Holds c.argument n := by
  have hiterate : ∀ v, w ∈ (s.look v).iterate?.getD [] → s.Holds v n := by
    intro v hw
    cases hi : (s.look v).iterate? with
    | none => rw [hi] at hw; cases hw
    | some xs =>
      rw [hi] at hw
      exact (holds_of_iterate hi hw hn).of_look
  cases c with
  | select v => exact hiterate v hw
  | filter v =>
    rw [Call.nested] at hw
    split at hw
    · rename_i es he
      exact (holds_of_members he hw hn).of_look
    · rename_i xs _ hi
      obtain ⟨x, hx, hw⟩ := List.mem_flatMap.mp hw
      exact (holds_of_iterate (Value.iterate?_of_items? hi) hx (holds_of_opened hw hn)).of_look
    · cases List.mem_singleton.mp hw
      exact hn.of_look
  | order v =>
    rw [Call.nested] at hw
    split at hw
    · exact (holds_of_opened hw hn).of_look
    · obtain ⟨x, hx, hw⟩ := List.mem_flatMap.mp hw
      cases hi : (s.look v).iterate? with
      | none => rw [hi] at hx; cases hx
      | some xs =>
        rw [hi] at hx
        exact (holds_of_iterate hi hx (holds_of_opened hw hn)).of_look
  | skip v => cases hw
  | take v => cases hw

/-- A copied mapping has no cells but those of its keys and values. -/
theorem cells_orderItem {m : Nat} (hm : m ∈ (Freeze.orderItem s.look v).cells) :
    ∃ u ∈ s.opened v, m ∈ u.cells := by
  cases he : (s.look v).entries? with
  | some es =>
    rw [Freeze.orderItem, he] at hm
    rw [opened, he]
    exact exists_mem_members.mpr (Value.mem_cellsOfEntries.mp hm)
  | none =>
    rw [Freeze.orderItem, he] at hm
    rw [opened, he]
    exact ⟨v, List.mem_singleton_self v, hm⟩

theorem cells_item {m : Nat} (hm : m ∈ (Freeze.item s.look v).cells) :
    ∃ u ∈ s.opened v, m ∈ u.cells := by
  cases he : (s.look v).entries? with
  | some es =>
    rw [Freeze.item, he] at hm
    rw [opened, he]
    exact exists_mem_members.mpr (Value.mem_cellsOfEntries.mp hm)
  | none =>
    rw [Freeze.item, he] at hm
    rw [opened, he]
    exact ⟨v, List.mem_singleton_self v, hm⟩

theorem cells_filter {m : Nat} (hm : m ∈ (Freeze.filter s.look v).cells) :
    ∃ u ∈ (Call.filter v).nested s, m ∈ u.cells := by
  rw [Freeze.filter] at hm
  rw [Call.nested]
  cases he : (s.look v).entries? with
  | some es =>
    rw [he] at hm
    exact exists_mem_members.mpr (Value.mem_cellsOfEntries.mp hm)
  | none =>
    rw [he] at hm
    cases hi : (s.look v).items? with
    | some xs =>
      rw [hi] at hm
      obtain ⟨w, hw, hm⟩ := Value.mem_cellsOfAll.mp hm
      obtain ⟨x, hx, rfl⟩ := List.mem_map.mp hw
      obtain ⟨u, hu, hm⟩ := cells_item hm
      exact ⟨u, List.mem_flatMap.mpr ⟨x, hx, hu⟩, hm⟩
    | none =>
      rw [hi] at hm
      exact ⟨_, List.mem_singleton_self _, hm⟩

theorem iterate_eq_ok {xs : List Value} (h : Freeze.iterate v = .ok xs) : v.iterate? = some xs := by
  rw [Freeze.iterate] at h
  split at h
  · rename_i ys hys
    cases h
    exact hys
  · cases h

theorem cells_order {ws : List Value} (h : Freeze.order s.look v = .ok ws) (hw : w ∈ ws) {m : Nat}
    (hm : m ∈ w.cells) : ∃ u ∈ (Call.order v).nested s, m ∈ u.cells := by
  rw [Freeze.order] at h
  rw [Call.nested]
  split at h
  · cases h
    cases hw
  · split at h
    · rename_i hsingle
      cases h
      cases List.mem_singleton.mp hw
      rw [if_pos hsingle]
      exact cells_orderItem hm
    · rename_i hsingle
      obtain ⟨xs, hxs, h⟩ := Outcome.bind_eq_ok.mp h
      cases Outcome.pure_eq_ok.mp h
      obtain ⟨x, hx, rfl⟩ := List.mem_map.mp hw
      obtain ⟨u, hu, hm⟩ := cells_orderItem hm
      rw [if_neg hsingle, iterate_eq_ok hxs]
      exact ⟨u, List.mem_flatMap.mpr ⟨x, hx, hu⟩, hm⟩

theorem cells_projection {ws : List Value} (h : Freeze.projection s.look v = .ok (some ws))
    (hw : w ∈ ws) {m : Nat} (hm : m ∈ w.cells) : ∃ u ∈ (Call.select v).nested s, m ∈ u.cells := by
  rw [Freeze.projection] at h
  split at h
  · cases h
  · split at h
    · rename_i htext
      cases h
      cases List.mem_singleton.mp hw
      rw [Value.cells_of_text htext] at hm
      cases hm
    · obtain ⟨xs, hxs, h⟩ := Outcome.bind_eq_ok.mp h
      rw [Call.nested, iterate_eq_ok hxs]
      split at h
      · cases h
      · cases h
        exact ⟨w, hw, hm⟩

/-- A new handle holds what the old one holds, and what stands below the copied layers of the
argument. -/
theorem holds_of_apply (ha : h.apply s c = .ok h') (hn : h'.Holds s n) :
    h.Holds s n ∨ ∃ w ∈ c.nested s, s.Holds w n := by
  obtain ⟨v, hv, hn⟩ := hn
  -- Each part of the new handle is one of the old handle, or was copied from the argument.
  have hold : v ∈ h.parts → h.Holds s n ∨ ∃ w ∈ c.nested s, s.Holds w n :=
    fun hv => .inl ⟨v, hv, hn⟩
  have hnew : (∀ m ∈ v.cells, ∃ u ∈ c.nested s, m ∈ u.cells) →
      h.Holds s n ∨ ∃ w ∈ c.nested s, s.Holds w n := fun hm => .inr (hn.exists_of_cells hm)
  cases c with
  | select a =>
    obtain ⟨ps, hps, ha⟩ := Outcome.bind_eq_ok.mp ha
    cases Outcome.pure_eq_ok.mp ha
    rcases List.mem_append.mp hv with hv | hv
    · cases ps with
      | none => cases hv
      | some ps => exact hnew fun m hm => cells_projection hps hv hm
    · exact hold (List.mem_append_right _ hv)
  | filter a =>
    obtain ⟨-, -, ha⟩ := Outcome.bind_eq_ok.mp ha
    cases Outcome.pure_eq_ok.mp ha
    rcases List.mem_append.mp hv with hv | hv
    · exact hold (List.mem_append_left _ hv)
    · rcases List.mem_cons.mp hv with rfl | hv
      · exact hnew fun m hm => cells_filter hm
      · exact hold (List.mem_append_right _ (List.mem_cons_of_mem _ hv))
  | order a =>
    obtain ⟨ws, hws, ha⟩ := Outcome.bind_eq_ok.mp ha
    cases Outcome.pure_eq_ok.mp ha
    rcases List.mem_append.mp hv with hv | hv
    · exact hold (List.mem_append_left _ hv)
    · rcases List.mem_cons.mp hv with rfl | hv
      · exact hold (List.mem_append_right _ List.mem_cons_self)
      · exact hnew fun m hm => cells_order hws hv hm
  | skip a | take a =>
    obtain ⟨k, -, ha⟩ := Outcome.bind_eq_ok.mp ha
    cases Outcome.pure_eq_ok.mp ha
    exact hold hv

theorem settled_of_apply (hs : h.Settled s) (hc : s.Settled c.argument)
    (ha : h.apply s c = .ok h') : h'.Settled s := by
  intro v hv n hn
  rcases holds_of_apply ha ⟨v, hv, hn⟩ with ⟨u, hu, hn⟩ | ⟨w, hw, hn⟩
  · exact hs u hu n hn
  · exact hc n (holds_of_nested hw hn)

end Handle
end TableQuery
