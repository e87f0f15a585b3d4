import TableQuery.Proofs.Store.Sharing
import TableQuery.Proofs.Schema.Vouched
import TableQuery.Query.Freeze

/-! A filter that was checked and then copied passes as the filter that was checked does. -/

namespace TableQuery

namespace Store

variable {s : Store} {v : Value}

theorem fillAll_eq_map (content : Nat → Value) (xs : List Value) :
    Value.fillAll content xs = xs.map (Value.fill content) := by
  induction xs with
  | nil => rfl
  | cons x xs ih => rw [Value.fillAll, ih, List.map_cons]

/-- All layers of the entries of a mapping. -/
def resolveEntries (s : Store) (es : List (Value × Value)) : List (Value × Value) :=
  Value.fillEntries (s.content s.cells.length) es

theorem entries?_resolve {es : List (Value × Value)} (h : v.entries? = some es) :
    (s.resolve v).entries? = some (s.resolveEntries es) := by
  cases v with
  | map _ | frozen _ => cases h; rfl
  | _ => cases h

theorem items?_resolve {xs : List Value} (h : v.items? = some xs) :
    (s.resolve v).entries? = none ∧ (s.resolve v).items? = some (xs.map s.resolve) := by
  cases v with
  | list _ | tuple _ => cases h; exact ⟨rfl, congrArg some (fillAll_eq_map _ _)⟩
  | sort c d => cases h; exact ⟨rfl, rfl⟩
  | _ => cases h

theorem Settled.of_holds {w : Value} (hv : s.Settled v) (h : ∀ n, s.Holds w n → s.Holds v n) :
    s.Settled w := fun n hn => hv n (h n hn)

end Store

namespace Filter

/-- An entry as it is kept: itself, or a mapping as a frozen one. -/
inductive Entry.Copy : Entry → Entry → Prop
  | same (e : Entry) : Copy e e
  | frozen {v : Value} {es : List (Value × Value)} (entries : v.entries? = some es) :
    Copy (.condition v) (.condition (.frozen es))

theorem copy_item {s : Store} {v : Value} (hv : s.Settled v) :
    Entry.Copy (.condition (s.resolve v)) (.condition (s.resolve (Freeze.item s.look v))) := by
  cases he : (s.look v).entries? with
  | some es =>
    rw [Freeze.item, he, ← Store.resolve_look hv]
    exact .frozen (Store.entries?_resolve he)
  | none =>
    rw [Freeze.item, he]
    exact .same _

/-- What is kept of a filter has a copy of each entry. -/
theorem copy_filter {s : Store} {v : Value} (hv : s.Settled v) {es : List Entry}
    (h : entries? (s.resolve (Freeze.filter s.look v)) = some es) :
    ∃ es', entries? (s.resolve v) = some es' ∧ List.Forall₂ Entry.Copy es' es := by
  rw [← Store.resolve_look hv]
  rw [Freeze.filter] at h
  cases he : (s.look v).entries? with
  | some entries =>
    rw [he] at h
    refine ⟨es, ?_, List.forall₂_same.mpr fun e _ => .same e⟩
    rw [← h, entries?, entries?, Store.entries?_resolve he]
    rfl
  | none =>
    rw [he] at h
    cases hi : (s.look v).items? with
    | some xs =>
      rw [hi] at h
      obtain ⟨hnone, hitems⟩ := Store.items?_resolve (s := s) hi
      obtain ⟨hnone', hitems'⟩ := Store.items?_resolve (s := s)
        (v := .tuple (xs.map (Freeze.item s.look))) rfl
      rw [entries?, hnone', hitems'] at h
      cases h
      refine ⟨(xs.map s.resolve).map .condition, by rw [entries?, hnone, hitems], ?_⟩
      simp only [List.map_map, List.forall₂_map_left_iff, List.forall₂_map_right_iff]
      refine List.forall₂_same.mpr fun x hx => copy_item (hv.of_holds fun n hn => ?_)
      exact (Store.holds_of_iterate (Value.iterate?_of_items? hi) hx hn).of_look
    | none =>
      rw [hi] at h
      exact ⟨es, h, List.forall₂_same.mpr fun e _ => .same e⟩

/-- What is nothing or has entries is kept as such. -/
theorem formed_freeze {s : Store} {v : Value} (hv : s.Settled v)
    (h : s.resolve v = .none ∨ (entries? (s.resolve v)).isSome) :
    s.resolve (Freeze.filter s.look v) = .none ∨
      (entries? (s.resolve (Freeze.filter s.look v))).isSome := by
  rw [← Store.resolve_look hv] at h
  rw [Freeze.filter]
  cases he : (s.look v).entries? with
  | some es => exact .inr rfl
  | none =>
    cases hi : (s.look v).items? with
    | some xs => exact .inr rfl
    | none => exact h

end Filter

namespace Schema

variable {m : Model}

theorem Passes.copy {e e' : Filter.Entry} (hp : Passes m e) (h : e.Copy e') : Passes m e' := by
  cases h with
  | same => exact hp
  | @frozen v es entries =>
    have hparts : parts? (.frozen es) = parts? v := by
      cases v with
      | map _ | frozen _ => cases entries; rfl
      | _ => cases entries
    cases hp with
    | condition parts known operator fits =>
      exact .condition (hparts.trans parts) known operator fits

theorem Cleared.freeze {s : Store} {v : Value} (hv : s.Settled v) (hc : Cleared m (s.resolve v)) :
    Cleared m (s.resolve (Freeze.filter s.look v)) := by
  intro es hes e he
  obtain ⟨es', hes', hcopies⟩ := Filter.copy_filter hv hes
  obtain ⟨e', he', hcopy⟩ := Lists.exists_of_mem_right hcopies he
  exact (hc es' hes' e' he').copy hcopy

end Schema
end TableQuery
