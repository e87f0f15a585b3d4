import TableQuery.Logging.Datum
import TableQuery.Proofs.Lists
import TableQuery.Proofs.Text.Point
import TableQuery.Proofs.Value.Keys

/-! Attributes under their names. -/

namespace TableQuery
namespace Logging

namespace Datum

variable {d : Datum} {s : String}

theorem string?_eq_some : d.string? = some s ↔ d.text? = some (Point.ofText s) := by
  cases d with
  | value v => simp [string?, text?]
  | text ps => simp [string?, text?, Point.text?_eq_some]
  | list | map => simp [string?, text?]

/-- Keys that no dictionary has beside each other. -/
def Alike (a b : Datum) : Prop :=
  (∃ ps, a.text? = some ps ∧ b.text? = some ps) ∨
    ∃ v w, a = .value v ∧ b = .value w ∧ Value.same v w = true

theorem alike_iff (h : d.string? = some s) (b : Datum) : d.Alike b ↔ b.string? = some s := by
  have hd := string?_eq_some.mp h
  rw [string?_eq_some]
  constructor
  · rintro (⟨ps, ha, hb⟩ | ⟨v, w, rfl, rfl, hsame⟩)
    · rw [hb, ← ha, hd]
    · rw [text?, (Value.same_iff_text? h).mp hsame, Option.map_some]
  · exact fun hb => .inl ⟨_, hd, hb⟩

end Datum

namespace Attributes

variable {as bs : Attributes} {a : Datum × Datum} {name other : String} {d e : Datum}

theorem has_iff : as.has name = true ↔ ∃ a ∈ as, a.1.string? = some name := by
  simp [has]

theorem isSome_lookup (name : String) (as : Attributes) : (as.lookup name).isSome = as.has name := by
  rw [Bool.eq_iff_iff, has_iff, lookup, Option.isSome_map, List.find?_isSome]
  simp only [beq_iff_eq]

theorem lookup_append (as bs : Attributes) (name : String) :
    lookup name (as ++ bs) = (lookup name as).or (lookup name bs) := by
  rw [lookup, List.find?_append, Option.map_or]
  rfl

theorem lookup_eq_none : as.lookup name = none ↔ ∀ a ∈ as, a.1.string? ≠ some name := by
  simp [lookup]

theorem mem_of_lookup (h : as.lookup name = some d) : ∃ a ∈ as, a.1.string? = some name ∧ a.2 = d := by
  obtain ⟨a, ha, rfl⟩ := Option.map_eq_some_iff.mp h
  have hname : (a.1.string? == some name) = true :=
    List.find?_some (p := fun a : Datum × Datum => a.1.string? == some name) ha
  exact ⟨a, List.mem_of_find?_eq_some ha, beq_iff_eq.mp hname, rfl⟩

/-- There is an attribute of the name, and every such attribute has the value. -/
structure Holds (name : String) (d : Datum) (as : Attributes) : Prop where
  has : as.has name = true
  value : ∀ a ∈ as, a.1.string? = some name → a.2 = d

theorem Holds.lookup (h : Holds name d as) : as.lookup name = some d := by
  have hsome := isSome_lookup name as
  rw [h.has] at hsome
  obtain ⟨e, he⟩ := Option.isSome_iff_exists.mp hsome
  obtain ⟨a, ha, hname, rfl⟩ := mem_of_lookup he
  rw [he, h.value a ha hname]

theorem set_of_has (h : as.has name = true) (d : Datum) :
    as.set name d = as.map fun a => if a.1.string? == some name then (a.1, d) else a := if_pos h

theorem set_of_new (h : as.has name = false) (d : Datum) : as.set name d = as ++ [(.value (.str name), d)] :=
  if_neg (by rw [h]; exact Bool.false_ne_true)

theorem Holds.set (h : Holds name d as) (hne : name ≠ other) (e : Datum) : Holds name d (as.set other e) := by
  obtain ⟨a, ha, hname⟩ := has_iff.mp h.has
  have hapart : ∀ b : Datum × Datum, b.1.string? = some name → ¬(b.1.string? == some other) = true := by
    intro b hb hother
    rw [hb] at hother
    exact hne (Option.some.inj (beq_iff_eq.mp hother))
  cases hhas : as.has other with
  | true =>
    rw [set_of_has hhas]
    constructor
    · exact has_iff.mpr ⟨a, List.mem_map.mpr ⟨a, ha, if_neg (hapart a hname)⟩, hname⟩
    · intro x hx hx'
      obtain ⟨b, hb, rfl⟩ := List.mem_map.mp hx
      have hkey : b.1.string? = some name := by
        split at hx' <;> exact hx'
      rw [if_neg (hapart b hkey)]
      exact h.value b hb hkey
  | false =>
    rw [set_of_new hhas]
    constructor
    · exact has_iff.mpr ⟨a, List.mem_append_left _ ha, hname⟩
    · intro x hx hx'
      rcases List.mem_append.mp hx with hx | hx
      · exact h.value x hx hx'
      · rw [List.mem_singleton.mp hx] at hx'
        exact absurd (Option.some.inj hx').symm hne

/-- No two attributes are under the same key. -/
def Distinct (as : Attributes) : Prop := as.Pairwise fun a b => ¬b.1.Alike a.1

theorem Distinct.set (h : Distinct as) (name : String) (d : Datum) : Distinct (as.set name d) := by
  cases hhas : as.has name with
  | true =>
    rw [set_of_has hhas]
    refine List.pairwise_map.mpr (h.imp fun {a b} hab => ?_)
    have hkey : ∀ x : Datum × Datum, (if x.1.string? == some name then (x.1, d) else x).1 = x.1 := fun x => by
      split <;> rfl
    rwa [hkey, hkey]
  | false =>
    rw [set_of_new hhas]
    refine List.pairwise_append.mpr ⟨h, List.pairwise_singleton .., fun a ha b hb halike => ?_⟩
    rw [List.mem_singleton.mp hb] at halike
    rw [has_iff.mpr ⟨a, ha, (Datum.alike_iff rfl a.1).mp halike⟩] at hhas
    cases hhas

end Attributes
end Logging
end TableQuery
