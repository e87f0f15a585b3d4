import TableQuery.Proofs.Schema.Records

/-! Values that stay as they are when they are given back as plain data, and types that have no others. -/

namespace TableQuery

namespace Value

mutual

/-- A value that is data as it stands: no sort entry and no condition is in its lists, tuples, sets and
mappings. -/
def isPlain : Value → Bool
  | list xs | tuple xs | set xs => isPlainAll xs
  | map es => isPlainEntries es
  | sort .. | condition .. => false
  | _ => true

def isPlainAll : List Value → Bool
  | [] => true
  | x :: xs => x.isPlain && isPlainAll xs

def isPlainEntries : List (Value × Value) → Bool
  | [] => true
  | (k, v) :: es => k.isPlain && v.isPlain && isPlainEntries es

end

end Value

namespace Schema
open Outcome

mutual

/-- A checked value without instances of models, that is plain as it is. -/
def Checked.isPlain : Checked → Bool
  | .value v => v.isPlain
  | .list xs => isPlainAll xs
  | .instance .. => false

def Checked.isPlainAll : List Checked → Bool
  | [] => true
  | x :: xs => x.isPlain && isPlainAll xs

end

theorem keyable_eq_ok {v w : Value} (h : keyable v = .ok w) : w = v := by
  unfold keyable at h
  split at h
  · cases h
  · cases h
    rfl

mutual

/-- Plain data is what stays as it is when it is made plain. -/
theorem plainData_eq_self_iff : (v : Value) → {w : Value} → plainData v = .ok w →
    (w = v ↔ v.isPlain)
  | .list xs, w, h => by
    rw [plainData] at h
    obtain ⟨ys, hys, h⟩ := bind_eq_ok.mp h
    cases pure_eq_ok.mp h
    rw [Value.list.injEq, Value.isPlain]
    exact plainAll_eq_self_iff xs hys
  | .tuple xs, w, h => by
    rw [plainData] at h
    obtain ⟨ys, hys, h⟩ := bind_eq_ok.mp h
    cases pure_eq_ok.mp h
    rw [Value.tuple.injEq, Value.isPlain]
    exact plainAll_eq_self_iff xs hys
  | .set xs, w, h => by
    rw [plainData] at h
    obtain ⟨ys, hys, h⟩ := bind_eq_ok.mp h
    cases pure_eq_ok.mp h
    rw [Value.set.injEq, Value.isPlain]
    exact plainMembers_eq_self_iff xs hys
  | .map es, w, h => by
    rw [plainData] at h
    obtain ⟨gs, hgs, h⟩ := bind_eq_ok.mp h
    cases pure_eq_ok.mp h
    rw [Value.map.injEq, Value.isPlain]
    exact plainEntries_eq_self_iff es hgs
  | .sort c d, w, h => by
    rw [plainData] at h
    obtain ⟨c', -, h⟩ := bind_eq_ok.mp h
    obtain ⟨d', -, h⟩ := bind_eq_ok.mp h
    cases pure_eq_ok.mp h
    simp [Value.isPlain]
  | .condition c given, w, h => by
    rw [plainData] at h
    obtain ⟨parts, -, h⟩ := bind_eq_ok.mp h
    cases pure_eq_ok.mp h
    simp [Value.isPlain]
  | .none, _, rfl | .bool _, _, rfl | .int _, _, rfl | .float _, _, rfl | .str _, _, rfl
  | .bytes _, _, rfl | .sequence _ _, _, rfl | .frozen _, _, rfl | .token _, _, rfl
  | .record _ _ _, _, rfl | .shared _, _, rfl => by simp [Value.isPlain]

theorem plainAll_eq_self_iff : (xs : List Value) → {ys : List Value} → plainAll xs = .ok ys →
    (ys = xs ↔ Value.isPlainAll xs)
  | [], ys, h => by
    cases h
    simp [Value.isPlainAll]
  | x :: xs, ys, h => by
    rw [plainAll] at h
    obtain ⟨y, hy, h⟩ := bind_eq_ok.mp h
    obtain ⟨rest, hrest, h⟩ := bind_eq_ok.mp h
    cases pure_eq_ok.mp h
    rw [List.cons.injEq, plainData_eq_self_iff x hy, plainAll_eq_self_iff xs hrest, Value.isPlainAll,
      Bool.and_eq_true]

theorem plainMembers_eq_self_iff : (xs : List Value) → {ys : List Value} → plainMembers xs = .ok ys →
    (ys = xs ↔ Value.isPlainAll xs)
  | [], ys, h => by
    cases h
    simp [Value.isPlainAll]
  | x :: xs, ys, h => by
    rw [plainMembers] at h
    obtain ⟨y, hy, h⟩ := bind_eq_ok.mp h
    obtain ⟨key, hkey, h⟩ := bind_eq_ok.mp h
    obtain ⟨rest, hrest, h⟩ := bind_eq_ok.mp h
    cases pure_eq_ok.mp h
    rw [keyable_eq_ok hkey, List.cons.injEq, plainData_eq_self_iff x hy,
      plainMembers_eq_self_iff xs hrest, Value.isPlainAll, Bool.and_eq_true]

theorem plainEntries_eq_self_iff : (es : List (Value × Value)) → {gs : List (Value × Value)} →
    plainEntries es = .ok gs → (gs = es ↔ Value.isPlainEntries es)
  | [], gs, h => by
    cases h
    simp [Value.isPlainEntries]
  | (k, v) :: es, gs, h => by
    rw [plainEntries] at h
    obtain ⟨k', hk, h⟩ := bind_eq_ok.mp h
    obtain ⟨v', hv, h⟩ := bind_eq_ok.mp h
    obtain ⟨key, hkey, h⟩ := bind_eq_ok.mp h
    obtain ⟨rest, hrest, h⟩ := bind_eq_ok.mp h
    cases pure_eq_ok.mp h
    rw [keyable_eq_ok hkey, List.cons.injEq, Prod.mk.injEq, plainData_eq_self_iff k hk,
      plainData_eq_self_iff v hv, plainEntries_eq_self_iff es hrest, Value.isPlainEntries,
      Bool.and_eq_true, Bool.and_eq_true]

end

mutual

/-- A checked value is given back as it was read just where it is plain. -/
theorem given_eq_toValue_iff : (c : Checked) → {u : Value} → c.given = .ok u →
    (u = c.toValue ↔ c.isPlain)
  | .value v, u, h => by
    rw [Checked.given] at h
    rw [Checked.toValue, Checked.isPlain]
    exact plainData_eq_self_iff v h
  | .list xs, u, h => by
    rw [Checked.given] at h
    obtain ⟨us, hus, h⟩ := bind_eq_ok.mp h
    cases pure_eq_ok.mp h
    rw [Checked.toValue, Value.list.injEq, Checked.isPlain]
    exact givenAll_eq_toValues_iff xs hus
  | .instance m fs others, u, h => by
    rw [Checked.given] at h
    obtain ⟨fields, -, h⟩ := bind_eq_ok.mp h
    obtain ⟨plain, -, h⟩ := bind_eq_ok.mp h
    cases pure_eq_ok.mp h
    simp [Checked.toValue, Checked.isPlain]

theorem givenAll_eq_toValues_iff : (xs : List Checked) → {us : List Value} →
    Checked.givenAll xs = .ok us → (us = Checked.toValues xs ↔ Checked.isPlainAll xs)
  | [], us, h => by
    cases h
    simp [Checked.toValues, Checked.isPlainAll]
  | x :: xs, us, h => by
    rw [Checked.givenAll] at h
    obtain ⟨u, hu, h⟩ := bind_eq_ok.mp h
    obtain ⟨rest, hrest, h⟩ := bind_eq_ok.mp h
    cases pure_eq_ok.mp h
    rw [Checked.toValues, List.cons.injEq, given_eq_toValue_iff x hu,
      givenAll_eq_toValues_iff xs hrest, Checked.isPlainAll, Bool.and_eq_true]

end

/-! Types of which all values are plain. -/

mutual

theorem isPlain_toValue : (c : Checked) → c.isPlain → c.toValue.isPlain
  | .value v, h => by
    rw [Checked.toValue]
    rwa [Checked.isPlain] at h
  | .list xs, h => by
    rw [Checked.isPlain] at h
    rw [Checked.toValue, Value.isPlain]
    exact isPlainAll_toValues xs h
  | .instance .., h => by cases h

theorem isPlainAll_toValues : (xs : List Checked) → Checked.isPlainAll xs →
    Value.isPlainAll (Checked.toValues xs)
  | [], _ => rfl
  | x :: xs, h => by
    rw [Checked.isPlainAll, Bool.and_eq_true] at h
    rw [Checked.toValues, Value.isPlainAll, Bool.and_eq_true]
    exact ⟨isPlain_toValue x h.1, isPlainAll_toValues xs h.2⟩

end

end Schema
end TableQuery
