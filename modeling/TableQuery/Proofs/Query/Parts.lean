import TableQuery.Proofs.Filter.Conjunct
import TableQuery.Proofs.Lists
import TableQuery.Query.Build

/-! The parts of a statement that was built, each as the part of the query that it comes from. -/

namespace TableQuery
namespace Query
open Outcome

variable {rules : Naming} {s : State} {data : Value} {st : Statement}

/-- A value that counts as present and compiles has entries, and their conjuncts are predicates. -/
theorem present_conjuncts {v : Value} {f : Filter} (hp : Filter.isPresent v = true)
    (hf : Filter.ofValue rules v = .ok f) :
    ∃ es, Filter.entries? v = some es ∧ es ≠ [] ∧ List.Forall₂ (Filter.Conjunct rules) es f ∧
      f ≠ [] := by
  rcases Filter.ofValue_eq_ok.mp hf with ⟨rfl, -⟩ | ⟨es, he, hc⟩
  · cases hp
  · have hne : es ≠ [] := (Filter.isPresent_of_entries he).mp hp
    refine ⟨es, he, hne, hc, ?_⟩
    rintro rfl
    exact hne (List.forall₂_nil_right_iff.mp hc)

theorem record?_eq_some {v : Value} {es : List (Value × Value)} :
    record? v = some es ↔ v.entries? = some es ∧ es ≠ [] := by
  rw [record?, Option.filter_eq_some_iff]
  simp

theorem select_eq_ok : select rules s = .ok st ↔ ∃ columns t f order take skip,
    returning rules s = .ok columns ∧ target rules (.str s.table) = .ok t ∧
    Filter.ofValue rules s.filter = .ok f ∧ Sorting.ofItems rules s.order = .ok order ∧
    bound? s.take = .ok take ∧ bound? s.skip = .ok skip ∧
    st = .select columns t f order take skip := by
  simp only [select, bind_eq_ok, pure_eq_ok]
  grind

theorem count_eq_ok : count rules s = .ok st ↔ ∃ t f,
    target rules (.str s.table) = .ok t ∧ Filter.ofValue rules s.filter = .ok f ∧
    st = .count t f := by
  simp only [count, bind_eq_ok, pure_eq_ok]
  grind

theorem update_eq_ok : update rules s data = .ok st ↔ ∃ entries assignments t f columns,
    Filter.isPresent s.filter = true ∧ record? data = some entries ∧
    payload rules entries = .ok assignments ∧ target rules (.str s.table) = .ok t ∧
    Filter.ofValue rules s.filter = .ok f ∧ returning rules s = .ok columns ∧
    st = .update t assignments f columns := by
  unfold update
  cases hp : Filter.isPresent s.filter with
  | false => simp
  | true =>
    cases hr : record? data with
    | none => simp
    | some entries =>
      simp only [Bool.not_true, Bool.false_eq_true, if_false, bind_eq_ok, pure_eq_ok]
      grind

theorem delete_eq_ok : delete rules s = .ok st ↔ ∃ t f columns,
    Filter.isPresent s.filter = true ∧ target rules (.str s.table) = .ok t ∧
    Filter.ofValue rules s.filter = .ok f ∧ returning rules s = .ok columns ∧
    st = .delete t f columns := by
  unfold delete
  cases hp : Filter.isPresent s.filter with
  | false => simp
  | true =>
    simp only [Bool.not_true, Bool.false_eq_true, if_false, bind_eq_ok, pure_eq_ok]
    grind

theorem insert_eq_ok : insert rules s data = .ok st ↔ ∃ entries row t columns,
    record? data = some entries ∧ payload rules entries = .ok row ∧
    target rules (.str s.table) = .ok t ∧ returning rules s = .ok columns ∧
    st = .insert t (row.map Prod.fst) (row.map Prod.snd) columns := by
  unfold insert
  cases hr : record? data with
  | none => simp
  | some entries =>
    simp only [bind_eq_ok, pure_eq_ok]
    grind

theorem insertMany_eq_ok (h : insertMany rules s data = .ok st) : ∃ items batch rows t columns,
    data.items? = some items ∧ records 0 items = .ok batch ∧
    consistent ((batch.headD []).map Prod.fst) 1 batch.tail = .ok () ∧
    List.Forall₂ (fun r row => payload rules r = .ok row) batch rows ∧
    target rules (.str s.table) = .ok t ∧ returning rules s = .ok columns ∧
    st = .insertMany t ((rows.headD []).map Prod.fst)
      (rows.map fun r => ((rows.headD []).map Prod.fst).map fun n => (r.lookup n).getD .none)
      columns := by
  unfold insertMany at h
  split at h
  · exact absurd h reject_ne_ok
  · exact absurd h reject_ne_ok
  · rename_i items _ hitems
    obtain ⟨batch, hb, h⟩ := bind_eq_ok.mp h
    obtain ⟨⟨⟩, hc, h⟩ := bind_eq_ok.mp h
    obtain ⟨rows, hr, h⟩ := bind_eq_ok.mp h
    obtain ⟨t, ht, h⟩ := bind_eq_ok.mp h
    obtain ⟨columns, hcolumns, h⟩ := bind_eq_ok.mp h
    exact ⟨items, batch, rows, t, columns, hitems, hb, hc, mapM_eq_ok.mp hr, ht, hcolumns,
      (pure_eq_ok.mp h).symm⟩

/-- The filter of a statement comes from the filter of the state, unless records are inserted. -/
theorem filter_of_build {kind : StatementKind} (h : build rules kind s data = .ok st) :
    ((kind = .insert ∨ kind = .insertMany) ∧ st.filter = []) ∨
      Filter.ofValue rules s.filter = .ok st.filter := by
  cases kind with
  | select =>
    obtain ⟨_, _, f, _, _, _, -, -, hf, -, -, -, rfl⟩ := select_eq_ok.mp h
    exact .inr hf
  | count =>
    obtain ⟨_, f, -, hf, rfl⟩ := count_eq_ok.mp h
    exact .inr hf
  | insert =>
    obtain ⟨_, _, _, _, -, -, -, -, rfl⟩ := insert_eq_ok.mp h
    exact .inl ⟨.inl rfl, rfl⟩
  | insertMany =>
    obtain ⟨_, _, _, _, _, -, -, -, -, -, -, rfl⟩ := insertMany_eq_ok h
    exact .inl ⟨.inr rfl, rfl⟩
  | update =>
    obtain ⟨_, _, _, f, _, -, -, -, -, hf, -, rfl⟩ := update_eq_ok.mp h
    exact .inr hf
  | delete =>
    obtain ⟨_, f, _, -, -, hf, -, rfl⟩ := delete_eq_ok.mp h
    exact .inr hf

theorem records_eq_ok {index : Nat} {items : List Value} {batch : List (List (Value × Value))} :
    records index items = .ok batch ↔ List.Forall₂ (fun v es => record? v = some es) items batch := by
  induction items generalizing index batch with
  | nil =>
    rw [records, List.forall₂_nil_left_iff]
    exact ⟨fun h => (Except.ok.inj h).symm, fun h => congrArg _ h.symm⟩
  | cons v items ih =>
    rw [records, List.forall₂_cons_left_iff]
    cases hv : record? v with
    | none => simp
    | some entries =>
      simp only [bind_eq_ok, pure_eq_ok, ih, Option.some.injEq]
      constructor
      · rintro ⟨rest, hrest, rfl⟩
        exact ⟨entries, rest, rfl, hrest, rfl⟩
      · rintro ⟨_, rest, rfl, hrest, rfl⟩
        exact ⟨rest, hrest, rfl⟩

theorem consistent_eq_ok {expected : List Value} {index : Nat} {rs : List (List (Value × Value))} :
    consistent expected index rs = .ok () ↔ ∀ r ∈ rs, Value.sameKeys (r.map Prod.fst) expected := by
  induction rs generalizing index with
  | nil => exact iff_of_true rfl fun r hr => absurd hr List.not_mem_nil
  | cons r rs ih =>
    rw [consistent, List.forall_mem_cons, ← ih]
    split
    · rename_i hr
      exact (and_iff_right hr).symm
    · rename_i hr
      exact iff_of_false reject_ne_ok fun h => hr h.1

theorem distinct_eq_ok {seen : List String} {entries : List (String × Value)} :
    distinct seen entries = .ok () ↔
      (entries.map Prod.fst).Nodup ∧ ∀ n ∈ entries.map Prod.fst, n ∉ seen := by
  induction entries generalizing seen with
  | nil => exact iff_of_true rfl ⟨List.nodup_nil, by simp⟩
  | cons e entries ih =>
    obtain ⟨n, v⟩ := e
    rw [distinct, List.map_cons, Lists.nodup_cons_fresh]
    split
    · rename_i hn
      exact iff_of_false reject_ne_ok fun h => h.1 (List.contains_iff_mem.mp hn)
    · rename_i hn
      rw [ih]
      exact (and_iff_right (mt List.contains_iff_mem.mpr hn)).symm

theorem name_ne_empty {v : Value} {n : String} (h : rules.name? v = some n) : n ≠ "" := by
  obtain ⟨t, -, h⟩ := Option.bind_eq_some_iff.mp h
  split at h
  · rename_i hc
    cases h
    intro he
    have hempty : Text.trimChars t.toList = [] := by
      have := congrArg String.toList he
      rwa [Text.trim, String.toList_ofList] at this
    rw [hempty] at hc
    cases hc
  · cases h

theorem filter_invalid {entries : List (Value × Value)} :
    ((entries.map Prod.fst).filter fun k => !rules.column.isValid k) = [] ↔
      ∀ e ∈ entries, rules.column.isValid e.1 := by
  simp [List.filter_eq_nil_iff]

/-- Where all keys are names, only two of the same name are left to be refused. -/
theorem payload_of_valid {entries : List (Value × Value)}
    (h : ∀ e ∈ entries, rules.column.isValid e.1) : payload rules entries =
      distinct [] (entries.filterMap fun e => (rules.column.name? e.1).map fun n => (n, e.2)) >>=
        fun _ => pure (entries.filterMap fun e => (rules.column.name? e.1).map fun n => (n, e.2)) := by
  rw [payload]
  dsimp only
  rw [filter_invalid.mpr h]
  rfl

theorem payload_of_invalid {entries : List (Value × Value)}
    (h : ¬ ∀ e ∈ entries, rules.column.isValid e.1) : payload rules entries =
      reject (.invalidColumns ((entries.map Prod.fst).filter fun k => !rules.column.isValid k)) := by
  have hne := mt filter_invalid.mp h
  rw [payload]
  dsimp only
  rw [if_pos (by simpa using hne)]

/-- The entries of a record keep their order and their values, each under a name of its own. -/
theorem payload_eq_ok {entries : List (Value × Value)} {named : List (String × Value)} :
    payload rules entries = .ok named ↔
      List.Forall₂ (fun e a => rules.column.name? e.1 = some a.1 ∧ a.2 = e.2) entries named ∧
        (named.map Prod.fst).Nodup := by
  have heach : ∀ (e : Value × Value) (a : String × Value), (rules.column.name? e.1 = some a.1 ∧
      a.2 = e.2) ↔ ((rules.column.name? e.1).map fun n => (n, e.2)) = some a := by
    rintro ⟨k, v⟩ ⟨n, w⟩
    rw [Option.map_eq_some_iff]
    constructor
    · rintro ⟨hn, rfl⟩
      exact ⟨n, hn, rfl⟩
    · rintro ⟨_, hn, ⟨⟩⟩
      exact ⟨hn, rfl⟩
  simp only [heach, Lists.forall₂_filterMap, Option.isSome_map]
  by_cases hvalid : ∀ e ∈ entries, rules.column.isValid e.1
  · rw [payload_of_valid hvalid, bind_eq_ok]
    constructor
    · rintro ⟨⟨⟩, hd, h⟩
      obtain rfl := pure_eq_ok.mp h
      exact ⟨⟨hvalid, rfl⟩, (distinct_eq_ok.mp hd).1⟩
    · rintro ⟨⟨-, rfl⟩, hnd⟩
      exact ⟨(), distinct_eq_ok.mpr ⟨hnd, fun _ _ => List.not_mem_nil⟩, rfl⟩
  · rw [payload_of_invalid hvalid]
    exact iff_of_false reject_ne_ok fun h => hvalid h.1.1

end Query
end TableQuery
