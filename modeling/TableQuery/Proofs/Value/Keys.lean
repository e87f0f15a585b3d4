import Mathlib.Data.List.Forall2
import Mathlib.Data.Option.Basic
import TableQuery.Value.Entries

/-! Keys that are texts, and entries under the same keys. -/

namespace TableQuery
namespace Value

variable {s : String} {t : Token} {k k' : Value}

theorem same_str_iff : same (.str s) k ↔ k.text? = some s := by
  cases k with
  | str u => simp [same, text?, @eq_comm _ u]
  | token u => simp [same, text?, @eq_comm _ s]
  | _ => simp [same, text?, number?]

theorem text?_of_same_token (h : same (.token t) k) : k.text? = text? (.token t) := by
  cases k with
  | str u =>
    simp only [same, Bool.and_eq_true, beq_iff_eq] at h
    simp only [text?, h.1, h.2, if_true]
  | token u =>
    simp only [same, Bool.or_eq_true, Bool.and_eq_true, beq_iff_eq] at h
    rcases h with rfl | ⟨⟨ht, hu⟩, htext⟩
    · rfl
    · simp only [text?, ht, hu, htext]
  | _ => simp [same, number?] at h

/-- What counts as the same as a text is that text. -/
theorem text?_of_same (h : same k k') (hk : k.text? = some s) : k'.text? = some s := by
  cases k with
  | str u =>
    cases hk
    exact same_str_iff.mp h
  | token t => exact (text?_of_same_token h).trans hk
  | _ => cases hk

theorem same_of_text? {k k' : Value} {s : String} (h : k.text? = some s) (h' : k'.text? = some s) :
    same k k' := by
  have htoken : ∀ {t : Token}, text? (.token t) = some s → t.isText = true ∧ t.text = s := by
    intro t ht
    rw [text?] at ht
    split at ht
    · exact ⟨‹_›, Option.some.inj ht⟩
    · cases ht
  cases k with
  | str u =>
    cases h
    exact same_str_iff.mpr h'
  | token t =>
    obtain ⟨ht, rfl⟩ := htoken h
    cases k' with
    | str u =>
      cases h'
      simp [same, ht]
    | token u =>
      obtain ⟨hu, he⟩ := htoken h'
      simp [same, ht, hu, he]
    | _ => cases h'
  | _ => cases h

/-- Beside a text, being the same is being that text. -/
theorem same_iff_text? (hk : k.text? = some s) : same k k' = true ↔ k'.text? = some s :=
  ⟨fun h => text?_of_same h hk, same_of_text? hk⟩

theorem hasKey_congr {es es' : List (Value × Value)} (h : es.map Prod.fst = es'.map Prod.fst)
    (key : Value) : hasKey key es = hasKey key es' := by
  have hkeys : ∀ gs, hasKey key gs = (gs.map Prod.fst).any (same key) := by
    intro gs
    rw [hasKey, List.any_map]
    rfl
  rw [hkeys, hkeys, h]

theorem hasKey_eq_false {key : Value} {es : Entries} :
    hasKey key es = false ↔ ∀ e ∈ es, same key e.1 = false := by
  simp only [hasKey, List.any_eq_false, Bool.not_eq_true]

/-- What is found under a key, in entries that are related where they have that key. -/
theorem rel_lookup {R : Value → Value → Prop} {es es' : List (Value × Value)} {key : Value}
    (h : List.Forall₂ (fun e e' => e.1 = e'.1 ∧ (same key e.1 → R e.2 e'.2)) es es') :
    Option.Rel R (lookup key es) (lookup key es') := by
  induction h with
  | nil => exact .none
  | @cons e e' es es' he _ ih =>
    obtain ⟨hkey, hvalue⟩ := he
    unfold lookup at ih ⊢
    rw [List.find?_cons, List.find?_cons, ← hkey]
    cases hk : same key e.1 with
    | true => exact .some (hvalue hk)
    | false => exact ih

theorem key_of_mem_insert {key v : Value} {es : Entries} {e : Value × Value}
    (h : e ∈ insert key v es) : e.1 = key ∨ e.1 ∈ es.map Prod.fst := by
  rw [insert] at h
  split at h
  · obtain ⟨e', he', he⟩ := List.mem_map.mp h
    refine .inr (List.mem_map.mpr ⟨e', he', ?_⟩)
    rw [← he]
    split <;> rfl
  · rcases List.mem_append.mp h with h | h
    · exact .inr (List.mem_map_of_mem h)
    · cases List.mem_singleton.mp h
      exact .inl rfl

/-- Inserting adds no keys but those of the news. -/
theorem key_of_mem_insertAll {news es : Entries} {e : Value × Value} (h : e ∈ insertAll news es) :
    e.1 ∈ news.map Prod.fst ∨ e.1 ∈ es.map Prod.fst := by
  induction news generalizing es with
  | nil => exact .inr (List.mem_map_of_mem h)
  | cons n news ih =>
    rcases ih h with hk | hk
    · exact .inl (List.mem_cons_of_mem _ hk)
    · obtain ⟨e', he', hkey⟩ := List.mem_map.mp hk
      rw [← hkey]
      rcases key_of_mem_insert he' with heq | hmem
      · exact .inl (heq ▸ List.mem_cons_self)
      · exact .inr hmem

theorem key_of_mem_ofEntries {es : List (Value × Value)} {e : Value × Value} (h : e ∈ ofEntries es) :
    e.1 ∈ es.map Prod.fst :=
  (key_of_mem_insertAll h).resolve_right List.not_mem_nil

/-- Entries under keys of their own are added behind those that are there. -/
theorem insertAll_of_distinct {news es : Entries}
    (h : (es ++ news).Pairwise fun a b => same b.1 a.1 = false) : insertAll news es = es ++ news := by
  induction news generalizing es with
  | nil => exact (List.append_nil es).symm
  | cons e news ih =>
    have hnew : hasKey e.1 es = false :=
      hasKey_eq_false.mpr fun a ha => (List.pairwise_append.mp h).2.2 a ha e List.mem_cons_self
    have hinsert : insert e.1 e.2 es = es ++ [e] := by
      rw [insert, hnew]
      rfl
    change insertAll news (insert e.1 e.2 es) = _
    rw [hinsert, ih (by rwa [List.append_assoc]), List.append_assoc]
    rfl

theorem lookup_named (k : String) (r : List (String × Value)) :
    lookup (.str k) (named r) = r.lookup k := by
  induction r with
  | nil => rfl
  | cons e r ih =>
    obtain ⟨n, v⟩ := e
    have hsame : same (.str k) (.str n) = (k == n) := by rw [same]
    change ((List.find? _ ((.str n, v) :: named r)).map _) = _
    rw [List.find?_cons, List.lookup_cons, hsame]
    cases k == n with
    | true => rfl
    | false => exact ih

theorem named_distinct {r : List (String × Value)} (h : (r.map Prod.fst).Nodup) :
    (named r).Pairwise fun a b => same b.1 a.1 = false := by
  rw [named, List.pairwise_map]
  refine (List.pairwise_map.mp h).imp fun hne => Bool.eq_false_iff.mpr fun hsame => hne ?_
  exact Option.some.inj (same_str_iff.mp hsame)

theorem isSome_lookup {s : String} {es : List (Value × Value)} :
    (lookup (.str s) es).isSome ↔ ∃ e ∈ es, e.1.text? = some s := by
  rw [lookup, Option.isSome_map, List.find?_isSome]
  simp only [same_str_iff]

theorem lookup_eq_none {s : String} {es : List (Value × Value)} :
    lookup (.str s) es = Option.none ↔ ∀ e ∈ es, e.1.text? ≠ some s := by
  rw [← Option.not_isSome_iff_eq_none, isSome_lookup]
  push Not
  rfl

theorem lookup_append (key : Value) (es gs : List (Value × Value)) :
    lookup key (es ++ gs) = (lookup key es).or (lookup key gs) := by
  rw [lookup, List.find?_append, Option.map_or]
  rfl

theorem lookup_cons (key : Value) (e : Value × Value) (es : Entries) :
    lookup key (e :: es) = if same key e.1 then some e.2 else lookup key es := by
  rw [lookup, List.find?_cons]
  split
  · rename_i h
    rw [if_pos h]
    rfl
  · rename_i h
    rw [if_neg (Bool.not_eq_true _ ▸ h)]
    rfl

/-! Entries of two mappings in one. -/

/-- What is asked of keys: that two of them are the same whichever comes first, and also through a third. -/
structure Comparable (ks : List Value) : Prop where
  symm : ∀ a ∈ ks, ∀ b ∈ ks, same a b = same b a
  trans : ∀ a ∈ ks, ∀ b ∈ ks, ∀ c ∈ ks, same a b = true → same b c = true → same a c = true

theorem Comparable.mono {ks ks' : List Value} (h : Comparable ks) (hs : ks' ⊆ ks) : Comparable ks' :=
  ⟨fun a ha b hb => h.symm a (hs ha) b (hs hb),
    fun a ha b hb c hc => h.trans a (hs ha) b (hs hb) c (hs hc)⟩

/-- No entry is under the key of one before it. -/
def Distinct (es : Entries) : Prop := es.Pairwise fun a b => same b.1 a.1 = false

end Value
end TableQuery
