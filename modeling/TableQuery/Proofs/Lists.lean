import Mathlib.Data.List.Forall2
import Mathlib.Data.List.Nodup

/-! Related lists taken apart, and lists of pairs with distinct keys. -/

namespace TableQuery
namespace Lists

variable {α β γ : Type} {R : α → β → Prop}

theorem exists_of_mem_right {as : List α} {bs : List β} (h : List.Forall₂ R as bs) {b : β}
    (hb : b ∈ bs) : ∃ a ∈ as, R a b := by
  induction h with
  | nil => cases hb
  | cons hab h ih =>
    rcases List.mem_cons.mp hb with rfl | hb
    · exact ⟨_, List.mem_cons_self .., hab⟩
    · obtain ⟨a, ha, hr⟩ := ih hb
      exact ⟨a, List.mem_cons_of_mem _ ha, hr⟩

theorem exists_of_mem_left {as : List α} {bs : List β} (h : List.Forall₂ R as bs) {a : α}
    (ha : a ∈ as) : ∃ b ∈ bs, R a b := by
  obtain ⟨b, hb, hr⟩ := exists_of_mem_right h.flip ha
  exact ⟨b, hb, hr⟩

theorem exists_forall₂ {as : List α} (h : ∀ a ∈ as, ∃ b, R a b) : ∃ bs, List.Forall₂ R as bs := by
  induction as with
  | nil => exact ⟨[], .nil⟩
  | cons a as ih =>
    obtain ⟨⟨b, hb⟩, hrest⟩ := List.forall_mem_cons.mp h
    obtain ⟨bs, hbs⟩ := ih hrest
    exact ⟨b :: bs, .cons hb hbs⟩

/-- Lists that are related through a third one. -/
theorem forall₂_trans {S : β → γ → Prop} {T : α → γ → Prop} {as : List α} {bs : List β}
    {cs : List γ} (h : List.Forall₂ R as bs) (h' : List.Forall₂ S bs cs)
    (ht : ∀ a ∈ as, ∀ b ∈ bs, ∀ c, R a b → S b c → T a c) : List.Forall₂ T as cs := by
  induction h generalizing cs with
  | nil =>
    cases h'
    exact .nil
  | cons hab h ih =>
    cases h' with
    | cons hbc h' =>
      refine .cons (ht _ List.mem_cons_self _ List.mem_cons_self _ hab hbc) (ih h' ?_)
      exact fun a ha b hb => ht a (List.mem_cons_of_mem _ ha) b (List.mem_cons_of_mem _ hb)

/-- Related lists stay so between related separators. -/
theorem forall₂_intercalate {s : List α} {t : List β} (hs : List.Forall₂ R s t)
    {as : List (List α)} {bs : List (List β)} (h : List.Forall₂ (List.Forall₂ R) as bs) :
    List.Forall₂ R (s.intercalate as) (t.intercalate bs) := by
  induction h with
  | nil => exact .nil
  | @cons a b as bs hab h ih =>
    cases h with
    | nil => simpa using hab
    | cons hnext hrest =>
      rw [List.intercalate_cons_cons, List.intercalate_cons_cons]
      exact List.rel_append (List.rel_append hab hs) ih

theorem forall₂_mapIdx {γ δ : Type} {S : γ → δ → Prop} {as : List α} {bs : List β}
    (h : List.Forall₂ R as bs) {f : Nat → α → γ} {g : Nat → β → δ}
    (hf : ∀ i a b, R a b → S (f i a) (g i b)) : List.Forall₂ S (as.mapIdx f) (bs.mapIdx g) := by
  induction h generalizing f g with
  | nil => exact .nil
  | cons hab _ ih =>
    rw [List.mapIdx_cons, List.mapIdx_cons]
    exact .cons (hf 0 _ _ hab) (ih fun i a b => hf (i + 1) a b)

/-- Items that all come to something, with what they come to. -/
theorem forall₂_filterMap {f : α → Option β} {as : List α} {bs : List β} :
    List.Forall₂ (fun a b => f a = some b) as bs ↔
      (∀ a ∈ as, (f a).isSome) ∧ as.filterMap f = bs := by
  induction as generalizing bs with
  | nil =>
    rw [List.forall₂_nil_left_iff]
    exact ⟨fun h => ⟨fun _ ha => absurd ha List.not_mem_nil, h.symm⟩, fun h => h.2.symm⟩
  | cons a as ih =>
    rw [List.forall₂_cons_left_iff, List.forall_mem_cons]
    cases ha : f a with
    | none => simp
    | some b =>
      rw [List.filterMap_cons_some ha]
      constructor
      · rintro ⟨_, bs, ⟨⟩, hbs, rfl⟩
        obtain ⟨hall, rfl⟩ := ih.mp hbs
        exact ⟨⟨rfl, hall⟩, rfl⟩
      · rintro ⟨⟨-, hall⟩, rfl⟩
        exact ⟨b, _, rfl, ih.mpr ⟨hall, rfl⟩, rfl⟩

/-- The first item that fails is the one in front, or else the first one behind it. -/
theorem exists_first_cons {P : α → Prop} {Q : Nat → α → Prop} {a : α} {as : List α} :
    (∃ before b behind, a :: as = before ++ b :: behind ∧ (∀ c ∈ before, P c) ∧ ¬ P b ∧
      Q before.length b) ↔ (¬ P a ∧ Q 0 a) ∨ (P a ∧ ∃ before b behind, as = before ++ b :: behind ∧
        (∀ c ∈ before, P c) ∧ ¬ P b ∧ Q (before.length + 1) b) := by
  constructor
  · rintro ⟨before, b, behind, he, hbefore, hb, hq⟩
    cases before with
    | nil =>
      cases he
      exact .inl ⟨hb, hq⟩
    | cons c before =>
      cases he
      obtain ⟨hc, hbefore⟩ := List.forall_mem_cons.mp hbefore
      exact .inr ⟨hc, before, b, behind, rfl, hbefore, hb, hq⟩
  · rintro (⟨ha, hq⟩ | ⟨ha, before, b, behind, rfl, hbefore, hb, hq⟩)
    · exact ⟨[], a, as, rfl, fun _ hc => absurd hc List.not_mem_nil, ha, hq⟩
    · exact ⟨a :: before, b, behind, rfl, List.forall_mem_cons.mpr ⟨ha, hbefore⟩, hb, hq⟩

/-- Related lists have the same image where related items do. -/
theorem map_eq_map {as : List α} {bs : List β} (h : List.Forall₂ R as bs) {f : α → γ} {g : β → γ}
    (hf : ∀ a ∈ as, ∀ b ∈ bs, R a b → f a = g b) : as.map f = bs.map g := by
  refine List.forall₂_eq_eq_eq ▸ List.forall₂_map_left_iff.mpr (List.forall₂_map_right_iff.mpr ?_)
  exact forall₂_trans h (List.forall₂_same.mpr fun _ _ => rfl) fun a ha b hb c hab hbc =>
    (hf a ha b hb hab).trans (congrArg g hbc)

/-- A list brings nothing twice and nothing known just where its head is not known, and the rest brings
nothing twice and nothing known once the head is. -/
theorem nodup_cons_fresh {a : α} {as known : List α} :
    (a :: as).Nodup ∧ (∀ b ∈ a :: as, b ∉ known) ↔
      a ∉ known ∧ as.Nodup ∧ ∀ b ∈ as, b ∉ a :: known := by
  rw [List.nodup_cons, List.forall_mem_cons]
  constructor
  · rintro ⟨⟨ha, hn⟩, hhead, hrest⟩
    refine ⟨hhead, hn, fun b hb hm => ?_⟩
    rcases List.mem_cons.mp hm with rfl | hm
    · exact ha hb
    · exact hrest b hb hm
  · rintro ⟨hhead, hn, hrest⟩
    exact ⟨⟨fun ha => hrest a ha List.mem_cons_self, hn⟩, hhead,
      fun b hb hm => hrest b hb (List.mem_cons_of_mem a hm)⟩

theorem map_mapIdx (f : Nat → α → β) (g : β → γ) (as : List α) :
    (as.mapIdx f).map g = as.mapIdx fun i a => g (f i a) := by
  rw [List.mapIdx_eq_zipIdx_map, List.mapIdx_eq_zipIdx_map, List.map_map]
  rfl

theorem mapIdx_map (f : α → β) (g : Nat → β → γ) (as : List α) :
    (as.map f).mapIdx g = as.mapIdx fun i a => g i (f a) := by
  rw [List.mapIdx_eq_zipIdx_map, List.mapIdx_eq_zipIdx_map, List.zipIdx_map, List.map_map]
  rfl

/-- The part in front ends where something else begins. -/
theorem span_append {p : α → Bool} {as : List α} (ha : ∀ a ∈ as, p a = true) (bs : List α)
    (hb : ∀ b ∈ bs.head?, p b = false) : (as ++ bs).takeWhile p = as ∧ (as ++ bs).dropWhile p = bs := by
  rw [List.takeWhile_append_of_pos ha, List.dropWhile_append_of_pos ha]
  cases bs with
  | nil => simp
  | cons b bs =>
    have := hb b rfl
    simp [this]

/-- What is changed is left out, before and afterwards. -/
theorem filter_map_of_changed {f : α → α} {p : α → Bool} {as : List α}
    (h : ∀ a ∈ as, f a = a ∨ p a = false ∧ p (f a) = false) : (as.map f).filter p = as.filter p := by
  induction as with
  | nil => rfl
  | cons a as ih =>
    obtain ⟨ha, has⟩ := List.forall_mem_cons.mp h
    rw [List.map_cons, List.filter_cons, List.filter_cons, ih has]
    rcases ha with ha | ⟨ha, hfa⟩
    · rw [ha]
    · rw [ha, hfa]
      rfl

variable [BEq α] [LawfulBEq α]

omit [LawfulBEq α] in
/-- What is found under a key of related lists is related. -/
theorem rel_lookup {S : β → β → Prop} {l l' : List (α × β)}
    (h : List.Forall₂ (fun p q => p.1 = q.1 ∧ S p.2 q.2) l l') (a : α) :
    Option.Rel S (l.lookup a) (l'.lookup a) := by
  induction h with
  | nil => exact .none
  | @cons p q l l' hpq _ ih =>
    obtain ⟨k, v⟩ := p
    obtain ⟨k', w⟩ := q
    change k = k' ∧ S v w at hpq
    obtain ⟨rfl, hv⟩ := hpq
    rw [List.lookup_cons, List.lookup_cons]
    cases a == k with
    | true => exact .some hv
    | false => exact ih

theorem lookup_cons_of_ne {l : List (α × β)} {a k : α} {b : β} (h : a ≠ k) :
    ((k, b) :: l).lookup a = l.lookup a := by
  rw [List.lookup_cons, beq_eq_false_iff_ne.mpr h]

theorem lookup_of_mem {l : List (α × β)} (hn : (l.map Prod.fst).Nodup) {a : α} {b : β}
    (h : (a, b) ∈ l) : l.lookup a = some b := by
  induction l with
  | nil => cases h
  | cons p l ih =>
    obtain ⟨k, v⟩ := p
    rw [List.map_cons, List.nodup_cons] at hn
    rcases List.mem_cons.mp h with he | hm
    · cases he
      exact List.lookup_cons_self
    · have hk : a ≠ k := by
        rintro rfl
        exact hn.1 (List.mem_map.mpr ⟨(a, b), hm, rfl⟩)
      rw [lookup_cons_of_ne hk]
      exact ih hn.2 hm

theorem mem_of_lookup {l : List (α × β)} {a : α} {b : β} (h : l.lookup a = some b) : (a, b) ∈ l := by
  obtain ⟨l₁, l₂, rfl, -⟩ := List.lookup_eq_some_iff.mp h
  exact List.mem_append_right l₁ List.mem_cons_self

theorem lookup_of_not_mem {l : List (α × β)} {a : α} (h : a ∉ l.map Prod.fst) :
    l.lookup a = none := by
  rw [List.lookup_eq_none_iff]
  intro p hp
  rw [bne_iff_ne]
  rintro rfl
  exact h (List.mem_map_of_mem hp)

end Lists
end TableQuery
