import Mathlib.Data.List.Chain
import Mathlib.Data.List.Nodup
import Mathlib.Data.List.Perm.Subperm
import TableQuery.Proofs.Outcome
import TableQuery.Sql.Render

/-! The names of parameters: no two are the same, and none holds a character that could end a mark. -/

namespace TableQuery
namespace Binding

/-! Free names. -/

theorem toString_nat_injective : Function.Injective (toString : Nat → String) := by
  intro j k h
  have hc := congrArg (fun s : String => Nat.ofDigitChars 10 s.toList 0) h
  simpa using hc

theorem numbered_injective (name : String) :
    Function.Injective fun k : Nat => name ++ "__" ++ toString k := by
  intro j k h
  have hl := congrArg String.toList h
  simp only [String.toList_append, List.append_cancel_left_eq] at hl
  exact toString_nat_injective (String.toList_inj.mp hl)

/-- Where the search ends on a taken name, every name that it went through was taken. -/
theorem firstFree_mem {taken : List String} {name : String} {k tries : Nat}
    (h : firstFree taken name k tries ∈ taken) :
    ∀ i ≤ tries, name ++ "__" ++ toString (k + i) ∈ taken := by
  induction tries generalizing k with
  | zero =>
    intro i hi
    obtain rfl : i = 0 := by omega
    exact h
  | succ tries ih =>
    intro i hi
    rw [firstFree] at h
    by_cases hc : taken.contains (name ++ "__" ++ toString k) = true
    · rw [if_pos hc] at h
      cases i with
      | zero => exact List.contains_iff_mem.mp hc
      | succ i =>
        have := ih h i (by omega)
        rwa [show k + 1 + i = k + (i + 1) by omega] at this
    · rw [if_neg hc] at h
      exact absurd (List.contains_iff_mem.mpr h) hc

/-- There are fewer taken names than the search tries. -/
theorem free_not_mem (taken : List String) (name : String) : free taken name ∉ taken := by
  unfold free
  split
  · intro h
    have hall := firstFree_mem h
    have hsub : (List.range (taken.length + 1)).map (fun i => name ++ "__" ++ toString (1 + i)) ⊆
        taken := by
      intro s hs
      obtain ⟨i, hi, rfl⟩ := List.mem_map.mp hs
      exact hall i (by have := List.mem_range.mp hi; omega)
    have hnodup : ((List.range (taken.length + 1)).map
        (fun i => name ++ "__" ++ toString (1 + i))).Nodup := by
      refine List.nodup_range.map (fun i j hij => ?_)
      have := numbered_injective name hij
      omega
    have hle := (List.subperm_of_subset hnodup hsub).length_le
    rw [List.length_map, List.length_range] at hle
    omega
  · rename_i h
    exact fun hm => h (List.contains_iff_mem.mpr hm)

theorem firstFree_eq (taken : List String) (name : String) (k tries : Nat) :
    ∃ i : Nat, firstFree taken name k tries = name ++ "__" ++ toString i := by
  induction tries generalizing k with
  | zero => exact ⟨k, rfl⟩
  | succ tries ih =>
    rw [firstFree]
    split
    · exact ih (k + 1)
    · exact ⟨k, rfl⟩

theorem free_eq (taken : List String) (name : String) :
    free taken name = name ∨ ∃ i : Nat, free taken name = name ++ "__" ++ toString i := by
  unfold free
  split
  · exact .inr (firstFree_eq taken name 1 taken.length)
  · exact .inl rfl

theorem free_ne_empty {taken : List String} {name : String} (h : name ≠ "") :
    free taken name ≠ "" := by
  rcases free_eq taken name with he | ⟨i, he⟩ <;> rw [he]
  · exact h
  · intro hi
    have := congrArg String.toList hi
    simp at this

/-! Characters of names. -/

/-- The characters that numbering brings into a name. -/
def IsWord (c : Char) : Prop := c = '_' ∨ c.isAlphanum

instance : DecidablePred IsWord := fun c => inferInstanceAs (Decidable (c = '_' ∨ c.isAlphanum))

theorem isWord_of_mem_digits {n : Nat} {c : Char} (h : c ∈ (toString n).toList) : IsWord c := by
  rw [Nat.toString_eq_repr, Nat.toList_repr] at h
  have hd := Nat.isDigit_of_mem_toDigits (by omega) (by omega) h
  exact .inr (by simp [Char.isAlphanum, hd])

theorem isWord_of_mem_hex {n : Nat} {c : Char} (h : c ∈ (Text.hexNat n).toList) : IsWord c := by
  rw [Text.hexNat, String.toList_ofList] at h
  induction n using Nat.strongRecOn with
  | ind n ih =>
    have hdigit : ∀ k < 16, (Nat.digitChar k).isAlphanum := by decide
    rw [Nat.toDigits_eq_if (by omega)] at h
    split at h
    · rename_i hn
      obtain rfl := List.mem_singleton.mp h
      exact .inr (hdigit n hn)
    · rcases List.mem_append.mp h with h | h
      · exact ih (n / 16) (by omega) h
      · obtain rfl := List.mem_singleton.mp h
        exact .inr (hdigit (n % 16) (by omega))

/-- The characters that no parameter name holds. -/
def reserved : List Char := ['%', '(', ')', ':', '.', '[', ']', ' ']

def Clear (cs : List Char) : Prop := ∀ c ∈ cs, c ∉ reserved

/-- No blank, and no two tildes in a row: what the mark of a member list is sure to be read with. -/
structure Solid (cs : List Char) : Prop where
  dark : ∀ c ∈ cs, Text.isBlank c = false
  apart : cs.IsChain fun a b => a = '~' → b ≠ '~'

instance (cs : List Char) : Decidable (Solid cs) :=
  decidable_of_iff ((cs.all fun c => Text.isBlank c == false) ∧
      cs.IsChain fun a b => a = '~' → b ≠ '~')
    ⟨fun h => ⟨by simpa using h.1, h.2⟩, fun h => ⟨by simpa using h.dark, h.apart⟩⟩

theorem IsWord.not_reserved {c : Char} (h : IsWord c) : c ∉ reserved := by
  intro hm
  simp only [reserved, List.mem_cons, List.not_mem_nil, or_false] at hm
  rcases hm with rfl | rfl | rfl | rfl | rfl | rfl | rfl | rfl <;> exact absurd h (by decide)

theorem IsWord.dark {c : Char} (h : IsWord c) : Text.isBlank c = false := by
  rcases h with rfl | h
  · decide
  · have hc : 48 ≤ c.toNat ∧ c.toNat ≤ 122 := by
      delta Char.isAlphanum Char.isAlpha Char.isUpper Char.isLower Char.isDigit at h
      simp only [Bool.or_eq_true, Bool.and_eq_true, decide_eq_true_eq, ge_iff_le,
        UInt32.le_iff_toNat_le] at h
      change (((65 ≤ c.toNat ∧ c.toNat ≤ 90) ∨ (97 ≤ c.toNat ∧ c.toNat ≤ 122)) ∨
        (48 ≤ c.toNat ∧ c.toNat ≤ 57)) at h
      omega
    simp only [Text.isBlank, Text.inRanges, Text.blankRanges, List.any_cons, List.any_nil,
      Bool.or_eq_false_iff, Bool.and_eq_false_iff, decide_eq_false_iff_not, and_true]
    omega

theorem IsWord.ne_tilde {c : Char} (h : IsWord c) : c ≠ '~' := by
  rintro rfl
  exact absurd h (by decide)

theorem escapeChar_not_reserved (c : Char) : escapeChar c ∉ reserved := by
  unfold escapeChar
  split_ifs <;> simp_all [reserved]

/-- Escaping brings in letters and underscores only. -/
theorem escapeChar_eq (c : Char) : escapeChar c = c ∨ IsWord (escapeChar c) := by
  unfold escapeChar
  split_ifs <;> simp [IsWord]

theorem Clear.append_words {as bs : List Char} (ha : Clear as) (hb : ∀ c ∈ bs, IsWord c) :
    Clear (as ++ bs) := by
  intro c hc
  rcases List.mem_append.mp hc with hc | hc
  · exact ha c hc
  · exact (hb c hc).not_reserved

theorem Solid.append_words {as bs : List Char} (ha : Solid as) (hb : ∀ c ∈ bs, IsWord c) :
    Solid (as ++ bs) := by
  refine ⟨?_, List.isChain_append.mpr ⟨ha.apart, ?_, ?_⟩⟩
  · intro c hc
    rcases List.mem_append.mp hc with hc | hc
    · exact ha.dark c hc
    · exact (hb c hc).dark
  · have hp : bs.Pairwise fun a b => a = '~' → b ≠ '~' :=
      List.pairwise_of_forall_mem_list fun _ _ b hb' _ => (hb b hb').ne_tilde
    exact hp.isChain
  · intro a _ b hb' _
    exact (hb b (List.mem_of_mem_head? hb')).ne_tilde

theorem Solid.take {cs : List Char} (h : Solid cs) (k : Nat) : Solid (cs.take k) :=
  ⟨fun c hc => h.dark c (List.mem_of_mem_take hc), h.apart.take k⟩

theorem Solid.map_escape {cs : List Char} (h : Solid cs) : Solid (cs.map escapeChar) := by
  have hkeep : ∀ c, escapeChar c = '~' → c = '~' := by
    intro c hc
    rcases escapeChar_eq c with he | he
    · rw [← he, hc]
    · exact absurd hc he.ne_tilde
  refine ⟨?_, ?_⟩
  · intro c hc
    obtain ⟨a, ha, rfl⟩ := List.mem_map.mp hc
    rcases escapeChar_eq a with he | he
    · rw [he]
      exact h.dark a ha
    · exact he.dark
  · exact List.isChain_map_of_isChain escapeChar
      (fun a b hab ha hb => hab (hkeep a ha) (hkeep b hb)) h.apart

theorem escape_of_clear {name : String} (h : Clear name.toList) : escape name = name := by
  have hchar : ∀ c ∉ reserved, escapeChar c = c := by
    intro c hc
    simp only [reserved, List.mem_cons, List.not_mem_nil, or_false, not_or] at hc
    obtain ⟨h₁, h₂, h₃, h₄, h₅, h₆, h₇, h₈⟩ := hc
    simp [escapeChar, h₁, h₂, h₃, h₄, h₅, h₆, h₇, h₈]
  rw [← String.toList_inj, escape, String.toList_map]
  exact (List.map_congr_left fun c hc => hchar c (h c hc)).trans (List.map_id _)

/-! Names of the pieces of a statement. -/

theorem escape_ne_empty {name : String} (h : name ≠ "") : escape name ≠ "" := by
  intro he
  have hl := congrArg String.toList he
  rw [escape, String.toList_map] at hl
  exact h (String.toList_inj.mp (by simpa using hl))

/-- What a free name has in front of its number. -/
theorem free_toList (taken : List String) (name : String) :
    ∃ bs, (∀ c ∈ bs, IsWord c) ∧ (free taken name).toList = name.toList ++ bs := by
  rcases free_eq taken name with he | ⟨i, he⟩
  · exact ⟨[], by simp, by rw [he, List.append_nil]⟩
  · refine ⟨"__".toList ++ (toString i).toList, ?_, ?_⟩
    · intro c hc
      rcases List.mem_append.mp hc with hc | hc
      · exact .inl (by simpa using hc)
      · exact isWord_of_mem_digits hc
    · rw [he, String.toList_append, String.toList_append, List.append_assoc]

/-- What a name has to be to stand in a mark. -/
structure Fit (x : String) : Prop where
  clear : Clear x.toList
  ne : x ≠ ""

theorem Fit.free {name : String} (h : Fit name) (taken : List String) : Fit (free taken name) := by
  obtain ⟨bs, hbs, he⟩ := free_toList taken name
  refine ⟨?_, free_ne_empty h.ne⟩
  rw [he]
  exact h.clear.append_words hbs

theorem Fit.counted {name : String} (h : Fit name) (k : Nat) : Fit (name ++ "_" ++ toString k) := by
  constructor
  · rw [String.toList_append, String.toList_append, List.append_assoc]
    refine h.clear.append_words fun c hc => ?_
    rcases List.mem_append.mp hc with hc | hc
    · exact .inl (by simpa using hc)
    · exact isWord_of_mem_digits hc
  · intro he
    have := congrArg String.toList he
    simp at this

theorem fit_escape {name : String} (h : name ≠ "") : Fit (escape name) := by
  refine ⟨?_, escape_ne_empty h⟩
  intro c hc
  rw [escape, String.toList_map] at hc
  obtain ⟨a, -, rfl⟩ := List.mem_map.mp hc
  exact escapeChar_not_reserved a

/-- A counted name is that of its base with the count, or begins with a part of it and ends in the
number of names cut. -/
theorem next_eq (d : Dialect) (n : Names) (base : String) :
    (∃ k : Nat, (n.next d base).1 = base ++ "_" ++ toString k) ∨
    ∃ k m : Nat, (n.next d base).1 =
      String.ofList ((base ++ "_" ++ toString k).toList.take d.longestName) ++ "_" ++
        Text.hexNat m := by
  simp only [Names.next]
  split
  · exact .inr ⟨_, _, rfl⟩
  · exact .inl ⟨_, rfl⟩

theorem next_taken (d : Dialect) (n : Names) (base : String) :
    (n.next d base).2.taken = n.taken := by
  simp only [Names.next]
  split <;> rfl

theorem next_ne_empty (d : Dialect) (n : Names) (base : String) : (n.next d base).1 ≠ "" := by
  intro h
  have hl := congrArg String.toList h
  rcases next_eq d n base with ⟨k, hk⟩ | ⟨k, m, hk⟩ <;> rw [hk] at hl <;>
    simp [String.toList_append] at hl

theorem solid_counted {base : String} (h : Solid base.toList) (k : Nat) :
    Solid (base ++ "_" ++ toString k).toList := by
  rw [String.toList_append, String.toList_append, List.append_assoc]
  refine h.append_words fun c hc => ?_
  rcases List.mem_append.mp hc with hc | hc
  · exact .inl (by simpa using hc)
  · exact isWord_of_mem_digits hc

theorem solid_next {base : String} (d : Dialect) (n : Names) (h : Solid base.toList) :
    Solid (n.next d base).1.toList := by
  rcases next_eq d n base with ⟨k, hk⟩ | ⟨k, m, hk⟩ <;> rw [hk]
  · exact solid_counted h k
  · rw [String.toList_append, String.toList_append, String.toList_ofList, List.append_assoc]
    refine ((solid_counted h k).take d.longestName).append_words fun c hc => ?_
    rcases List.mem_append.mp hc with hc | hc
    · exact .inl (by simpa using hc)
    · exact isWord_of_mem_hex hc

theorem solid_free_escape (taken : List String) {name : String} (h : Solid name.toList) :
    Solid (free taken (escape name)).toList := by
  obtain ⟨bs, hbs, he⟩ := free_toList taken (escape name)
  rw [he, escape, String.toList_map]
  exact h.map_escape.append_words hbs

/-- A piece and the same piece with a name for its parameter. -/
inductive Labels : Piece → Named → Prop
  | text (s : String) : Labels (.text s) (.text s)
  | quoted (s : String) : Labels (.quoted s) (.quoted s)
  | cell {key x : String} (v : Value) (fit : key ≠ "" → Fit x) :
    Labels (.slot (.cell key v)) (.value key x v none)
  | operand {base x : String} (v : Value) (cast : Option Cast) (fit : Fit x) :
    Labels (.slot (.operand base v cast)) (.value x x v cast)
  | members {base x : String} (vs : List Value) (fit : Fit x)
    (solid : Solid base.toList → Solid x.toList) :
    Labels (.slot (.members base vs)) (.members x vs)

/-- What a counted name is, and what is taken after it. -/
theorem counted_eq_ok {d : Dialect} {n n' : Names} {base x : String}
    (h : n.counted d base = .ok (x, n')) :
    x = free n.taken (escape (n.next d base).1) ∧ n'.taken = x :: n.taken := by
  simp only [Names.counted] at h
  split at h
  · cases h
  · cases h
    simp [next_taken]

/-- A piece gets a name that is not taken, if any. -/
theorem name_eq_ok {d : Dialect} {n n' : Names} {p : Piece} {q : Named}
    (h : name d n p = .ok (q, n')) :
    Labels p q ∧ n'.taken = q.name?.toList ++ n.taken ∧ ∀ x ∈ q.name?, x ∉ n.taken := by
  cases p with
  | text s =>
    cases h
    exact ⟨.text s, rfl, by simp [Named.name?]⟩
  | quoted s =>
    cases h
    exact ⟨.quoted s, rfl, by simp [Named.name?]⟩
  | slot s =>
    cases s with
    | cell key v =>
      cases h
      refine ⟨.cell v fun hk => (fit_escape hk).free _, rfl, ?_⟩
      rintro x ⟨⟩
      exact free_not_mem _ _
    | operand base v cast =>
      obtain ⟨⟨x, m⟩, hx, h⟩ := Outcome.bind_eq_ok.mp h
      cases Outcome.pure_eq_ok.mp h
      obtain ⟨rfl, ht⟩ := counted_eq_ok hx
      refine ⟨.operand v cast ((fit_escape (next_ne_empty d n base)).free _), ht, ?_⟩
      rintro x ⟨⟩
      exact free_not_mem _ _
    | members base vs =>
      obtain ⟨⟨x, m⟩, hx, h⟩ := Outcome.bind_eq_ok.mp h
      cases Outcome.pure_eq_ok.mp h
      obtain ⟨rfl, ht⟩ := counted_eq_ok hx
      refine ⟨.members vs ((fit_escape (next_ne_empty d n base)).free _)
        (fun hs => solid_free_escape _ (solid_next d n hs)), ht, ?_⟩
      rintro x ⟨⟩
      exact free_not_mem _ _

theorem nameAll_cons {d : Dialect} {n n' : Names} {p : Piece} {l : Layout} {ps : List Named} :
    nameAll d n (p :: l) = .ok (ps, n') ↔
      ∃ q k qs, name d n p = .ok (q, k) ∧ nameAll d k l = .ok (qs, n') ∧ ps = q :: qs := by
  constructor
  · intro h
    obtain ⟨⟨q, k⟩, hq, h⟩ := Outcome.bind_eq_ok.mp h
    obtain ⟨⟨qs, _⟩, hqs, h⟩ := Outcome.bind_eq_ok.mp h
    cases Outcome.pure_eq_ok.mp h
    exact ⟨q, k, qs, hq, hqs, rfl⟩
  · rintro ⟨q, k, qs, hq, hqs, rfl⟩
    exact Outcome.bind_eq_ok.mpr ⟨_, hq, Outcome.bind_eq_ok.mpr ⟨_, hqs, rfl⟩⟩

/-- Every piece is labelled, each with a name of its own. -/
theorem nameAll_eq_ok {d : Dialect} {n n' : Names} {l : Layout} {ps : List Named}
    (h : nameAll d n l = .ok (ps, n')) (hn : n.taken.Nodup) :
    List.Forall₂ Labels l ps ∧ n'.taken = (ps.filterMap (·.name?)).reverse ++ n.taken ∧
      n'.taken.Nodup := by
  induction l generalizing n ps with
  | nil =>
    cases h
    exact ⟨.nil, rfl, hn⟩
  | cons p l ih =>
    obtain ⟨q, m, qs, hq, hqs, rfl⟩ := nameAll_cons.mp h
    obtain ⟨hl, ht, hfree⟩ := name_eq_ok hq
    have hm : m.taken.Nodup := by
      rw [ht]
      cases hx : q.name? with
      | none => simpa using hn
      | some x => simpa [hn] using hfree x hx
    obtain ⟨hls, hts, hnd⟩ := ih hqs hm
    refine ⟨.cons hl hls, ?_, hnd⟩
    rw [hts, ht]
    cases hx : q.name? <;> simp [hx]

end Binding
end TableQuery
