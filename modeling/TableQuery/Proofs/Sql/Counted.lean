import TableQuery.Proofs.Sql.Writable

/-! The names that are counted under bases of letters, digits and underscores: no two are the same, so
that each is taken as it was counted, whatever the cells in front of it are called. -/

namespace TableQuery
namespace Binding

/-- A base, or the name of a column, that no character has to be replaced in. -/
def Wordy (s : String) : Prop := ∀ c ∈ s.toList, IsWord c

instance : DecidablePred Wordy := fun s =>
  decidable_of_iff ((s.toList.all fun c => decide (IsWord c)) = true) (by simp [Wordy])

theorem Wordy.escape {s : String} (h : Wordy s) : escape s = s :=
  escape_of_clear fun c hc => (h c hc).not_reserved

theorem wordy_param : Wordy "param" := by decide

/-! Numbers behind an underscore. -/

theorem underscore_not_mem_digits (k : Nat) : '_' ∉ (toString k).toList := by
  rw [Nat.toString_eq_repr, Nat.toList_repr]
  exact Nat.underscore_not_in_toDigits

theorem digitChar_injective {j k : Nat} (hj : j < 16) (hk : k < 16)
    (h : Nat.digitChar j = Nat.digitChar k) : j = k := by
  have hall : ∀ j < 16, ∀ k < 16, Nat.digitChar j = Nat.digitChar k → j = k := by decide
  exact hall j hj k hk h

theorem toDigits_injective : Function.Injective (Nat.toDigits 16) := by
  intro j
  induction j using Nat.strongRecOn with
  | ind j ih =>
    intro k h
    have hpos : ∀ n, 0 < (Nat.toDigits 16 n).length := fun n => Nat.length_toDigits_pos
    rw [Nat.toDigits_eq_if (by omega), Nat.toDigits_eq_if (n := k) (by omega)] at h
    -- Both have one digit or both have more; else the texts differ in length.
    split at h <;> split at h
    · rename_i hj hk
      exact digitChar_injective hj hk (List.singleton_inj.mp h)
    · have hl := congrArg List.length h
      have := hpos (k / 16)
      simp only [List.length_singleton, List.length_append] at hl
      omega
    · have hl := congrArg List.length h
      have := hpos (j / 16)
      simp only [List.length_singleton, List.length_append] at hl
      omega
    · obtain ⟨hq, hr⟩ := List.append_inj' h rfl
      have hdiv : j / 16 = k / 16 := ih (j / 16) (by omega) hq
      have hmod := digitChar_injective (Nat.mod_lt j (by omega)) (Nat.mod_lt k (by omega))
        (List.singleton_inj.mp hr)
      omega

theorem hexNat_injective : Function.Injective Text.hexNat := by
  intro j k h
  have hl := congrArg String.toList h
  rw [Text.hexNat, Text.hexNat, String.toList_ofList, String.toList_ofList] at hl
  exact toDigits_injective hl

theorem eq_of_append_underscore {as bs cs ds : List Char} (ha : '_' ∉ as) (hb : '_' ∉ bs)
    (h : as ++ '_' :: cs = bs ++ '_' :: ds) : as = bs ∧ cs = ds := by
  have htake : ∀ {xs : List Char} (ys : List Char), '_' ∉ xs →
      (xs ++ '_' :: ys).takeWhile (· != '_') = xs := by
    intro xs ys hx
    rw [List.takeWhile_append_of_pos fun c hc => by simpa using fun he : c = '_' => hx (he ▸ hc)]
    simp
  have hab : as = bs := by rw [← htake cs ha, h, htake ds hb]
  subst hab
  exact ⟨rfl, (List.cons.inj (List.append_cancel_left h)).2⟩

/-- A base and its count are read off a name that was not cut. -/
theorem counted_injective {b b' : String} {k k' : Nat}
    (h : b ++ "_" ++ toString k = b' ++ "_" ++ toString k') : b = b' ∧ k = k' := by
  have hr := congrArg (fun s : String => s.toList.reverse) h
  simp only [String.toList_append, List.reverse_append] at hr
  have hone : "_".toList.reverse = ['_'] := rfl
  have hk : ∀ k : Nat, '_' ∉ (toString k).toList.reverse := fun k hm =>
    underscore_not_mem_digits k (List.mem_reverse.mp hm)
  rw [hone, List.singleton_append, List.singleton_append] at hr
  obtain ⟨hd, hb⟩ := eq_of_append_underscore (hk k) (hk k') hr
  exact ⟨String.toList_inj.mp (List.reverse_injective hb),
    toString_nat_injective (String.toList_inj.mp (List.reverse_injective hd))⟩

/-! Names that were counted. -/

namespace Names

variable {d : Dialect} {n : Names}

/-- A name that was given out before: counted under a base, or cut and with the number of names cut. -/
inductive Counted (d : Dialect) (n : Names) : String → Prop
  | whole {base : String} {k : Nat} (short : (base ++ "_" ++ toString k).length ≤ d.longestName)
    (count : k ≤ (n.counts.lookup base).getD 0) : Counted d n (base ++ "_" ++ toString k)
  | cut {part : String} {m : Nat} (long : part.length = d.longestName) (number : m ≤ n.cut) :
    Counted d n (part ++ "_" ++ Text.hexNat m)

/-- What is taken was counted, or is the name of a cell. -/
def Settled (d : Dialect) (n : Names) : Prop := ∀ x ∈ n.taken, n.Counted d x ∨ x ∈ n.keys

/-- No base has been counted further than this. -/
def Few (n : Names) (most : Nat) : Prop := ∀ base, (n.counts.lookup base).getD 0 ≤ most

theorem few_nil : Few {} 0 := fun _ => le_rfl

/-- The count of a base after the next one, which may be under another base. -/
theorem lookup_next (d : Dialect) (n : Names) (base other : String) :
    ((n.next d base).2.counts.lookup other).getD 0 =
      (n.counts.lookup other).getD 0 + if other = base then 1 else 0 := by
  have hcounts : (n.next d base).2.counts =
      (base, (n.counts.lookup base).getD 0 + 1) :: n.counts := by
    simp only [Names.next]
    split <;> rfl
  rw [hcounts]
  by_cases h : other = base
  · rw [h, List.lookup_cons_self, if_pos rfl]
    rfl
  · rw [Lists.lookup_cons_of_ne h, if_neg h, Nat.add_zero]

theorem cut_next (d : Dialect) (n : Names) (base : String) : n.cut ≤ (n.next d base).2.cut := by
  simp only [Names.next]
  split
  · exact Nat.le_succ n.cut
  · exact le_rfl

theorem Counted.next {x : String} (h : n.Counted d x) (base : String) :
    (n.next d base).2.Counted d x := by
  cases h with
  | whole short count =>
    refine .whole short (count.trans ?_)
    rw [lookup_next]
    exact Nat.le_add_right _ _
  | cut long number => exact .cut long (number.trans (cut_next d n base))

theorem Few.next {most : Nat} (h : n.Few most) (d : Dialect) (base : String) :
    (n.next d base).2.Few (most + 1) := by
  intro other
  rw [lookup_next]
  have := h other
  split <;> omega

/-- The next name is the base with its count, unless that is too long. -/
theorem next_whole {base : String}
    (h : (base ++ "_" ++ toString ((n.counts.lookup base).getD 0 + 1)).length ≤ d.longestName) :
    (n.next d base).1 = base ++ "_" ++ toString ((n.counts.lookup base).getD 0 + 1) := by
  simp only [Names.next, if_neg (not_lt.mpr h)]

theorem next_cut {base : String}
    (h : d.longestName < (base ++ "_" ++ toString ((n.counts.lookup base).getD 0 + 1)).length) :
    ∃ part : String, part.length = d.longestName ∧
      (n.next d base).1 = part ++ "_" ++ Text.hexNat (n.cut + 1) ∧
      (n.next d base).2.cut = n.cut + 1 := by
  refine ⟨String.ofList ((base ++ "_" ++
    toString ((n.counts.lookup base).getD 0 + 1)).toList.take d.longestName), ?_, ?_, ?_⟩
  · rw [String.length_ofList, List.length_take, String.length_toList]
    exact min_eq_left h.le
  · simp only [Names.next, if_pos h]
  · simp only [Names.next, if_pos h]

theorem counted_next (d : Dialect) (n : Names) (base : String) :
    (n.next d base).2.Counted d (n.next d base).1 := by
  by_cases h : (base ++ "_" ++ toString ((n.counts.lookup base).getD 0 + 1)).length ≤ d.longestName
  · rw [next_whole h]
    refine .whole h ?_
    rw [lookup_next, if_pos rfl]
  · obtain ⟨part, hpart, hname, hcut⟩ := next_cut (not_le.mp h)
    rw [hname]
    exact .cut hpart hcut.ge

/-- A name that is cut is longer than any that is not. -/
theorem not_counted_next (d : Dialect) (n : Names) (base : String) :
    ¬ n.Counted d (n.next d base).1 := by
  have hlong : ∀ {part : String} {m : Nat}, part.length = d.longestName →
      d.longestName < (part ++ "_" ++ Text.hexNat m).length := by
    intro part m hpart
    have hone : "_".length = 1 := rfl
    rw [String.length_append, String.length_append, hpart, hone]
    omega
  intro hx
  generalize he : (n.next d base).1 = x at hx
  by_cases h : (base ++ "_" ++ toString ((n.counts.lookup base).getD 0 + 1)).length ≤ d.longestName
  · have hname := next_whole h
    cases hx with
    | whole short count =>
      obtain ⟨rfl, rfl⟩ := counted_injective (hname.symm.trans he)
      omega
    | cut long number =>
      rw [← hname, he] at h
      exact absurd (hlong long) (not_lt.mpr h)
  · obtain ⟨part, hpart, hname, -⟩ := next_cut (not_le.mp h)
    have hxl := hlong (m := n.cut + 1) hpart
    rw [← hname, he] at hxl
    cases hx with
    | whole short count => exact absurd short (not_le.mpr hxl)
    | @cut part' m long number =>
      -- Parts of one length, with one underscore behind them.
      have hl := congrArg String.toList (hname.symm.trans he)
      simp only [String.toList_append, List.append_assoc] at hl
      obtain ⟨-, hrest⟩ := List.append_inj hl (by
        rw [String.length_toList, String.length_toList, hpart, long])
      have hm := hexNat_injective (String.toList_inj.mp (List.append_cancel_left hrest))
      omega

theorem wordy_next {base : String} (h : Wordy base) (d : Dialect) (n : Names) :
    Wordy (n.next d base).1 := by
  have hone : ∀ c ∈ "_".toList, IsWord c := fun c hc => .inl (by simpa using hc)
  have hwhole : ∀ k : Nat, Wordy (base ++ "_" ++ toString k) := by
    intro k c hc
    rw [String.toList_append, String.toList_append] at hc
    rcases List.mem_append.mp hc with hc | hc
    · exact (List.mem_append.mp hc).elim (h c) (hone c)
    · exact isWord_of_mem_digits hc
  rcases next_eq d n base with ⟨k, hk⟩ | ⟨k, m, hk⟩ <;> rw [hk]
  · exact hwhole k
  · intro c hc
    rw [String.toList_append, String.toList_append, String.toList_ofList] at hc
    rcases List.mem_append.mp hc with hc | hc
    · exact (List.mem_append.mp hc).elim (fun hc => hwhole k c (List.mem_of_mem_take hc)) (hone c)
    · exact isWord_of_mem_hex hc

/-- Where all that is taken was counted or belongs to a cell, a name is taken as it is counted. -/
theorem Settled.counted {m : Names} {base x : String} (hn : n.Settled d) (hw : Wordy base)
    (h : n.counted d base = .ok (x, m)) : x = (n.next d base).1 ∧ m.Settled d := by
  obtain ⟨hx, htaken⟩ := counted_eq_ok h
  obtain ⟨hcounts, hcut, hkeys⟩ := counted_state h
  have hnew : (n.next d base).1 ∉ n.taken := fun hm =>
    (hn _ hm).elim (not_counted_next d n base) (exists_counted.mp ⟨_, h⟩)
  rw [(wordy_next hw d n).escape, free, if_neg (by simpa using hnew)] at hx
  have hlater : ∀ y, (n.next d base).2.Counted d y → m.Counted d y := by
    intro y hy
    cases hy with
    | whole short count => exact .whole short (hcounts ▸ count)
    | cut long number => exact .cut long (hcut ▸ number)
  refine ⟨hx, fun y hy => ?_⟩
  rw [htaken, hx] at hy
  rcases List.mem_cons.mp hy with rfl | hy
  · exact .inl (hlater _ (counted_next d n base))
  · exact (hn y hy).imp (fun hc => hlater y (hc.next base)) fun hk => hkeys ▸ hk

/-- Two states that count alike, each with names of cells of its own. -/
structure Like (d : Dialect) (n m : Names) : Prop where
  counts : n.counts = m.counts
  cut : n.cut = m.cut
  left : n.Settled d
  right : m.Settled d

theorem Like.counted {n' m m' : Names} {base x y : String} (h : Like d n m) (hw : Wordy base)
    (hn : n.counted d base = .ok (x, n')) (hm : m.counted d base = .ok (y, m')) :
    x = y ∧ Like d n' m' := by
  obtain ⟨hx, hleft⟩ := h.left.counted hw hn
  obtain ⟨hy, hright⟩ := h.right.counted hw hm
  obtain ⟨hname, hcounts, hcut⟩ := next_congr (d := d) h.counts h.cut base
  obtain ⟨hcn, hun, -⟩ := counted_state hn
  obtain ⟨hcm, hum, -⟩ := counted_state hm
  exact ⟨hx.trans (hname.trans hy.symm), hcn.trans (hcounts.trans hcm.symm),
    hun.trans (hcut.trans hum.symm), hleft, hright⟩

end Names

/-- A piece that is no cell, with this name for its place if it has one. -/
def label (x : String) : Piece → Named
  | .text s => .text s
  | .quoted s => .quoted s
  | .slot (.cell key v) => .value key x v none
  | .slot (.operand _ v cast) => .value x x v cast
  | .slot (.members _ vs) => .members x vs

variable {d : Dialect} {n n' : Names} {l : Layout} {ps : List Named}

theorem counted_cases (p : Piece) : p.counted = [] ∨ ∃ base, p.counted = [base] := by
  cases p with
  | slot s =>
    cases s with
    | cell key v => exact .inl rfl
    | operand base v cast => exact .inr ⟨base, rfl⟩
    | members base vs => exact .inr ⟨base, rfl⟩
  | _ => exact .inl rfl

theorem name_uncounted {p : Piece} (h : p.counted = []) (hc : p.cellKeys = []) :
    name d n p = .ok (label "" p, n) ∧ (label "" p).name? = none := by
  cases p with
  | slot s =>
    cases s with
    | cell key v => cases hc
    | operand base v cast => cases h
    | members base vs => cases h
  | _ => exact ⟨rfl, rfl⟩

theorem name_counted {p : Piece} {base : String} (h : p.counted = [base]) :
    (name d n p = n.counted d base >>= fun r => pure (label r.1 p, r.2)) ∧
      ∀ x, (label x p).name? = some x := by
  cases p with
  | slot s =>
    cases s with
    | cell key v => cases h
    | operand base v cast => cases h; exact ⟨rfl, fun _ => rfl⟩
    | members base vs => cases h; exact ⟨rfl, fun _ => rfl⟩
  | _ => cases h

theorem cell_cases (p : Piece) : p.cellKeys = [] ∨ ∃ key v, p = .slot (.cell key v) := by
  cases p with
  | slot s =>
    cases s with
    | cell key v => exact .inr ⟨key, v, rfl⟩
    | _ => exact .inl rfl
  | _ => exact .inl rfl

/-- Cells whose columns need no other names are called as these, and nothing is counted. -/
theorem nameAll_cells (h : nameAll d n l = .ok (ps, n')) (hl : l.flatMap Piece.counted = [])
    (hkeys : l.cellKeys.Nodup) (hfree : ∀ k ∈ l.cellKeys, escape k = k ∧ k ∉ n.taken) :
    n'.counts = n.counts ∧ n'.cut = n.cut ∧ n'.keys = l.cellKeys.reverse ++ n.keys ∧
      n'.taken = l.cellKeys.reverse ++ n.taken := by
  induction l generalizing n ps with
  | nil =>
    cases h
    exact ⟨rfl, rfl, rfl, rfl⟩
  | cons p l ih =>
    obtain ⟨q, m, qs, hq, hqs, rfl⟩ := nameAll_cons.mp h
    obtain ⟨hp, hl⟩ := List.append_eq_nil_iff.mp hl
    have hcons : Layout.cellKeys (p :: l) = p.cellKeys ++ Layout.cellKeys l := List.flatMap_cons
    rcases cell_cases p with hc | ⟨key, v, rfl⟩
    · cases (name_uncounted hp hc).1.symm.trans hq
      rw [hcons, hc, List.nil_append] at hkeys hfree ⊢
      exact ih hqs hl hkeys hfree
    · cases hq
      -- The column takes its own name, which no later cell has.
      obtain ⟨hname, hkeys, hlater⟩ := free_cell hkeys hfree
      obtain ⟨hcounts, hcut, hnames, htaken⟩ := ih hqs hl hkeys (by
        change ∀ k ∈ Layout.cellKeys l, escape k = k ∧ k ∉ free n.taken (escape key) :: n.taken
        rwa [hname])
      have hreverse : ∀ ks : List String, (Layout.cellKeys (.slot (.cell key v) :: l)).reverse ++ ks =
          (Layout.cellKeys l).reverse ++ key :: ks := by
        intro ks
        rw [hcons, List.reverse_append, List.append_assoc]
        rfl
      rw [hreverse, hreverse]
      refine ⟨hcounts, hcut, hnames, htaken.trans ?_⟩
      change _ ++ free n.taken (escape key) :: n.taken = _
      rw [hname]

/-- Pieces without cells have the same names, whatever cells stand before them. -/
theorem nameAll_like {m m' : Names} {qs : List Named} (h : Names.Like d n m) (hl : l.cellKeys = [])
    (hw : ∀ b ∈ l.flatMap Piece.counted, Wordy b) (hn : nameAll d n l = .ok (ps, n'))
    (hm : nameAll d m l = .ok (qs, m')) : ps = qs ∧ Names.Like d n' m' := by
  induction l generalizing n m ps qs with
  | nil =>
    cases hn
    cases hm
    exact ⟨rfl, h⟩
  | cons p l ih =>
    obtain ⟨q, k, rest, hq, hrest, rfl⟩ := nameAll_cons.mp hn
    obtain ⟨q', j, rest', hq', hrest', rfl⟩ := nameAll_cons.mp hm
    obtain ⟨hcell, hl⟩ := List.append_eq_nil_iff.mp hl
    rw [List.flatMap_cons, List.forall_mem_append] at hw
    have hfirst : q = q' ∧ Names.Like d k j := by
      rcases counted_cases p with hp | ⟨base, hp⟩
      · rw [(name_uncounted hp hcell).1] at hq hq'
        cases hq
        cases hq'
        exact ⟨rfl, h⟩
      · rw [(name_counted hp).1] at hq hq'
        obtain ⟨⟨x, k₁⟩, hx, hq⟩ := Outcome.bind_eq_ok.mp hq
        obtain ⟨⟨y, j₁⟩, hy, hq'⟩ := Outcome.bind_eq_ok.mp hq'
        cases Outcome.pure_eq_ok.mp hq
        cases Outcome.pure_eq_ok.mp hq'
        obtain ⟨rfl, hlike⟩ := h.counted (hw.1 base (hp ▸ List.mem_singleton_self base)) hx hy
        exact ⟨rfl, hlike⟩
    obtain ⟨rfl, hlike⟩ := hfirst
    obtain ⟨rfl, hlast⟩ := ih hlike hl hw.2 hrest hrest'
    exact ⟨rfl, hlast⟩

/-- What every counted piece keeps, all pieces keep, and what holds of its name, holds of all names. -/
theorem forall_names {P : String → Prop} {I : Names → Layout → Prop}
    (hskip : ∀ n p l, p.counted = [] → I n (p :: l) → I n l)
    (hstep : ∀ n m p l base x, p.counted = [base] → I n (p :: l) → n.counted d base = .ok (x, m) →
      P x ∧ I m l) (hl : l.cellKeys = []) (h : nameAll d n l = .ok (ps, n')) (hi : I n l) :
    (∀ x ∈ ps.filterMap (·.name?), P x) ∧ I n' [] := by
  induction l generalizing n ps with
  | nil =>
    cases h
    exact ⟨fun _ hx => absurd hx List.not_mem_nil, hi⟩
  | cons p l ih =>
    obtain ⟨q, k, rest, hq, hrest, rfl⟩ := nameAll_cons.mp h
    obtain ⟨hcell, hl⟩ := List.append_eq_nil_iff.mp hl
    rcases counted_cases p with hp | ⟨base, hp⟩
    · obtain ⟨hq', hnone⟩ := name_uncounted (d := d) (n := n) hp hcell
      cases hq'.symm.trans hq
      rw [List.filterMap_cons_none hnone]
      exact ih hl hrest (hskip n p l hp hi)
    · obtain ⟨hq', hsome⟩ := name_counted (d := d) (n := n) hp
      obtain ⟨⟨x, m⟩, hx, hq''⟩ := Outcome.bind_eq_ok.mp (hq'.symm.trans hq)
      cases Outcome.pure_eq_ok.mp hq''
      obtain ⟨hpx, him⟩ := hstep n m p l base x hp hi hx
      obtain ⟨hall, hlast⟩ := ih hl hrest him
      rw [List.filterMap_cons_some (hsome x)]
      exact ⟨List.forall_mem_cons.mpr ⟨hpx, hall⟩, hlast⟩

theorem names_uncounted (hl : l.cellKeys = []) (hc : l.flatMap Piece.counted = [])
    (h : nameAll d n l = .ok (ps, n')) : ps.filterMap (·.name?) = [] := by
  refine List.eq_nil_iff_forall_not_mem.mpr
    (forall_names (I := fun _ l => l.flatMap Piece.counted = []) ?_ ?_ hl h hc).1
  · exact fun n p l _ hi => (List.append_eq_nil_iff.mp hi).2
  · intro n m p l base x hp hi _
    exact absurd (hp.symm.trans (List.append_eq_nil_iff.mp hi).1) (List.cons_ne_nil base [])

/-! Names with one underscore. -/

namespace Names

/-- A base whose names are not cut, and have no underscore but that in front of their counts. -/
structure Narrow (d : Dialect) (most : Nat) (base : String) : Prop where
  wordy : Wordy base
  plain : '_' ∉ base.toList
  short : ∀ k ≤ most, (base ++ "_" ++ toString k).length ≤ d.longestName

/-- So many places are still to be counted that no base comes to be counted further than this. -/
structure Within (d : Dialect) (most : Nat) (n : Names) (l : Layout) : Prop where
  settled : n.Settled d
  few : ∃ k, n.Few k ∧ k + (l.flatMap Piece.counted).length ≤ most
  wordy : ∀ b ∈ l.flatMap Piece.counted, Wordy b

variable {most : Nat} {m : Names} {p : Piece} {base x : String}

theorem Within.skip (hp : p.counted = []) (h : Within d most n (p :: l)) : Within d most n l := by
  have hl : List.flatMap Piece.counted (p :: l) = l.flatMap Piece.counted := by
    rw [List.flatMap_cons, hp, List.nil_append]
  exact ⟨h.settled, hl ▸ h.few, hl ▸ h.wordy⟩

theorem Within.step (hp : p.counted = [base]) (h : Within d most n (p :: l))
    (hx : n.counted d base = .ok (x, m)) : x = (n.next d base).1 ∧ Within d most m l := by
  obtain ⟨hsettled, ⟨k, hfew, hk⟩, hwordy⟩ := h
  rw [List.flatMap_cons, hp] at hk hwordy
  obtain ⟨hbase, hwordy⟩ := List.forall_mem_cons.mp hwordy
  obtain ⟨rfl, hm⟩ := hsettled.counted hbase hx
  rw [List.singleton_append, List.length_cons] at hk
  refine ⟨rfl, hm, ⟨k + 1, ?_, by omega⟩, hwordy⟩
  intro other
  rw [(counted_state hx).1]
  exact hfew.next d base other

/-- Where no more can be counted, the next name under a narrow base has one underscore. -/
theorem count_next (hb : Narrow d most base) (hfew : (n.counts.lookup base).getD 0 < most) :
    (n.next d base).1.toList.count '_' = 1 := by
  rw [next_whole (hb.short _ hfew), String.toList_append, String.toList_append, List.count_append,
    List.count_append, List.count_eq_zero.mpr hb.plain,
    List.count_eq_zero.mpr (underscore_not_mem_digits _)]
  rfl

end Names

theorem nameAll_within {most : Nat} (hl : l.cellKeys = []) (h : nameAll d n l = .ok (ps, n'))
    (hn : n.Within d most l) : n'.Within d most [] :=
  (forall_names (P := fun _ => True) (fun _ _ _ hp hi => hi.skip hp)
    (fun _ _ _ _ _ _ hp hi hx => ⟨trivial, (hi.step hp hx).2⟩) hl h hn).2

theorem count_nameAll {most : Nat} (hl : l.cellKeys = []) (h : nameAll d n l = .ok (ps, n'))
    (hn : n.Within d most l) (hb : ∀ b ∈ l.flatMap Piece.counted, Names.Narrow d most b) :
    ∀ x ∈ ps.filterMap (·.name?), x.toList.count '_' = 1 := by
  refine (forall_names (P := fun x => x.toList.count '_' = 1)
    (I := fun n l => n.Within d most l ∧ ∀ b ∈ l.flatMap Piece.counted, Names.Narrow d most b)
    ?_ ?_ hl h ⟨hn, hb⟩).1
  · rintro n p l hp ⟨hi, hb⟩
    exact ⟨hi.skip hp, fun b hm => hb b (List.mem_append_right _ hm)⟩
  · rintro n m p l base x hp ⟨hi, hb⟩ hx
    obtain ⟨rfl, hm⟩ := hi.step hp hx
    obtain ⟨k, hfew, hk⟩ := hi.few
    rw [List.flatMap_cons, hp] at hb hk
    rw [List.singleton_append, List.length_cons] at hk
    obtain ⟨hbase, hb⟩ := List.forall_mem_cons.mp hb
    exact ⟨Names.count_next hbase ((hfew base).trans_lt (by omega)), hm, hb⟩

/-- The name of a list has an underscore, so that those of its members have two. -/
theorem underscore_nameAll (hl : l.cellKeys = []) (h : nameAll d n l = .ok (ps, n')) :
    ∀ x ∈ ps.filterMap (·.name?), 1 ≤ x.toList.count '_' := by
  refine (forall_names (I := fun _ _ => True) (fun _ _ _ _ _ => trivial) ?_ hl h trivial).1
  intro n m p l base x hp _ hx
  obtain ⟨bs, -, hfree⟩ := free_toList n.taken (escape (n.next d base).1)
  have hname : '_' ∈ (n.next d base).1.toList := by
    rcases next_eq d n base with ⟨k, hk⟩ | ⟨k, m, hk⟩ <;> rw [hk] <;> simp
  have hescape : '_' ∈ (escape (n.next d base).1).toList := by
    rw [escape, String.toList_map]
    exact List.mem_map.mpr ⟨'_', hname, by decide⟩
  refine ⟨?_, trivial⟩
  rw [(counted_eq_ok hx).1, hfree, Nat.succ_le_iff, List.count_pos_iff]
  exact List.mem_append_left bs hescape

theorem inherits_count (k : Nat) : Inherits (fun x => k ≤ x.toList.count '_')
    (fun x => k + 1 ≤ x.toList.count '_') := by
  have hnumbered : ∀ (x : String) (j : Nat), (x ++ "_" ++ toString j).toList.count '_' =
      x.toList.count '_' + 1 := by
    intro x j
    rw [String.toList_append, String.toList_append, List.count_append, List.count_append,
      List.count_eq_zero.mpr (underscore_not_mem_digits j)]
    rfl
  refine ⟨fun x j h => ?_, fun x j h => ?_, fun taken x h => ?_⟩
  · rw [hnumbered]
    omega
  · rw [hnumbered]
    omega
  · obtain ⟨bs, -, hfree⟩ := free_toList taken x
    rw [hfree, List.count_append]
    omega

end Binding
end TableQuery
