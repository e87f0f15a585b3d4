import TableQuery.Proofs.Sql.Plain

/-! Names that are free, and still are when others are taken as well: members keep their names unless
one of these is taken for something else. -/

namespace TableQuery
namespace Binding

/-- The search ends behind numbers that were all taken. -/
theorem firstFree_passes (taken : List String) (name : String) (k tries : Nat) :
    ∃ i, firstFree taken name k tries = name ++ "__" ++ toString (k + i) ∧
      ∀ j < i, name ++ "__" ++ toString (k + j) ∈ taken := by
  induction tries generalizing k with
  | zero => exact ⟨0, rfl, fun j hj => absurd hj (Nat.not_lt_zero j)⟩
  | succ tries ih =>
    rw [firstFree]
    split
    · rename_i hk
      obtain ⟨i, hi, hpassed⟩ := ih (k + 1)
      refine ⟨i + 1, by rw [hi, Nat.add_assoc, Nat.add_comm 1 i], fun j hj => ?_⟩
      cases j with
      | zero => exact List.contains_iff_mem.mp hk
      | succ j =>
        have := hpassed j (by omega)
        rwa [Nat.add_assoc, Nat.add_comm 1 j] at this
    · exact ⟨0, rfl, fun j hj => absurd hj (Nat.not_lt_zero j)⟩

/-- A name that is still free is found where it was. -/
theorem free_mono {taken more : List String} {name : String} (h : taken ⊆ more)
    (hfree : free taken name ∉ more) : free more name = free taken name := by
  by_cases hname : name ∈ taken
  · have hboth : ∀ names : List String, name ∈ names →
        free names name = firstFree names name 1 names.length := fun names hm => by
      rw [free, if_pos (List.contains_iff_mem.mpr hm)]
    have hend := free_not_mem more name
    rw [hboth taken hname] at hfree ⊢
    rw [hboth more (h hname)] at hend ⊢
    obtain ⟨i, hi, hpassed⟩ := firstFree_passes taken name 1 taken.length
    obtain ⟨j, hj, hpassed'⟩ := firstFree_passes more name 1 more.length
    rw [hi] at hfree ⊢
    rw [hj] at hend ⊢
    rcases Nat.lt_trichotomy i j with hij | rfl | hij
    · exact absurd (hpassed' i hij) hfree
    · rfl
    · exact absurd (h (hpassed j hij)) hend
  · have hself : free taken name = name := by rw [free, if_neg (by simpa using hname)]
    rw [hself] at hfree ⊢
    rw [free, if_neg (by simpa using hfree)]

/-- The names on the right are those on the left, and some of these. -/
structure Adds (others taken more : List String) : Prop where
  subset : taken ⊆ more
  only : ∀ x ∈ more, x ∈ taken ∨ x ∈ others

variable {others taken more : List String}

theorem Adds.append (h : Adds others taken more) (xs : List String) :
    Adds others (xs ++ taken) (xs ++ more) := by
  constructor
  · intro x hx
    exact List.mem_append.mpr ((List.mem_append.mp hx).imp_right fun hx => h.subset hx)
  · intro x hx
    rcases List.mem_append.mp hx with hx | hx
    · exact .inl (List.mem_append_left taken hx)
    · exact (h.only x hx).imp_left (List.mem_append_right xs)

theorem Adds.free (h : Adds others taken more) {name : String} (hn : free taken name ∉ others) :
    free more name = free taken name :=
  free_mono h.subset fun hm => (h.only _ hm).elim (free_not_mem taken name) hn

theorem freeAll_adds (h : Adds others taken more) {ps : List (String × Value)}
    (hn : ∀ p ∈ (freeAll taken ps).1, p.1 ∉ others) :
    (freeAll more ps).1 = (freeAll taken ps).1 := by
  induction ps generalizing taken more with
  | nil => rfl
  | cons p ps ih =>
    obtain ⟨name, v⟩ := p
    obtain ⟨hname, hrest⟩ := List.forall_mem_cons.mp hn
    simp only [freeAll, h.free hname]
    exact congrArg _ (ih (h.append [free taken name]) hrest)

/-- A list is written out with the same names, unless one of these is added. -/
theorem expand_adds {d : Dialect} (h : Adds others taken more) {x : String} {vs : List Value}
    {ps : List Named} {params : List (String × Value)} {t : List String}
    (he : expand d taken x vs = .ok (ps, params, t)) (hn : ∀ p ∈ params, p.1 ∉ others) :
    ∃ m, expand d more x vs = .ok (ps, params, m) ∧ Adds others t m := by
  have hlast : ∀ cells : List (String × Value), (freeAll taken cells).1 = params →
      (freeAll more cells).1 = params ∧
        Adds others (freeAll taken cells).2 (freeAll more cells).2 := by
    intro cells hc
    have hsame : (freeAll more cells).1 = (freeAll taken cells).1 := freeAll_adds h (hc ▸ hn)
    refine ⟨hsame.trans hc, ?_⟩
    rw [(freeAll_spec taken cells).2.1, (freeAll_spec more cells).2.1, hsame]
    exact h.append _
  unfold expand at he ⊢
  cases hr : rows? vs with
  | some rows =>
    rw [hr] at he
    obtain ⟨items, hitems, he⟩ := Outcome.bind_eq_ok.mp he
    obtain ⟨pieces, hpieces, he⟩ := Outcome.bind_eq_ok.mp he
    cases Outcome.pure_eq_ok.mp he
    obtain ⟨hsame, hadds⟩ := hlast (cells x items) rfl
    refine ⟨_, Outcome.bind_eq_ok.mpr ⟨items, hitems, ?_⟩, hadds⟩
    simp only [hsame]
    exact Outcome.bind_eq_ok.mpr ⟨pieces, hpieces, rfl⟩
  | none =>
    rw [hr] at he
    cases he
    obtain ⟨hsame, hadds⟩ := hlast (vs.mapIdx fun i v => (x ++ "_" ++ toString (i + 1), v)) rfl
    exact ⟨_, by simp only [hsame], hadds⟩

/-- Pieces are written out with the same names, unless one of these is added. -/
theorem spreadAll_adds {d : Dialect} (h : Adds others taken more) {ps : List Named}
    {bs : List (List Named)} {ms : List (String × Value)}
    (hs : spreadAll d taken ps = .ok (bs, ms)) (hn : ∀ p ∈ ms, p.1 ∉ others) :
    spreadAll d more ps = .ok (bs, ms) := by
  induction ps generalizing taken more bs ms with
  | nil => exact hs
  | cons p ps ih =>
    cases p with
    | members x vs =>
      obtain ⟨b, params, t, bs', ms', hb, hrest, rfl, rfl⟩ := spreadAll_members.mp hs
      obtain ⟨hparams, hms⟩ := List.forall_mem_append.mp hn
      obtain ⟨m, hm, hadds⟩ := expand_adds h hb hparams
      exact spreadAll_members.mpr ⟨b, params, m, bs', ms', hm, ih hadds hrest hms, rfl, rfl⟩
    | _ =>
      obtain ⟨⟨bs', ms'⟩, hrest, hs⟩ := Outcome.bind_eq_ok.mp hs
      cases Outcome.pure_eq_ok.mp hs
      exact Outcome.bind_eq_ok.mpr ⟨_, ih h hrest hn, rfl⟩

end Binding
end TableQuery
