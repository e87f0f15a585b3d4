import TableQuery.Proofs.Logging.Members
import TableQuery.Proofs.Logging.ReadBack

/-! What is written as JSON and read back as it was. -/

namespace TableQuery
namespace Logging

/-- What has a form of its own, with integers no longer than is written, and texts for keys. -/
inductive Plain : Datum → Prop
  | none : Plain (.value .none)
  | bool (b : Bool) : Plain (.value (.bool b))
  | int {n : Int} (h : Numeral.isWritable n = true) : Plain (.value (.int n))
  | float {m : Nat} {e : Int} (negative : Bool) (h : Binary64.Canonical m e) :
      Plain (.value (.float (.finite negative m e)))
  | text {d : Datum} {ps : List Point} (h : d.text? = some ps) : Plain d
  | list {d : Datum} {xs : List Datum} (h : d.items? = some xs) (hx : ∀ x ∈ xs, Plain x) : Plain d
  | map {d : Datum} {as : Attributes} (h : d.members? = some as) (hk : ∀ a ∈ as, ∃ ps, a.1.text? = some ps)
      (hv : ∀ a ∈ as, Plain a.2) : Plain d

namespace Decoded

/-- The name that is read of an attribute. -/
def Names (n : List Nat × Decoded) (a : Datum × Datum) : Prop := ∃ ps, a.1.text? = some ps ∧ n.1 = spelled ps

/-- What is read of something logged, with its texts as they are spelled. -/
inductive Is : Decoded → Datum → Prop
  | null : Is .null (.value .none)
  | bool (b : Bool) : Is (.bool b) (.value (.bool b))
  | int (n : Int) : Is (.int n) (.value (.int n))
  | float (x : Binary64) : Is (.float x) (.value (.float x))
  | str {d : Datum} {ps : List Point} (h : d.text? = some ps) : Is (.str (spelled ps)) d
  | arr {d : Datum} {xs : List Datum} {ds : List Decoded} (h : d.items? = some xs) (hx : List.Forall₂ Is ds xs) :
      Is (.arr ds) d
  | obj {d : Datum} {as : Attributes} {ns : List (List Nat × Decoded)} (h : d.members? = some as)
      (hk : List.Forall₂ Names ns as) (hv : List.Forall₂ Is (ns.map Prod.snd) (as.map Prod.snd)) : Is (.obj ns) d

/-- A text is read as one value only. -/
theorem ReadsAs.unique {cs : List Char} {d d' : Decoded} (h : ReadsAs cs d) (h' : ReadsAs cs d') : d = d' := by
  have hread := h.reads cs.length le_rfl [] nofun
  rw [h'.reads cs.length le_rfl [] nofun] at hread
  exact (congrArg Prod.fst (Option.some.inj hread)).symm

/-- What is written and read back. -/
structure Carries (d : Datum) (p : Json × Decoded) : Prop where
  written : Json.ofDatum d = .ok p.1
  reads : ReadsAs p.1.chars p.2
  same : Is p.2 d

theorem carries_items {d : Datum} {xs : List Datum} (hd : d.items? = some xs) (hx : ∀ x ∈ xs, ∃ p, Carries x p) :
    ∃ p, Carries d p := by
  obtain ⟨ps, hps⟩ := Lists.exists_forall₂ hx
  have hwritten : xs.mapM Json.ofDatum = .ok (ps.map Prod.fst) :=
    Outcome.mapM_eq_ok.mpr (List.forall₂_map_right_iff.mpr (hps.imp fun _ _ h => h.written))
  refine ⟨(.arr (ps.map Prod.fst), .arr (ps.map Prod.snd)), ?_, readsAs_arr ?_, .arr hd ?_⟩
  · rw [Json.ofDatum_of_items hd, hwritten]
    rfl
  · refine List.forall₂_map_left_iff.mpr (List.forall₂_map_right_iff.mpr (List.forall₂_same.mpr fun p hp => ?_))
    obtain ⟨x, -, hx⟩ := Lists.exists_of_mem_right hps hp
    exact hx.reads
  · exact List.forall₂_map_left_iff.mpr (hps.flip.imp fun _ _ h => h.same)

theorem carries_attributes {as : Attributes} (hk : ∀ a ∈ as, ∃ ps, a.1.text? = some ps)
    (hv : ∀ a ∈ as, ∃ p, Carries a.2 p) : ∃ ms ns, Json.ofMembers as = .ok ms ∧
      List.Forall₂ MemberReadsAs ms ns ∧ List.Forall₂ (fun n a => Names n a ∧ Is n.2 a.2) ns as := by
  induction as with
  | nil => exact ⟨[], [], rfl, .nil, .nil⟩
  | cons a as ih =>
    obtain ⟨⟨ps, hps⟩, hk⟩ := List.forall_mem_cons.mp hk
    obtain ⟨⟨p, hp⟩, hv⟩ := List.forall_mem_cons.mp hv
    obtain ⟨ms, ns, hms, hread, his⟩ := ih hk hv
    refine ⟨(ps, p.1) :: ms, (spelled ps, p.2) :: ns, ?_, .cons ⟨rfl, hp.reads⟩ hread,
      .cons ⟨⟨ps, hps, rfl⟩, hp.same⟩ his⟩
    exact Json.ofMembers_eq_ok.mpr (.cons ⟨Json.keyOf_of_text hps, hp.written⟩ (Json.ofMembers_eq_ok.mp hms))

end Decoded

open Decoded in
/-- What is plain is written, and what is written is read as it was. -/
theorem Plain.carries {d : Datum} (h : Plain d) : ∃ p, Carries d p := by
  induction h with
  | none => exact ⟨(.null, .null), rfl, readsAs_null, .null⟩
  | bool b => exact ⟨(.bool b, .bool b), rfl, readsAs_bool b, .bool b⟩
  | @int n hn =>
    refine ⟨(.int n, .int n), ?_, readsAs_int n, .int n⟩
    exact Outcome.map_eq_ok.mpr ⟨n, Outcome.tell_eq_ok.mpr ⟨hn, rfl⟩, rfl⟩
  | float negative hc => exact ⟨(.float _, .float _), rfl, readsAs_float hc negative, .float _⟩
  | @text d ps hd => exact ⟨(.str ps, .str (spelled ps)), Json.ofDatum_of_text hd, readsAs_str ps, .str hd⟩
  | list hd _ ih => exact carries_items hd ih
  | map hd hk _ ih =>
    obtain ⟨ms, ns, hms, hread, his⟩ := carries_attributes hk ih
    refine ⟨(.obj ms, .obj ns), ?_, readsAs_obj hread, .obj hd (his.imp fun _ _ h => h.1) ?_⟩
    · rw [Json.ofDatum_of_members hd, hms]
      rfl
    · exact List.forall₂_map_left_iff.mpr (List.forall₂_map_right_iff.mpr (his.imp fun _ _ h => h.2))

end Logging
end TableQuery
