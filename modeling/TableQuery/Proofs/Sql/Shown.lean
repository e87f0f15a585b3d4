import TableQuery.Proofs.Sql.Alike
import TableQuery.Proofs.Sql.Meaning

/-! What a text shows of the values of its statement: truth values, and the widths of rows. -/

namespace TableQuery

namespace Predicate

def flags : Predicate → List Bool
  | isFlag _ _ b => [b]
  | _ => []

def widths : Predicate → List (List Nat)
  | oneOf _ vs => (Binding.widths? vs).toList
  | _ => []

end Predicate

namespace Statement

def flags (s : Statement) : List Bool := s.filter.flatMap Predicate.flags

def widths (s : Statement) : List (List Nat) := s.filter.flatMap Predicate.widths

end Statement

/-! Statements that differ in other values only are written alike. -/

theorem Binding.isSome_widths? {vs ws : List Value} (h : List.Forall₂ Value.Kin vs ws) :
    (widths? vs).isSome = (widths? ws).isSome := by
  cases h with
  | nil => rfl
  | cons hv _ =>
    simp only [widths?, rows?, hv.items?]
    split <;> rfl

theorem Predicate.Alike.strict {p q : Predicate} (h : p.Alike False q) (hf : p.flags = q.flags)
    (hw : p.widths = q.widths) : p.Alike True q := by
  cases h with
  | isNull c => exact .isNull c
  | isNotNull c => exact .isNotNull c
  | isFlag c negated same => exact .isFlag c negated fun _ => List.singleton_inj.mp hf
  | compare c o kin => exact .compare c o kin
  | like c o s t => exact .like c o s t
  | oneOf c kin same =>
    have hhead := congrArg List.head? hw
    rw [widths, widths, Option.head?_toList, Option.head?_toList] at hhead
    exact .oneOf c kin fun _ => hhead

theorem Predicate.Alike.lengths {strict : Prop} {p q : Predicate} (h : p.Alike strict q) :
    p.flags.length = q.flags.length ∧ p.widths.length = q.widths.length := by
  cases h with
  | oneOf c kin same =>
    refine ⟨rfl, ?_⟩
    rw [widths, widths, Option.length_toList, Option.length_toList, Binding.isSome_widths? kin]
  | _ => exact ⟨rfl, rfl⟩

theorem Filter.Alike.strict {f g : Filter} (h : f.Alike False g)
    (hf : f.flatMap Predicate.flags = g.flatMap Predicate.flags)
    (hw : f.flatMap Predicate.widths = g.flatMap Predicate.widths) : f.Alike True g := by
  induction h with
  | nil => exact .nil
  | cons hp _ ih =>
    rw [List.flatMap_cons, List.flatMap_cons] at hf hw
    obtain ⟨hpf, hf⟩ := List.append_inj hf hp.lengths.1
    obtain ⟨hpw, hw⟩ := List.append_inj hw hp.lengths.2
    exact .cons (hp.strict hpf hpw) (ih hf hw)

theorem Statement.Alike.strict {s s' : Statement} (h : s.Alike False s')
    (hf : s.flags = s'.flags) (hw : s.widths = s'.widths) : s.Alike True s' := by
  cases h with
  | select c t order filter limit offset =>
    exact .select c t order (filter.strict hf hw) limit offset
  | count t filter => exact .count t (filter.strict hf hw)
  | insert t ns c length => exact .insert t ns c length
  | insertMany t ns c lengths => exact .insertMany t ns c lengths
  | update t c names filter => exact .update t c names (filter.strict hf hw)
  | delete t c filter => exact .delete t c (filter.strict hf hw)

/-! Both are read back from the text. -/

namespace Reading
open Lexeme

namespace Term

def flags : Term → List Bool
  | flag _ b => [b]
  | _ => []

def widths : Term → List (List Nat)
  | oneOfRows rows => [rows.map List.length]
  | _ => []

theorem flags_ofPredicate (d : Dialect) (p : Predicate) : (ofPredicate d p).flags = p.flags := by
  cases p with
  | oneOf c vs =>
    rw [ofPredicate]
    split <;> rfl
  | _ => rfl

theorem widths_ofPredicate (d : Dialect) (p : Predicate) : (ofPredicate d p).widths = p.widths := by
  cases p with
  | oneOf c vs =>
    rw [ofPredicate, Predicate.widths, Binding.widths?]
    cases Binding.rows? vs with
    | none => rfl
    | some rows => simp [widths]
  | _ => rfl

end Term

/-- The conjuncts of a filter are read back from its pieces. -/
theorem terms_eq {d : Dialect} {before : String} {f g : Filter} (hb : word? before [] = none)
    (hf : ∀ c, .oneOf c [] ∉ f) (hg : ∀ c, .oneOf c [] ∉ g)
    (h : ofLayout d (Layout.filter d before f) = ofLayout d (Layout.filter d before g)) :
    f.map (fun p => (p.column, Term.ofPredicate d p)) =
      g.map fun p => (p.column, Term.ofPredicate d p) := by
  have hread : ∀ {ps : Filter}, (∀ c, .oneOf c [] ∉ ps) →
      optional? before (sepBy (conjunct? d) " AND "
        ((ofLayout d (Layout.filter d before ps)).length + 1))
        (ofLayout d (Layout.filter d before ps)) =
        some (ps.map (fun p => (p.column, Term.ofPredicate d p)), []) := by
    intro ps hps
    have hfull : ∀ e ∈ ps.map fun p => (p.column, Term.ofPredicate d p), e.2.IsFull := by
      intro e he
      obtain ⟨p, hp, rfl⟩ := List.mem_map.mp he
      exact Term.isFull_ofPredicate d fun c hc => hps c (hc ▸ hp)
    have hread := @optional?_ofOptional _ (conjunct? d) (ofConjunct d) before " AND " _ []
      (fun e he rest => conjunct?_ofConjunct d (hfull e he)) (by decide)
      (fun ls => show Clean (chars " AND " ++ ls) from rfl) rfl rfl hb
    rwa [List.append_nil, ← ofLayout_filter] at hread
  have hboth := (hread hf).symm.trans (h ▸ hread hg)
  exact congrArg Prod.fst (Option.some.inj hboth)

theorem shown_eq {d : Dialect} {before : String} {f g : Filter} (hb : word? before [] = none)
    (hf : ∀ c, .oneOf c [] ∉ f) (hg : ∀ c, .oneOf c [] ∉ g)
    (h : ofLayout d (Layout.filter d before f) = ofLayout d (Layout.filter d before g)) :
    f.flatMap Predicate.flags = g.flatMap Predicate.flags ∧
      f.flatMap Predicate.widths = g.flatMap Predicate.widths := by
  have hflags : ∀ ps : Filter, ps.flatMap Predicate.flags =
      (ps.map fun p => (p.column, Term.ofPredicate d p)).flatMap fun e => e.2.flags := by
    intro ps
    simp only [List.flatMap_map, Term.flags_ofPredicate]
  have hwidths : ∀ ps : Filter, ps.flatMap Predicate.widths =
      (ps.map fun p => (p.column, Term.ofPredicate d p)).flatMap fun e => e.2.widths := by
    intro ps
    simp only [List.flatMap_map, Term.widths_ofPredicate]
  rw [hflags, hflags, hwidths, hwidths, terms_eq hb hf hg h]
  exact ⟨rfl, rfl⟩

theorem ofLayout_pagination_eq (d : Dialect) {take take' skip skip' : Option Int}
    (ht : BoundsAlike take take') (hs : BoundsAlike skip skip') :
    ofLayout d (Layout.pagination d take skip) = ofLayout d (Layout.pagination d take' skip') := by
  have hbounds : Select.bounds d take skip = Select.bounds d take' skip' := by
    cases ht with
    | none =>
      cases hs with
      | none => rfl
      | some hk => cases d <;> simp [Select.bounds, hk]
    | some hn =>
      cases hs with
      | none => cases d <;> simp [Select.bounds, hn]
      | some hk => cases d <;> simp [Select.bounds, hn, hk]
  rw [ofLayout_pagination, ofLayout_pagination, hbounds]

theorem ofLayout_assignments_eq (d : Dialect) {as bs : List (String × Value)}
    (h : List.Forall₂ (fun a b => a.1 = b.1) as bs) :
    ofLayout d (Layout.join ", " (as.map fun a => Layout.assignment a.1 a.2)) =
      ofLayout d (Layout.join ", " (bs.map fun b => Layout.assignment b.1 b.2)) := by
  rw [ofLayout_join, ofLayout_join, List.map_map, List.map_map]
  refine congrArg _ (List.forall₂_eq_eq_eq ▸ ?_)
  rw [List.forall₂_map_left_iff, List.forall₂_map_right_iff]
  refine h.imp fun a b hab => ?_
  simp only [Function.comp_apply, Layout.assignment, ofLayout_cons, hab]
  rfl

/-- The text shows all of the values that it depends on. -/
theorem shown_of_ofLayout {d : Dialect} {s s' : Statement} (h : s.Alike False s')
    (hs : ∀ c, .oneOf c [] ∉ s.filter) (hs' : ∀ c, .oneOf c [] ∉ s'.filter)
    (hl : ofLayout d (Layout.ofStatement d s) = ofLayout d (Layout.ofStatement d s')) :
    s.flags = s'.flags ∧ s.widths = s'.widths := by
  cases h with
  | select c t order filter limit offset =>
    simp only [Layout.ofStatement, ofLayout_append, ofLayout_cons,
      ofLayout_pagination_eq d limit offset, List.append_assoc, List.append_cancel_left_eq,
      List.append_cancel_right_eq] at hl
    exact shown_eq rfl hs hs' hl
  | count t filter =>
    simp only [Layout.ofStatement, ofLayout_append, List.append_cancel_left_eq] at hl
    exact shown_eq rfl hs hs' hl
  | insert t ns c length => exact ⟨rfl, rfl⟩
  | insertMany t ns c lengths => exact ⟨rfl, rfl⟩
  | update t c names filter =>
    simp only [Layout.ofStatement, ofLayout_append, ofLayout_cons, ofLayout_assignments_eq d names,
      List.append_assoc, List.append_cancel_left_eq, List.append_cancel_right_eq] at hl
    exact shown_eq rfl hs hs' hl
  | delete t c filter =>
    simp only [Layout.ofStatement, ofLayout_append, ofLayout_cons, List.append_assoc,
      List.append_cancel_left_eq, List.append_cancel_right_eq] at hl
    exact shown_eq rfl hs hs' hl

end Reading

/-! Legibility does not depend on values. -/

namespace Layout

theorem Alike.names_eq {strict : Prop} {l m : Layout} (h : l.Alike strict m) :
    l.quotedNames = m.quotedNames ∧ l.listBases = m.listBases := by
  induction h with
  | nil => exact ⟨rfl, rfl⟩
  | cons hp _ ih =>
    simp only [quotedNames, listBases, List.filterMap_cons] at ih ⊢
    rw [ih.1, ih.2]
    cases hp <;> exact ⟨rfl, rfl⟩

theorem Legible.of_alike {strict : Prop} {d : Dialect} {l m : Layout} (hl : l.Legible d)
    (h : l.Alike strict m) : m.Legible d := by
  obtain ⟨hnames, hbases⟩ := h.names_eq
  obtain ⟨value, members, solid⟩ := hl
  rw [hnames] at value members
  rw [hbases] at members solid
  exact ⟨value, members, solid⟩

end Layout
end TableQuery
