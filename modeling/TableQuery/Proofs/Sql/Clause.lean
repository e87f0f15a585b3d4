import TableQuery.Proofs.Sql.Reading

/-! The WHERE clause of a statement of any kind, read back from its lexemes, and written again. -/

namespace TableQuery

namespace Lexeme

/-- How a lexeme stands in a text. -/
def text (d : Dialect) : Lexeme → String
  | name n => Identifier.quote d n
  | hole (some x) => Placeholder.valueText x
  | hole none => "?"
  | char c => String.singleton c

def textAll (d : Dialect) (ls : List Lexeme) : String := String.join (ls.map (text d))

theorem textAll_append (d : Dialect) (as bs : List Lexeme) :
    textAll d (as ++ bs) = textAll d as ++ textAll d bs := by
  rw [← String.toList_inj]
  simp only [textAll, String.toList_append, String.toList_join, List.map_append, List.flatMap_append]

theorem textAll_chars (d : Dialect) (s : String) : textAll d (chars s) = s := by
  have hchar : ∀ c, (text d (char c)).toList = [c] := String.toList_singleton
  rw [← String.toList_inj, textAll, String.toList_join, chars, List.map_map, List.flatMap_map]
  simp only [Function.comp_apply, hchar, List.flatMap_singleton']

/-- The lexemes of a piece are its text. Members stand in pieces of their own. -/
theorem textAll_ofNamed (d : Dialect) {q : Binding.Named} (h : ∀ x vs, q ≠ .members x vs) :
    textAll d (ofNamed d q) = Binding.written d q := by
  cases q with
  | text s => exact textAll_chars d s
  | quoted n => simp [textAll, ofNamed, text, Binding.written]
  | value column x v cast =>
    have hcons : ∀ k ls, textAll d (hole k :: ls) = text d (hole k) ++ textAll d ls :=
      fun k ls => (textAll_append d [hole k] ls).trans (by simp [textAll])
    rw [ofNamed, hcons, textAll_chars]
    cases d with
    | postgresql => rfl
    | sqlite => cases cast <;> rfl
  | members x vs => exact absurd rfl (h x vs)

theorem textAll_flatMap (d : Dialect) {ps : List Binding.Named}
    (h : ∀ q ∈ ps, ∀ x vs, q ≠ .members x vs) :
    textAll d (ps.flatMap (ofNamed d)) = Binding.writtenAll d ps := by
  induction ps with
  | nil => rfl
  | cons q ps ih =>
    obtain ⟨hq, hps⟩ := List.forall_mem_cons.mp h
    rw [List.flatMap_cons, textAll_append, textAll_ofNamed d hq, ih hps]
    rw [← String.toList_inj]
    simp only [Binding.writtenAll, String.toList_append, String.toList_join, List.map_cons,
      List.flatMap_cons]

end Lexeme

namespace Reading
open Lexeme

/-- What stands in front of the words where they first stand, and what stands behind them. -/
def around? (s : String) : List Lexeme → Option (List Lexeme × List Lexeme)
  | [] => none
  | x :: ls => match word? s (x :: ls) with
    | some rest => some ([], rest)
    | none => (around? s ls).map fun r => (x :: r.1, r.2)

/-- A statement around the conditions of its WHERE clause. -/
structure Clause where
  before : List Lexeme
  terms : List (String × Term)
  behind : List Lexeme

def clause? (d : Dialect) (ls : List Lexeme) : Option Clause := do
  let (before, ls) ← around? "WHERE " ls
  let (terms, behind) ← sepBy (conjunct? d) " AND " (ls.length + 1) ls
  some ⟨before, terms, behind⟩

def ofTerms (d : Dialect) (ts : List (String × Term)) : List Lexeme :=
  (chars " AND ").intercalate (ts.map (ofConjunct d))

def ofClause (d : Dialect) (c : Clause) : List Lexeme :=
  c.before ++ (chars "WHERE " ++ (ofTerms d c.terms ++ c.behind))

/-- The text has this WHERE clause, and is made up of it and of what stands around it. -/
structure HasClause (d : Dialect) (sql : String) (c : Clause) : Prop where
  read : clause? d (lex d sql) = some c
  again : textAll d (ofClause d c) = sql

/-- The text of the conditions, where the statement has a clause. -/
def clauseText? (d : Dialect) (sql : String) : Option String := do
  let c ← clause? d (lex d sql)
  if textAll d (ofClause d c) = sql then some (textAll d (ofTerms d c.terms)) else none

theorem clauseText?_eq_some {d : Dialect} {sql s : String} :
    clauseText? d sql = some s ↔ ∃ c, HasClause d sql c ∧ textAll d (ofTerms d c.terms) = s := by
  constructor
  · intro h
    obtain ⟨c, hread, h⟩ := Option.bind_eq_some_iff.mp h
    split at h
    · rename_i hagain
      exact ⟨c, ⟨hread, hagain⟩, Option.some.inj h⟩
    · cases h
  · rintro ⟨c, hc, rfl⟩
    refine Option.bind_eq_some_iff.mpr ⟨c, hc.read, ?_⟩
    rw [if_pos hc.again]

/-- Words are found behind lexemes of which none is their first character. -/
theorem around?_of_ne {s : String} {c : Char} (cs : List Char) (hs : s.toList = c :: cs)
    {before ls : List Lexeme} (h : ∀ x ∈ before, x ≠ .char c) :
    around? s (before ++ (chars s ++ ls)) = some (before, ls) := by
  induction before with
  | nil =>
    have hread := word?_chars s ls
    rw [chars, hs, List.map_cons, List.cons_append] at hread
    rw [List.nil_append, chars, hs, List.map_cons, List.cons_append, around?, hread]
  | cons x before ih =>
    obtain ⟨hx, hbefore⟩ := List.forall_mem_cons.mp h
    have hnone : ∀ ms, word? s (x :: ms) = none := by
      intro ms
      rw [word?, hs]
      cases x with
      | char e =>
        have he : c ≠ e := fun he => hx (congrArg _ he.symm)
        simp [skip?, he]
      | _ => rfl
    rw [List.cons_append, around?, hnone, ih hbefore]
    rfl

/-- A clause that was written is read as itself. -/
theorem clause?_ofClause (d : Dialect) {c : Clause} (hbefore : ∀ x ∈ c.before, x ≠ .char 'W')
    (hne : c.terms ≠ []) (hfull : ∀ e ∈ c.terms, e.2.IsFull) (hclean : Clean c.behind)
    (hstop : word? " AND " c.behind = none) : clause? d (ofClause d c) = some c := by
  have hread := sepBy_length (fun e he rest => conjunct?_ofConjunct d (hfull e he)) hne (by decide)
    (fun ls => show Clean (chars " AND " ++ ls) from rfl) hclean hstop
  have haround : ∀ ls, around? "WHERE " (c.before ++ (chars "WHERE " ++ ls)) = some (c.before, ls) :=
    fun ls => around?_of_ne "HERE ".toList rfl hbefore
  simp only [clause?, ofClause, ofTerms, haround, hread, Option.bind_eq_bind, Option.bind_some]

theorem ofTerms_injective (d : Dialect) {ts us : List (String × Term)} (ht : ts ≠ []) (hu : us ≠ [])
    (htf : ∀ e ∈ ts, e.2.IsFull) (huf : ∀ e ∈ us, e.2.IsFull) (h : ofTerms d ts = ofTerms d us) :
    ts = us := by
  have hread : ∀ {es}, es ≠ [] → (∀ e ∈ es, e.2.IsFull) →
      clause? d (ofClause d ⟨[], es, []⟩) = some ⟨[], es, []⟩ := fun hne hfull =>
    clause?_ofClause d (fun _ hx => absurd hx List.not_mem_nil) hne hfull rfl rfl
  have hsame : ofClause d ⟨[], ts, []⟩ = ofClause d ⟨[], us, []⟩ := by
    simp only [ofClause, h]
  exact (Clause.mk.inj (Option.some.inj ((hread ht htf).symm.trans (hsame ▸ hread hu huf)))).2.1

end Reading
end TableQuery
