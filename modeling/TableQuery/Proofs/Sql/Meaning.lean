import TableQuery.Proofs.Sql.Unnamed

/-! The query that a SELECT is read as, the names of its places aside. -/

namespace TableQuery
namespace Reading
open Lexeme

/-- A place whose value is marked with its type, where the dialect needs that. -/
def Place.ofCast (d : Dialect) (cast : Option Cast) : Place :=
  match d with
  | .postgresql => ⟨none, cast⟩
  | .sqlite => ⟨none, none⟩

/-- What a predicate says of its column. -/
def Term.ofPredicate (d : Dialect) : Predicate → Term
  | .isNull _ => .isNull
  | .isNotNull _ => .isNotNull
  | .isFlag _ negated value => .flag negated value
  | .compare _ o v => .compare o (.ofCast d (Cast.ofValue? v))
  | .like _ o s => .like o (.ofCast d (Cast.ofValue? (.str s)))
  | .oneOf _ vs => match Binding.rows? vs with
    | some rows => .oneOfRows (rows.map fun v => List.replicate (Binding.row v).length (.ofCast d none))
    | none => .oneOf (vs.map fun _ => .ofCast d (vs.head?.bind Cast.ofValue?))

theorem Term.isFull_ofPredicate (d : Dialect) {p : Predicate} (h : ∀ c, p ≠ .oneOf c []) :
    (Term.ofPredicate d p).IsFull := by
  cases p with
  | oneOf c vs =>
    have hne : vs ≠ [] := by
      rintro rfl
      exact h c rfl
    cases hr : Binding.rows? vs with
    | none => simpa [Term.IsFull, Term.ofPredicate, hr] using hne
    | some rows =>
      obtain rfl := Binding.rows?_eq_some hr
      simpa [Term.IsFull, Term.ofPredicate, hr] using hne
  | _ => exact ⟨Term.noConfusion, Term.noConfusion⟩

theorem Term.IsFull.of_unnamed {t : Term} (h : t.unnamed.IsFull) : t.IsFull := by
  constructor
  · rintro rfl
    exact h.1 rfl
  · rintro rfl
    exact h.2 rfl

namespace Select

/-- The bounds that are there: those that are set, and where a dialect cannot leave out the other
one, both. -/
def bounds (d : Dialect) (take skip : Option Int) : Option Place × Option Place :=
  let place (n : Int) := Place.ofCast d (Cast.ofValue? (.int n))
  match d, take, skip with
  | .sqlite, none, none => (none, none)
  | .sqlite, take, skip => (some (place (take.getD (-1))), some (place (skip.getD 0)))
  | .postgresql, take, skip => (take.map place, skip.map place)

/-- What a SELECT of these parts asks for. -/
def ofParts (d : Dialect) (c : Columns) (t : Target) (f : Filter)
    (order : List (String × Direction)) (take skip : Option Int) : Select where
  columns := c
  target := t
  filter := f.map fun p => (p.column, .ofPredicate d p)
  order := order
  limit := (bounds d take skip).1
  offset := (bounds d take skip).2

end Select

/-! The pieces of a layout, as the query that it stands for. -/

@[simp]
theorem ofLayout_append (d : Dialect) (l m : Layout) :
    ofLayout d (l ++ m) = ofLayout d l ++ ofLayout d m := List.flatMap_append

@[simp]
theorem ofLayout_cons (d : Dialect) (p : Piece) (l : Layout) :
    ofLayout d (p :: l) = ofPiece d p ++ ofLayout d l := List.flatMap_cons

section Fixed

variable {f : Piece → List Lexeme} (ht : ∀ s, f (.text s) = chars s)
include ht

theorem lexemes_join (separator : String) (ls : List Layout) :
    (Layout.join separator ls).flatMap f =
      (chars separator).intercalate (ls.map fun l => l.flatMap f) := by
  induction ls with
  | nil => rfl
  | cons l ls ih =>
    cases ls with
    | nil => simp [Layout.join]
    | cons m ls =>
      rw [Layout.join_cons_cons, List.flatMap_append, List.flatMap_cons, ih, ht, List.map_cons,
        List.map_cons, List.map_cons, List.intercalate_cons_cons, List.append_assoc]

variable (hq : ∀ n, f (.quoted n) = [.name n])
include hq

theorem lexemes_names (ns : List String) :
    (Layout.names ns).flatMap f = commas (ns.map fun n => [.name n]) := by
  have hname : ∀ n, List.flatMap f [.quoted n] = [.name n] := fun n => by
    rw [List.flatMap_singleton, hq]
  rw [Layout.names, lexemes_join ht, List.map_map]
  simp only [Function.comp_def, hname]
  rfl

theorem lexemes_columns (c : Columns) : (Layout.columns c).flatMap f = ofColumns c := by
  cases c with
  | all => rw [Layout.columns, List.flatMap_singleton, ht]; rfl
  | named ns => exact lexemes_names ht hq ns

theorem lexemes_target (t : Target) : (Layout.target t).flatMap f = ofTarget t := by
  obtain ⟨schema, table⟩ := t
  cases schema <;> simp [Layout.target, ofTarget, ht, hq]

end Fixed

theorem ofLayout_join (d : Dialect) (separator : String) (ls : List Layout) :
    ofLayout d (Layout.join separator ls) = (chars separator).intercalate (ls.map (ofLayout d)) :=
  lexemes_join (fun _ => rfl) separator ls

theorem ofPiece_operand (d : Dialect) (base : String) (v : Value) (cast : Option Cast) :
    ofPiece d (.slot (.operand base v cast)) = ofPlace (.ofCast d cast) := by
  cases d <;> cases cast <;> rfl

theorem ofTerm_members (d : Dialect) (c : String) (vs : List Value) :
    ofTerm d (.ofPredicate d (.oneOf c vs)) = chars " IN (" ++ (ofMembers d vs ++ chars ")") := by
  cases h : Binding.rows? vs with
  | none =>
    have hcast : ∀ cast, (.hole none :: chars (Binding.castText d cast)) = ofPlace (.ofCast d cast) :=
      fun cast => ofPiece_operand d "" .none cast
    have hterm : Term.ofPredicate d (.oneOf c vs) =
        .oneOf (vs.map fun _ => .ofCast d (vs.head?.bind Cast.ofValue?)) := by
      rw [Term.ofPredicate, h]
    rw [hterm, ofMembers, h, ofTerm, ofPlaces, List.map_map]
    simp only [hcast]
    rfl
  | some rows =>
    have hplace : ofPlace (.ofCast d none) = [.hole none] := by cases d <;> rfl
    have hterm : Term.ofPredicate d (.oneOf c vs) =
        .oneOfRows (rows.map fun v => List.replicate (Binding.row v).length (.ofCast d none)) := by
      rw [Term.ofPredicate, h]
    have hrow : ∀ v, ofRow (List.replicate (Binding.row v).length (.ofCast d none)) =
        chars "(" ++ commas (List.replicate (Binding.row v).length [.hole none]) ++ chars ")" := by
      intro v
      rw [ofRow, ofPlaces, List.map_replicate, hplace, List.append_assoc]
    rw [hterm, ofMembers, h, ofTerm, List.map_map, List.append_assoc]
    simp only [Function.comp_def, hrow]

theorem ofLayout_predicate (d : Dialect) (p : Predicate) :
    ofLayout d (Layout.predicate d p) = ofConjunct d (p.column, .ofPredicate d p) := by
  have hlike : ∀ c (o : LikeOperator) s,
      ofLayout d [.quoted c, .text (" " ++ o.text ++ " "), Layout.operand c (.str s),
        .text Layout.escapeClause] =
      .name c :: ofTerm d (.like o (.ofCast d (Cast.ofValue? (.str s)))) := by
    intro c o s
    simp only [ofLayout_cons, Layout.operand, ofPiece_operand]
    simp [ofPiece, ofLayout, ofTerm]
  cases p with
  | isNull c => cases d <;> rfl
  | isNotNull c => cases d <;> rfl
  | isFlag c negated value => cases d <;> cases negated <;> cases value <;> rfl
  | compare c o v =>
    have hcompare : ofLayout d [.quoted c, .text (" " ++ o.text ++ " "), Layout.operand c v] =
        .name c :: ofTerm d (.compare o (.ofCast d (Cast.ofValue? v))) := by
      simp only [ofLayout_cons, Layout.operand, ofPiece_operand]
      simp [ofPiece, ofLayout, ofTerm]
    cases d <;> exact hcompare
  | like c o s =>
    -- Only one dialect spells the comparison that is blind to case in another way.
    cases d <;> cases o
    case sqlite.ilike =>
      simp only [Layout.predicate, ofLayout_cons, Layout.operand, ofPiece_operand]
      simp [ofPiece, ofLayout, ofConjunct, Term.ofPredicate, Predicate.column]
    all_goals exact hlike c _ s
  | oneOf c vs =>
    have hmembers : ofConjunct d (c, .ofPredicate d (.oneOf c vs)) =
        .name c :: (chars " IN (" ++ (ofMembers d vs ++ chars ")")) := by
      rw [← ofTerm_members d c]
      cases d
      · rfl
      · cases hr : Binding.rows? vs <;> simp only [Term.ofPredicate, hr] <;> rfl
    refine Eq.trans ?_ hmembers.symm
    simp [Layout.predicate, ofLayout, ofPiece]

theorem ofLayout_conjunction (d : Dialect) (f : Filter) :
    ofLayout d (Layout.conjunction d f) = (chars " AND ").intercalate
      ((f.map fun p => (p.column, .ofPredicate d p)).map (ofConjunct d)) := by
  rw [Layout.conjunction, ofLayout_join, List.map_map, List.map_map]
  exact congrArg _ (List.map_congr_left fun p _ => ofLayout_predicate d p)

theorem ofLayout_filter (d : Dialect) (before : String) (f : Filter) :
    ofLayout d (Layout.filter d before f) =
      ofOptional before " AND " ((f.map fun p => (p.column, .ofPredicate d p)).map (ofConjunct d)) := by
  cases f with
  | nil => rfl
  | cons p f =>
    change ofLayout d (.text before :: Layout.conjunction d (p :: f)) = _
    rw [ofLayout_cons, ofLayout_conjunction]
    rfl

theorem ofLayout_columns (d : Dialect) (c : Columns) :
    ofLayout d (Layout.columns c) = ofColumns c :=
  lexemes_columns (fun _ => rfl) (fun _ => rfl) c

theorem ofLayout_target (d : Dialect) (t : Target) : ofLayout d (Layout.target t) = ofTarget t :=
  lexemes_target (fun _ => rfl) (fun _ => rfl) t

theorem ofLayout_order (d : Dialect) (order : List (String × Direction)) :
    ofLayout d (Layout.order order) = ofOptional " ORDER BY " ", " (order.map ofOrderItem) := by
  cases order with
  | nil => rfl
  | cons o order =>
    have hitem : (ofLayout d ∘ fun o : String × Direction => Layout.orderItem o.1 o.2) = ofOrderItem := by
      funext o
      simp [ofLayout, Layout.orderItem, ofPiece, ofOrderItem]
    change ofLayout d (.text " ORDER BY " :: _) = _
    rw [ofLayout_cons, ofLayout_join, List.map_map, hitem]
    rfl

theorem ofLayout_pagination (d : Dialect) (take skip : Option Int) :
    ofLayout d (Layout.pagination d take skip) =
      ofBounds d (Select.bounds d take skip).1 (Select.bounds d take skip).2 := by
  have hone : ∀ s n, ofLayout d [.text s, Layout.bound n] =
      chars s ++ ofPlace (.ofCast d (Cast.ofValue? (.int n))) := by
    intro s n
    rw [ofLayout_cons, ofLayout_cons, Layout.bound, ofPiece_operand]
    simp [ofLayout, ofPiece]
  have htwo : ∀ s n k, ofLayout d [.text s, Layout.bound n, .text " OFFSET ", Layout.bound k] =
      chars s ++ (ofPlace (.ofCast d (Cast.ofValue? (.int n))) ++
        (chars " OFFSET " ++ ofPlace (.ofCast d (Cast.ofValue? (.int k))))) := by
    intro s n k
    rw [ofLayout_cons, ofLayout_cons, hone, Layout.bound, ofPiece_operand]
    rfl
  cases d <;> rcases take with _ | n <;> rcases skip with _ | k
  case postgresql.none.none => rfl
  case sqlite.none.none => rfl
  case postgresql.none.some => exact hone _ _
  case postgresql.some.none => exact hone _ _
  all_goals exact htwo _ _ _

/-- The pieces of a SELECT are those of the query that it stands for. -/
theorem ofLayout_select (d : Dialect) (c : Columns) (t : Target) (f : Filter)
    (order : List (String × Direction)) (take skip : Option Int) :
    ofLayout d (Layout.ofStatement d (.select c t f order take skip)) =
      ofSelect d (.ofParts d c t f order take skip) := by
  simp only [Layout.ofStatement, ofLayout_append, ofLayout_cons, ofLayout_columns, ofLayout_target,
    ofLayout_filter, ofLayout_order, ofLayout_pagination, ofSelect, Select.ofParts, ofPiece,
    List.cons_append, List.append_assoc]

/-- A text shows a SELECT just where it is a query that says what the SELECT does. -/
theorem shows_select_iff {d : Dialect} {c : Columns} {t : Target} {f : Filter}
    {order : List (String × Direction)} {take skip : Option Int} {ls : List Lexeme} :
    Shows d (Layout.ofStatement d (.select c t f order take skip)) ls ↔
      ∃ q, ls = ofSelect d q ∧ q.unnamed = .ofParts d c t f order take skip := by
  rw [← lifts_ofSelect, ← ofLayout_select]
  rfl

end Reading
end TableQuery
