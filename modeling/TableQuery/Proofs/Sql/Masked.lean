import TableQuery.Proofs.Sql.Alike

/-! What the folded text of a statement hides: the values of parameters, but for the types that these are
cast to, and the members of lists. A mask takes from a layout just that. -/

namespace TableQuery

namespace Dialect

/-- The type that the text shows of a parameter with this type. -/
def shown (d : Dialect) (cast : Option Cast) : Option Cast :=
  match d with
  | .postgresql => cast
  | .sqlite => none

/-- The type that the text shows of a parameter with this value. -/
def cast? (d : Dialect) (v : Value) : Option Cast := d.shown (Cast.ofValue? v)

end Dialect

def Piece.masked (d : Dialect) : Piece → Piece
  | .text s => .text s
  | .quoted n => .quoted n
  | .slot (.cell key _) => .slot (.cell key .none)
  | .slot (.operand base _ cast) => .slot (.operand base .none (d.shown cast))
  | .slot (.members base _) => .slot (.members base [])

def Binding.Named.masked (d : Dialect) : Named → Named
  | .text s => .text s
  | .quoted n => .quoted n
  | .value column name _ cast => .value column name .none (d.shown cast)
  | .members name _ => .members name []

def Layout.masked (d : Dialect) (l : Layout) : Layout := l.map (Piece.masked d)

namespace Binding

variable (d : Dialect)

/-! Names do not depend on what is masked, and neither does a text in which they mark their places. -/

theorem name_masked (n : Names) (p : Piece) :
    name d n (p.masked d) = (fun q => (q.1.masked d, q.2)) <$> name d n p := by
  cases p with
  | text s => rfl
  | quoted s => rfl
  | slot s =>
    cases s with
    | cell key v => cases d <;> rfl
    | operand base v cast =>
      simp only [Piece.masked, name]
      cases n.counted d base <;> rfl
    | members base vs =>
      simp only [Piece.masked, name]
      cases n.counted d base <;> rfl

theorem nameAll_masked (n : Names) (l : Layout) :
    nameAll d n (l.masked d) = (fun ps => (ps.1.map (Named.masked d), ps.2)) <$> nameAll d n l := by
  -- The names go on from the same state on both sides, since no piece changes it by what is masked.
  induction l generalizing n with
  | nil => rfl
  | cons p l ih =>
    change nameAll d n (p.masked d :: Layout.masked d l) = _
    simp only [nameAll, name_masked]
    cases name d n p with
    | error f => rfl
    | ok r =>
      obtain ⟨q, k⟩ := r
      change (nameAll d k (Layout.masked d l) >>= fun ps => pure (q.masked d :: ps.1, ps.2)) =
        (fun ps => (ps.1.map (Named.masked d), ps.2)) <$>
          (nameAll d k l >>= fun ps => pure (q :: ps.1, ps.2))
      rw [ih]
      cases nameAll d k l <;> rfl

theorem marked_masked (p : Named) : marked d (p.masked d) = marked d p := by
  cases p with
  | value column name v cast => cases d <;> rfl
  | _ => rfl

theorem name?_masked (p : Named) : (p.masked d).name? = p.name? := by
  cases p <;> rfl

theorem settle_masked (ps : List Named) : settle d (ps.map (Named.masked d)) = settle d ps := by
  have htemplate : template d (ps.map (Named.masked d)) = template d ps := by
    rw [template, template, List.map_map]
    exact congrArg String.join (List.map_congr_left fun p _ => marked_masked d p)
  have hnames : (ps.map (Named.masked d)).filterMap (·.name?) = ps.filterMap (·.name?) := by
    rw [List.filterMap_map]
    exact List.filterMap_congr fun p _ => name?_masked d p
  simp only [settle, htemplate, hnames]

end Binding

namespace Layout

variable {d : Dialect}

theorem folded_masked (d : Dialect) (l : Layout) : (l.masked d).folded d = l.folded d := by
  simp only [folded, Binding.nameAll_masked]
  cases Binding.nameAll d {} l with
  | error f => rfl
  | ok ps => exact congrArg (fun text => Except.ok text.1) (Binding.settle_masked d ps.1)

theorem masked_eq_iff {l m : Layout} :
    l.masked d = m.masked d ↔ List.Forall₂ (fun p q => p.masked d = q.masked d) l m := by
  rw [masked, masked, ← List.forall₂_eq_eq_eq, List.forall₂_map_left_iff, List.forall₂_map_right_iff]

/-- An operand shows the column that it is named after and its type. -/
theorem masked_operand {v w : Value} (c : String) (h : d.cast? v = d.cast? w) :
    (operand c v).masked d = (operand c w).masked d :=
  congrArg (fun cast => Piece.slot (.operand (base c) .none cast)) h

theorem masked_bound {m n : Int} (h : d.cast? (.int m) = d.cast? (.int n)) :
    (bound m).masked d = (bound n).masked d :=
  congrArg (fun cast => Piece.slot (.operand "param" .none cast)) h

theorem masked_compare {v w : Value} (c : String) (o : Comparison) (h : d.cast? v = d.cast? w) :
    (predicate d (.compare c o v)).masked d = (predicate d (.compare c o w)).masked d :=
  masked_eq_iff.mpr (.cons rfl (.cons rfl (.cons (masked_operand c h) .nil)))

theorem masked_like (c : String) (o : LikeOperator) (s t : String) :
    (predicate d (.like c o s)).masked d = (predicate d (.like c o t)).masked d := by
  cases d <;> cases o <;> rfl

theorem masked_oneOf (c : String) (vs ws : List Value) :
    (predicate d (.oneOf c vs)).masked d = (predicate d (.oneOf c ws)).masked d := rfl

theorem masked_filter {f g : Filter} (before : String)
    (h : List.Forall₂ (fun p q => (predicate d p).masked d = (predicate d q).masked d) f g) :
    (filter d before f).masked d = (filter d before g).masked d :=
  masked_eq_iff.mpr (rel_filter (R := fun p q => p.masked d = q.masked d) (fun _ => rfl) before
    (h.imp fun _ _ => masked_eq_iff.mp))

theorem masked_pagination {take take' skip skip' : Option Int}
    (ht : Option.Rel (fun m n => d.cast? (.int m) = d.cast? (.int n)) take take')
    (hs : Option.Rel (fun m n => d.cast? (.int m) = d.cast? (.int n)) skip skip') :
    (pagination d take skip).masked d = (pagination d take' skip').masked d :=
  masked_eq_iff.mpr (rel_pagination (R := fun p q => p.masked d = q.masked d)
    (S := fun m n => d.cast? (.int m) = d.cast? (.int n)) (fun _ => rfl) masked_bound (fun _ => rfl) ht hs)

/-- Selects that are the same under the mask have the same folded text. -/
theorem folded_select {f g : Filter} {take take' skip skip' : Option Int} (c : Columns) (t : Target)
    (items : List (String × Direction))
    (hf : List.Forall₂ (fun p q => (predicate d p).masked d = (predicate d q).masked d) f g)
    (ht : Option.Rel (fun m n => d.cast? (.int m) = d.cast? (.int n)) take take')
    (hs : Option.Rel (fun m n => d.cast? (.int m) = d.cast? (.int n)) skip skip') :
    (Statement.select c t f items take skip).folded d = (Statement.select c t g items take' skip').folded d := by
  have hmasked : (ofStatement d (.select c t f items take skip)).masked d =
      (ofStatement d (.select c t g items take' skip')).masked d := by
    have hfilter := masked_filter " \nWHERE " hf
    have hbounds := masked_pagination ht hs
    simp only [masked] at hfilter hbounds
    simp only [ofStatement, masked, List.map_append, List.map_cons, hfilter, hbounds]
  rw [Statement.folded, Statement.folded, ← folded_masked, hmasked, folded_masked]

end Layout
end TableQuery
