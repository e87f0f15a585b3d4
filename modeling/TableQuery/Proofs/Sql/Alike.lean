import TableQuery.Proofs.Sql.Legible

/-! Statements that differ in their values alone. -/

namespace TableQuery

/-- The same value, or another one of its type that is bound with the same type. -/
inductive Value.Kin : Value → Value → Prop
  | same (v : Value) : Kin v v
  | bool (b c : Bool) : Kin (.bool b) (.bool c)
  | int (m n : Int) (bound : Cast.ofValue? (.int m) = Cast.ofValue? (.int n)) :
    Kin (.int m) (.int n)
  | float (x y : Binary64) : Kin (.float x) (.float y)
  | str (s t : String) : Kin (.str s) (.str t)
  | bytes (as bs : List UInt8) : Kin (.bytes as) (.bytes bs)

namespace Value.Kin

variable {v w : Value}

theorem cast (h : Kin v w) : Cast.ofValue? v = Cast.ofValue? w := by
  cases h with
  | int m n bound => exact bound
  | _ => rfl

theorem items? (h : Kin v w) : v.items? = w.items? := by
  cases h <;> rfl

end Value.Kin

namespace Binding

/-- The widths of the rows, in a list of rows. -/
def widths? (vs : List Value) : Option (List Nat) :=
  (rows? vs).map fun rows => rows.map fun v => (row v).length

end Binding

/-! A text depends on few of the values: on truth values, and on the widths of rows. What is to be
written alike has these the same. -/

inductive Piece.Alike (strict : Prop) : Piece → Piece → Prop
  | text {s t : String} (same : strict → s = t) : Alike strict (.text s) (.text t)
  | quoted (n : String) : Alike strict (.quoted n) (.quoted n)
  | cell (key : String) (v w : Value) : Alike strict (.slot (.cell key v)) (.slot (.cell key w))
  | operand (base : String) (v w : Value) (cast : Option Cast) :
    Alike strict (.slot (.operand base v cast)) (.slot (.operand base w cast))
  | members (base : String) {vs ws : List Value} (kin : List.Forall₂ Value.Kin vs ws)
    (same : strict → Binding.widths? vs = Binding.widths? ws) :
    Alike strict (.slot (.members base vs)) (.slot (.members base ws))

inductive Predicate.Alike (strict : Prop) : Predicate → Predicate → Prop
  | isNull (c : String) : Alike strict (.isNull c) (.isNull c)
  | isNotNull (c : String) : Alike strict (.isNotNull c) (.isNotNull c)
  | isFlag (c : String) (negated : Bool) {a b : Bool} (same : strict → a = b) :
    Alike strict (.isFlag c negated a) (.isFlag c negated b)
  | compare (c : String) (o : Comparison) {v w : Value} (kin : v.Kin w) :
    Alike strict (.compare c o v) (.compare c o w)
  | like (c : String) (o : LikeOperator) (s t : String) :
    Alike strict (.like c o s) (.like c o t)
  | oneOf (c : String) {vs ws : List Value} (kin : List.Forall₂ Value.Kin vs ws)
    (same : strict → Binding.widths? vs = Binding.widths? ws) :
    Alike strict (.oneOf c vs) (.oneOf c ws)

theorem Predicate.Alike.refl {strict : Prop} (p : Predicate) : p.Alike strict p := by
  cases p with
  | isNull c => exact .isNull c
  | isNotNull c => exact .isNotNull c
  | isFlag c negated b => exact .isFlag c negated fun _ => rfl
  | compare c o v => exact .compare c o (.same v)
  | like c o s => exact .like c o s s
  | oneOf c vs => exact .oneOf c (List.forall₂_same.mpr fun v _ => .same v) fun _ => rfl

abbrev Filter.Alike (strict : Prop) : Filter → Filter → Prop := List.Forall₂ (Predicate.Alike strict)

/-- Bounds that are both set, and bound with the same type, or both left out. -/
abbrev BoundsAlike : Option Int → Option Int → Prop :=
  Option.Rel fun m n => Cast.ofValue? (.int m) = Cast.ofValue? (.int n)

inductive Statement.Alike (strict : Prop) : Statement → Statement → Prop
  | select (c : Columns) (t : Target) {f g : Filter} (order : List (String × Direction))
    {take take' skip skip' : Option Int} (filter : f.Alike strict g)
    (limit : BoundsAlike take take') (offset : BoundsAlike skip skip') :
    Alike strict (.select c t f order take skip) (.select c t g order take' skip')
  | count (t : Target) {f g : Filter} (filter : f.Alike strict g) :
    Alike strict (.count t f) (.count t g)
  | insert (t : Target) (ns : List String) {vs ws : List Value} (c : Columns)
    (length : vs.length = ws.length) : Alike strict (.insert t ns vs c) (.insert t ns ws c)
  | insertMany (t : Target) (ns : List String) {rows rows' : List (List Value)} (c : Columns)
    (lengths : List.Forall₂ (fun vs ws => vs.length = ws.length) rows rows') :
    Alike strict (.insertMany t ns rows c) (.insertMany t ns rows' c)
  | update (t : Target) {as bs : List (String × Value)} {f g : Filter} (c : Columns)
    (names : List.Forall₂ (fun a b => a.1 = b.1) as bs) (filter : f.Alike strict g) :
    Alike strict (.update t as f c) (.update t bs g c)
  | delete (t : Target) {f g : Filter} (c : Columns) (filter : f.Alike strict g) :
    Alike strict (.delete t f c) (.delete t g c)

namespace Layout

/-! Where the predicates are related piece by piece, so are whole filters, and where the bounds are, so is
the end of a select. -/

section
variable {R : Piece → Piece → Prop} {d : Dialect}

theorem rel_filter (text : ∀ s, R (.text s) (.text s)) {f g : Filter} (before : String)
    (h : List.Forall₂ (fun p q => List.Forall₂ R (predicate d p) (predicate d q)) f g) :
    List.Forall₂ R (filter d before f) (filter d before g) := by
  cases h with
  | nil => exact .nil
  | cons hp hf =>
    refine .cons (text before) (Lists.forall₂_intercalate (.cons (text _) .nil) ?_)
    rw [List.forall₂_map_left_iff, List.forall₂_map_right_iff]
    exact .cons hp hf

/-- A constant that takes the place of a bound is related to itself. -/
theorem rel_pagination (text : ∀ s, R (.text s) (.text s)) {S : Int → Int → Prop}
    (bounds : ∀ {m n}, S m n → R (bound m) (bound n)) (constant : ∀ n, S n n)
    {take take' skip skip' : Option Int} (ht : Option.Rel S take take') (hs : Option.Rel S skip skip') :
    List.Forall₂ R (pagination d take skip) (pagination d take' skip') := by
  have hone : ∀ (s : String) {m n : Int}, S m n →
      List.Forall₂ R [.text s, bound m] [.text s, bound n] :=
    fun s m n h => .cons (text s) (.cons (bounds h) .nil)
  have htwo : ∀ (s : String) {m n k j : Int}, S m n → S k j →
      List.Forall₂ R [.text s, bound m, .text " OFFSET ", bound k]
        [.text s, bound n, .text " OFFSET ", bound j] :=
    fun s m n k j h h' => .cons (text s) (.cons (bounds h) (.cons (text _) (.cons (bounds h') .nil)))
  cases ht with
  | none =>
    cases hs with
    | none => cases d <;> exact .nil
    | some hk =>
      cases d with
      | postgresql => exact hone _ hk
      | sqlite => exact htwo _ (constant _) hk
  | some hn =>
    cases hs with
    | none =>
      cases d with
      | postgresql => exact hone _ hn
      | sqlite => exact htwo _ hn (constant _)
    | some hk => cases d <;> exact htwo _ hn hk

end

/-! Statements that are alike are laid out alike. -/

abbrev Alike (strict : Prop) : Layout → Layout → Prop := List.Forall₂ (Piece.Alike strict)

variable {strict : Prop} {d : Dialect}

theorem alike_text (s : String) {l m : Layout} (h : l.Alike strict m) :
    Alike strict (.text s :: l) (.text s :: m) := .cons (.text fun _ => rfl) h

theorem Alike.append {l m l' m' : Layout} (h : l.Alike strict m) (h' : l'.Alike strict m') :
    Alike strict (l ++ l') (m ++ m') := List.rel_append h h'

theorem alike_join (separator : String) {ls ms : List Layout}
    (h : List.Forall₂ (Alike strict) ls ms) : Alike strict (join separator ls) (join separator ms) :=
  Lists.forall₂_intercalate (alike_text separator .nil) h

theorem alike_predicate {p q : Predicate} (h : p.Alike strict q) :
    Alike strict (predicate d p) (predicate d q) := by
  have hoperand : ∀ (c : String) {v w : Value}, v.Kin w →
      Piece.Alike strict (operand c v) (operand c w) := by
    intro c v w hv
    rw [operand, operand, hv.cast]
    exact .operand _ _ _ _
  cases h with
  | isNull c => exact .cons (.quoted c) (alike_text _ .nil)
  | isNotNull c => exact .cons (.quoted c) (alike_text _ .nil)
  | isFlag c negated same =>
    exact .cons (.quoted c) (.cons (.text fun hs => by rw [same hs]) .nil)
  | compare c o kin => exact .cons (.quoted c) (alike_text _ (.cons (hoperand c kin) .nil))
  | like c o s t =>
    have hs := hoperand c (.str s t)
    cases d <;> cases o
    case sqlite.ilike => exact alike_text _ (.cons (.quoted c) (alike_text _ (.cons hs (alike_text _ .nil))))
    all_goals exact .cons (.quoted c) (alike_text _ (.cons hs (alike_text _ .nil)))
  | oneOf c kin same =>
    exact .cons (.quoted c) (alike_text _ (.cons (.members _ kin same) (alike_text _ .nil)))

theorem alike_filter {f g : Filter} (h : f.Alike strict g) (before : String) :
    Alike strict (filter d before f) (filter d before g) :=
  rel_filter (fun _ => .text fun _ => rfl) before (h.imp fun _ _ => alike_predicate)

theorem alike_target (t : Target) : Alike strict (target t) (target t) := by
  obtain ⟨schema, table⟩ := t
  cases schema with
  | none => exact .cons (.quoted table) .nil
  | some s => exact .cons (.quoted s) (alike_text _ (.cons (.quoted table) .nil))

theorem alike_names (ns : List String) : Alike strict (names ns) (names ns) := by
  refine alike_join ", " (List.forall₂_same.mpr fun l hl => ?_)
  obtain ⟨n, -, rfl⟩ := List.mem_map.mp hl
  exact .cons (.quoted n) .nil

theorem alike_columns (c : Columns) : Alike strict (columns c) (columns c) := by
  cases c with
  | all => exact alike_text _ .nil
  | named ns => exact alike_names ns

theorem alike_returning (c : Columns) : Alike strict (returning c) (returning c) :=
  alike_text _ (alike_columns c)

theorem alike_order (items : List (String × Direction)) : Alike strict (order items) (order items) := by
  unfold order
  split
  · exact .nil
  · refine alike_text _ (alike_join ", " (List.forall₂_same.mpr fun l hl => ?_))
    obtain ⟨o, -, rfl⟩ := List.mem_map.mp hl
    exact .cons (.quoted o.1) (alike_text _ .nil)

theorem alike_pagination {take take' skip skip' : Option Int} (ht : BoundsAlike take take')
    (hs : BoundsAlike skip skip') : Alike strict (pagination d take skip) (pagination d take' skip') := by
  refine rel_pagination (S := fun m n => Cast.ofValue? (.int m) = Cast.ofValue? (.int n))
    (fun _ => .text fun _ => rfl) (fun {m n} h => ?_) (fun _ => rfl) ht hs
  rw [bound, bound, h]
  exact .operand _ _ _ _

theorem alike_row {cells cells' : List (String × Value)}
    (h : List.Forall₂ (fun c c' => c.1 = c'.1) cells cells') :
    Alike strict (row cells) (row cells') := by
  refine (alike_text _ (alike_join ", " ?_)).append (alike_text _ .nil)
  rw [List.forall₂_map_left_iff, List.forall₂_map_right_iff]
  refine h.imp fun c c' hc => ?_
  rw [hc]
  exact .cons (.cell _ _ _) .nil

theorem names_zip (ns : List String) {vs ws : List Value} (h : vs.length = ws.length) :
    List.Forall₂ (fun c c' => c.1 = c'.1) (ns.zip vs) (ns.zip ws) := by
  induction ns generalizing vs ws with
  | nil => exact .nil
  | cons n ns ih =>
    cases vs with
    | nil =>
      rw [List.eq_nil_of_length_eq_zero h.symm]
      exact .nil
    | cons v vs =>
      obtain ⟨w, ws, rfl⟩ := List.exists_cons_of_length_eq_add_one h.symm
      exact .cons rfl (ih (Nat.succ.inj h))

theorem alike_insertInto (t : Target) (ns : List String) :
    Alike strict (insertInto t ns) (insertInto t ns) :=
  ((alike_text _ (alike_target t)).append (alike_text _ (alike_names ns))).append (alike_text _ .nil)

theorem alike_ofStatement {s s' : Statement} (h : s.Alike strict s') :
    Alike strict (ofStatement d s) (ofStatement d s') := by
  cases h with
  | select c t order hf ht hs =>
    exact ((((alike_text _ (alike_columns c)).append (alike_text _ (alike_target t))).append
      (alike_filter hf _)).append (alike_order order)).append (alike_pagination ht hs)
  | count t hf => exact (alike_text _ (alike_target t)).append (alike_filter hf _)
  | insert t ns c hl =>
    exact ((alike_insertInto t ns).append (alike_row (names_zip ns hl))).append (alike_returning c)
  | insertMany t ns c hl =>
    refine ((alike_insertInto t ns).append (alike_join ", " ?_)).append (alike_returning c)
    exact Lists.forall₂_mapIdx hl fun i vs ws h => alike_row (names_zip _ h)
  | update t c hn hf =>
    refine (((alike_text _ (alike_target t)).append (alike_text _ (alike_join ", " ?_))).append
      (alike_filter hf _)).append (alike_returning c)
    rw [List.forall₂_map_left_iff, List.forall₂_map_right_iff]
    refine hn.imp fun a b hab => ?_
    rw [hab]
    exact .cons (.quoted _) (alike_text _ (.cons (.cell _ _ _) .nil))
  | delete t c hf =>
    exact ((alike_text _ (alike_target t)).append (alike_filter hf _)).append (alike_returning c)

end Layout
end TableQuery
