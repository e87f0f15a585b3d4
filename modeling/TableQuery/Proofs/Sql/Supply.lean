import TableQuery.Proofs.Sql.Lexeme

/-! The values that stand in the places of a statement, and the parameters under which they are found. -/

namespace TableQuery
namespace Binding

/-- The members of a list, those of its rows where it is one of rows. -/
def memberValues (vs : List Value) : List Value :=
  match rows? vs with
  | some rows => rows.flatMap row
  | none => vs

/-- What stands from `i * w` on for row `i` of width `w`. -/
def strided {α : Type} (xs : List α) : (i : Nat) → (widths : List Nat) → List α
  | _, [] => []
  | i, w :: ws => (xs.drop (i * w)).take w ++ strided xs (i + 1) ws

/-- What is found in the places of the members: of each row as much as it is wide, from where it
would begin if all rows were of its width. -/
def foundValues (vs : List Value) : List Value :=
  match rows? vs with
  | some rows => strided (rows.flatMap row) 0 (rows.map fun v => (row v).length)
  | none => vs

/-- The members are found where they are looked for, as they are in rows of one width. -/
def Aligned (vs : List Value) : Prop :=
  match rows? vs with
  | some rows =>
    strided (rows.flatMap row) 0 (rows.map fun v => (row v).length) = rows.flatMap row
  | none => True

end Binding

def Slot.values : Slot → List Value
  | cell _ v => [v]
  | operand _ v _ => [v]
  | members _ vs => Binding.memberValues vs

namespace Piece

def values : Piece → List Value
  | slot s => s.values
  | _ => []

/-- The values that the place finds where all parameters are found. -/
def found : Piece → List Value
  | slot (.cell _ v) | slot (.operand _ v _) => [v]
  | slot (.members _ vs) => Binding.foundValues vs
  | _ => []

/-- The value of a place for one. -/
def single : Piece → List Value
  | slot (.cell _ v) | slot (.operand _ v _) => [v]
  | _ => []

def lists : Piece → List (List Value)
  | slot (.members _ vs) => [vs]
  | _ => []

def cellKeys : Piece → List String
  | slot (.cell key _) => [key]
  | _ => []

/-- What the name of the place is counted under. -/
def counted : Piece → List String
  | slot (.operand base ..) | slot (.members base _) => [base]
  | _ => []

end Piece

namespace Layout

/-- The values of the places, in the order in which these stand. -/
def values (l : Layout) : List Value := l.flatMap Piece.values

def singles (l : Layout) : List Value := l.flatMap Piece.single

def lists (l : Layout) : List (List Value) := l.flatMap Piece.lists

def cellKeys (l : Layout) : List String := l.flatMap Piece.cellKeys

/-- Places named after a column stand before those that are counted. -/
def CellsFirst (l : Layout) : Prop := l.Pairwise fun p q => p.counted ≠ [] → q.cellKeys = []

end Layout

/-- The names of the places, in the order in which these stand. -/
def Lexeme.holes (ls : List Lexeme) : List (Option String) :=
  ls.filterMap fun
    | .hole k => some k
    | _ => none

/-- Every place that has a value of its own finds it among the parameters: by its name, or in its
position. -/
def Rendered.Supplies (d : Dialect) (r : Rendered) (xs : List (Option Value)) : Prop :=
  match d with
  | .postgresql => List.Forall₂ (fun k x => ∀ v ∈ x, (k.bind fun n => r.params.lookup n) = some v)
      (Lexeme.holes (Lexeme.lex d r.sql)) xs
  | .sqlite => (Lexeme.holes (Lexeme.lex d r.sql)).length = xs.length ∧
      List.Forall₂ (fun x p => ∀ v ∈ x, p.2 = v) xs r.params

namespace Binding
open Lexeme

/-! The names of the places in a block, with the values that stand there. -/

theorem values_append (byColumn : Bool) (as bs : List Named) :
    values byColumn (as ++ bs) = values byColumn as ++ values byColumn bs :=
  List.filterMap_append

theorem values_listed (byColumn : Bool) (parts : List (List Named)) :
    values byColumn (listed parts) = parts.flatMap (values byColumn) := by
  induction parts with
  | nil => rfl
  | cons part parts ih =>
    cases parts with
    | nil => simp [listed]
    | cons next parts =>
      rw [listed, List.intercalate_cons_cons, values_append, values_append, List.flatMap_cons, ← ih]
      simp [values, listed]

theorem values_places (cast : Option Cast) (params : List (String × Value)) :
    values false (places cast params) = params := by
  rw [places, values_listed, List.flatMap_map]
  exact (List.flatMap_singleton' params)

theorem values_rowBlock (ns : List String) (row : List Value) :
    values false (rowBlock ns row) = ns.zip row := by
  rw [rowBlock, values_append]
  change values false (places none (ns.zip row)) ++ [] = _
  rw [values_places, List.append_nil]

theorem values_rows {names : List String} {i : Nat} {rows : List (List Value)}
    {blocks : List (List Named)} (h : RowBlocks names i rows blocks) :
    (values false (listed blocks)).map Prod.fst = strided names i (rows.map List.length) ∧
      (values false (listed blocks)).map Prod.snd = rows.flatten := by
  rw [values_listed]
  induction h with
  | nil => exact ⟨rfl, rfl⟩
  | @cons i row rows blocks full rest ih =>
    rw [List.flatMap_cons, List.map_append, List.map_append, ih.1, ih.2, values_rowBlock,
      List.map_fst_zip full.le, List.map_snd_zip full.ge]
    exact ⟨rfl, rfl⟩

theorem strided_map {α β : Type} (f : α → β) (xs : List α) (i : Nat) (widths : List Nat) :
    strided (xs.map f) i widths = (strided xs i widths).map f := by
  induction widths generalizing i with
  | nil => rfl
  | cons w ws ih =>
    rw [strided, strided, ih, List.map_append, List.map_take, List.map_drop]

theorem strided_subset {α : Type} (xs : List α) (i : Nat) (widths : List Nat) :
    strided xs i widths ⊆ xs := by
  induction widths generalizing i with
  | nil => exact List.nil_subset xs
  | cons w ws ih =>
    exact List.append_subset.mpr ⟨fun x hx => List.mem_of_mem_drop (List.mem_of_mem_take hx), ih (i + 1)⟩

/-- All parameters are found under their names. -/
def Finds (look : String → Option Value) (params : List (String × Value)) : Prop :=
  ∀ p ∈ params, look p.1 = some p.2

theorem finds_iff {look : String → Option Value} {params : List (String × Value)} :
    Finds look params ↔ (params.map Prod.fst).map look = (params.map Prod.snd).map some := by
  rw [List.map_map, List.map_map]
  exact List.map_inj_left.symm

theorem finds_append {look : String → Option Value} {as bs : List (String × Value)} :
    Finds look (as ++ bs) ↔ Finds look as ∧ Finds look bs := List.forall_mem_append

theorem finds_lookup {params : List (String × Value)} (h : (params.map Prod.fst).Nodup) :
    Finds (fun n => params.lookup n) params := fun _ hp => Lists.lookup_of_mem h hp

theorem values_members {d : Dialect} {vs : List Value} {params : List (String × Value)}
    {b : List Named} (h : Members d vs params b) :
    params.map Prod.snd = memberValues vs ∧ (values false b).map Prod.snd = memberValues vs := by
  cases h with
  | flat single supplied =>
    rw [values_places, supplied, memberValues, single]
    exact ⟨rfl, rfl⟩
  | @rows rows _ blocks many items supplied shown =>
    have hlead : values false (rowsLead d) = [] := by cases d <;> rfl
    have hrows : memberValues vs = rows.flatten := by
      rw [memberValues, many, eq_map_row items]
      rfl
    rw [values_append, hlead, List.nil_append, (values_rows shown).2, supplied, hrows]
    exact ⟨rfl, rfl⟩

/-- The places of a list have the names of its parameters. -/
theorem names_members {d : Dialect} {vs : List Value} {params : List (String × Value)}
    {b : List Named} (h : Members d vs params b) :
    (values false b).map Prod.fst ⊆ params.map Prod.fst := by
  cases h with
  | flat single supplied =>
    rw [values_places]
    exact List.Subset.refl _
  | rows many items supplied shown =>
    have hlead : values false (rowsLead d) = [] := by cases d <;> rfl
    rw [values_append, hlead, List.nil_append, (values_rows shown).1]
    exact strided_subset _ 0 _

/-- The places have the names of single values or of members. -/
theorem names_spreads {d : Dialect} {ps : List Named} {bs : List (List Named)}
    {ms : List (String × Value)} (h : Spreads d ps bs ms) :
    (values false bs.flatten).map Prod.fst ⊆ ps.filterMap (·.name?) ++ ms.map Prod.fst := by
  induction h with
  | nil => exact List.nil_subset _
  | text _ ih => exact ih
  | quoted _ ih => exact ih
  | @value key x v cast ps bs ms _ ih => exact List.cons_subset_cons x ih
  | @members x vs params b ps bs ms here _ _ ih =>
    rw [List.flatten_cons, values_append, List.map_append, List.map_append]
    intro y hy
    rcases List.mem_append.mp hy with hy | hy
    · exact List.mem_append_right _ (List.mem_append_left _ (names_members here hy))
    · rcases List.mem_append.mp (ih hy) with hy | hy
      · exact List.mem_append_left _ (List.mem_cons_of_mem x hy)
      · exact List.mem_append_right _ (List.mem_append_right _ hy)

/-- Where its parameters are found, the places of a list find values that its members decide. -/
theorem look_members {d : Dialect} {look : String → Option Value} {vs : List Value}
    {params : List (String × Value)} {b : List Named} (h : Members d vs params b)
    (hf : Finds look params) :
    ((values false b).map Prod.fst).map look = (foundValues vs).map some := by
  cases h with
  | flat single supplied =>
    rw [values_places, finds_iff.mp hf, supplied, foundValues, single]
  | @rows rows _ blocks many items supplied shown =>
    have hlead : values false (rowsLead d) = [] := by cases d <;> rfl
    rw [values_append, hlead, List.nil_append, (values_rows shown).1, ← strided_map,
      finds_iff.mp hf, strided_map, supplied, foundValues, many, eq_map_row items, List.map_map]
    rfl

/-- Where its parameters are found, a list finds its members just where it is aligned. -/
theorem finds_members {d : Dialect} {look : String → Option Value} {vs : List Value}
    {params : List (String × Value)} {b : List Named} (h : Members d vs params b)
    (hf : Finds look params) : Finds look (values false b) ↔ Aligned vs := by
  have haligned : Aligned vs ↔ foundValues vs = memberValues vs := by
    rw [Aligned, foundValues, memberValues]
    cases rows? vs with
    | none => simp
    | some rows => rfl
  rw [finds_iff, look_members h hf, (values_members h).2, haligned]
  exact (List.map_injective_iff.mpr fun _ _ h => Option.some.inj h).eq_iff

/-! The names of the places in a whole statement. -/

theorem holes_ofNamed (d : Dialect) (b : List Named) :
    holes (b.flatMap (ofNamed d)) = (values false b).map fun p => key d p.1 := by
  have hchars : ∀ s : String, holes (chars s) = [] := by
    intro s
    rw [holes, chars, List.filterMap_map]
    exact List.filterMap_eq_nil_iff.mpr fun c _ => rfl
  have happend : ∀ xs ys : List Lexeme, holes (xs ++ ys) = holes xs ++ holes ys :=
    fun xs ys => List.filterMap_append
  induction b with
  | nil => rfl
  | cons q b ih =>
    rw [List.flatMap_cons, happend, ih]
    cases q with
    | text s => rw [ofNamed, hchars]; rfl
    | quoted n => rfl
    | value column x v cast =>
      change key d x :: (holes (chars (castText d cast)) ++ _) = _
      rw [hchars]
      rfl
    | members x vs => rfl

theorem values_spread {d : Dialect} {p : Piece} {b : List Named} (h : Spread d p b) :
    (values false b).map Prod.snd = p.values := by
  cases h with
  | members here fit => exact (values_members here).2
  | _ => rfl

theorem values_spreads {d : Dialect} {l : Layout} {bs : List (List Named)}
    (h : List.Forall₂ (Spread d) l bs) : (values false bs.flatten).map Prod.snd = l.values := by
  induction h with
  | nil => rfl
  | cons hp _ ih =>
    rw [List.flatten_cons, values_append, List.map_append, values_spread hp, ih]
    rfl

/-- The values in their order of binding: those of the places for one, and those of the lists. -/
theorem values_params {d : Dialect} {l : Layout} {ps : List Named} {bs : List (List Named)}
    {ms : List (String × Value)} (hs : Spreads d ps bs ms) (hl : List.Forall₂ Labels l ps)
    (byColumn : Bool) : (values byColumn ps).map Prod.snd = l.singles ∧
      ms.map Prod.snd = l.lists.flatMap memberValues := by
  induction hs generalizing l with
  | nil =>
    cases hl
    exact ⟨rfl, rfl⟩
  | text _ ih =>
    obtain ⟨p, l, hp, hrest, rfl⟩ := List.forall₂_cons_right_iff.mp hl
    cases hp
    have h := ih hrest
    exact h
  | quoted _ ih =>
    obtain ⟨p, l, hp, hrest, rfl⟩ := List.forall₂_cons_right_iff.mp hl
    cases hp
    have h := ih hrest
    exact h
  | value _ ih =>
    obtain ⟨p, l, hp, hrest, rfl⟩ := List.forall₂_cons_right_iff.mp hl
    obtain ⟨hv, hm⟩ := ih hrest
    cases hp <;> exact ⟨congrArg (_ :: ·) hv, hm⟩
  | members here fit _ ih =>
    obtain ⟨p, l, hp, hrest, rfl⟩ := List.forall₂_cons_right_iff.mp hl
    obtain ⟨hv, hm⟩ := ih hrest
    cases hp
    refine ⟨hv, ?_⟩
    rw [List.map_append, hm, (values_members here).1]
    rfl

/-- Where the members are found under their names, all places find their values just where those for
one do and the lists are aligned. -/
theorem finds_spreads {d : Dialect} {look : String → Option Value} {l : Layout} {ps : List Named}
    {bs : List (List Named)} {ms : List (String × Value)} (hs : Spreads d ps bs ms)
    (hl : List.Forall₂ Labels l ps) (hf : Finds look ms) :
    Finds look (values false bs.flatten) ↔
      Finds look (values false ps) ∧ ∀ vs ∈ l.lists, Aligned vs := by
  induction hs generalizing l with
  | nil =>
    cases hl
    exact iff_of_true (fun _ hp => absurd hp List.not_mem_nil)
      ⟨fun _ hp => absurd hp List.not_mem_nil, fun _ hv => absurd hv List.not_mem_nil⟩
  | text _ ih =>
    obtain ⟨p, l, hp, hrest, rfl⟩ := List.forall₂_cons_right_iff.mp hl
    cases hp
    have h := ih hrest hf
    exact h
  | quoted _ ih =>
    obtain ⟨p, l, hp, hrest, rfl⟩ := List.forall₂_cons_right_iff.mp hl
    cases hp
    have h := ih hrest hf
    exact h
  | @value key x v cast ps bs ms _ ih =>
    obtain ⟨p, l, hp, hrest, rfl⟩ := List.forall₂_cons_right_iff.mp hl
    have hlists : Layout.lists (p :: l) = Layout.lists l := by cases hp <;> rfl
    rw [hlists, List.flatten_cons, values_append, finds_append, ih hrest hf, ← and_assoc]
    exact and_congr_left fun _ => finds_append.symm
  | @members x vs params b ps bs ms here fit _ ih =>
    obtain ⟨p, l, hp, hrest, rfl⟩ := List.forall₂_cons_right_iff.mp hl
    obtain ⟨hfp, hfm⟩ := finds_append.mp hf
    cases hp with
    | @members base x vs fit solid =>
      have hlists : Layout.lists (.slot (.members base vs) :: l) = vs :: Layout.lists l := rfl
      rw [hlists, List.forall_mem_cons, List.flatten_cons, values_append, finds_append,
        finds_members here hfp, ih hrest hfm]
      exact and_left_comm

/-- Where all parameters are found, the places find values that the pieces decide. -/
theorem look_spreads {d : Dialect} {look : String → Option Value} {l : Layout} {ps : List Named}
    {bs : List (List Named)} {ms : List (String × Value)} (hs : Spreads d ps bs ms)
    (hl : List.Forall₂ Labels l ps) (hv : Finds look (values false ps)) (hm : Finds look ms) :
    ((values false bs.flatten).map Prod.fst).map look = (l.flatMap Piece.found).map some := by
  induction hs generalizing l with
  | nil =>
    cases hl
    rfl
  | text _ ih =>
    obtain ⟨p, l, hp, hrest, rfl⟩ := List.forall₂_cons_right_iff.mp hl
    cases hp
    have h := ih hrest hv hm
    exact h
  | quoted _ ih =>
    obtain ⟨p, l, hp, hrest, rfl⟩ := List.forall₂_cons_right_iff.mp hl
    cases hp
    have h := ih hrest hv hm
    exact h
  | @value key x v cast ps bs ms _ ih =>
    obtain ⟨p, l, hp, hrest, rfl⟩ := List.forall₂_cons_right_iff.mp hl
    obtain ⟨hx, hv⟩ := List.forall_mem_cons.mp hv
    have hfound : p.found = [v] := by cases hp <;> rfl
    rw [List.flatMap_cons, hfound, List.map_append, ← ih hrest hv hm, List.flatten_cons, values_append,
      List.map_append, List.map_append]
    exact congrArg (· :: _) hx
  | @members x vs params b ps bs ms here fit _ ih =>
    obtain ⟨p, l, hp, hrest, rfl⟩ := List.forall₂_cons_right_iff.mp hl
    obtain ⟨hparams, hm⟩ := finds_append.mp hm
    cases hp
    rw [List.flatMap_cons, List.map_append, ← ih hrest hv hm, List.flatten_cons, values_append,
      List.map_append, List.map_append, look_members here hparams]
    rfl

/-! Cells, which are counted under no base. -/

/-- A column that needs no other name is what its cell is called, and those behind need none after it. -/
theorem free_cell {taken : List String} {key : String} {keys : List String} (h : (key :: keys).Nodup)
    (hfree : ∀ k ∈ key :: keys, escape k = k ∧ k ∉ taken) :
    free taken (escape key) = key ∧ keys.Nodup ∧ ∀ k ∈ keys, escape k = k ∧ k ∉ key :: taken := by
  obtain ⟨hkey, hkeys⟩ := List.nodup_cons.mp h
  obtain ⟨⟨hescape, hnew⟩, hfree⟩ := List.forall_mem_cons.mp hfree
  refine ⟨by rw [hescape, free, if_neg (by simpa using hnew)], hkeys, fun k hk =>
    ⟨(hfree k hk).1, fun hm => ?_⟩⟩
  rcases List.mem_cons.mp hm with rfl | hm
  · exact hkey hk
  · exact (hfree k hk).2 hm

/-- Columns that need no other name are what their cells are called, where these come first. -/
theorem column_eq_name {d : Dialect} {n n' : Names} {l : Layout} {ps : List Named}
    (h : nameAll d n l = .ok (ps, n')) (hfirst : l.CellsFirst) (hkeys : l.cellKeys.Nodup)
    (hfree : ∀ key ∈ l.cellKeys, escape key = key ∧ key ∉ n.taken) :
    values true ps = values false ps := by
  induction l generalizing n ps with
  | nil =>
    cases h
    rfl
  | cons p l ih =>
    obtain ⟨q, m, qs, hq, hqs, rfl⟩ := nameAll_cons.mp h
    obtain ⟨hrest, hnext⟩ := List.pairwise_cons.mp hfirst
    -- Behind a piece that is counted there are no cells, of which anything would have to be known.
    have hcounted : p.counted ≠ [] → Layout.cellKeys l = [] := fun hp =>
      List.flatMap_eq_nil_iff.mpr fun r hr => hrest r hr hp
    have hlater : p.counted ≠ [] → values true qs = values false qs := by
      intro hp
      refine ih hqs hnext ?_ ?_ <;> rw [hcounted hp] <;> simp
    cases p with
    | text s =>
      cases hq
      have h := ih hqs hnext hkeys hfree
      exact h
    | quoted s =>
      cases hq
      have h := ih hqs hnext hkeys hfree
      exact h
    | slot s =>
      cases s with
      | cell key v =>
        cases hq
        obtain ⟨hname, hkeys, hfree⟩ := free_cell hkeys hfree
        have htail : values true qs = values false qs := by
          refine ih hqs hnext hkeys ?_
          change ∀ k ∈ Layout.cellKeys l, escape k = k ∧ k ∉ free n.taken (escape key) :: n.taken
          rwa [hname]
        change (key, v) :: values true qs = (free n.taken (escape key), v) :: values false qs
        rw [hname, htail]
      | operand base v cast =>
        obtain ⟨⟨x, m₁⟩, hx, hq⟩ := Outcome.bind_eq_ok.mp hq
        cases Outcome.pure_eq_ok.mp hq
        exact congrArg ((x, v) :: ·) (hlater (List.cons_ne_nil _ _))
      | members base vs =>
        obtain ⟨⟨x, m₁⟩, hx, hq⟩ := Outcome.bind_eq_ok.mp hq
        cases Outcome.pure_eq_ok.mp hq
        exact hlater (List.cons_ne_nil _ _)

/-! Where the parameters are found. -/

theorem memberLists_labels {l : Layout} {ps : List Named} (h : List.Forall₂ Labels l ps) :
    (memberLists ps).map Prod.snd = l.lists := by
  induction h with
  | nil => rfl
  | cons hp _ ih =>
    cases hp with
    | members vs fit solid => exact congrArg (vs :: ·) ih
    | _ => exact ih

theorem fit_values {l : Layout} {ps : List Named} (h : List.Forall₂ Labels l ps) (hr : l.Regular) :
    ∀ p ∈ values false ps, Fit p.1 := by
  intro p hp
  obtain ⟨q, hq, hqp⟩ := List.mem_filterMap.mp hp
  obtain ⟨piece, hpiece, hl⟩ := Lists.exists_of_mem_right h hq
  have hreg := hr.pieces piece hpiece
  cases hl with
  | cell v fit =>
    cases hqp
    exact fit hreg
  | operand v cast fit =>
    cases hqp
    exact fit
  | _ => cases hqp

theorem cellKeys_subset {l : Layout} {ps : List Named} (h : List.Forall₂ Labels l ps) :
    l.cellKeys ⊆ (values true ps).map Prod.fst := by
  induction h with
  | nil => exact List.nil_subset _
  | cons hp _ ih =>
    cases hp with
    | @cell key x v fit => exact List.cons_subset_cons key ih
    | operand v cast fit => exact List.subset_cons_of_subset _ ih
    | _ => exact ih

theorem values_subset {d : Dialect} {ps : List Named} {bs : List (List Named)}
    {ms : List (String × Value)} (h : Spreads d ps bs ms) :
    values false ps ⊆ values false bs.flatten := by
  induction h with
  | nil => exact List.nil_subset _
  | text _ ih => exact ih
  | quoted _ ih => exact ih
  | value _ ih => exact List.cons_subset_cons _ ih
  | members here fit _ ih =>
    rw [List.flatten_cons, values_append]
    exact List.subset_append_of_subset_right _ ih

theorem names_sublist (ps : List Named) :
    List.Sublist ((values false ps).map Prod.fst) (ps.filterMap (·.name?)) := by
  induction ps with
  | nil => exact .slnil
  | cons q ps ih =>
    cases q with
    | text s => exact ih
    | quoted n => exact ih
    | value column x v cast => exact ih.cons_cons x
    | members x vs => exact ih.cons x

theorem length_values (ps : List Named) :
    ((values true ps).map Prod.fst).length = ((values false ps).map Prod.fst).length := by
  induction ps with
  | nil => rfl
  | cons q ps ih =>
    cases q with
    | value column x v cast => exact congrArg (· + 1) ih
    | _ => exact ih

theorem mem_keys_of_lookup {params : List (String × Value)} {x : String} {v : Value}
    (h : params.lookup x = some v) : x ∈ params.map Prod.fst := by
  by_contra hx
  rw [Lists.lookup_of_not_mem hx] at h
  cases h

/-- Parameters go by names, and by the columns of cells where there are lists: these have to be called
as their columns are. -/
theorem finds_params {d : Dialect} {l : Layout} {n : Names} {ps : List Named}
    {bs : List (List Named)} {ms : List (String × Value)} (hn : nameAll d {} l = .ok (ps, n))
    (hl : List.Forall₂ Labels l ps) (hs : Spreads d ps bs ms)
    (hnd : (ps.filterMap (·.name?) ++ ms.map Prod.fst).Nodup) (hr : l.Regular)
    (hfirst : l.CellsFirst) (hkeys : l.cellKeys.Nodup) :
    Finds (fun x => (values true ps ++ ms).lookup x) (values false bs.flatten) ↔
      (∀ key ∈ l.cellKeys, escape key = key) ∧ ∀ vs ∈ l.lists, Aligned vs := by
  have hnames : ((values false ps).map Prod.fst ++ ms.map Prod.fst).Nodup :=
    hnd.sublist ((names_sublist ps).append_right _)
  constructor
  · intro h
    -- Every name is that of a column, so that there are no other columns.
    have hsub : (values false ps).map Prod.fst ⊆ (values true ps).map Prod.fst := by
      intro x hx
      obtain ⟨p, hp, rfl⟩ := List.mem_map.mp hx
      have hmem := mem_keys_of_lookup (h p (values_subset hs hp))
      rw [List.map_append] at hmem
      exact (List.mem_append.mp hmem).resolve_right (List.disjoint_of_nodup_append hnames hx)
    have hperm : ((values false ps).map Prod.fst).Perm ((values true ps).map Prod.fst) :=
      (List.subperm_of_subset hnames.of_append_left hsub).perm_of_length_le (length_values ps).le
    have hcolumns : ((values true ps ++ ms).map Prod.fst).Nodup := by
      rw [List.map_append]
      exact (hperm.append_right _).nodup_iff.mp hnames
    refine ⟨fun key hkey => ?_, ?_⟩
    · obtain ⟨p, hp, rfl⟩ := List.mem_map.mp (hperm.mem_iff.mpr (cellKeys_subset hl hkey))
      exact escape_of_clear (fit_values hl hr p hp).clear
    · exact ((finds_spreads hs hl (finds_append.mp (finds_lookup hcolumns)).2).mp h).2
  · rintro ⟨hfree, haligned⟩
    have hcolumn : values true ps = values false ps :=
      column_eq_name hn hfirst hkeys fun key hkey => ⟨hfree key hkey, List.not_mem_nil⟩
    rw [hcolumn]
    obtain ⟨hv, hm⟩ := finds_append.mp
      (finds_lookup (show ((values false ps ++ ms).map Prod.fst).Nodup by rwa [List.map_append]))
    exact (finds_spreads hs hl hm).mpr ⟨hv, haligned⟩

end Binding

namespace Layout
open Binding Lexeme

/-- What the places are to have: a value each, but for the constants that one dialect fills in. -/
def Expects (d : Dialect) (l : Layout) (xs : List (Option Value)) : Prop :=
  List.Forall₂ (fun x v => x = some v ∨ (x = none ∧ d = .sqlite)) xs l.values

/-- What it takes for every place to have its own value. Where there are lists, parameters that go by
name are called as their columns are, and those that go by position stand behind all others. -/
def Faithful (d : Dialect) (l : Layout) (xs : List (Option Value)) : Prop :=
  match d with
  | .postgresql => (l.lists = [] ∨ ∀ key ∈ l.cellKeys, escape key = key) ∧
      ∀ vs ∈ l.lists, Aligned vs
  | .sqlite => List.Forall₂ (fun x v => ∀ w ∈ x, v = w) xs
      (l.singles ++ l.lists.flatMap memberValues)

variable {l : Layout} {r : Rendered}

theorem holes_plain {d : Dialect} (hr : l.Regular) {ps : List Named} {bs : List (List Named)}
    {ms : List (String × Value)} (hl : List.Forall₂ Labels l ps) (hs : Spreads d ps bs ms)
    (hsql : r.sql = writtenAll d bs.flatten) :
    holes (lex d r.sql) = (Binding.values false bs.flatten).map fun p => key d p.1 := by
  rw [hsql, lex_written hr (hs.spread hl), ofBlocks, holes_ofNamed]

theorem supplies_postgresql (hr : l.Regular) (hfirst : l.CellsFirst) (hkeys : l.cellKeys.Nodup)
    (h : l.plain .postgresql = .ok r) : r.Supplies .postgresql (l.values.map some) ↔
      (l.lists = [] ∨ ∀ key ∈ l.cellKeys, escape key = key) ∧ ∀ vs ∈ l.lists, Aligned vs := by
  obtain ⟨ps, bs, ms, ⟨n, hn⟩, hl, hs, hnd, hsql, hparams⟩ := plain_eq_ok h
  have hsupplies : r.Supplies .postgresql (l.values.map some) ↔
      Finds (fun x => r.params.lookup x) (Binding.values false bs.flatten) := by
    rw [Rendered.Supplies, holes_plain hr hl hs hsql, ← values_spreads (hs.spread hl), List.map_map,
      List.forall₂_map_left_iff, List.forall₂_map_right_iff, List.forall₂_same]
    simp [Finds, key]
  have hlists := memberLists_labels hl
  rw [hsupplies, hparams]
  -- Without lists the parameters have the names of their places, and with one those of the columns.
  by_cases hempty : l.lists = []
  · have hnone : memberLists ps = [] := by
      rw [hempty] at hlists
      exact List.map_eq_nil_iff.mp hlists
    have hms : ms = [] := by
      have := (values_params hs hl false).2
      rw [hempty] at this
      exact List.map_eq_nil_iff.mp this
    have hnames : (((Binding.values false ps) ++ ms).map Prod.fst).Nodup := by
      rw [List.map_append]
      exact hnd.sublist ((names_sublist ps).append_right _)
    have hfinds := finds_append.mp (finds_lookup hnames)
    rw [hnone]
    refine iff_of_true ((finds_spreads hs hl hfinds.2).mpr ⟨hfinds.1, ?_⟩) ⟨.inl hempty, ?_⟩ <;>
      rw [hempty] <;> simp
  · have hsome : (memberLists ps).isEmpty = false := by
      rw [List.isEmpty_eq_false_iff]
      rintro hnone
      rw [hnone] at hlists
      exact hempty hlists.symm
    rw [hsome]
    simpa [hempty] using finds_params hn hl hs hnd hr hfirst hkeys

theorem supplies_sqlite (hr : l.Regular) (h : l.plain .sqlite = .ok r) {xs : List (Option Value)}
    (hx : xs.length = l.values.length) : r.Supplies .sqlite xs ↔ l.Faithful .sqlite xs := by
  obtain ⟨ps, bs, ms, -, hl, hs, -, hsql, hparams⟩ := plain_eq_ok h
  have hholes : (holes (lex .sqlite r.sql)).length = xs.length := by
    rw [holes_plain hr hl hs hsql, hx, ← values_spreads (hs.spread hl), List.length_map,
      List.length_map]
  obtain ⟨hv, hm⟩ := values_params hs hl (!(memberLists ps).isEmpty)
  have hvalues : r.params.map Prod.snd = l.singles ++ l.lists.flatMap memberValues := by
    rw [hparams, List.map_append, hv, hm]
  rw [Rendered.Supplies, Faithful, ← hvalues, List.forall₂_map_right_iff]
  exact and_iff_right hholes

/-- Every place has the value that it is to have just where the statement is faithful to its order
and its columns. -/
theorem supplies_iff {d : Dialect} (hr : l.Regular) (hfirst : l.CellsFirst)
    (hkeys : l.cellKeys.Nodup) (h : l.plain d = .ok r) {xs : List (Option Value)}
    (hx : l.Expects d xs) : r.Supplies d xs ↔ l.Faithful d xs := by
  cases d with
  | sqlite => exact supplies_sqlite hr h hx.length_eq
  | postgresql =>
    have hxs : xs = l.values.map some := by
      have hx' : List.Forall₂ (fun x v => x = some v) xs l.values :=
        hx.imp fun x v hxv => hxv.resolve_right (by simp)
      rw [← List.forall₂_eq_eq_eq, List.forall₂_map_right_iff]
      exact hx'
    rw [hxs]
    exact supplies_postgresql hr hfirst hkeys h

end Layout
end TableQuery
