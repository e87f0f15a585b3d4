import TableQuery.Proofs.Query.Order
import TableQuery.Proofs.Query.Target

/-! The columns that a projection comes to, and where a statement lists them. -/

namespace TableQuery

namespace Binding

/-- A piece that stands for itself. -/
inductive Fixed : Piece → Named → Prop
  | text (s : String) : Fixed (.text s) (.text s)
  | quoted (n : String) : Fixed (.quoted n) (.quoted n)

theorem nameAll_fixed {d : Dialect} {l : Layout} {ps : List Named} (h : List.Forall₂ Fixed l ps)
    (n : Names) : nameAll d n l = .ok (ps, n) := by
  induction h with
  | nil => rfl
  | cons hp _ ih =>
    refine nameAll_cons.mpr ⟨_, n, _, ?_, ih, rfl⟩
    cases hp <;> rfl

theorem name?_fixed {l : Layout} {ps : List Named} (h : List.Forall₂ Fixed l ps) :
    ps.filterMap (·.name?) = [] := by
  refine List.filterMap_eq_nil_iff.mpr fun q hq => ?_
  obtain ⟨p, -, hp⟩ := Lists.exists_of_mem_right h hq
  cases hp <;> rfl

theorem spread_fixed {d : Dialect} {l : Layout} {ps : List Named} (h : List.Forall₂ Fixed l ps) :
    List.Forall₂ (Spread d) l (blocks ps) := by
  refine List.forall₂_map_right_iff.mpr (h.imp fun p q hp => ?_)
  cases hp with
  | text s => exact .text s
  | quoted n => exact .quoted n

theorem template_fixed {d : Dialect} {l : Layout} {ps : List Named} (h : List.Forall₂ Fixed l ps) :
    template d ps = writtenAll d ps := by
  refine congrArg String.join (List.map_congr_left fun q hq => ?_)
  obtain ⟨p, -, hp⟩ := Lists.exists_of_mem_right h hq
  cases hp <;> rfl

theorem writtenAll_listed (d : Dialect) (parts : List (List Named)) :
    writtenAll d (listed parts) = ", ".intercalate (parts.map (writtenAll d)) := by
  induction parts with
  | nil => rfl
  | cons part parts ih =>
    cases parts with
    | nil => simp [listed]
    | cons next parts =>
      rw [List.map_cons, List.map_cons, String.intercalate_cons_cons, ← List.map_cons, ← ih, listed,
        List.intercalate_cons_cons, ← listed]
      simp only [writtenAll, List.map_append, join_append, List.map_cons, List.map_nil]
      rfl

end Binding

namespace Layout
open Binding Lexeme Reading

/-- Words and names are written as they stand, and are read as they were written. -/
theorem folded_fixed {d : Dialect} {l : Layout} {ps : List Named} (h : List.Forall₂ Fixed l ps)
    (hr : l.Regular) : ∃ sql, l.folded d = .ok sql ∧ sql = writtenAll d ps ∧ lex d sql = ofLayout d l := by
  refine ⟨_, ?_, rfl, ?_⟩
  · rw [folded, nameAll_fixed h, ← template_fixed h, ← settle_unnamed d (name?_fixed h)]
    rfl
  · have hb := spread_fixed (d := d) h
    have hlex := lex_written hr hb
    rw [flatten_blocks] at hlex
    have hfixed : IsFixed (ofLayout d l) := by
      intro x hx k
      obtain ⟨p, hp, hx⟩ := List.mem_flatMap.mp hx
      obtain ⟨q, -, hq⟩ := Lists.exists_of_mem_left h hp
      cases hq with
      | text s => exact IsFixed.chars s x hx k
      | quoted n => exact IsFixed.name .nil n x hx k
    rw [hlex]
    exact (map_unnamed_eq_fixed hfixed).mp (unnamed_ofBlocks hb)

/-- The columns as they are written out. -/
def columnTexts (d : Dialect) : Columns → List String
  | .all => ["*"]
  | .named ns => ns.map (Identifier.quote d)

/-- The list of columns is written with a comma between each two names, and is read back as them. -/
theorem folded_columns (d : Dialect) {c : Columns} (hc : c ≠ .named []) :
    ∃ sql, (columns c).folded d = .ok sql ∧ sql = ", ".intercalate (columnTexts d c) ∧
      lex d sql = ofColumns c ∧ columns? (lex d sql) = some (c, []) := by
  have hread : columns? (ofColumns c) = some (c, []) := by
    have h : columns? (ofColumns c ++ []) = some (c, []) := columns?_ofColumns hc rfl rfl
    rwa [List.append_nil] at h
  obtain ⟨ps, hps, hsql⟩ : ∃ ps, List.Forall₂ Fixed (columns c) ps ∧
      writtenAll d ps = ", ".intercalate (columnTexts d c) := by
    cases c with
    | all => exact ⟨[.text "*"], .cons (.text "*") .nil, by cases d <;> rfl⟩
    | named ns =>
      refine ⟨listed (ns.map fun n => [.quoted n]), ?_, ?_⟩
      · refine Lists.forall₂_intercalate (.cons (.text ", ") .nil) ?_
        refine List.forall₂_map_left_iff.mpr (List.forall₂_map_right_iff.mpr ?_)
        exact List.forall₂_same.mpr fun n _ => .cons (.quoted n) .nil
      · rw [writtenAll_listed, List.map_map, columnTexts]
        refine congrArg _ (List.map_congr_left fun n _ => ?_)
        simp [writtenAll, written]
  obtain ⟨sql, hfolded, hwritten, hlex⟩ := folded_fixed (d := d) hps (regular_columns c)
  rw [ofLayout_columns] at hlex
  exact ⟨sql, hfolded, hwritten.trans hsql, hlex, hlex ▸ hread⟩

end Layout

/-- The columns that a statement lists; a count has none. -/
def Statement.columns? : Statement → Option Columns
  | .select c .. | .insert _ _ _ c | .insertMany _ _ _ c | .update _ _ _ c | .delete _ _ c => some c
  | .count .. => none

namespace Query
open Layout Lexeme Reading

/-- A list of columns in its place: in a select between the first two words, and in any other statement
at the end. -/
inductive Lists {α : Type} (word : String → List α) (whole list : List α) : StatementKind → Prop
  | front {behind : List α}
    (eq : whole = word "SELECT " ++ (list ++ (word " \nFROM " ++ behind))) : Lists word whole list .select
  | back {kind : StatementKind} {before : List α} (other : kind ≠ .select)
    (eq : whole = before ++ (word " RETURNING " ++ list)) : Lists word whole list kind

/-- The columns of a statement are those of the projection of the state. -/
theorem columns_of_build {rules : Naming} {kind : StatementKind} {s : State} {data : Value}
    {st : Statement} (hk : kind ≠ .count) (h : build rules kind s data = .ok st) :
    ∃ c, returning rules s = .ok c ∧ st.columns? = some c ∧
      ∀ d, Lists (fun s => [.text s]) (ofStatement d st) (columns c) kind := by
  cases kind with
  | select =>
    obtain ⟨c, t, f, order, take, skip, hc, -, -, -, -, -, rfl⟩ := select_eq_ok.mp h
    have hfront : ∀ d, ofStatement d (.select c t f order take skip) = [.text "SELECT "] ++ (columns c ++
        ([.text " \nFROM "] ++ (Layout.target t ++ (Layout.filter d " \nWHERE " f ++
          (Layout.order order ++ pagination d take skip))))) := by
      intro d
      simp only [ofStatement, List.append_assoc, List.cons_append, List.nil_append]
    exact ⟨c, hc, rfl, fun d => .front (hfront d)⟩
  | count => exact absurd rfl hk
  | insert =>
    obtain ⟨_, _, _, c, -, -, -, hc, rfl⟩ := insert_eq_ok.mp h
    exact ⟨c, hc, rfl, fun d => .back (by decide) rfl⟩
  | insertMany =>
    obtain ⟨_, _, _, _, c, -, -, -, -, -, hc, rfl⟩ := insertMany_eq_ok h
    exact ⟨c, hc, rfl, fun d => .back (by decide) rfl⟩
  | update =>
    obtain ⟨_, _, _, _, c, -, -, -, -, -, hc, rfl⟩ := update_eq_ok.mp h
    exact ⟨c, hc, rfl, fun d => .back (by decide) rfl⟩
  | delete =>
    obtain ⟨_, _, c, -, -, -, hc, rfl⟩ := delete_eq_ok.mp h
    exact ⟨c, hc, rfl, fun d => .back (by decide) rfl⟩

/-- A text that shows its statement lists the columns where the statement does. -/
theorem Lists.shown {d : Dialect} {kind : StatementKind} {l : Layout} {c : Columns} {ls : List Lexeme}
    (h : Lists (fun s => [.text s]) l (columns c) kind) (hs : Shows d l ls) :
    Lists chars ls (ofColumns c) kind := by
  have hword : ∀ s, ofLayout d [.text s] = chars s := fun s => List.flatMap_singleton ..
  cases h with
  | front eq =>
    simp only [Shows, eq, ofLayout_append, hword, ofLayout_columns] at hs
    obtain ⟨l₁, m₁, rfl, h₁, r₁⟩ := List.map_eq_append_iff.mp hs
    obtain ⟨l₂, m₂, rfl, h₂, r₂⟩ := List.map_eq_append_iff.mp r₁
    obtain ⟨l₃, m₃, rfl, h₃, -⟩ := List.map_eq_append_iff.mp r₂
    obtain rfl := (map_unnamed_eq_fixed (.chars _)).mp h₁
    obtain rfl := (map_unnamed_eq_fixed (isFixed_ofColumns c)).mp h₂
    obtain rfl := (map_unnamed_eq_fixed (.chars _)).mp h₃
    exact .front rfl
  | back other eq =>
    simp only [Shows, eq, ofLayout_append, hword, ofLayout_columns] at hs
    obtain ⟨l₁, m₁, rfl, -, r₁⟩ := List.map_eq_append_iff.mp hs
    obtain ⟨l₂, m₂, rfl, h₂, h₃⟩ := List.map_eq_append_iff.mp r₁
    obtain rfl := (map_unnamed_eq_fixed (.chars _)).mp h₂
    obtain rfl := (map_unnamed_eq_fixed (isFixed_ofColumns c)).mp h₃
    exact .back other rfl

end Query

namespace Projection
open Layout Lexeme Reading

/-- A text without the blanks around it. -/
def trimmed? (v : Value) : Option String := v.text?.map Text.trim

/-- The second and later occurrences: whatever stands before itself in the list. -/
def later (ns : List String) : List String :=
  (ns.zipIdx.filter fun p => p.1 ∈ ns.take p.2).map Prod.fst

/-- A valid name, other than the star. -/
def Takes (rules : Naming) (v : Value) : Prop :=
  rules.column.isValid v = true ∧ trimmed? v ≠ some Freeze.allColumns

instance (rules : Naming) : DecidablePred (Takes rules) := fun v =>
  inferInstanceAs (Decidable (rules.column.isValid v = true ∧ trimmed? v ≠ some Freeze.allColumns))

/-- What is cited of a projection that is refused: all that is no name, and only without such what
comes again. -/
inductive Refuses (rules : Naming) (items : List Value) : List Value → Prop
  | invalid (some : ∃ v ∈ items, ¬ Takes rules v) :
    Refuses rules items (items.filter fun v => ¬ Takes rules v)
  | repeated (each : ∀ v ∈ items, Takes rules v) (twice : ¬ (items.filterMap trimmed?).Nodup) :
    Refuses rules items ((later (items.filterMap trimmed?)).map .str)

/-- Without names the star. -/
def ofNames (ns : List String) : Columns := if ns.isEmpty then .all else .named ns

theorem repeats_eq (seen ns : List String) : repeats seen ns =
    (ns.zipIdx.filter fun p => p.1 ∈ seen ∨ p.1 ∈ ns.take p.2).map Prod.fst := by
  induction ns generalizing seen with
  | nil => rfl
  | cons n ns ih =>
    have htail : ∀ known, (∀ m, m ∈ known ↔ m ∈ seen ∨ m = n) → repeats known ns =
        ((ns.zipIdx 1).filter fun p => p.1 ∈ seen ∨ p.1 ∈ (n :: ns).take p.2).map Prod.fst := by
      intro known hknown
      rw [ih, List.zipIdx_succ, List.filter_map, List.map_map]
      refine congrArg (List.map _) (List.filter_congr fun p _ => ?_)
      simp [hknown, or_assoc]
    rw [repeats, List.zipIdx_cons, List.filter_cons]
    by_cases hn : n ∈ seen
    · rw [if_pos (List.contains_iff_mem.mpr hn), if_pos (by simp [hn]), List.map_cons]
      refine congrArg _ (htail seen fun m => ⟨.inl, ?_⟩)
      rintro (hm | rfl)
      · exact hm
      · exact hn
    · rw [if_neg (mt List.contains_iff_mem.mp hn), if_neg (by simp [hn])]
      exact htail (n :: seen) fun m => by rw [List.mem_cons, or_comm]

theorem repeats_nil (ns : List String) : repeats [] ns = later ns := by
  simp [repeats_eq, later]

theorem name?_eq (rules : Naming) (v : Value) :
    name? rules v = if Takes rules v then trimmed? v else none := by
  refine Option.ext fun n => ?_
  rw [name?_eq_some, Sorting.column_eq_some]
  constructor
  · rintro ⟨⟨s, hvalid, hs, rfl⟩, hstar⟩
    have ht : trimmed? v = some (Text.trim s) := by rw [trimmed?, hs]; rfl
    rw [if_pos ⟨hvalid, by simpa [ht] using hstar⟩, ht]
  · intro h
    split at h
    · rename_i ht
      obtain ⟨s, hs, rfl⟩ := Option.map_eq_some_iff.mp h
      exact ⟨⟨s, ht.1, hs, rfl⟩, fun he => ht.2 (h.trans (congrArg some he))⟩
    · cases h

theorem Takes.isSome {rules : Naming} {v : Value} (h : Takes rules v) : (trimmed? v).isSome := by
  obtain ⟨n, hn⟩ := Option.isSome_iff_exists.mp h.1
  obtain ⟨s, -, hs, -⟩ := Sorting.column_eq_some.mp hn
  rw [trimmed?, hs]
  rfl

theorem isNone_name? {rules : Naming} {v : Value} : (name? rules v).isNone = decide (¬ Takes rules v) := by
  rw [name?_eq]
  split
  · rename_i h
    rw [Option.isNone_eq_false_iff.mpr h.isSome, decide_eq_false (not_not_intro h)]
  · rename_i h
    exact (decide_eq_true h).symm

theorem ofItems_of_refused {rules : Naming} {items : List Value} (h : ∃ v ∈ items, ¬ Takes rules v) :
    ofItems rules items =
      reject (.invalidColumns (items.filter fun v => ¬ Takes rules v)) := by
  obtain ⟨v, hv, hnot⟩ := h
  have hfilter : (items.filter fun v => ¬ Takes rules v) ≠ [] :=
    List.ne_nil_of_mem (List.mem_filter.mpr ⟨hv, decide_eq_true hnot⟩)
  have hitems : items.isEmpty = false := List.isEmpty_eq_false_iff.mpr (List.ne_nil_of_mem hv)
  simp only [ofItems, isNone_name?, hitems, Bool.false_eq_true, if_false]
  rw [if_pos (by simpa using hfilter)]

theorem ofItems_of_taken {rules : Naming} {items : List Value} (h : ∀ v ∈ items, Takes rules v) :
    ofItems rules items = if (items.filterMap trimmed?).Nodup
      then .ok (ofNames (items.filterMap trimmed?))
      else reject (.invalidColumns ((later (items.filterMap trimmed?)).map .str)) := by
  have hnames : items.filterMap (name? rules) = items.filterMap trimmed? := by
    refine List.filterMap_congr fun v hv => ?_
    rw [name?_eq, if_pos (h v hv)]
  have hfilter : (items.filter fun v => ¬ Takes rules v) = [] := by simpa using h
  cases items with
  | nil => rfl
  | cons v items =>
    obtain ⟨n, hn⟩ := Option.isSome_iff_exists.mp (h v List.mem_cons_self).isSome
    have hnot : ((v :: items).filterMap trimmed?).isEmpty = false := by
      rw [List.filterMap_cons_some hn]
      rfl
    simp only [ofItems, isNone_name?, hfilter, hnames, repeats_nil, List.isEmpty_cons,
      List.isEmpty_nil, Bool.not_true, Bool.false_eq_true, if_false, ofNames, hnot]
    by_cases hd : ((v :: items).filterMap trimmed?).Nodup
    · have hlater : later ((v :: items).filterMap trimmed?) = [] := by
        rw [← repeats_nil]
        exact repeats_eq_nil.mpr ⟨hd, by simp⟩
      rw [if_pos hd, hlater]
      rfl
    · have hlater : later ((v :: items).filterMap trimmed?) ≠ [] := by
        rw [← repeats_nil]
        exact fun he => hd (repeats_eq_nil.mp he).1
      rw [if_neg hd, if_pos (by simpa using hlater)]

/-- A projection that is not given names nothing, and any other what it is gone through for. -/
theorem ofValue_eq (rules : Naming) {v : Value} {items : List Value}
    (hv : v = .none ∧ items = [] ∨ v.iterate? = some items) : ofValue rules v = ofItems rules items := by
  rcases hv with ⟨rfl, rfl⟩ | hv
  · rfl
  · unfold ofValue
    split
    · rw [Freeze.iterate, hv]
      rfl
    · rename_i hfalse
      rw [Value.items_of_falsy hv (by simpa using hfalse)]
      rfl

/-- What is taken, and what it comes to. -/
theorem ofItems_taken_iff {rules : Naming} {items : List Value} {c : Columns} :
    ofItems rules items = .ok c ↔ (∀ e ∈ items, Takes rules e) ∧
      (items.filterMap trimmed?).Nodup ∧ c = ofNames (items.filterMap trimmed?) := by
  by_cases h : ∀ e ∈ items, Takes rules e
  · rw [ofItems_of_taken h, and_iff_right h]
    split
    · rename_i hd
      rw [and_iff_right hd, Except.ok.injEq, eq_comm]
    · rename_i hd
      exact iff_of_false Outcome.reject_ne_ok fun hc => hd hc.1
  · rw [ofItems_of_refused (by simpa using h)]
    exact iff_of_false Outcome.reject_ne_ok fun hc => h hc.1

/-- What is refused, and for which entries. -/
theorem ofItems_refused_iff {rules : Naming} {items : List Value} {f : Fault} :
    ofItems rules items = .error f ↔
      ∃ cited, Refuses rules items cited ∧ f = (Rejection.invalidColumns cited).raised := by
  by_cases h : ∀ e ∈ items, Takes rules e
  · rw [ofItems_of_taken h]
    constructor
    · intro hf
      split at hf
      · cases hf
      · rename_i hd
        cases hf
        exact ⟨_, .repeated h hd, rfl⟩
    · rintro ⟨cited, hc, rfl⟩
      cases hc with
      | invalid some =>
        obtain ⟨e, he, hnot⟩ := some
        exact absurd (h e he) hnot
      | repeated each twice => rw [if_neg twice, reject]
  · have hnot : ∃ e ∈ items, ¬ Takes rules e := by simpa using h
    rw [ofItems_of_refused hnot]
    constructor
    · intro hf
      cases hf
      exact ⟨_, .invalid hnot, rfl⟩
    · rintro ⟨cited, hc, rfl⟩
      cases hc with
      | invalid some => rfl
      | repeated each twice => exact absurd each h

/-- What projecting on a value comes to that is gone through for these entries. -/
structure Projects (rules : Naming) (v : Value) (items : List Value) : Prop where
  taken : ∀ c, ofValue rules v = .ok c ↔ (∀ e ∈ items, Takes rules e) ∧
    (items.filterMap trimmed?).Nodup ∧ c = ofNames (items.filterMap trimmed?)
  refused : ∀ f, ofValue rules v = .error f ↔
    ∃ cited, Refuses rules items cited ∧ f = (Rejection.invalidColumns cited).raised
  quoted : ∀ c, ofValue rules v = .ok c → ∀ d, ∃ sql, (columns c).folded d = .ok sql ∧
    sql = ", ".intercalate (columnTexts d c) ∧ lex d sql = ofColumns c ∧
    columns? (lex d sql) = some (c, [])
  /-- Whatever statement lists columns lists these, and so does its text, if no name reads like a
  mark. -/
  listed : ∀ (kind : StatementKind) (s : State) (data : Value) (st : Statement), kind ≠ .count →
    s.projection.getD [] = items → Query.build rules kind s data = .ok st →
    ∃ c, ofValue rules v = .ok c ∧ st.columns? = some c ∧ ∀ d,
      Query.Lists (fun s => [.text s]) (ofStatement d st) (columns c) kind ∧
      ∀ r, st.render d = .ok r → (ofStatement d st).Legible d →
        Query.Lists chars (lex d r.sql) (ofColumns c) kind

/-- A projection is taken just where each entry is a name other than the star and no two are the same
once they are trimmed, and comes to these names, in order and quoted. Else it cites the entries that
are no names, or without such the names that come again. A select and the RETURNING of any other
statement list the same columns. -/
theorem projection_exact {rules : Naming} {v : Value} {items : List Value}
    (hv : v = .none ∧ items = [] ∨ v.iterate? = some items) : Projects rules v items := by
  have hof := ofValue_eq rules hv
  constructor
  case taken => exact fun c => hof ▸ ofItems_taken_iff
  case refused => exact fun f => hof ▸ ofItems_refused_iff
  case quoted => exact fun c hc d => folded_columns d (ofItems_eq_ok.mp (hof ▸ hc)).ne_nil
  case listed =>
    intro kind s data st hk hs h
    obtain ⟨c, hc, hst, hlists⟩ := Query.columns_of_build hk h
    rw [Query.returning, hs] at hc
    refine ⟨c, hof ▸ hc, hst, fun d => ⟨hlists d, fun r hr hl => ?_⟩⟩
    obtain ⟨-, -, -, hcells⟩ := Query.mem_values_of_build (d := d) h
    have hregular := regular_ofStatement d hcells
    exact (hlists d).shown (shows_plain hregular (plain_of_legible hl hregular hr))

/-- Names that come again once they are trimmed, and the same names without these. -/
theorem projection_exact_padded :
    let items : List Value := [.str " id ", .str "name", .str "id", .str "name "]
    ofValue {} (.tuple items) = .error (.rejected (.invalidColumns [.str "id", .str "name"])) ∧
    ofValue {} (.list (items.take 2)) = .ok (.named ["id", "name"]) := by
  intro items
  have hall : ∀ e ∈ items, Takes {} e := by decide +kernel
  have hnames : items.filterMap trimmed? = ["id", "name", "id", "name"] := by decide +kernel
  have hlater : later (items.filterMap trimmed?) = ["id", "name"] := by rw [hnames]; decide
  refine ⟨?_, ?_⟩
  · refine ((projection_exact (.inr rfl)).refused _).mpr
      ⟨_, .repeated hall (by rw [hnames]; decide), ?_⟩
    rw [hlater]
    rfl
  · refine ((projection_exact (.inr rfl)).taken _).mpr
      ⟨fun e he => hall e (List.mem_of_mem_take he), ?_, ?_⟩
    · decide +kernel
    · exact congrArg ofNames (by decide +kernel : ["id", "name"] = (items.take 2).filterMap trimmed?)

/-- A column that is called like the mark of a parameter is lost where that mark is replaced. And what
is no name is not cited where it cannot be written out. -/
theorem marked_column_not_listed :
    let s : State :=
      { table := "t", projection := some [.str "%(a_1)s"], filter := .map [(.str "a", .int 1)] }
    (∃ r, (Query.build {} .delete s .none >>= fun st => st.render .sqlite) = .ok r ∧
      r.sql = "DELETE FROM \"t\" WHERE \"a\" = ? RETURNING \"?\"") ∧
    ofValue {} (.tuple [.tooLong]) = .error .tooManyDigits := by
  intro s
  refine ⟨Outcome.exists_of_isOk (by decide +kernel), ?_⟩
  have hnot : ¬ Takes {} .tooLong := fun h => by cases h.1
  have hraised : (Rejection.invalidColumns ([Value.tooLong].filter fun v => ¬ Takes {} v)).raised =
      .tooManyDigits :=
    Rejection.raised_of_untold (by simp [Rejection.cited, hnot])
  exact (ofValue_eq {} (.inr rfl)).trans
    (ofItems_refused_iff.mpr ⟨_, .invalid ⟨_, .head _, hnot⟩, hraised.symm⟩)

end Projection
end TableQuery
