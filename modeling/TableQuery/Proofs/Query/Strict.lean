import TableQuery.Proofs.Naming
import TableQuery.Proofs.Query.Asked
import TableQuery.Proofs.Query.Given
import TableQuery.Proofs.Sql.Around
import TableQuery.Proofs.Sql.Counted
import TableQuery.Proofs.Sql.Insertion

/-! Statements under strict rules: their names are made up of letters, digits and underscores, so that
they are written out as they are laid out. -/

namespace TableQuery
open Binding

/-! Names. -/

namespace Naming

variable {rules : Naming} {v : Value} {n : String}

theorem isWord_of_isIdentifier {cs : List Char} (h : isIdentifier cs = true) :
    ∀ c ∈ cs, IsWord c := by
  have hletter : ∀ c, isLetter c = true → IsWord c := by
    intro c hc
    simp only [isLetter, Bool.or_eq_true, beq_iff_eq] at hc
    exact hc.symm.imp_right fun hc => by simp [Char.isAlphanum, hc]
  cases cs with
  | nil => exact fun _ hc => absurd hc List.not_mem_nil
  | cons c cs =>
    obtain ⟨hc, hcs⟩ := Bool.and_eq_true_iff.mp h
    refine List.forall_mem_cons.mpr ⟨hletter c hc, fun e he => ?_⟩
    rcases Bool.or_eq_true_iff.mp (List.all_eq_true.mp hcs e he) with hl | hd
    · exact hletter e hl
    · exact .inr (by simp [Char.isAlphanum, hd])

theorem wordy_of_name? (hs : rules.strict = true) (h : rules.column.name? v = some n) : Wordy n := by
  obtain ⟨s, -, haccepts, rfl⟩ := name?_eq_some.mp h
  have hid : isIdentifier (Text.trimChars s.toList) = true := by
    simpa [acceptsChars, column, hs] using (Bool.and_eq_true_iff.mp haccepts).2
  intro c hc
  rw [Text.trim, String.toList_ofList] at hc
  exact isWord_of_isIdentifier hid c hc

end Naming

/-- A name in whose characters no mark can be read. -/
def Dotted (s : String) : Prop := ∀ c ∈ s.toList, IsWord c ∨ c = '.'

theorem Binding.Wordy.dotted {s : String} (h : Wordy s) : Dotted s := fun c hc => .inl (h c hc)

theorem mem_trimChars {cs : List Char} {c : Char} (h : c ∈ Text.trimChars cs) : c ∈ cs := by
  rw [Text.trimChars, Text.stripBy, List.mem_reverse] at h
  exact (List.dropWhile_sublist _).mem (List.mem_reverse.mp ((List.dropWhile_sublist _).mem h))

theorem dotted_of_name? {rules : Naming} {v : Value} {n : String} (hs : rules.strict = true)
    (h : rules.name? v = some n) : Dotted n := by
  obtain ⟨s, -, haccepts, rfl⟩ := Naming.name?_eq_some.mp h
  have hcases := (Bool.and_eq_true_iff.mp haccepts).2
  intro c hc
  rw [Text.trim, String.toList_ofList] at hc
  simp only [hs, Bool.not_true, Bool.false_or, Bool.or_eq_true, Bool.and_eq_true] at hcases
  rcases hcases with hid | ⟨-, hq⟩
  · exact .inl (Naming.isWord_of_isIdentifier hid c hc)
  · generalize Text.trimChars s.toList = cs at hq hc
    rw [Naming.isQualified] at hq
    split at hq
    · rename_i e rest he
      obtain ⟨hfirst, hrest⟩ := Bool.and_eq_true_iff.mp hq
      rw [← List.takeWhile_append_dropWhile (p := (· != '.')) (l := cs), he] at hc
      rcases List.mem_append.mp hc with hc | hc
      · exact .inl (Naming.isWord_of_isIdentifier hfirst c hc)
      · rcases List.mem_cons.mp hc with rfl | hc
        · have := List.head?_dropWhile_not (· != '.') cs
          rw [he] at this
          exact .inr (by simpa using this)
        · exact .inl (Naming.isWord_of_isIdentifier hrest c hc)
    · cases hq

theorem dotted_ofName (qualified : Bool) {n : String} (h : Dotted n) :
    Dotted (Target.ofName qualified n).table ∧
      ∀ s ∈ (Target.ofName qualified n).schema, Dotted s := by
  simp only [Target.ofName]
  split
  · rename_i e rest he
    have hrest : ∀ c ∈ rest, IsWord c ∨ c = '.' := fun c hc =>
      h c ((List.dropWhile_sublist _).mem (he ▸ List.mem_cons_of_mem e hc))
    refine ⟨fun c hc => ?_, fun s hs c hc => ?_⟩
    · rw [String.toList_ofList] at hc
      exact hrest c (mem_trimChars hc)
    · split at hs
      · cases hs
      · cases hs
        rw [String.toList_ofList] at hc
        exact h c ((List.takeWhile_sublist _).mem (mem_trimChars hc))
  · exact ⟨h, fun s hs => by cases hs⟩

/-! Pieces. -/

/-- A piece whose names are made up of such characters. -/
inductive Piece.Strict : Piece → Prop
  | text (s : String) : Strict (.text s)
  | quoted {n : String} (h : Dotted n) : Strict (.quoted n)
  | cell {key : String} (h : Wordy key) (v : Value) : Strict (.slot (.cell key v))
  | operand {base : String} (h : Wordy base) (v : Value) (cast : Option Cast) :
    Strict (.slot (.operand base v cast))
  | members {base : String} (h : Wordy base) (vs : List Value) : Strict (.slot (.members base vs))

namespace Layout

theorem mem_joinRuns {cs : List Char} {c : Char} (h : c ∈ joinRuns cs) : c = '_' ∨ c ∈ cs := by
  fun_induction joinRuns cs with
  | case1 => cases h
  | case2 e =>
    rw [List.mem_singleton] at h ⊢
    split at h
    · exact .inl h
    · exact .inr h
  | case3 e f rest _ _ ih => exact (ih h).imp_right (List.mem_cons_of_mem e)
  | case4 e f rest _ _ ih =>
    rcases List.mem_cons.mp h with rfl | h
    · exact .inl rfl
    · exact (ih h).imp_right (List.mem_cons_of_mem e)
  | case5 e f rest _ ih =>
    rcases List.mem_cons.mp h with rfl | h
    · exact .inr (List.mem_cons_self ..)
    · exact (ih h).imp_right (List.mem_cons_of_mem e)

theorem wordy_base {column : String} (h : Wordy column) : Wordy (base column) := by
  intro c hc
  rw [base, String.toList_ofList, Text.stripBy, List.mem_reverse] at hc
  have hj := (List.dropWhile_sublist _).mem (List.mem_reverse.mp ((List.dropWhile_sublist _).mem hc))
  exact (mem_joinRuns hj).elim .inl (h c)

theorem strict_predicate (d : Dialect) {p : Predicate} (h : Wordy p.column) :
    ∀ q ∈ predicate d p, q.Strict := by
  have hbase := wordy_base h
  cases p with
  | isNull c => simpa [predicate] using ⟨.quoted h.dotted, .text _⟩
  | isNotNull c => simpa [predicate] using ⟨.quoted h.dotted, .text _⟩
  | isFlag c negated flag => simpa [predicate] using ⟨.quoted h.dotted, .text _⟩
  | compare c o v => simpa [predicate] using ⟨.quoted h.dotted, .text _, .operand hbase v _⟩
  | like c o s =>
    cases d <;> cases o
    case sqlite.ilike =>
      simpa [predicate] using ⟨.text _, .quoted h.dotted, .text _, .operand hbase (.str s) _, .text _⟩
    all_goals simpa [predicate] using ⟨.quoted h.dotted, .text _, .operand hbase (.str s) _, .text _⟩
  | oneOf c vs => simpa [predicate] using ⟨.quoted h.dotted, .text _, .members hbase vs, .text _⟩

theorem strict_conjunction (d : Dialect) {f : Filter} (h : ∀ p ∈ f, Wordy p.column) :
    ∀ q ∈ conjunction d f, q.Strict := by
  refine forall_join (.text _) fun l hl => ?_
  obtain ⟨p, hp, rfl⟩ := List.mem_map.mp hl
  exact strict_predicate d (h p hp)

theorem strict_filter (d : Dialect) (before : String) {f : Filter} (h : ∀ p ∈ f, Wordy p.column) :
    ∀ q ∈ filter d before f, q.Strict := by
  unfold filter
  split
  · exact fun _ hq => absurd hq List.not_mem_nil
  · exact List.forall_mem_cons.mpr ⟨.text before, strict_conjunction d h⟩

theorem strict_names {ns : List String} (h : ∀ n ∈ ns, Wordy n) : ∀ q ∈ names ns, q.Strict := by
  refine forall_join (.text _) fun l hl => ?_
  obtain ⟨n, hn, rfl⟩ := List.mem_map.mp hl
  exact List.forall_mem_singleton.mpr (.quoted (h n hn).dotted)

theorem strict_columns {c : Columns} (h : ∀ ns, c = .named ns → ∀ n ∈ ns, Wordy n) :
    ∀ q ∈ columns c, q.Strict := by
  cases c with
  | all => exact List.forall_mem_singleton.mpr (.text _)
  | named ns => exact strict_names (h ns rfl)

theorem strict_returning {c : Columns} (h : ∀ ns, c = .named ns → ∀ n ∈ ns, Wordy n) :
    ∀ q ∈ returning c, q.Strict :=
  List.forall_mem_cons.mpr ⟨.text _, strict_columns h⟩

theorem strict_target {t : Target} (ht : Dotted t.table) (hs : ∀ s ∈ t.schema, Dotted s) :
    ∀ q ∈ target t, q.Strict := by
  obtain ⟨schema, table⟩ := t
  cases schema with
  | none => exact List.forall_mem_singleton.mpr (.quoted ht)
  | some s => simpa [target] using ⟨.quoted (hs s rfl), .text _, .quoted ht⟩

theorem strict_assignments {as : List (String × Value)} (h : ∀ a ∈ as, Wordy a.1) :
    ∀ q ∈ join ", " (as.map fun a => assignment a.1 a.2), q.Strict := by
  refine forall_join (.text _) fun l hl => ?_
  obtain ⟨a, ha, rfl⟩ := List.mem_map.mp hl
  simpa [assignment] using ⟨.quoted (h a ha).dotted, .text _, .cell (h a ha) a.2⟩

theorem strict_row {cells : List (String × Value)} (h : ∀ c ∈ cells, Wordy c.1) :
    ∀ q ∈ row cells, q.Strict := by
  refine List.forall_mem_append.mpr ⟨List.forall_mem_cons.mpr ⟨.text _, forall_join (.text _) ?_⟩,
    List.forall_mem_singleton.mpr (.text _)⟩
  intro l hl
  obtain ⟨c, hc, rfl⟩ := List.mem_map.mp hl
  exact List.forall_mem_singleton.mpr (.cell (h c hc) c.2)

theorem strict_insertInto {t : Target} {ns : List String} (ht : ∀ q ∈ target t, q.Strict)
    (h : ∀ n ∈ ns, Wordy n) : ∀ q ∈ insertInto t ns, q.Strict :=
  List.forall_mem_append.mpr ⟨List.forall_mem_append.mpr
    ⟨List.forall_mem_cons.mpr ⟨.text _, ht⟩, List.forall_mem_cons.mpr ⟨.text _, strict_names h⟩⟩,
    List.forall_mem_singleton.mpr (.text _)⟩

theorem strict_order {os : List (String × Direction)} (h : ∀ o ∈ os, Wordy o.1) :
    ∀ q ∈ order os, q.Strict := by
  unfold order
  split
  · exact fun _ hq => absurd hq List.not_mem_nil
  · refine List.forall_mem_cons.mpr ⟨.text _, forall_join (.text _) fun l hl => ?_⟩
    obtain ⟨o, ho, rfl⟩ := List.mem_map.mp hl
    simpa [orderItem] using ⟨.quoted (h o ho).dotted, .text _⟩

theorem strict_pagination (d : Dialect) (take skip : Option Int) :
    ∀ q ∈ pagination d take skip, q.Strict := by
  have hbound : ∀ n, (bound n).Strict := fun n => .operand wordy_param _ _
  cases d <;> cases take <;> cases skip <;> simp [pagination, hbound, Piece.Strict.text]

theorem Strict.legible {d : Dialect} {l : Layout} (h : ∀ q ∈ l, q.Strict) : l.Legible d := by
  have hno : ∀ n ∈ l.quotedNames, ∀ o : List Char, (∃ c ∈ o, ¬ (IsWord c ∨ c = '.')) →
      ¬ o <:+: n.toList := by
    rintro n hn o ⟨c, hc, hword⟩ hsub
    obtain ⟨q, hq, hqn⟩ := List.mem_filterMap.mp hn
    cases h q hq with
    | quoted hdotted =>
      cases hqn
      exact hword (hdotted c (hsub.subset hc))
    | _ => cases hqn
  refine ⟨fun _ n hn => hno n hn _ ⟨'%', by decide, by decide⟩,
    fun _ n hn => hno n hn _ ⟨'[', by decide, by decide⟩, fun base hb => ?_⟩
  have hnil : Solid [] := ⟨fun _ hc => absurd hc List.not_mem_nil, .nil⟩
  obtain ⟨q, hq, hqb⟩ := List.mem_filterMap.mp hb
  cases h q hq with
  | members hwordy vs =>
    cases hqb
    exact hnil.append_words hwordy
  | _ => cases hqb

theorem Strict.counted {l : Layout} (h : ∀ q ∈ l, q.Strict) :
    ∀ b ∈ l.flatMap Piece.counted, Wordy b := by
  intro b hb
  obtain ⟨q, hq, hqb⟩ := List.mem_flatMap.mp hb
  cases h q hq with
  | operand hwordy v cast => exact List.mem_singleton.mp hqb ▸ hwordy
  | members hwordy vs => exact List.mem_singleton.mp hqb ▸ hwordy
  | _ => cases hqb

theorem Strict.cellKeys {l : Layout} (h : ∀ q ∈ l, q.Strict) : ∀ k ∈ l.cellKeys, Wordy k := by
  intro k hk
  obtain ⟨q, hq, hqk⟩ := List.mem_flatMap.mp hk
  cases h q hq with
  | cell hwordy v => exact List.mem_singleton.mp hqk ▸ hwordy
  | _ => cases hqk

end Layout

namespace Query
open Layout

variable {rules : Naming}

theorem wordy_of_conjunct (hs : rules.strict = true) {e : Filter.Entry} {p : Predicate}
    (h : Filter.Conjunct rules e p) : Wordy p.column := by
  have hcompares : ∀ {c : String} {o : Comparison} {v : Value}, Filter.Compares c o v p →
      p.column = c := by
    intro c o v hc
    cases hc <;> rfl
  cases h with
  | absent name => exact Naming.wordy_of_name? hs name
  | equality name present compares => exact hcompares compares ▸ Naming.wordy_of_name? hs name
  | condition read states =>
    cases states with
    | comparison name comparable compares => exact hcompares compares ▸ Naming.wordy_of_name? hs name
    | like name text => exact Naming.wordy_of_name? hs name
    | membership name items ne => exact Naming.wordy_of_name? hs name
    | isNull name => exact Naming.wordy_of_name? hs name
    | isNotNull name => exact Naming.wordy_of_name? hs name

theorem wordy_of_filter (hs : rules.strict = true) {v : Value} {f : Filter}
    (h : Filter.ofValue rules v = .ok f) : ∀ p ∈ f, Wordy p.column := by
  intro p hp
  rcases Filter.ofValue_eq_ok.mp h with ⟨-, rfl⟩ | ⟨es, -, hc⟩
  · cases hp
  · obtain ⟨e, -, he⟩ := Lists.exists_of_mem_right hc hp
    exact wordy_of_conjunct hs he

theorem wordy_of_returning (hs : rules.strict = true) {s : State} {c : Columns}
    (h : returning rules s = .ok c) : ∀ ns, c = .named ns → ∀ n ∈ ns, Wordy n := by
  rintro ns rfl n hn
  have hnames := Projection.ofItems_eq_ok.mp h
  generalize s.projection.getD [] = items at hnames
  cases hnames with
  | named ne trimmed unstarred distinct =>
    obtain ⟨v, -, hv⟩ := Lists.exists_of_mem_right trimmed hn
    exact Naming.wordy_of_name? hs hv

theorem strict_of_target (hs : rules.strict = true) {v : Value} {t : Target}
    (h : target rules v = .ok t) : ∀ q ∈ Layout.target t, q.Strict := by
  obtain ⟨n, hn, rfl⟩ := target_eq_ok.mp h
  obtain ⟨htable, hschema⟩ := dotted_ofName rules.qualified (dotted_of_name? hs hn)
  exact strict_target htable hschema

theorem wordy_of_order (hs : rules.strict = true) {items : List Value}
    {os : List (String × Direction)} (h : Sorting.ofItems rules items = .ok os) :
    ∀ o ∈ os, Wordy o.1 := by
  intro o ho
  obtain ⟨v, -, c, direction, -, hc, -⟩ :=
    Lists.exists_of_mem_right (Sorting.ofItems_eq_ok.mp h) ho
  exact Naming.wordy_of_name? hs hc

theorem wordy_of_payload (hs : rules.strict = true) {entries : List (Value × Value)}
    {as : List (String × Value)} (h : payload rules entries = .ok as) : ∀ a ∈ as, Wordy a.1 := by
  intro a ha
  obtain ⟨e, -, he, -⟩ := Lists.exists_of_mem_right (payload_eq_ok.mp h).1 ha
  exact Naming.wordy_of_name? hs he

/-- Under strict rules no piece of a statement has a name in which a mark could be read. -/
theorem strict_of_build (hs : rules.strict = true) {kind : StatementKind} {s : State} {data : Value}
    {st : Statement} (h : build rules kind s data = .ok st) (d : Dialect) :
    ∀ q ∈ ofStatement d st, q.Strict := by
  have hall : ∀ {l m : Layout}, (∀ q ∈ l, q.Strict) → (∀ q ∈ m, q.Strict) →
      ∀ q ∈ l ++ m, q.Strict := fun hl hm => List.forall_mem_append.mpr ⟨hl, hm⟩
  have htext : ∀ (s : String) {l : Layout}, (∀ q ∈ l, q.Strict) → ∀ q ∈ .text s :: l, q.Strict :=
    fun s _ hl => List.forall_mem_cons.mpr ⟨.text s, hl⟩
  have hfilter : ∀ {before : String} {f : Filter}, Filter.ofValue rules s.filter = .ok f →
      ∀ q ∈ filter d before f, q.Strict := fun hf => strict_filter d _ (wordy_of_filter hs hf)
  cases kind with
  | select =>
    obtain ⟨columns, t, f, order, take, skip, hc, ht, hf, ho, -, -, rfl⟩ := select_eq_ok.mp h
    exact hall (hall (hall (hall (htext _ (strict_columns (wordy_of_returning hs hc)))
      (htext _ (strict_of_target hs ht))) (hfilter hf)) (strict_order (wordy_of_order hs ho)))
      (strict_pagination d take skip)
  | count =>
    obtain ⟨t, f, ht, hf, rfl⟩ := count_eq_ok.mp h
    exact hall (htext _ (strict_of_target hs ht)) (hfilter hf)
  | insert =>
    obtain ⟨entries, row, t, columns, -, hp, ht, hc, rfl⟩ := insert_eq_ok.mp h
    have hnames : ∀ n ∈ row.map Prod.fst, Wordy n := List.forall_mem_map.mpr (wordy_of_payload hs hp)
    exact hall (hall (strict_insertInto (strict_of_target hs ht) hnames)
      (strict_row fun c hcell => hnames c.1 (List.of_mem_zip hcell).1))
      (strict_returning (wordy_of_returning hs hc))
  | insertMany =>
    obtain ⟨items, batch, rows, t, columns, -, -, -, hp, ht, hc, rfl⟩ := insertMany_eq_ok h
    have hnames : ∀ n ∈ (rows.headD []).map Prod.fst, Wordy n := by
      cases hp with
      | nil => exact fun _ hn => absurd hn List.not_mem_nil
      | cons hfirst _ => exact List.forall_mem_map.mpr (wordy_of_payload hs hfirst)
    refine hall (hall (strict_insertInto (strict_of_target hs ht) hnames)
      (forall_join (.text _) fun l hl => ?_)) (strict_returning (wordy_of_returning hs hc))
    obtain ⟨i, hi, rfl⟩ := List.mem_mapIdx.mp hl
    refine strict_row fun c hcell => ?_
    obtain ⟨n, hn, he⟩ := List.mem_map.mp (List.of_mem_zip hcell).1
    exact he ▸ wordy_numbered (hnames n hn) i
  | update =>
    obtain ⟨entries, as, t, f, columns, -, -, hp, ht, hf, hc, rfl⟩ := update_eq_ok.mp h
    exact hall (hall (hall (htext _ (strict_of_target hs ht))
      (htext _ (strict_assignments (wordy_of_payload hs hp)))) (hfilter hf))
      (strict_returning (wordy_of_returning hs hc))
  | delete =>
    obtain ⟨t, f, columns, -, ht, hf, hc, rfl⟩ := delete_eq_ok.mp h
    exact hall (hall (htext _ (strict_of_target hs ht)) (hfilter hf))
      (strict_returning (wordy_of_returning hs hc))

end Query
end TableQuery
