import TableQuery.Proofs.Engine.Account
import TableQuery.Proofs.Query.Masked

/-! The attributes of a span around a statement: which there are, and how little they tell of the values
of a query. -/

namespace TableQuery
namespace Executor
open Run

variable {d : Dialect} {s : Statement} {level : Logging.Level} {telemetry operation : Value} {es : Entries}
  {e : Value × Value}

/-- Telemetry that is given as a mapping of these entries, or not at all. -/
def Tells (telemetry : Value) (es : Entries) : Prop :=
  telemetry = .none ∧ es = [] ∨ telemetry.entries? = some es

theorem Tells.eq_nil (h : Tells telemetry es) (hf : telemetry.isTruthy = false) : es = [] := by
  rcases h with ⟨-, rfl⟩ | h
  · rfl
  · cases telemetry with
    | map | frozen =>
      cases h
      simpa [Value.isTruthy] using hf
    | _ => cases h

/-- What a span shows of a statement that is written, or not, as a text: this text without the blanks
around it, and of one that is too long the beginning and three dots. -/
inductive Shows : Outcome String → Option String → Prop
  | unwritten (f : Fault) : Shows (.error f) none
  | blank {text : String} (empty : Text.trim text = "") : Shows (.ok text) none
  | whole {text : String} (ne : Text.trim text ≠ "") (short : (Text.trim text).length ≤ 4096) :
    Shows (.ok text) (some (Text.trim text))
  | cut {text : String} (long : 4096 < (Text.trim text).length) :
    Shows (.ok text) (some (String.ofList ((Text.trim text).toList.take 4093) ++ "..."))

theorem Shows.length_le {o : Outcome String} {shown : Option String} (h : Shows o shown) :
    ∀ text ∈ shown, text.length ≤ 4096 := by
  intro text ht
  cases h with
  | unwritten => cases ht
  | blank => cases ht
  | whole ne short =>
    obtain rfl := Option.mem_some_iff.mp ht
    exact short
  | cut long =>
    obtain rfl := Option.mem_some_iff.mp ht
    have hdots : "...".length = 3 := rfl
    rw [String.length_append, String.length_ofList, List.length_take, hdots]
    omega

theorem shows_trimmed (text : String) :
    let cs := ellipsis (Text.trimChars text.toList)
    Shows (.ok text) (if cs.isEmpty then none else some (String.ofList cs)) := by
  have hlength : (Text.trim text).length = (Text.trimChars text.toList).length := String.length_ofList
  intro cs
  by_cases hlong : longestStatement < (Text.trimChars text.toList).length
  · have hcs : cs = (Text.trimChars text.toList).take 4093 ++ ['.', '.', '.'] := if_pos hlong
    have htext : String.ofList cs = String.ofList ((Text.trim text).toList.take 4093) ++ "..." := by
      rw [hcs, String.ofList_append, Text.trim, String.toList_ofList]
    rw [if_neg (by simp [hcs]), htext]
    exact .cut (by rwa [hlength])
  · have hcs : cs = Text.trimChars text.toList := if_neg hlong
    rw [hcs]
    by_cases hempty : Text.trimChars text.toList = []
    · rw [if_pos (by rw [hempty]; rfl)]
      exact .blank (by rw [Text.trim, hempty])
    · rw [if_neg (by simpa using hempty)]
      refine .whole (fun h => hempty ?_) (by rw [hlength]; exact Nat.le_of_not_lt hlong)
      simpa [Text.trim] using congrArg String.toList h

theorem gives_statementText (d : Dialect) (s : Statement) (level : Logging.Level) :
    ∃ shown, Shows (s.folded d) shown ∧ (statementText d s).Gives level (.ok shown) {} := by
  unfold statementText
  cases s.folded d with
  | ok text => exact ⟨_, shows_trimmed text, .pure _⟩
  | error f => exact ⟨none, .unwritten f, (Gives.log_debug rfl rfl).after (.pure none)⟩

/-! The key of an attribute tells where it comes from. -/

theorem telemetryKey_injective : Function.Injective telemetryKey := by
  intro k k' h
  have hl : ("chainsql.telemetry." ++ k).toList = ("chainsql.telemetry." ++ k').toList :=
    congrArg String.toList h
  rw [String.toList_append, String.toList_append] at hl
  exact String.toList_injective (List.append_cancel_left hl)

theorem telemetryKey_ne {name : String} (h : name.toList.head? ≠ some 'c') (key : String) :
    telemetryKey key ≠ name := by
  rintro rfl
  -- The first character is all that is computed of the literal.
  have hc : "chainsql.telemetry.".toList.head? = some 'c' := by decide
  unfold telemetryKey at h
  rw [String.toList_append, List.head?_append, hc] at h
  exact h rfl

theorem telemetryKey_ne_table (key : String) : telemetryKey key ≠ "db.sql.table" :=
  telemetryKey_ne (by decide) key

/-- The telemetry under the keys of its attributes. -/
def keyed (es : Entries) : List (String × Value) := es.map fun e => (telemetryKey e.1.plain, e.2)

/-- What the telemetry adds to the attributes. -/
def told (es : Entries) : Entries := Value.insertAll (Value.named (keyed es)) (tableAttribute es)

theorem telemetryAttributes_eq (h : Tells telemetry es) : telemetryAttributes telemetry = .ok (told es) := by
  unfold telemetryAttributes
  cases ht : telemetry.isTruthy with
  | false =>
    rw [h.eq_nil ht]
    rfl
  | true =>
    rcases h with ⟨rfl, -⟩ | h
    · cases ht
    · rw [h, told, Value.named, keyed, List.map_map]
      rfl

theorem key_of_mem_table (h : e ∈ tableAttribute es) : e.1 = .str "db.sql.table" := by
  unfold tableAttribute at h
  split at h
  · split at h
    · cases List.mem_singleton.mp h
      rfl
    · cases h
  · cases h

theorem key_of_mem_keyed (h : e ∈ Value.named (keyed es)) :
    ∃ e' ∈ es, e.1 = .str (telemetryKey e'.1.plain) := by
  obtain ⟨f, hf, rfl⟩ := List.mem_map.mp h
  obtain ⟨e', he', rfl⟩ := List.mem_map.mp hf
  exact ⟨e', he', rfl⟩

theorem key_of_mem_told (h : e ∈ told es) :
    e.1 = .str "db.sql.table" ∨ ∃ e' ∈ es, e.1 = .str (telemetryKey e'.1.plain) := by
  rcases Value.key_of_mem_insertAll h with hk | hk
  · obtain ⟨e', he', hkey⟩ := List.mem_map.mp hk
    exact .inr (hkey ▸ key_of_mem_keyed he')
  · obtain ⟨e', he', hkey⟩ := List.mem_map.mp hk
    exact .inl (hkey ▸ key_of_mem_table he')

theorem nodup_keyed (hn : (es.map fun e => e.1.plain).Nodup) : ((keyed es).map Prod.fst).Nodup := by
  have hkeys : (keyed es).map Prod.fst = (es.map fun e => e.1.plain).map telemetryKey := by
    rw [keyed, List.map_map, List.map_map]
    rfl
  exact hkeys ▸ hn.map telemetryKey_injective

/-- No key of the telemetry is that of the table, so that nothing is overwritten. -/
theorem told_eq (hn : (es.map fun e => e.1.plain).Nodup) :
    told es = tableAttribute es ++ Value.named (keyed es) := by
  refine Value.insertAll_of_distinct (List.pairwise_append.mpr ⟨?_, ?_, fun a ha b hb => ?_⟩)
  · unfold tableAttribute
    split
    · split <;> simp
    · exact .nil
  · exact Value.named_distinct (nodup_keyed hn)
  · obtain ⟨e', -, hkey⟩ := key_of_mem_keyed hb
    rw [key_of_mem_table ha, hkey]
    refine Bool.eq_false_iff.mpr fun h => telemetryKey_ne_table e'.1.plain ?_
    exact (Option.some.inj (Value.same_str_iff.mp h)).symm

theorem lookup_told (hn : (es.map fun e => e.1.plain).Nodup) (he : e ∈ es) :
    Value.lookup (.str (telemetryKey e.1.plain)) (told es) = some e.2 := by
  have htable : Value.lookup (.str (telemetryKey e.1.plain)) (tableAttribute es) = none := by
    refine Value.lookup_eq_none.mpr fun e' he' h => telemetryKey_ne_table e.1.plain ?_
    rw [key_of_mem_table he'] at h
    exact (Option.some.inj h).symm
  rw [told_eq hn, Value.lookup_append, htable, Option.none_or, Value.lookup_named]
  exact Lists.lookup_of_mem (nodup_keyed hn) (List.mem_map_of_mem he)

/-- The keys of the attributes that a span has whatever the telemetry. -/
def ownKeys : List String := ["db.system", "db.operation", "db.statement", "db.statement.length"]

theorem ownKeys_other : ∀ name ∈ ownKeys, name.toList.head? ≠ some 'c' ∧ name ≠ "db.sql.table" := by decide

theorem lookup_own {name : String} (h : name ∈ ownKeys) (es : Entries) :
    Value.lookup (.str name) (told es) = none := by
  obtain ⟨hhead, htable⟩ := ownKeys_other name h
  refine Value.lookup_eq_none.mpr fun e he hk => ?_
  rcases key_of_mem_told he with hkey | ⟨e', -, hkey⟩
  · rw [hkey] at hk
    exact htable (Option.some.inj hk).symm
  · rw [hkey] at hk
    exact telemetryKey_ne hhead e'.1.plain (Option.some.inj hk)

/-- The attributes of a span: the system, the operation, what is shown of the statement with the length of
that, and the telemetry, each entry under a key of its own. -/
structure Describes (d : Dialect) (operation : Value) (shown : Option String) (es attributes : Entries) :
    Prop where
  system : Value.lookup (.str "db.system") attributes = some (.str d.name)
  operation : Value.lookup (.str "db.operation") attributes = some operation
  statement : Value.lookup (.str "db.statement") attributes = shown.map .str
  length : Value.lookup (.str "db.statement.length") attributes = shown.map fun text => .int text.length
  /-- No two keys of a mapping of texts are written alike. -/
  telemetry : (es.map fun e => e.1.plain).Nodup → ∀ e ∈ es,
    Value.lookup (.str ("chainsql.telemetry." ++ e.1.plain)) attributes = some e.2
  /-- There are no others but the name of the table. -/
  rest : ∀ e ∈ attributes, (∃ name ∈ "db.sql.table" :: ownKeys, e.1 = .str name) ∨
    ∃ e' ∈ es, e.1 = .str ("chainsql.telemetry." ++ e'.1.plain)

theorem describes (d : Dialect) (operation : Value) (shown : Option String) (es : Entries) :
    Describes d operation shown es (Value.named ([("db.system", .str d.name), ("db.operation", operation)] ++
      statementAttributes shown) ++ told es) := by
  generalize hfields : [("db.system", Value.str d.name), ("db.operation", operation)] ++
    statementAttributes shown = fields
  have hkeys : ∀ f ∈ fields, f.1 ∈ ownKeys := by
    rw [← hfields]
    cases shown <;> simp [statementAttributes, ownKeys]
  -- What the telemetry adds stands behind and has none of these keys, so that it is never looked at.
  have hown : ∀ name ∈ ownKeys,
      Value.lookup (.str name) (Value.named fields ++ told es) = fields.lookup name := by
    intro name hname
    rw [Value.lookup_append, lookup_own hname, Option.or_none, Value.lookup_named]
  refine ⟨?_, ?_, ?_, ?_, fun hn e he => ?_, fun e he => ?_⟩
  · rw [hown _ (by decide), ← hfields]
    rfl
  · rw [hown _ (by decide), ← hfields]
    simp [List.lookup_cons]
  · rw [hown _ (by decide), ← hfields]
    cases shown <;> simp [List.lookup_cons, statementAttributes]
  · rw [hown _ (by decide), ← hfields]
    cases shown <;> simp [List.lookup_cons, statementAttributes]
  · have hnone : fields.lookup (telemetryKey e.1.plain) = none := by
      refine Lists.lookup_of_not_mem fun h => ?_
      obtain ⟨f, hf, hkey⟩ := List.mem_map.mp h
      exact telemetryKey_ne (ownKeys_other f.1 (hkeys f hf)).1 e.1.plain hkey.symm
    change Value.lookup (.str (telemetryKey e.1.plain)) _ = _
    rw [Value.lookup_append, Value.lookup_named, hnone, Option.none_or, lookup_told hn he]
  · rcases List.mem_append.mp he with he | he
    · obtain ⟨f, hf, rfl⟩ := List.mem_map.mp he
      exact .inl ⟨f.1, List.mem_cons_of_mem _ (hkeys f hf), rfl⟩
    · rcases key_of_mem_told he with hk | hk
      · exact .inl ⟨_, List.mem_cons_self, hk⟩
      · exact .inr hk

/-- With telemetry that is a mapping, or without, a span has its attributes under every log level. -/
theorem gives_spanAttributes (ht : Tells telemetry es) (d : Dialect) (s : Statement) (operation : Value)
    (level : Logging.Level) : ∃ shown attributes, Shows (s.folded d) shown ∧
      Describes d operation shown es attributes ∧
      (spanAttributes d s telemetry operation).Gives level (.ok attributes) {} := by
  obtain ⟨shown, hshown, htext⟩ := gives_statementText d s level
  refine ⟨shown, _, hshown, describes d operation shown es, ?_⟩
  rw [spanAttributes, telemetryAttributes_eq ht]
  exact htext.after ((Gives.ofOutcome (.ok (told es))).after (.pure _))

/-- The attributes hold what is shown of the statement, and each entry of the telemetry under a key of its
own, which is none of the others. They are the same for two selects that differ in scalars of one type, in
the members of lists and in bounds of one type; on SQLite, which writes no types, all scalars and bounds
will do. -/
theorem attributes_masked (d : Dialect) (telemetry operation : Value) :
    (∀ (s : Statement) (es : Entries) (level : Logging.Level), Tells telemetry es →
      ∃ shown attributes, ((spanAttributes d s telemetry operation).start level).1 = .ok attributes ∧
        Shows (s.folded d) shown ∧ (∀ text ∈ shown, text.length ≤ 4096) ∧
        Describes d operation shown es attributes) ∧
    ∀ {rules : Naming} {q q' : State} {data data' : Value} {s s' : Statement}, Query.Masked d q q' →
      Query.build rules .select q data = .ok s → Query.build rules .select q' data' = .ok s' →
      spanAttributes d s telemetry operation = spanAttributes d s' telemetry operation := by
  refine ⟨fun s es level ht => ?_, fun hq hs hs' => ?_⟩
  · obtain ⟨shown, attributes, hshown, hdescribes, hgives⟩ := gives_spanAttributes ht d s operation level
    exact ⟨shown, attributes, hgives.start.1, hshown, hshown.length_le, hdescribes⟩
  · rw [spanAttributes, spanAttributes, statementText, statementText, hq.folded hs hs']

/-- Lists of one and of two members and other numbers, under telemetry with the key of an attribute. -/
theorem attributes_masked_members :
    let q : State :=
      { table := "t", take := some (.int 10),
        filter := .list [.condition (.membership "id" (.list [.int 1])) {},
          .condition (.comparison "age" .gt (.int 30)) {}] }
    let q' : State :=
      { table := "t", take := some (.int 20),
        filter := .list [.condition (.membership "id" (.list [.int 7, .int 8])) {},
          .condition (.comparison "age" .gt (.int 41)) {}] }
    let es := Value.named [("db.statement", .str "x")]
    let text := "SELECT * \nFROM \"t\" \nWHERE \"id\" IN (__[POSTCOMPILE_id_1]) AND " ++
      "\"age\" > %(age_1)s::INTEGER \n LIMIT %(param_1)s::INTEGER"
    Query.Masked .postgresql q q' ∧ Tells (.map es) es ∧ ∃ s s' attributes,
      Query.build {} .select q .none = .ok s ∧ Query.build {} .select q' .none = .ok s' ∧
      ((spanAttributes .postgresql s (.map es) (.str "fetch_all")).start .info).1 = .ok attributes ∧
      spanAttributes .postgresql s (.map es) (.str "fetch_all") =
        spanAttributes .postgresql s' (.map es) (.str "fetch_all") ∧
      Value.lookup (.str "db.statement") attributes = some (.str text) ∧
      Value.lookup (.str "chainsql.telemetry.db.statement") attributes = some (.str "x") := by
  intro q q' es text
  have hq : Query.Masked .postgresql q q' := by
    refine ⟨rfl, rfl, .entries rfl rfl ?_, rfl, .some (.int rfl), .none⟩
    refine .cons (.condition (.typed _ _ fun v hv => ?_))
      (.cons (.condition (.typed _ _ fun v hv => ?_)) .nil)
    · obtain rfl := Option.some.inj hv
      exact .members rfl rfl
    · obtain rfl := Option.some.inj hv
      exact .scalar rfl rfl rfl
  have hb : Query.build {} .select q .none = .ok (.select .all ⟨none, "t"⟩
      [.oneOf "id" [.int 1], .compare "age" .gt (.int 30)] [] (some 10) none) := by
    dsimp only [q]
    rfl
  have hb' : Query.build {} .select q' .none = .ok (.select .all ⟨none, "t"⟩
      [.oneOf "id" [.int 7, .int 8], .compare "age" .gt (.int 41)] [] (some 20) none) := by
    dsimp only [q']
    rfl
  have ht : Tells (.map es) es := .inr rfl
  obtain ⟨hdescribed, hsame⟩ := attributes_masked .postgresql (.map es) (.str "fetch_all")
  obtain ⟨shown, attributes, hattributes, hshown, -, hd⟩ := hdescribed (.select .all ⟨none, "t"⟩
      [.oneOf "id" [.int 1], .compare "age" .gt (.int 30)] [] (some 10) none) es .info ht
  obtain ⟨_, hfolded, rfl⟩ : ∃ t, Statement.folded .postgresql (.select .all ⟨none, "t"⟩
      [.oneOf "id" [.int 1], .compare "age" .gt (.int 30)] [] (some 10) none) = .ok t ∧ t = text :=
    Outcome.exists_of_isOk (by decide +kernel)
  have htrim : Text.trim text = text := by decide +kernel
  have hstatement := hd.statement
  rw [hfolded] at hshown
  cases hshown with
  | blank empty => exact absurd (htrim.symm.trans empty) (by decide +kernel)
  | cut long => exact absurd long (by decide +kernel)
  | whole ne short =>
    rw [htrim] at hstatement
    have htelemetry := hd.telemetry (List.nodup_singleton _) _ List.mem_cons_self
    exact ⟨hq, ht, _, _, attributes, hb, hb', hattributes, hsame hq hb hb', hstatement, htelemetry⟩

/-- A bound that needs more than 32 bits is shown with another type. -/
theorem wide_bound_shown :
    let q : State := { table := "t", take := some (.int 1) }
    let q' : State := { q with take := some (.int 2147483648) }
    ∃ s s' attributes attributes', Query.build {} .select q .none = .ok s ∧
      Query.build {} .select q' .none = .ok s' ∧
      ((spanAttributes .postgresql s .none (.str "fetch_all")).start .info).1 = .ok attributes ∧
      ((spanAttributes .postgresql s' .none (.str "fetch_all")).start .info).1 = .ok attributes' ∧
      Value.lookup (.str "db.statement") attributes =
        some (.str "SELECT * \nFROM \"t\" \n LIMIT %(param_1)s::INTEGER") ∧
      Value.lookup (.str "db.statement") attributes' =
        some (.str "SELECT * \nFROM \"t\" \n LIMIT %(param_1)s::BIGINT") := by
  intro q q'
  have hb : Query.build {} .select q .none = .ok (.select .all ⟨none, "t"⟩ [] [] (some 1) none) := by
    dsimp only [q]
    rfl
  have hb' : Query.build {} .select q' .none =
      .ok (.select .all ⟨none, "t"⟩ [] [] (some 2147483648) none) := by
    dsimp only [q', q]
    rfl
  exact ⟨_, _, _, _, hb, hb', by with_unfolding_all rfl, by with_unfolding_all rfl,
    by with_unfolding_all rfl, by with_unfolding_all rfl⟩

end Executor
end TableQuery
