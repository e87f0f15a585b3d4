import TableQuery.Proofs.Naming
import TableQuery.Proofs.Query.ReadBack
import TableQuery.Proofs.Sql.Lossless
import TableQuery.Proofs.Value.Texts
import TableQuery.Proofs.Value.Told

/-! What can be sorted by: each entry in one of its spellings, and the order that they come to. -/

namespace TableQuery

/-- Faults of one class, with one code and one message. -/
inductive Fault.Alike : Fault → Fault → Prop
  | same (f : Fault) : Alike f f
  | rejected {a b : Rejection} (area : a.area = b.area) (code : a.code = b.code)
    (message : a.message = b.message) : Alike (.rejected a) (.rejected b)

/-- Neither code nor message tells one direction from another that is none. -/
theorem Fault.Alike.invalidSort {w w' : Value} (h : w.hasText = w'.hasText) :
    (Rejection.invalidSort w).raised.Alike (Rejection.invalidSort w').raised := by
  have hcited : ∀ v : Value, (Rejection.invalidSort v).hasText = v.hasText := fun v => by
    simp [Rejection.hasText, Rejection.cited]
  cases hw : w.hasText with
  | true =>
    rw [Rejection.raised_of_hasText (hcited w ▸ hw), Rejection.raised_of_hasText (hcited w' ▸ h ▸ hw)]
    exact .rejected rfl rfl rfl
  | false =>
    rw [Rejection.raised_of_untold (hcited w ▸ hw), Rejection.raised_of_untold (hcited w' ▸ h ▸ hw)]
    exact .same _

namespace Outcome

variable {α β : Type}

/-- The same result, or faults that differ in their details at most. -/
inductive Agrees : Outcome α → Outcome α → Prop
  | ok (a : α) : Agrees (.ok a) (.ok a)
  | error {f g : Fault} (h : f.Alike g) : Agrees (.error f) (.error g)

theorem Agrees.refl (x : Outcome α) : Agrees x x := by
  cases x with
  | ok a => exact .ok a
  | error f => exact .error (.same f)

theorem Agrees.bind {x y : Outcome α} {f g : α → Outcome β} (h : Agrees x y)
    (hf : ∀ a, Agrees (f a) (g a)) : Agrees (x >>= f) (y >>= g) := by
  cases h with
  | ok a => exact hf a
  | error h => exact .error h

theorem Agrees.mapM {R : α → α → Prop} {f : α → Outcome β} (hf : ∀ a b, R a b → Agrees (f a) (f b))
    {xs ys : List α} (h : List.Forall₂ R xs ys) : Agrees (xs.mapM f) (ys.mapM f) := by
  induction h with
  | nil => exact .refl _
  | cons hab _ ih =>
    rw [List.mapM_cons, List.mapM_cons]
    exact (hf _ _ hab).bind fun b => ih.bind fun bs => .refl _

end Outcome

namespace Sorting
open Outcome Reading Lexeme

/-- The spellings of a sort entry, each with a column and a direction. A mapping may hold more. -/
inductive Spells : Value → Value → Value → Prop
  | sort (column direction : Value) : Spells (.sort column direction) column direction
  | pair (column direction : Value) : Spells (.tuple [column, direction]) column direction
  | mapping {v : Value} (keyed : v.isMapping = true) : Spells v (v.get "column") (v.get "direction")

/-- The spellings of a direction: its name, or the member of that name. -/
def Directs (d : Direction) (w : Value) : Prop := w = .str d.text ∨ w = .token (.direction d)

/-- The entry is one to sort by this column, trimmed, in this direction. -/
def Says (rules : Naming) (v : Value) (o : String × Direction) : Prop :=
  ∃ c w s, Spells v c w ∧ Directs o.2 w ∧ rules.column.isValid c = true ∧ c.text? = some s ∧
    o.1 = Text.trim s

/-- What is wrong with an entry: its shape and its direction come before its column. -/
inductive Refuses (rules : Naming) : Value → Rejection → Prop
  | shape {v : Value} (none : ¬ ∃ c w, Spells v c w) : Refuses rules v (.invalidSort v)
  | direction {v c w : Value} (spells : Spells v c w) (none : ¬ ∃ d, Directs d w) :
    Refuses rules v (.invalidSort w)
  | column {v c w : Value} {d : Direction} (spells : Spells v c w) (directs : Directs d w)
    (invalid : rules.column.isValid c = false) : Refuses rules v (.invalidColumns [c])

/-- The same entry, or the same column and direction in other spellings. What is no direction is any
other that is none, if both or neither can be cited. -/
def Respells (v v' : Value) : Prop :=
  v = v' ∨ ∃ c w w', Spells v c w ∧ Spells v' c w' ∧ (∀ d, Directs d w ↔ Directs d w') ∧
    w.hasText = w'.hasText

theorem entry_of_spells {v c w : Value} (h : Spells v c w) : entry v = .ok (c, w) := by
  cases h with
  | sort => rfl
  | pair => rfl
  | mapping keyed =>
    unfold entry
    split
    · cases keyed
    · cases keyed
    · rw [if_pos keyed]

/-- A value has one of the shapes, or it is refused as a whole. -/
theorem entry_cases (v : Value) :
    (∃ c w, Spells v c w ∧ entry v = .ok (c, w)) ∨
      (¬ ∃ c w, Spells v c w) ∧ entry v = reject (.invalidSort v) := by
  by_cases h : ∃ c w, Spells v c w
  · obtain ⟨c, w, hv⟩ := h
    exact .inl ⟨c, w, hv, entry_of_spells hv⟩
  · refine .inr ⟨h, ?_⟩
    unfold entry
    split
    · exact absurd ⟨_, _, .sort ..⟩ h
    · exact absurd ⟨_, _, .pair ..⟩ h
    · rw [if_neg fun hkeyed => h ⟨_, _, .mapping hkeyed⟩]

theorem direction?_eq_some {w : Value} {d : Direction} : direction? w = some d ↔ Directs d w := by
  have htext : direction? w = some d ↔ w.text? = some (Token.direction d).text := by
    rw [direction?, Option.bind_eq_some_iff]
    constructor
    · rintro ⟨s, hs, hd⟩
      have hfound : (d.text == s) = true := List.find?_some (p := fun e : Direction => e.text == s) hd
      rw [hs]
      exact congrArg some (eq_of_beq hfound).symm
    · intro h
      exact ⟨_, h, by cases d <;> rfl⟩
  exact htext.trans (Value.text?_eq_text rfl)

theorem direction?_eq_none {w : Value} : direction? w = none ↔ ¬ ∃ d, Directs d w := by
  simp only [← direction?_eq_some, not_exists]
  exact Option.eq_none_iff_forall_ne_some

theorem column_eq_some {rules : Naming} {c : Value} {n : String} :
    rules.column.name? c = some n ↔
      ∃ s, rules.column.isValid c = true ∧ c.text? = some s ∧ n = Text.trim s := by
  rw [Naming.isValid, Naming.name?_eq_some]
  constructor
  · rintro ⟨s, hs, ha, rfl⟩
    exact ⟨s, Option.isSome_iff_exists.mpr ⟨_, Naming.name?_eq_some.mpr ⟨s, hs, ha, rfl⟩⟩, hs, rfl⟩
  · rintro ⟨s, hv, hs, rfl⟩
    obtain ⟨n, hn⟩ := Option.isSome_iff_exists.mp hv
    obtain ⟨u, hu, ha, -⟩ := Naming.name?_eq_some.mp hn
    cases hs.symm.trans hu
    exact ⟨s, hs, ha, rfl⟩

theorem names_iff_told {rules : Naming} {v : Value} {o : String × Direction} :
    Names rules v o ↔ Says rules v o := by
  constructor
  · rintro ⟨c, w, he, hc, hw⟩
    obtain ⟨s, hvalid, hs, hn⟩ := column_eq_some.mp hc
    refine ⟨c, w, s, ?_, direction?_eq_some.mp hw, hvalid, hs, hn⟩
    rcases entry_cases v with ⟨c', w', hv, he'⟩ | ⟨-, he'⟩
    · cases he.symm.trans he'
      exact hv
    · cases he.symm.trans he'
  · rintro ⟨c, w, s, hv, hw, hvalid, hs, hn⟩
    exact ⟨c, w, entry_of_spells hv, column_eq_some.mpr ⟨s, hvalid, hs, hn⟩,
      direction?_eq_some.mpr hw⟩

/-- An entry that can be sorted by. -/
def Sortable (rules : Naming) (v : Value) : Prop :=
  ∃ c w d, Spells v c w ∧ Directs d w ∧ rules.column.isValid c = true

theorem sortable_iff {rules : Naming} {v : Value} : Sortable rules v ↔ ∃ o, Says rules v o := by
  constructor
  · rintro ⟨c, w, d, hv, hw, hvalid⟩
    obtain ⟨n, hn⟩ := Option.isSome_iff_exists.mp hvalid
    obtain ⟨s, -, hs, rfl⟩ := column_eq_some.mp hn
    exact ⟨(Text.trim s, d), c, w, s, hv, hw, hvalid, hs, rfl⟩
  · rintro ⟨o, c, w, s, hv, hw, hvalid, -, -⟩
    exact ⟨c, w, o.2, hv, hw, hvalid⟩

theorem clause_eq_told {rules : Naming} {v : Value} {o : String × Direction} :
    clause rules v = .ok o ↔ Says rules v o := clause_eq_ok.trans names_iff_told

theorem clause_of_spells {v c w : Value} (rules : Naming) (h : Spells v c w) :
    clause rules v = match direction? w with
      | none => reject (.invalidSort w)
      | some d => match rules.column.name? c with
        | some n => .ok (n, d)
        | none => reject (.invalidColumns [c]) := by
  rw [clause, entry_of_spells h]
  rfl

theorem clause_eq_error {rules : Naming} {v : Value} {f : Fault} :
    clause rules v = .error f ↔ ∃ c, Refuses rules v c ∧ f = c.raised := by
  constructor
  · intro h
    rcases entry_cases v with ⟨c, w, hv, -⟩ | ⟨hv, he⟩
    · rw [clause_of_spells rules hv] at h
      cases hw : direction? w with
      | none =>
        rw [hw] at h
        cases h
        exact ⟨_, .direction hv (direction?_eq_none.mp hw), rfl⟩
      | some d =>
        cases hc : rules.column.name? c with
        | some n =>
          simp only [hw, hc] at h
          cases h
        | none =>
          simp only [hw, hc] at h
          cases h
          exact ⟨_, .column hv (direction?_eq_some.mp hw) (by rw [Naming.isValid, hc]; rfl), rfl⟩
    · rw [clause, he] at h
      cases h
      exact ⟨_, .shape hv, rfl⟩
  · rintro ⟨c, hc, rfl⟩
    cases hc with
    | shape none =>
      rcases entry_cases v with ⟨c, w, hv, -⟩ | ⟨-, he⟩
      · exact absurd ⟨c, w, hv⟩ none
      · rw [clause, he]
        rfl
    | direction spells none =>
      rw [clause_of_spells rules spells, direction?_eq_none.mpr none]
      rfl
    | column spells directs invalid =>
      have hname := Option.isSome_eq_false_iff.mp invalid
      rw [clause_of_spells rules spells, direction?_eq_some.mpr directs, Option.isNone_iff_eq_none.mp hname]
      rfl

/-- In another spelling an entry comes to the same, or is refused for the same. -/
theorem Respells.clause {rules : Naming} {v v' : Value} (h : Respells v v') :
    Agrees (clause rules v) (clause rules v') := by
  rcases h with rfl | ⟨c, w, w', hv, hv', hw, htext⟩
  · exact .refl _
  · have hsame : direction? w = direction? w' := by
      refine Option.ext fun d => ?_
      rw [direction?_eq_some, direction?_eq_some, hw]
    rw [clause_of_spells rules hv, clause_of_spells rules hv', ← hsame]
    cases direction? w with
    | none => exact .error (.invalidSort htext)
    | some d => exact .refl _

/-- What can be gone through is sorted by, entry by entry. -/
theorem ofValue_eq (rules : Naming) {v : Value} {items : List Value} (h : v.iterate? = some items) :
    ofValue rules v = ofItems rules items := by
  unfold ofValue
  split
  · rw [Freeze.iterate, h]
    rfl
  · rename_i hv
    rw [Value.items_of_falsy h (by simpa using hv)]
    rfl

end Sorting

namespace Query
open Outcome Sorting

/-- Queries whose orders are spelled differently become the same statement, or are refused for the
same. -/
theorem build_respelled {rules : Naming} {kind : StatementKind} {s : State} {data : Value}
    {items items' : List Value} (h : List.Forall₂ Respells items items') :
    Agrees (build rules kind { s with order := items } data)
      (build rules kind { s with order := items' } data) := by
  cases kind with
  | select =>
    change Agrees (select rules { s with order := items }) (select rules { s with order := items' })
    refine Agrees.bind (.refl _) fun _ => Agrees.bind (.refl _) fun _ => Agrees.bind (.refl _) fun _ => ?_
    exact (Agrees.mapM (fun _ _ h => h.clause) h).bind fun _ => .refl _
  | _ => exact .refl _

end Query

/-- The ORDER BY of a select. -/
def Statement.order? : Statement → Option (List (String × Direction))
  | .select _ _ _ order _ _ => some order
  | _ => none

namespace Sorting
open Outcome Reading Lexeme

/-- What sorting by a value comes to that is gone through for these entries. -/
structure Sorts (rules : Naming) (v : Value) (items : List Value) : Prop where
  succeeds : (∃ order, ofValue rules v = .ok order) ↔ ∀ e ∈ items, Sortable rules e
  /-- There is one expression for each entry, which is read back as that entry says. -/
  reads : ∀ order, ofValue rules v = .ok order →
    List.Forall₂ (Says rules) items order ∧ ∀ o ∈ order, ∀ d, ∃ sql,
      (Layout.orderItem o.1 o.2).folded d = .ok sql ∧ lex d sql = ofOrderItem o ∧
      orderItem? (lex d sql) = some (o, [])
  /-- It is the first bad entry that is refused. -/
  fails : ∀ f, ofValue rules v = .error f ↔ ∃ before e behind c, items = before ++ e :: behind ∧
    (∀ b ∈ before, Sortable rules b) ∧ Refuses rules e c ∧ f = c.raised
  respelled : ∀ v' items', v'.iterate? = some items' → List.Forall₂ Respells items items' →
    Agrees (ofValue rules v) (ofValue rules v')
  rendered : ∀ items', List.Forall₂ Respells items items' → ∀ (kind : StatementKind) (s : State)
    (data : Value) (d : Dialect),
    Agrees (do let st ← Query.build rules kind { s with order := items } data; st.render d)
      (do let st ← Query.build rules kind { s with order := items' } data; st.render d)
  /-- The ORDER BY of a select holds these expressions and is read back from its text as them, if no
  name reads like a mark. -/
  placed : ∀ (s : State) (data : Value) (st : Statement), s.order = items →
    Query.build rules .select s data = .ok st → ∃ order, ofValue rules v = .ok order ∧
      st.order? = some order ∧ ∀ d r, st.render d = .ok r → (Layout.ofStatement d st).Legible d →
        ∃ q, Query.ReadsBack d r.sql q ∧ q.order = order

/-- An order has one expression for each entry, which is read back as that entry says. It fails with
the first entry that cannot be sorted by, and how the entries are spelled makes no difference to it or
to the statement that it is a part of. -/
theorem order_exact {rules : Naming} {v : Value} {items : List Value}
    (hv : v.iterate? = some items) : Sorts rules v items := by
  have htold : ∀ {es : List Value} {order : List (String × Direction)},
      es.mapM (clause rules) = .ok order ↔ List.Forall₂ (Says rules) es order := by
    intro es order
    rw [mapM_eq_ok]
    simp only [clause_eq_told]
  have hsortable : ∀ es : List Value,
      (∃ order, List.Forall₂ (Says rules) es order) ↔ ∀ e ∈ es, Sortable rules e := by
    intro es
    simp only [← htold, exists_mapM, clause_eq_told, sortable_iff]
  have hof := ofValue_eq rules hv
  constructor
  case succeeds => simp only [hof, ofItems, htold, hsortable]
  case reads =>
    intro order h
    rw [hof] at h
    exact ⟨htold.mp h, fun o _ d => lex_folded_orderItem d o⟩
  case fails =>
    intro f
    rw [hof, ofItems, mapM_eq_error]
    constructor
    · rintro ⟨before, e, behind, order, rfl, hbefore, he⟩
      obtain ⟨c, hc, rfl⟩ := clause_eq_error.mp he
      exact ⟨before, e, behind, c, rfl, (hsortable before).mp ⟨order, htold.mp (mapM_eq_ok.mpr hbefore)⟩,
        hc, rfl⟩
    · rintro ⟨before, e, behind, c, rfl, hbefore, hc, rfl⟩
      obtain ⟨order, horder⟩ := (hsortable before).mpr hbefore
      exact ⟨before, e, behind, order, rfl, mapM_eq_ok.mp (htold.mpr horder),
        clause_eq_error.mpr ⟨c, hc, rfl⟩⟩
  case respelled =>
    intro v' items' hv' h
    rw [hof, ofValue_eq rules hv']
    exact Agrees.mapM (fun _ _ h => h.clause) h
  case rendered =>
    intro items' h kind s data d
    exact (Query.build_respelled h).bind fun st => .refl _
  case placed =>
    intro s data st hs hst
    obtain ⟨c, t, f, order, take, skip, -, -, -, ho, -, -, rfl⟩ := Query.select_eq_ok.mp hst
    refine ⟨order, by rw [hof, ← hs, ho], rfl, fun d r hr hl => ?_⟩
    obtain ⟨q, hq, hasks⟩ := Query.readsBack_of_legible hst hr hl
    exact ⟨q, hq, Except.ok.inj ((ofItems_eq_ok.mpr hasks.order).symm.trans ho)⟩

/-- A column that comes twice, and a mapping with more keys than those of a sort entry. -/
theorem order_exact_repeated :
    let items : List Value := [.sort (.str "a") (.token (.direction .desc)),
      .tuple [.str " a ", .str "ASC"],
      .map [(.str "nulls", .none), (.str "direction", .str "DESC"), (.str "column", .str "b")]]
    (Value.tuple items).iterate? = some items ∧
    List.Forall₂ (Says {}) items [("a", .desc), ("a", .asc), ("b", .desc)] := by
  intro items
  have h : ofValue {} (.tuple items) = .ok [("a", .desc), ("a", .asc), ("b", .desc)] := by
    obtain ⟨order, ho, he⟩ := Outcome.exists_of_isOk (x := ofValue {} (.tuple items))
      (p := fun order => order = [("a", .desc), ("a", .asc), ("b", .desc)]) (by decide +kernel)
    exact he ▸ ho
  exact ⟨rfl, ((order_exact rfl).reads _ h).1⟩

/-- A column that is called like the mark of a parameter is lost where that mark is replaced. And what
is no direction is not told of where it cannot be written out. -/
theorem marked_column_not_ordered :
    let s : State :=
      { table := "t", filter := .map [(.str "a", .int 1)], order := [.tuple [.str "%(a_1)s", .str "ASC"]] }
    (∃ r, (Query.build {} .select s .none >>= fun st => st.render .sqlite) = .ok r ∧
      r.sql = "SELECT * \nFROM \"t\" \nWHERE \"a\" = ? ORDER BY \"?\" ASC") ∧
    ofValue {} (.list [.tuple [.str "a", .tooLong]]) = .error .tooManyDigits := by
  intro s
  refine ⟨Outcome.exists_of_isOk (by decide +kernel), ?_⟩
  have hnone : ¬ ∃ d, Directs d .tooLong := by
    rintro ⟨d, h | h⟩ <;> cases h
  have hraised : (Rejection.invalidSort .tooLong).raised = .tooManyDigits :=
    Rejection.raised_of_untold (by simp [Rejection.cited])
  exact (ofValue_eq {} rfl).trans (mapM_eq_error.mpr ⟨[], _, [], [], rfl, .nil,
    clause_eq_error.mpr ⟨_, .direction (.pair _ _) hnone, hraised.symm⟩⟩)

end Sorting
end TableQuery
