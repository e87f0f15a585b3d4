import TableQuery.Proofs.Query.Parts
import TableQuery.Proofs.Value.Told

/-! What building a statement can fail with. The causes that only an answer of the database can give do
not arise there, nor does any fault of a value that is no bound. A cause that cites a value that cannot
be written out fails in its report. -/

namespace TableQuery

/-- A cause that is found in the query itself. -/
def Rejection.OfQuery : Rejection → Prop
  | .notUnique _ | .insertReturnedEmpty _ | .general .. => False
  | _ => True

theorem Rejection.OfQuery.code {c : Rejection} (h : c.OfQuery) :
    c.code ≠ .code .notUnique ∧ c.code ≠ .code .insertReturnedEmpty := by
  cases c with
  | notUnique t => exact h.elim
  | insertReturnedEmpty t => exact h.elim
  | general a m t d => exact h.elim
  | missingWhere o =>
    simp only [Rejection.code, Rejection.ownCode, Token.code.injEq, ne_eq]
    split <;> decide
  | _ => exact ⟨by rintro ⟨⟩, by rintro ⟨⟩⟩

/-- A refusal that is found in the query itself, its table apart, or the report of one, if some of what
was asked cannot be written out. -/
inductive Fault.OfQuery (asked : List Value) : Fault → Prop
  | refused {c : Rejection} (found : c.OfQuery) (area : c.area = .query) : OfQuery asked (.rejected c)
  | untold (long : Untold asked) : OfQuery asked .tooManyDigits

/-- What compiling a filter fails with: such a fault, or an order that a truth value does not have. -/
def Fault.OfFilter (asked : List Value) (f : Fault) : Prop := f.OfQuery asked ∨ f = .unorderedBoolean

namespace Fault.OfQuery

variable {asked asked' : List Value}

theorem raised {c : Rejection} (found : c.OfQuery) (area : c.area = .query)
    (h : Untold c.cited → Untold asked) : OfQuery asked c.raised := by
  obtain hc | ⟨hc, long⟩ := c.raised_cases
  · exact hc ▸ .refused found area
  · exact hc ▸ .untold (h long)

/-- A cause that cites no more than texts is reported. -/
theorem reported {c : Rejection} (found : c.OfQuery) (area : c.area = .query) (h : c.hasText) :
    OfQuery asked c.raised :=
  Rejection.raised_of_hasText h ▸ .refused found area

theorem mono {f : Fault} (hf : f.OfQuery asked) (h : Untold asked → Untold asked') :
    f.OfQuery asked' := by
  cases hf with
  | refused found area => exact .refused found area
  | untold long => exact .untold (h long)

end Fault.OfQuery

/-- Whether a query is refused, and does not fail for another reason. -/
def Fault.isRefusal : Fault → Bool
  | .rejected _ => true
  | _ => false

/-- Whatever is refused here is refused for a cause of this kind. -/
def Outcome.Refuses {α : Type} (P : Rejection → Prop) (o : Outcome α) : Prop :=
  ∀ c, o = .error (.rejected c) → P c

open Outcome

/-- Reading an integer refuses nothing. -/
theorem Value.fails_toInteger (v : Value) : Fails (fun f => f.isRefusal = false) v.toInteger := by
  have hrefuse : ∀ (v : Value) e,
      Fails (fun f => f.isRefusal = false) (v.refuseInteger e : Outcome Int) := by
    intro v e
    cases e <;> exact .error rfl
  unfold Value.toInteger
  cases v with
  | int n => exact .ok n
  | bool b => exact .ok _
  | float x =>
    dsimp only
    cases x.truncate? with
    | some n => exact .ok n
    | none => cases x <;> exact .error rfl
  | bytes b =>
    dsimp only
    cases Numeral.ofOctets b with
    | ok n => exact .ok n
    | error e => exact hrefuse _ e
  | str s =>
    dsimp only [Value.text?]
    cases Numeral.ofText s.toList with
    | ok n => exact .ok n
    | error e => exact hrefuse _ e
  | token t =>
    dsimp only
    cases (token t).text? with
    | none => exact .error rfl
    | some s =>
      dsimp only
      cases Numeral.ofText s.toList with
      | ok n => exact .ok n
      | error e => exact hrefuse _ e
  | _ => exact .error rfl

namespace Filter

variable (rules : Naming)

theorem fails_column (v : Value) : Fails (Fault.OfQuery [v]) (column rules v) := by
  unfold column
  split
  · exact .ok _
  · exact .reject (.raised trivial rfl id)

theorem fails_comparison (asked : List Value) (c : String) (o : Comparison) (v : Value) :
    Fails (Fault.OfFilter asked) (comparison c o v) := by
  unfold comparison
  split
  · exact .ok _
  · exact .ok _
  · exact .error (.inr rfl)
  · exact .ok _

/-- The field of a condition is a text, which is cited as it is. -/
theorem fails_condition (asked : List Value) (c : Condition Value) :
    Fails (Fault.OfFilter asked) (condition rules c) := by
  have hcolumn : ∀ f, Fails (Fault.OfFilter asked) (column rules (.str f)) := fun f =>
    (fails_column rules _).mono fun _ hf => .inl (hf.mono fun h => by simp at h)
  cases c with
  | base f => exact .reject (.inl (.reported trivial rfl rfl))
  | comparison f o v =>
    simp only [condition]
    split
    · exact (hcolumn _).bind fun c _ => fails_comparison asked c o v
    · exact .reject (.inl (.reported trivial rfl rfl))
  | like f o v m =>
    simp only [condition]
    split
    · exact (hcolumn _).bind fun c _ => .pure _
    · exact .reject (.inl (.reported trivial rfl rfl))
  | membership f v =>
    simp only [condition]
    split
    · exact (hcolumn _).bind fun c _ => .pure _
    · exact .reject (.inl (.reported trivial rfl rfl))
  | nullCheck f o v =>
    simp only [condition]
    split
    · exact (hcolumn _).bind fun c _ => .pure _
    · exact .reject (.inl (.reported trivial rfl rfl))

theorem fails_equality (k v : Value) : Fails (Fault.OfFilter [k]) (equality rules k v) := by
  refine ((fails_column rules k).mono fun _ => .inl).bind fun c _ => ?_
  split
  · exact .pure _
  · exact fails_comparison [k] c .eq v

/-- Whatever a cause cites of a value that is no condition is the value or a part of it. -/
theorem fails_read (v : Value) : Fails (Fault.OfQuery [v]) (Condition.ofValue v) := by
  have hpart : ∀ name, (v.get name).hasText = false → Untold [v] := fun name h => by
    rw [untold_singleton]
    exact Bool.eq_false_iff.mpr fun hv => Bool.eq_false_iff.mp h (Value.hasText_get hv name)
  have hwhole : ∀ s, Untold [v, .str s] → Untold [v] := by simp
  unfold Condition.ofValue
  split
  · exact .ok _
  · split
    · exact .reject (.raised trivial rfl (hwhole _))
    · split
      · refine .reject (.raised trivial rfl ?_)
        rintro ⟨w, hw, long⟩
        obtain rfl | rfl := by simpa [Rejection.cited] using hw
        · exact hpart _ long
        · exact hpart _ long
      · split
        · exact .ok _
        · split
          · refine .reject (.raised trivial rfl fun long => hpart "field" ?_)
            exact untold_singleton.mp long
          · exact .reject (.raised trivial rfl (hwhole _))

theorem fails_item (v : Value) : Fails (Fault.OfFilter [v]) (item rules v) :=
  ((fails_read v).mono fun _ => .inl).bind fun c _ => fails_condition rules [v] c

theorem fails_ofValue (v : Value) : Fails (Fault.OfFilter [v]) (ofValue rules v) := by
  have hpart : ∀ {w : Value}, (w.hasText = false → v.hasText = false) → ∀ f,
      Fault.OfFilter [w] f → Fault.OfFilter [v] f := fun h f hf =>
    hf.imp_left fun hq => hq.mono fun long => untold_singleton.mpr (h (untold_singleton.mp long))
  unfold ofValue
  split
  · exact .ok _
  · split
    · rename_i es _ hes
      refine .mapM fun e he => (fails_equality rules e.1 e.2).mono (hpart fun long => ?_)
      rw [Bool.eq_false_iff] at long ⊢
      exact fun hv => long ((Value.hasText_of_entries hes).mp hv e he).1
    · rename_i xs _ hxs
      refine .mapM fun w hw => (fails_item rules w).mono (hpart fun long => ?_)
      rw [Bool.eq_false_iff] at long ⊢
      exact fun hv => long ((Value.hasText_of_items hxs).mp hv w hw)
    · exact .reject (.inl (.raised trivial rfl (by simp [Rejection.cited])))

end Filter

theorem Projection.fails_ofItems (rules : Naming) (items : List Value) :
    Fails (Fault.OfQuery items) (ofItems rules items) := by
  unfold ofItems
  dsimp only
  split
  · exact .ok _
  · split
    · exact .reject (.raised trivial rfl (Untold.of_subset (List.filter_subset_self _)))
    · split
      · exact .reject (.reported trivial rfl (by simp [Rejection.hasText, Rejection.cited]))
      · exact .ok _

theorem Sorting.fails_clause (rules : Naming) (v : Value) :
    Fails (Fault.OfQuery [v]) (clause rules v) := by
  -- The parts of an entry are parts of the value, whichever way it is spelled.
  have hparts : ∀ p, entry v = .ok p → v.hasText → p.1.hasText ∧ p.2.hasText := by
    intro p hp hv
    unfold entry at hp
    split at hp
    · cases hp
      simpa [Value.hasText] using hv
    · cases hp
      simpa [Value.hasText] using hv
    · split at hp
      · cases hp
        exact ⟨Value.hasText_get hv _, Value.hasText_get hv _⟩
      · cases hp
  have hentry : Fails (Fault.OfQuery [v]) (entry v) := by
    unfold entry
    split
    · exact .ok _
    · exact .ok _
    · split
      · exact .ok _
      · exact .reject (.raised trivial rfl id)
  refine hentry.bind fun p hp => ?_
  have hv : p.1.hasText = false ∨ p.2.hasText = false → Untold [v] := by
    rw [untold_singleton, Bool.eq_false_iff, Bool.eq_false_iff, Bool.eq_false_iff]
    rintro (h | h) long
    · exact h (hparts p hp long).1
    · exact h (hparts p hp long).2
  dsimp only
  split
  · exact .reject (.raised trivial rfl fun long => hv (.inr (untold_singleton.mp long)))
  · split
    · exact .ok _
    · exact .reject (.raised trivial rfl fun long => hv (.inl (untold_singleton.mp long)))

namespace Query

variable (rules : Naming) (s : State)

theorem fails_distinct (asked : List Value) (seen : List String) (entries : List (String × Value)) :
    Fails (Fault.OfQuery asked) (distinct seen entries) := by
  induction entries generalizing seen with
  | nil => exact .ok _
  | cons e entries ih =>
    rw [distinct]
    split
    · exact .reject (.reported trivial rfl rfl)
    · exact ih _

theorem fails_payload (entries : List (Value × Value)) :
    Fails (Fault.OfQuery (entries.map Prod.fst)) (payload rules entries) := by
  unfold payload
  dsimp only
  split
  · exact .reject (.raised trivial rfl (Untold.of_subset (List.filter_subset_self _)))
  · exact (fails_distinct _ _ _).bind fun _ _ => .pure _

theorem fails_records (asked : List Value) (index : Nat) (items : List Value) :
    Fails (Fault.OfQuery asked) (records index items) := by
  induction items generalizing index with
  | nil => exact .ok _
  | cons v items ih =>
    rw [records]
    split
    · exact .reject (.reported trivial rfl rfl)
    · exact (ih _).bind fun _ _ => .pure _

theorem fails_consistent (asked expected : List Value) (index : Nat)
    (batch : List (List (Value × Value))) :
    Fails (Fault.OfQuery asked) (consistent expected index batch) := by
  induction batch generalizing index with
  | nil => exact .ok _
  | cons r batch ih =>
    rw [consistent]
    split
    · exact ih _
    · exact .reject (.reported trivial rfl rfl)

/-- The names of columns that a payload gives, as one record or as many. -/
def payloadNames (data : Value) : List Value :=
  (data.entries?.getD []).map Prod.fst ++
    (data.items?.getD []).flatMap fun r => (r.entries?.getD []).map Prod.fst

/-- What may be cited when a statement is refused. -/
def asked (s : State) (data : Value) : List Value :=
  s.filter :: s.projection.getD [] ++ s.order ++ payloadNames data

/-- What is wrong with a query, its table and its bounds apart. -/
inductive Wrong (rules : Naming) (s : State) (data : Value) : Fault → Prop
  | refused {f : Fault} (h : f.OfQuery (asked s data)) : Wrong rules s data f
  | unordered (h : Filter.ofValue rules s.filter = .error .unorderedBoolean) :
    Wrong rules s data .unorderedBoolean

/-- What building a statement from a state fails with. -/
inductive Flaw (rules : Naming) (s : State) (data : Value) : Fault → Prop
  | query {f : Fault} (h : Wrong rules s data f) : Flaw rules s data f
  | table (h : rules.name? (.str s.table) = none) :
    Flaw rules s data (.rejected (.invalidTableName (.str s.table)))
  | bound {f : Fault} {w : Coerce.Whole} (given : s.take = some w ∨ s.skip = some w)
    (unread : w.toValue.toInteger = .error f) : Flaw rules s data f

variable (data : Value)

theorem fails_target : Fails (Flaw rules s data) (target rules (.str s.table)) := by
  unfold target
  split
  · exact .ok _
  · rename_i h
    exact .reject (.table h)

theorem fails_bound? {w : Option Coerce.Whole} (hw : w = s.take ∨ w = s.skip) :
    Fails (Flaw rules s data) (bound? w) := by
  cases w with
  | none => exact .ok _
  | some n => exact Fails.map fun f hf => .bound (hw.imp Eq.symm Eq.symm) hf

theorem payloadNames_of_record {v : Value} {entries : List (Value × Value)}
    (h : record? v = some entries) : entries.map Prod.fst = (v.entries?.getD []).map Prod.fst := by
  rw [(record?_eq_some.mp h).1, Option.getD_some]

variable {data} in
theorem subset_asked {names : List Value} (h : names ⊆ payloadNames data) : names ⊆ asked s data :=
  List.Subset.trans h (List.subset_append_right _ _)

section
variable {rules s data} {α : Type} {x : Outcome α}

/-- What is wrong with a part of a query is wrong with the query. -/
theorem fails_part {part : List Value} (hpart : part ⊆ asked s data)
    (hx : Fails (Fault.OfQuery part) x) : Fails (Flaw rules s data) x :=
  hx.mono fun _ h => .query (.refused (h.mono (Untold.of_subset hpart)))

theorem fails_reported {c : Rejection} (found : c.OfQuery) (area : c.area = .query)
    (told : c.hasText) : Fails (Flaw rules s data) (reject c : Outcome α) :=
  .reject (.query (.refused (.reported found area told)))

theorem fails_record {entries : List (Value × Value)} (h : record? data = some entries) :
    Fails (Flaw rules s data) (payload rules entries) := by
  refine fails_part (subset_asked s ?_) (fails_payload rules entries)
  rw [payloadNames_of_record h]
  exact List.subset_append_left _ _

end

theorem fails_returning : Fails (Flaw rules s data) (returning rules s) :=
  fails_part (by simp [asked]) (Projection.fails_ofItems rules (s.projection.getD []))

theorem fails_filter : Fails (Flaw rules s data) (Filter.ofValue rules s.filter) := by
  intro f hf
  obtain h | rfl := Filter.fails_ofValue rules s.filter f hf
  · exact .query (.refused (h.mono (Untold.of_subset (by simp [asked]))))
  · exact .query (.unordered hf)

theorem fails_order : Fails (Flaw rules s data) (Sorting.ofItems rules s.order) :=
  .mapM fun v hv => fails_part (by simp [asked, hv]) (Sorting.fails_clause rules v)

theorem fails_insert : Fails (Flaw rules s data) (insert rules s data) := by
  unfold insert
  split
  · exact fails_reported trivial rfl rfl
  · rename_i entries he
    exact (fails_record he).bind fun _ _ => (fails_target rules s data).bind fun _ _ =>
      (fails_returning rules s data).bind fun _ _ => .pure _

theorem fails_insertMany : Fails (Flaw rules s data) (insertMany rules s data) := by
  unfold insertMany
  split
  · exact fails_reported trivial rfl rfl
  · exact fails_reported trivial rfl rfl
  · rename_i items _ hitems
    refine (fails_part (List.nil_subset _) (fails_records [] 0 _)).bind fun batch hbatch => ?_
    refine (fails_part (List.nil_subset _) (fails_consistent [] _ 1 _)).bind fun _ _ => ?_
    refine Fails.bind (.mapM fun r hr => ?_) fun rows _ =>
      (fails_target rules s data).bind fun _ _ => (fails_returning rules s data).bind fun _ _ => .pure _
    -- The keys of a record are among those of the batch.
    obtain ⟨v, hv, hrecord⟩ := Lists.exists_of_mem_right (records_eq_ok.mp hbatch) hr
    refine fails_part (subset_asked s fun k hk => List.mem_append_right _ ?_) (fails_payload rules r)
    rw [hitems, Option.getD_some]
    exact List.mem_flatMap.mpr ⟨v, hv, payloadNames_of_record hrecord ▸ hk⟩

theorem fails_update : Fails (Flaw rules s data) (update rules s data) := by
  unfold update
  split
  · exact fails_reported trivial rfl rfl
  · split
    · exact fails_reported trivial rfl rfl
    · rename_i entries he
      exact (fails_record he).bind fun _ _ => (fails_target rules s data).bind fun _ _ =>
        (fails_filter rules s data).bind fun _ _ =>
          (fails_returning rules s data).bind fun _ _ => .pure _

theorem fails_delete : Fails (Flaw rules s data) (delete rules s) := by
  unfold delete
  split
  · exact fails_reported trivial rfl rfl
  · exact (fails_target rules s data).bind fun _ _ => (fails_filter rules s data).bind fun _ _ =>
      (fails_returning rules s data).bind fun _ _ => .pure _

/-- A statement that is not built has a flaw in the query, in the name of its table or in a bound. -/
theorem fails_build (kind : StatementKind) : Fails (Flaw rules s data) (build rules kind s data) := by
  have htarget := fails_target rules s data
  have hfilter := fails_filter rules s data
  cases kind with
  | select =>
    refine (fails_returning rules s data).bind fun _ _ => htarget.bind fun _ _ =>
      hfilter.bind fun _ _ => (fails_order rules s data).bind fun _ _ => ?_
    refine (fails_bound? rules s data (.inl rfl)).bind fun _ _ => ?_
    exact (fails_bound? rules s data (.inr rfl)).bind fun _ _ => .pure _
  | count => exact htarget.bind fun _ _ => hfilter.bind fun _ _ => .pure _
  | insert => exact fails_insert rules s data
  | insertMany => exact fails_insertMany rules s data
  | update => exact fails_update rules s data
  | delete => exact fails_delete rules s data

/-- A statement is never refused for what the database has answered. -/
theorem refuses_build (kind : StatementKind) :
    Refuses Rejection.OfQuery (build rules kind s data) := by
  intro c hc
  cases fails_build rules s data kind _ hc with
  | query h =>
    cases h with
    | refused h =>
      cases h with
      | refused found => exact found
  | table h => trivial
  | bound given unread => cases Value.fails_toInteger _ _ unread

end Query
end TableQuery
