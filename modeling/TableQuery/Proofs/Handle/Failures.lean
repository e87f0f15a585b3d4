import TableQuery.Proofs.Filter.Unordered
import TableQuery.Proofs.Handle.Reachable
import TableQuery.Proofs.Query.Inserted
import TableQuery.Proofs.Sql.Writable

/-! What the statement of a handle can fail with, from its making to its writing. Most of it is refused
for a cause. What is not: an order that a truth value does not have, causes that cite what cannot be
written out, names of places and columns that clash, lists whose rows do not fit, names that read like
marks, and checks that cannot be made. -/

namespace TableQuery
open Outcome

namespace Behaviour

variable {α : Type}

def write (d : Dialect) (a : α) (calls : List Dispatch) : Outcome α :=
  match calls.getLast? with
  | some c => (fun _ => a) <$> c.statement.render d
  | none => .ok a

/-- An executor that does no more than write out what it is called for, and has one answer. -/
def writing (d : Dialect) (rows : List Value) (n : Int) : Behaviour := ⟨write d rows, write d (.int n)⟩

end Behaviour

namespace Handle

/-- A fault that is no refusal, of a statement that was to be built of a state and a payload, and to be
written out. The payload may still have to be read. -/
inductive Foreign (rules : Naming) (s : State) (model : Option Schema.Overlay) (read : Outcome Value)
    (d : Dialect) (built : Outcome Statement) : Fault → Prop
  | unordered (failed : built = .error .unorderedBoolean) (flaw : Filter.Unordered rules s.filter) :
    Foreign rules s model read d built .unorderedBoolean
  | untold {v : Value} (failed : built = .error .tooManyDigits) (ok : read = .ok v)
    (flaw : Untold (Query.asked s v)) : Foreign rules s model read d built .tooManyDigits
  | stuck {o : Schema.Overlay} {f : Fault} (failed : built = .error f) (given : model = some o)
    (unread : read = .error f) (fault : Schema.Stuck o.Raises f) :
    Foreign rules s model read d built f
  | unwritten {st : Statement} {f : Fault} (made : built = .ok st) (failed : st.render d = .error f)
    (fault : Binding.Unwritten f) (flaw : ¬ (st.Legible d ∧ st.Writable d)) :
    Foreign rules s model read d built f

/-- A refusal for what was asked, or for what a model finds. -/
def Refused (f : Fault) : Prop := ∃ c, f = .rejected c ∧ (c.area = .query ∨ c.area = .schema)

variable {h : Handle} {rules : Naming} {d : Dialect} {read : Outcome Value}
  {built : Outcome Statement}

theorem exists_render_of_build {k : StatementKind} {s : State} {data : Value} {st : Statement}
    (hst : Query.build rules k s data = .ok st) (hl : st.Legible d) :
    (∃ r, st.render d = .ok r) ↔ st.Writable d := by
  obtain ⟨-, -, -, hcells⟩ := Query.mem_values_of_build (d := d) hst
  exact Statement.exists_render hcells hl

theorem exists_render_of_statement {t : Terminal} {st : Statement} (hst : h.statement t = .ok st)
    (hl : st.Legible d) : (∃ r, st.render d = .ok r) ↔ st.Writable d := by
  obtain ⟨v, -, hb⟩ := bind_eq_ok.mp hst
  exact exists_render_of_build hb hl

/-- Whatever is wrong with a statement is wrong with its query, its payload or its written form. -/
theorem fails_written (hb : Fails (h.Unbuilt read) built)
    (hw : ∀ st, built = .ok st → st.Legible d → ((∃ r, st.render d = .ok r) ↔ st.Writable d)) :
    Fails (fun f => Refused f ∨ Foreign h.rules h.state h.model read d built f)
      (built >>= fun st => st.render d) := by
  intro f hf
  -- Either nothing was built, for the query or the payload, or only the writing is left to fail.
  rcases bind_eq_error.mp hf with hbuilt | ⟨st, hst, hr⟩
  · cases hb f hbuilt with
    | wrong ok fault =>
      cases fault with
      | refused hq =>
        cases hq with
        | refused _ area => exact .inl ⟨_, rfl, .inl area⟩
        | untold long => exact .inr (.untold hbuilt ok long)
      | unordered ho => exact .inr (.unordered hbuilt (Filter.ofValue_eq_unordered.mp ho))
    | unchecked failed fault =>
      generalize hm : h.model = model at fault
      cases fault with
      | findings o subject found => exact .inl ⟨_, rfl, .inr rfl⟩
      | stuck fault => exact .inr (.stuck hbuilt rfl failed fault)
  · refine .inr (.unwritten hst hr (st.fails_render d f hr) fun ⟨hl, hwritable⟩ => ?_)
    obtain ⟨r, hok⟩ := (hw st hst hl).mpr hwritable
    cases hok.symm.trans hr

/-- An executor that only writes adds nothing to what a call fails with, but for what is refused when
its answer is not the one that was looked for. -/
theorem exchange_writing (t : Terminal) (rows : List Value) (n : Int) (calls : List Dispatch) :
    (h.exchange (.writing d rows n) t calls).1 =
      (h.statement t >>= fun st => st.render d) >>= fun _ =>
        if t.kind = .count then .ok (.int n) else h.finish t rows := by
  have hcount : toCount (.int n) = .ok n := by
    unfold toCount
    split
    · rfl
    · rename_i hn
      have hzero : n = 0 := by simpa [Value.isTruthy] using hn
      rw [hzero]
  cases hst : h.statement t with
  | error f => rw [exchange_of_error _ calls hst]; rfl
  | ok st =>
    rw [exchange_of_dispatch _ calls (dispatch?_of_ok hst)]
    change h.conclude _ t _ = st.render d >>= _
    unfold conclude Behaviour.writing Behaviour.write
    simp only [List.getLast?_concat]
    cases st.render d with
    | error f => split <;> rfl
    | ok r =>
      split
      · change (Value.int <$> toCount (.int n)) = .ok (.int n)
        rw [hcount]
        rfl
      · rfl

/-- What is made of an answer is refused, if anything is wrong with it. -/
theorem fails_finish (h : Handle) (t : Terminal) (rows : List Value) :
    Fails Refused (h.finish t rows) := by
  cases t with
  | findUnique =>
    simp only [finish]
    split
    · exact .reject ⟨_, rfl, .inl rfl⟩
    · exact .ok _
  | create v =>
    simp only [finish]
    split
    · exact .reject ⟨_, rfl, .inl rfl⟩
    · exact .ok _
  | _ => exact .ok _

namespace Sound

variable (hs : h.Sound)
include hs

/-- A preview never has a payload checked, so that no check can fail. -/
theorem preview_fails (e : Executor) {kind : Value} {k : StatementKind} (data : Value)
    (dialect : Option Dialect) (hk : Query.kind? kind = some k) :
    Fails (fun f => Refused f ∨ Foreign h.rules h.state h.model (.ok data) (dialect.getD e.dialect)
      (Query.build h.rules k h.state data) f) (preview e h kind data dialect) := by
  rw [preview_eq e h hk]
  refine fails_written ?_ fun st hst => exists_render_of_build hst
  exact (hs.fails_build rfl rfl hs.take k data).mono fun _ => .wrong rfl

theorem exchange_fails (t : Terminal) (d : Dialect) (rows : List Value) (n : Int)
    (calls : List Dispatch) :
    Fails (fun f => Refused f ∨
      Foreign h.rules h.state h.model (data h.model t) d (h.statement t) f)
      (h.exchange (.writing d rows n) t calls).1 := by
  rw [exchange_writing]
  refine (fails_written (hs.fails_statement t) fun _ => exists_render_of_statement).bind fun _ _ => ?_
  split
  · exact .ok _
  · exact (fails_finish h t rows).mono fun _ => .inl

theorem exists_target : ∃ t, Query.target h.rules (.str h.state.table) = .ok t := by
  have hname : h.rules.name? (.str h.state.table) = some h.name := hs.valid
  rw [Query.target, hname]
  exact ⟨_, rfl⟩

/-- Counting takes nothing but the table, which is there, and the filter. -/
theorem preview_count_unordered (e : Executor) (data : Value) (dialect : Option Dialect) :
    preview e h (.str "COUNT") data dialect = .error .unorderedBoolean ↔
      Filter.Unordered h.rules h.state.filter := by
  obtain ⟨t, ht⟩ := hs.exists_target
  rw [preview_eq e h (by decide : Query.kind? (.str "COUNT") = some .count),
    ← Filter.ofValue_eq_unordered]
  change ((Query.count h.rules h.state >>= _) = _) ↔ _
  rw [Query.count, ht]
  change ((Filter.ofValue h.rules h.state.filter >>= fun f => pure (Statement.count t f)) >>= _) = _ ↔ _
  cases Filter.ofValue h.rules h.state.filter with
  | error f => exact ⟨fun hr => by cases hr; rfl, fun hr => by cases hr; rfl⟩
  | ok f =>
    refine iff_of_false (fun hr => ?_) ?_
    · cases Statement.fails_render (dialect.getD e.dialect) (.count t f) _ hr
    · rintro ⟨⟩

theorem update_eq_ok {data : Value} {entries : List (Value × Value)}
    {assignments : List (String × Value)} {f : Filter} {columns : Columns}
    (hp : Filter.isPresent h.state.filter = true) (hf : Filter.ofValue h.rules h.state.filter = .ok f)
    (hr : Query.record? data = some entries) (ha : Query.payload h.rules entries = .ok assignments)
    (hc : Query.returning h.rules h.state = .ok columns) :
    ∃ t, Query.build h.rules .update h.state data = .ok (.update t assignments f columns) := by
  obtain ⟨t, ht⟩ := hs.exists_target
  exact ⟨t, Query.update_eq_ok.mpr ⟨entries, assignments, t, f, columns, hp, hr, ha, ht, hf, hc, rfl⟩⟩

end Sound

end Handle

namespace Session

variable {x : Behaviour} {s : Session}

/-- What a handle can fail with where statements are only written out. A preview and a terminal call come to
their end or are refused, and what else they can fail with is told: an order that is asked for of a truth
value, which is just where counting fails with it; a cause that cites what cannot be written out; a check of
a model that cannot be made; and a statement that is built and cannot be written. Where no name reads like a
mark, this is one with a place of the filter that has the name of a column, or with rows that do not fit. So
a filter and a payload that are accepted make an update, which is written unless one of the two is the
case. -/
structure WrittenOrRefused (h : Handle) : Prop where
  preview : ∀ e kind k data dialect f, Query.kind? kind = some k →
    Handle.preview e h kind data dialect = .error f → Handle.Refused f ∨
      Handle.Foreign h.rules h.state h.model (.ok data) (dialect.getD e.dialect)
        (Query.build h.rules k h.state data) f
  call : ∀ t d rows n calls f, (h.exchange (.writing d rows n) t calls).1 = .error f →
    Handle.Refused f ∨
      Handle.Foreign h.rules h.state h.model (Handle.data h.model t) d (h.statement t) f
  written : ∀ st d, ((∃ k data, Query.build h.rules k h.state data = .ok st) ∨
      ∃ t, h.statement t = .ok st) → st.Legible d → ((∃ r, st.render d = .ok r) ↔ st.Writable d)
  unordered : ∀ e data dialect,
    Handle.preview e h (.str "COUNT") data dialect = .error .unorderedBoolean ↔
      Filter.Unordered h.rules h.state.filter
  update : ∀ e data dialect entries assignments f columns, Filter.isPresent h.state.filter = true →
    Filter.ofValue h.rules h.state.filter = .ok f → Query.record? data = some entries →
    Query.payload h.rules entries = .ok assignments → Query.returning h.rules h.state = .ok columns →
    let d := dialect.getD e.dialect
    ∃ t, Query.build h.rules .update h.state data = .ok (.update t assignments f columns) ∧
      (Statement.Legible d (.update t assignments f columns) →
        ((∃ r, Handle.preview e h (.str "UPDATE") data dialect = .ok r) ↔
          (∀ y ∈ f.placeNames d, y ∉ assignments.map Prod.fst) ∧ ∀ vs ∈ f.lists, Binding.Listable vs))

theorem written_or_refused (hr : s.Reachable x) {h : Handle} (hh : h ∈ s.handles) :
    WrittenOrRefused (h.current s.store) := by
  have hsound := (hr.formed.handles h hh).sound hr.formed.store
  refine ⟨fun e kind k data dialect f hk hf => hsound.preview_fails e data dialect hk f hf,
    fun t d rows n calls => hsound.exchange_fails t d rows n calls,
    ?_, hsound.preview_count_unordered, ?_⟩
  · rintro st d (⟨k, data, hst⟩ | ⟨t, hst⟩) hl
    · exact Handle.exists_render_of_build hst hl
    · exact Handle.exists_render_of_statement hst hl
  intro e data dialect entries assignments f columns hp hf hrecord ha hc d
  obtain ⟨t, hst⟩ := hsound.update_eq_ok hp hf hrecord ha hc
  refine ⟨t, hst, fun hl => ?_⟩
  have hk : Query.kind? (.str "UPDATE") = some .update := by decide
  rw [Handle.preview_eq e _ hk, hst]
  refine (Handle.exists_render_of_build hst hl).trans ?_
  exact ⟨fun hw => ⟨hw.names, hw.lists⟩, fun hw => ⟨hw.1, hw.2⟩⟩

/-- A change of another column than the one that is looked for. -/
theorem written_or_refused_update :
    let x : Behaviour := .writing .postgresql [] 0
    let s := oneTable.run x [.chain 0 (.filter (.map [(.str "x", .int 1)]))]
    let h : Handle := { rules := {}, state := { table := "t", filter := .frozen [(.str "x", .int 1)] } }
    s.Reachable x ∧ h ∈ s.handles ∧
    (∃ r, Handle.preview .recorder h (.str "UPDATE") (.map [(.str "y", .int 2)]) none = .ok r) ∧
    ∀ f, (h.exchange x .delete []).1 = .error f → Handle.Refused f ∨
      Handle.Foreign {} h.state none (.ok .none) .postgresql (h.statement .delete) f := by
  intro x s h
  have hr : s.Reachable x := (oneTable_reachable x).run ⟨Act.given_chain rfl, trivial⟩
  have hh : h ∈ s.handles := by
    have hhandles : s.handles = oneTable.handles ++ [h] := by with_unfolding_all rfl
    rw [hhandles]
    exact List.mem_append_right _ (List.mem_singleton_self h)
  have hcurrent : h.current s.store = h := by with_unfolding_all rfl
  have hwritten := hcurrent ▸ written_or_refused hr hh
  refine ⟨hr, hh, ?_, fun f => hwritten.call .delete .postgresql [] 0 [] f⟩
  obtain ⟨t, hst, hiff⟩ := hwritten.update .recorder (.map [(.str "y", .int 2)]) none [(.str "y", .int 2)]
    [("y", .int 2)] [.compare "x" .eq (.int 1)] .all (by decide) rfl rfl rfl rfl
  refine (hiff fun hlists => absurd rfl hlists).mpr ⟨?_, ?_⟩
  · decide +kernel
  · exact fun _ hvs => absurd hvs List.not_mem_nil

/-- A filter and a payload of which each is written out alone, and not both together; an order of truth
values; lists of rows of different widths, and of a row and what is none; and a filter that is none and too
long for the report of it. -/
theorem foreign_raised :
    let x : Behaviour := .writing .postgresql [] 0
    let asked (operator : String) (v : Value) : Value := .list [.map [(.str "field", .str "a"),
      (.str "operator", .str operator), (.str "value", v)]]
    let s := oneTable.run x [.chain 0 (.filter (.map [(.str "x", .int 1)])),
      .chain 0 (.filter (asked ">" (.bool true))),
      .chain 0 (.filter (asked "IN" (.list [.list [.int 1], .list [.int 2, .int 3]]))),
      .chain 0 (.filter (asked "IN" (.list [.list [.int 1], .int 2]))),
      .chain 0 (.filter .tooLong)]
    let preview (i : Nat) (kind : String) (data : Value) : Outcome Rendered :=
      match s.handles[i]? with
      | some h => Handle.preview .recorder (h.current s.store) (.str kind) data none
      | none => .ok ⟨"", []⟩
    let raised (o : Outcome Rendered) (message : String) : Prop :=
      ∃ f, o = .error f ∧ f.isRefusal = false ∧ f.message = message
    s.Reachable x ∧ s.handles.length = 6 ∧
    (∃ r, preview 1 "DELETE" .none = .ok r) ∧
    (∃ r, preview 1 "INSERT" (.map [(.str "x_1", .int 2)]) = .ok r) ∧
    raised (preview 1 "UPDATE" (.map [(.str "x_1", .int 2)]))
      "Bind parameter 'x_1' conflicts with unique bind parameter of the same name" ∧
    raised (preview 2 "COUNT" .none)
      ("Only '=', '!=', 'is_()', 'is_not()', 'is_distinct_from()', 'is_not_distinct_from()' " ++
        "operators can be used with None/True/False") ∧
    raised (preview 3 "COUNT" .none) "list index out of range" ∧
    raised (preview 4 "COUNT" .none) "'int' object is not iterable" ∧
    raised (preview 5 "COUNT" .none) Numeral.tooManyDigits := by
  intro x asked s preview raised
  have hwritten : ∀ {o : Outcome Rendered}, o.toOption.isSome = true → ∃ r, o = .ok r := by
    intro o ho
    cases o with
    | ok r => exact ⟨r, rfl⟩
    | error f => cases ho
  have hraised : ∀ {o : Outcome Rendered} {message : String},
      ((fault? o).any fun f => f.isRefusal = false ∧ f.message = message) = true → raised o message :=
    fun h => exists_of_fault? h
  refine ⟨?_, by decide +kernel, hwritten (by decide +kernel), hwritten (by decide +kernel),
    hraised (by decide +kernel), hraised (by decide +kernel), hraised (by decide +kernel),
    hraised (by decide +kernel), hraised (by decide +kernel)⟩
  exact (oneTable_reachable x).run ⟨Act.given_chain rfl, Act.given_chain rfl, Act.given_chain rfl,
    Act.given_chain rfl, Act.given_chain rfl, trivial⟩

end Session
end TableQuery
