import TableQuery.Proofs.Handle.Chain
import TableQuery.Proofs.Handle.Reachable

/-! What a handle keeps, handed back to a chain call: it is kept again as it is. -/

namespace TableQuery

/-! What is kept is kept as it is when it is handed back. -/

namespace State

/-- A part of a state as it is shown, to be handed back. -/
def stored (s : State) : Setting.Kind → Value
  | .projection => match s.projection with
    | some ps => .tuple ps
    | none => .none
  | .filter => s.filter
  | .order => .tuple s.order
  | .skip => optionalWhole s.skip
  | .take => optionalWhole s.take

theorem kind_setting (s : State) (k : Setting.Kind) : (s.setting k).kind = k := by
  cases k <;> rfl

theorem put_setting (s : State) (k : Setting.Kind) : s.put (s.setting k) = s := by
  cases k <;> rfl

end State

/-- The call that sets a part. -/
def Setting.Kind.call : Setting.Kind → Value → Handle.Call
  | .projection => .select
  | .filter => .filter
  | .order => .order
  | .skip => .skip
  | .take => .take

/-- A select with one of its parts taken from another. -/
def Statement.withPart (k : Setting.Kind) : Statement → Statement → Statement
  | .select c t f o l s, .select c' _ f' o' l' s' =>
    match k with
    | .projection => .select c' t f o l s
    | .filter => .select c t f' o l s
    | .order => .select c t f o' l s
    | .skip => .select c t f o l s'
    | .take => .select c t f o l' s
  | st, _ => st

namespace Freeze

variable {s : Store}

theorem orderItem_of_retained {x : Value} (h : Sorting.Retained s x) : orderItem s.look x = x := by
  rcases h with ⟨es, rfl⟩ | ⟨hno, -⟩
  · rfl
  · rw [Value.isMapping] at hno
    rw [orderItem, Option.isSome_eq_false_iff.mp hno |> Option.isNone_iff_eq_none.mp]

theorem projection_stored {t : State}
    (h : ∀ ps, t.projection = some ps → Value.sameAll ps [.str allColumns] = false) :
    projection s.look (t.stored .projection) = .ok t.projection := by
  rw [State.stored]
  cases hp : t.projection with
  | none => rfl
  | some ps =>
    have hstar : Value.same (.tuple ps) (.str allColumns) = false := by simp [Value.same, Value.number?]
    change (if Value.isNone (.tuple ps) || Value.same (.tuple ps) (.str allColumns) then _ else _) = _
    rw [hstar]
    change Except.ok (if Value.sameAll ps [.str allColumns] then none else some ps) = _
    rw [h ps hp]
    rfl

theorem filter_stored {v : Value} (h : Filter.Retained s v) : filter s.look v = v := by
  cases h with
  | mapping es => rfl
  | @sequence xs items =>
    change Value.tuple (xs.map (item s.look)) = _
    refine congrArg Value.tuple ((List.map_congr_left fun x hx => ?_).trans (List.map_id xs))
    obtain ⟨es, rfl⟩ | ⟨hno, -⟩ := items x hx
    · rfl
    · rw [Value.isMapping, Option.isSome_eq_false_iff, Option.isNone_iff_eq_none] at hno
      rw [item, hno]
      rfl
  | other mapping items cell =>
    have hlook : s.look v = v := by
      cases v with
      | shared n => cases cell
      | _ => rfl
    rw [Value.isMapping, Option.isSome_eq_false_iff, Option.isNone_iff_eq_none] at mapping
    rw [filter, hlook, mapping, items]

theorem order_stored {xs : List Value} (h : ∀ x ∈ xs, Sorting.Retained s x)
    (hsingle : isSingleEntry (.tuple xs) = false) : order s.look (.tuple xs) = .ok xs := by
  change (if isSingleEntry (.tuple xs) then _ else _) = _
  rw [hsingle]
  change Except.ok (xs.map (orderItem s.look)) = _
  rw [List.map_congr_left fun x hx => orderItem_of_retained (h x hx), List.map_id']

/-- A text is no entry, so that no order which compiles is taken for a pair of a column and a
direction. -/
theorem isSingleEntry_of_compiled {rules : Naming} {xs : List Value}
    {order : List (String × Direction)} (h : Sorting.ofItems rules (xs.map s.resolve) = .ok order) :
    isSingleEntry (.tuple xs) = false := by
  cases xs with
  | nil => rfl
  | cons x xs =>
    have htext : x.text?.isSome = false := by
      obtain ⟨o, -, ho, -, -⟩ := List.forall₂_cons_left_iff.mp (Outcome.mapM_eq_ok.mp h)
      cases x with
      | str t => cases ho
      | token t => cases ho
      | _ => rfl
    unfold isSingleEntry
    split <;> simp_all

end Freeze

/-- A count that was accepted is accepted again. -/
theorem Pagination.count_stored {least : Int} {w : Option Coerce.Whole}
    (h : ∀ v, w = some v → ∃ n : Int, v = .int n ∧ least ≤ n) :
    isAccepted least (State.optionalWhole w) = true ∧
      (count? least (State.optionalWhole w)).map .int = w := by
  cases w with
  | none => exact ⟨rfl, rfl⟩
  | some v =>
    obtain ⟨n, rfl, hn⟩ := h v rfl
    have hcount : count? least (State.optionalWhole (some (.int n))) = some n := if_pos hn
    rw [isAccepted, hcount]
    exact ⟨Bool.or_true _, rfl⟩

namespace Handle
open Query

variable {s : Store} {h g : Handle} {k : Setting.Kind} {model : Option Schema.Overlay}

theorem resolve_optionalWhole (w : Option Coerce.Whole) :
    s.resolve (State.optionalWhole w) = State.optionalWhole w := by
  rcases w with _ | n | b
  · rfl
  · rfl
  · rfl

/-- What a handle keeps is read as what it keeps. A model would look at a filter once more. -/
theorem read_stored (hf : h.Formed s)
    (hsingle : Freeze.isSingleEntry (.tuple h.state.order) = false)
    (hm : k = .filter → model = none) :
    (Step.mk s (k.call (h.state.stored k))).read model = .ok (h.state.setting k) := by
  cases k with
  | projection =>
    change Setting.projection <$> Freeze.projection s.look _ = _
    rw [Freeze.projection_stored hf.projection]
    rfl
  | filter =>
    rw [hm rfl]
    change Except.ok (Setting.filter (Freeze.filter s.look h.state.filter)) = _
    rw [Freeze.filter_stored hf.filter]
    rfl
  | order =>
    change Setting.order <$> Freeze.order s.look (.tuple h.state.order) = _
    rw [Freeze.order_stored hf.order hsingle]
    rfl
  | skip =>
    obtain ⟨haccepted, hcount⟩ := Pagination.count_stored hf.skip
    change (fun n => Setting.skip (n.map .int)) <$>
      Pagination.skip (s.resolve (State.optionalWhole h.state.skip)) = _
    rw [resolve_optionalWhole, Pagination.skip, if_pos haccepted]
    exact congrArg (fun n => Except.ok (Setting.skip n)) hcount
  | take =>
    obtain ⟨haccepted, hcount⟩ : Pagination.isAccepted 1 (State.optionalWhole h.state.take) = true ∧ _ :=
      Pagination.count_stored hf.take
    change (fun n => Setting.take (n.map .int)) <$>
      Pagination.take (s.resolve (State.optionalWhole h.state.take)) = _
    rw [resolve_optionalWhole, Pagination.take, if_pos haccepted]
    exact congrArg (fun n => Except.ok (Setting.take n)) hcount

/-- A select of a handle that was given a part of another is its own with that part of the other's. -/
theorem select_put {st st' : Statement} (hrules : g.rules = h.rules)
    (hg : build g.rules .select (g.current s).state .none = .ok st')
    (hh : build h.rules .select (h.current s).state .none = .ok st) :
    build g.rules .select
      (Handle.current s { g with state := g.state.put (h.state.setting k) }).state .none =
        .ok (st'.withPart k st) := by
  rw [← hrules] at hh
  obtain ⟨c, t, f, o, l, b, hc, ht, hf, ho, hl, hb, rfl⟩ := select_eq_ok.mp hg
  obtain ⟨c', t', f', o', l', b', hc', -, hf', ho', hl', hb', rfl⟩ := select_eq_ok.mp hh
  cases k with
  | projection => exact select_eq_ok.mpr ⟨c', t, f, o, l, b, hc', ht, hf, ho, hl, hb, rfl⟩
  | filter => exact select_eq_ok.mpr ⟨c, t, f', o, l, b, hc, ht, hf', ho, hl, hb, rfl⟩
  | order => exact select_eq_ok.mpr ⟨c, t, f, o', l, b, hc, ht, hf, ho', hl, hb, rfl⟩
  | skip => exact select_eq_ok.mpr ⟨c, t, f, o, l, b', hc, ht, hf, ho, hl, hb', rfl⟩
  | take => exact select_eq_ok.mpr ⟨c, t, f, o, l', b, hc, ht, hf, ho, hl', hb, rfl⟩

end Handle

namespace Session

variable {x : Behaviour} {s : Session} {h : Handle}

/-- Whatever a handle keeps can be handed back, once its select compiles: to itself, which changes
nothing, and to any other handle, which then has this part of the query and all others of its own. A
filter goes to handles without a model. No order is taken for a single entry. -/
theorem stored_restored (hr : s.Reachable x) (hh : h ∈ s.handles) {st : Statement}
    (hb : Query.build h.rules .select (h.current s.store).state .none = .ok st) :
    (Freeze.projection s.store.look (h.state.stored .projection) = .ok h.state.projection ∧
      Freeze.filter s.store.look (h.state.stored .filter) = h.state.filter ∧
      Freeze.order s.store.look (h.state.stored .order) = .ok h.state.order ∧
      Freeze.isSingleEntry (h.state.stored .order) = false) ∧
    (∀ k : Setting.Kind, (k = .filter → h.model = none) → h.apply s.store (k.call (h.state.stored k)) = .ok h) ∧
    ∀ (g : Handle) (k : Setting.Kind), (k = .filter → g.model = none) → ∃ g',
      g.apply s.store (k.call (h.state.stored k)) = .ok g' ∧
      g'.rules = g.rules ∧ g'.model = g.model ∧ g'.state.table = g.state.table ∧
      (∀ j, g'.state.setting j = if j = k then h.state.setting j else g.state.setting j) ∧
      ∀ st', g.rules = h.rules →
        Query.build g.rules .select (g.current s.store).state .none = .ok st' →
        Query.build g.rules .select (g'.current s.store).state .none = .ok (st'.withPart k st) := by
  have hf := hr.formed.handles h hh
  obtain ⟨_, _, _, _, _, _, -, -, -, horder, -, -, -⟩ := Query.select_eq_ok.mp hb
  have hsingle := Freeze.isSingleEntry_of_compiled horder
  have happly : ∀ (g : Handle) (k : Setting.Kind), (k = .filter → g.model = none) →
      g.apply s.store (k.call (h.state.stored k)) =
        .ok { g with state := g.state.put (h.state.setting k) } := by
    intro g k hm
    have hread := Handle.read_stored hf hsingle hm
    exact (g.apply_eq_read ⟨s.store, k.call (h.state.stored k)⟩).trans (by rw [hread]; rfl)
  refine ⟨⟨Freeze.projection_stored hf.projection, Freeze.filter_stored hf.filter,
    Freeze.order_stored hf.order hsingle, hsingle⟩, fun k hm => ?_, fun g k hm => ?_⟩
  · rw [happly h k hm, State.put_setting]
  · refine ⟨_, happly g k hm, rfl, rfl, State.table_put .., fun j => ?_, fun st' hrules hg => ?_⟩
    · rw [State.setting_put, State.kind_setting]
      by_cases hj : j = k
      · rw [if_pos hj, if_pos hj.symm, hj]
      · rw [if_neg hj, if_neg (Ne.symm hj)]
    · exact Handle.select_put hrules hg hb

/-- Two pairs as an order, a mapping as a filter and a name as a projection, all handed back, and the
order to another table as well. -/
theorem stored_restored_pairs :
    let x : Behaviour := ⟨fun _ => .ok [], fun _ => .ok .none⟩
    let later := oneTable.run x [
      .chain 0 (.order (.list [.tuple [.str "a", .str "ASC"], .tuple [.str "b", .str "DESC"]])),
      .chain 1 (.filter (.map [(.str "id", .int 1)])), .chain 2 (.select (.str "a"))]
    ∃ h ∈ later.handles, h.state.order.length = 2 ∧
      (∀ k : Setting.Kind, h.apply later.store (k.call (h.state.stored k)) = .ok h) ∧
      ∃ g, Handle.apply later.store { rules := {}, state := { table := "u" } }
        (Setting.Kind.order.call (h.state.stored .order)) = .ok g ∧
        g.state.table = "u" ∧ g.state.setting .order = h.state.setting .order := by
  intro x later
  have hreachable : later.Reachable x := (oneTable_reachable x).run
    ⟨Act.given_chain rfl, Act.given_chain rfl, Act.given_chain rfl, trivial⟩
  have hlast : (later.handles[3]?.any fun h => h.model.isNone && h.state.order.length == 2 &&
      (Query.build h.rules .select (h.current later.store).state .none).toOption.any fun st =>
        st.target.table = "t") = true := by
    decide +kernel
  obtain ⟨h, hh, hlast⟩ := (Option.any_eq_true _ _).mp hlast
  simp only [Bool.and_eq_true, beq_iff_eq, Option.isNone_iff_eq_none] at hlast
  obtain ⟨⟨hmodel, hlength⟩, hbuilt⟩ := hlast
  obtain ⟨st, hst, -⟩ := Outcome.exists_of_isOk hbuilt
  obtain ⟨-, hself, hother⟩ := stored_restored hreachable (List.mem_of_getElem? hh) hst
  obtain ⟨g, hg, -, -, htable, hset, -⟩ := hother { rules := {}, state := { table := "u" } } .order nofun
  exact ⟨h, List.mem_of_getElem? hh, hlength, fun k => hself k fun _ => hmodel, g, hg, htable, hset .order⟩

end Session
end TableQuery
