import TableQuery.Proofs.Handle.Reachable

/-! Looking for the only row, over a database that evaluates queries: the page of two rows tells apart
none, one and more of the rows that match, counted from the first that the handle does not skip. -/

namespace TableQuery
open Outcome

/-- Rows in tables, with what it takes to evaluate a query: which predicates hold of a row, how an order
arranges rows, and what the columns of a query show of one. -/
structure Database where
  Row : Type
  rows : Target → List Row
  holds : Predicate → Row → Bool
  arrange : List (String × Direction) → List Row → List Row
  perm : ∀ order rs, (arrange order rs).Perm rs
  shown : Columns → Row → List (Value × Value)

namespace Database

variable (db : Database)

/-- The rows that satisfy a filter. -/
def matching (t : Target) (f : Filter) : List db.Row :=
  (db.rows t).filter fun r => f.all fun p => db.holds p r

/-- A query: the rows that match, in order, without those before the offset, and no more than the
limit. -/
def evaluate : Statement → List Value
  | .select columns t f order take skip =>
    let behind := (db.arrange order (db.matching t f)).drop (skip.getD 0).toNat
    let page := match take with
      | some n => behind.take n.toNat
      | none => behind
    page.map fun r => .map (db.shown columns r)
  | _ => []

/-- An executor that answers every query with its evaluation. -/
def behaviour : Behaviour where
  rows calls := .ok ((calls.getLast?.map fun d => db.evaluate d.statement).getD [])
  scalar _ := .ok .none

end Database

namespace Handle

/-- How many rows a handle passes over. -/
def Skips (h : Handle) (k : Nat) : Prop := h.state.skip = none ∧ k = 0 ∨ h.state.skip = some (.int k)

theorem Sound.skips {h : Handle} (hs : h.Sound) : ∃ k, h.Skips k := by
  cases hk : h.state.skip with
  | none => exact ⟨0, .inl ⟨hk, rfl⟩⟩
  | some w =>
    obtain ⟨n, rfl, hn⟩ := hs.skip w hk
    exact ⟨n.toNat, .inr (by rw [hk, Int.toNat_of_nonneg hn])⟩

variable {h : Handle}

/-- A search for the only row asks for two rows of what the handle stands for otherwise. -/
theorem statement_findUnique {k : Nat} (hk : h.Skips k) {st : Statement}
    (hst : h.statement .findUnique = .ok st) : ∃ columns t filter order skip,
      st = .select columns t filter order (some 2) skip ∧
      Query.target h.rules (.str h.name) = .ok t ∧
      Filter.ofValue h.rules h.state.filter = .ok filter ∧ (skip.getD 0).toNat = k := by
  have hdata : data h.model .findUnique = .ok .none := by cases h.model <;> rfl
  obtain ⟨v, hv, hb⟩ := bind_eq_ok.mp hst
  cases hdata.symm.trans hv
  obtain ⟨columns, t, filter, order, take, skip, -, ht, hf, -, htake, hskip, rfl⟩ :=
    Query.select_eq_ok.mp hb
  cases htake
  refine ⟨columns, t, filter, order, skip, rfl, ht, hf, ?_⟩
  change Query.bound? h.state.skip = .ok skip at hskip
  rcases hk with ⟨hnone, rfl⟩ | hsome
  · rw [hnone] at hskip
    cases hskip
    rfl
  · rw [hsome] at hskip
    cases hskip
    rfl

/-- The verdict on the rows behind those that are passed over. -/
def verdict (h : Handle) : List (List (Value × Value)) → Outcome Value
  | [] => .ok .none
  | [es] => .ok (.map es)
  | _ :: _ :: _ => reject (.notUnique (.str h.name))

/-- Two rows are enough for it. -/
theorem finish_findUnique (behind : List (List (Value × Value))) :
    h.finish .findUnique ((behind.take 2).map .map) = h.verdict behind := by
  match behind with
  | [] => rfl
  | [es] => rfl
  | _ :: _ :: _ => rfl

theorem exchange_findUnique (db : Database) (earlier : List Dispatch) {columns : Columns}
    {t : Target} {filter : Filter} {order : List (String × Direction)} {skip : Option Int} {k : Nat}
    (hst : h.statement .findUnique = .ok (.select columns t filter order (some 2) skip))
    (hk : (skip.getD 0).toNat = k) : (h.exchange db.behaviour .findUnique earlier).1 =
      h.verdict (((db.arrange order (db.matching t filter)).drop k).map (db.shown columns)) := by
  rw [exchange_of_dispatch _ _ (dispatch?_of_ok hst), ← finish_findUnique, ← List.map_take,
    List.map_map, ← hk]
  change (Except.ok _ >>= h.finish .findUnique : Outcome Value) = _
  rw [List.getLast?_concat]
  rfl

variable {behind : List (List (Value × Value))}

theorem verdict_eq_none : h.verdict behind = .ok .none ↔ behind.length = 0 := by
  match behind with
  | [] => exact iff_of_true rfl rfl
  | [es] => exact iff_of_false (by rintro ⟨⟩) (by simp)
  | _ :: _ :: _ => exact iff_of_false (by rintro ⟨⟩) (by simp)

theorem verdict_eq_map {es : List (Value × Value)} :
    h.verdict behind = .ok (.map es) ↔ behind.length = 1 ∧ behind[0]? = some es := by
  match behind with
  | [] => exact iff_of_false (by rintro ⟨⟩) (by simp)
  | [gs] => simp [verdict]
  | _ :: _ :: _ => exact iff_of_false (by rintro ⟨⟩) (by simp)

theorem verdict_eq_notUnique :
    h.verdict behind = .error (.rejected (.notUnique (.str h.name))) ↔ 2 ≤ behind.length := by
  match behind with
  | [] => exact iff_of_false (by rintro ⟨⟩) (by simp)
  | [es] => exact iff_of_false (by rintro ⟨⟩) (by simp)
  | _ :: _ :: _ => exact iff_of_true rfl (by simp)

/-- The search for the only row, over any database and after any calls, on every handle that there is
then. A filter that cannot be built is reported as such. Otherwise the rows that the handle passes over
do not count: nothing is given when no more rows match than these, a row when one more does, and it is
refused when two more do. So where the handle passes over none, the result tells whether no row matches,
one, which is then given, or several. -/
theorem unique_decided {x : Behaviour} {s : Session} (hr : s.Reachable x) (db : Database)
    (earlier : List Dispatch) : ∀ h ∈ s.handles,
    let now := h.current s.store
    let result := (now.exchange db.behaviour .findUnique earlier).1
    (∀ f, now.statement .findUnique = .error f → result = .error f) ∧
    ∀ st, now.statement .findUnique = .ok st → ∃ columns t filter order skip k,
      st = .select columns t filter order (some 2) skip ∧
      Query.target now.rules (.str now.name) = .ok t ∧
      Filter.ofValue now.rules now.state.filter = .ok filter ∧ now.Skips k ∧
      let matching := db.matching t filter
      (result = .ok .none ↔ matching.length ≤ k) ∧
      (∀ es, result = .ok (.map es) ↔ matching.length = k + 1 ∧
        ∃ r, (db.arrange order matching)[k]? = some r ∧ es = db.shown columns r) ∧
      (result = .error (.rejected (.notUnique (.str now.name))) ↔ k + 2 ≤ matching.length) ∧
      (k = 0 → (result = .ok .none ↔ matching = []) ∧
        (∀ es, result = .ok (.map es) ↔ ∃ r, matching = [r] ∧ es = db.shown columns r) ∧
        (result = .error (.rejected (.notUnique (.str now.name))) ↔ 2 ≤ matching.length)) := by
  intro h hh now result
  refine ⟨fun f hf => congrArg Prod.fst (exchange_of_error _ _ hf), fun st hst => ?_⟩
  obtain ⟨k, hk⟩ := ((hr.formed.handles h hh).sound hr.formed.store).skips
  obtain ⟨columns, t, filter, order, skip, rfl, ht, hf, hskip⟩ := statement_findUnique hk hst
  refine ⟨columns, t, filter, order, skip, k, rfl, ht, hf, hk, ?_⟩
  intro matching
  have hresult : result = _ := exchange_findUnique db earlier hst hskip
  have hperm := db.perm order matching
  generalize hbehind : ((db.arrange order matching).drop k).map (db.shown columns) = behind at hresult
  -- Arranging changes neither how many rows there are nor which.
  have hlength : behind.length = matching.length - k := by
    rw [← hbehind, List.length_map, List.length_drop, hperm.length_eq]
  have hnone : result = .ok .none ↔ matching.length ≤ k := by
    rw [hresult, verdict_eq_none, hlength]
    omega
  have hrow : ∀ es, result = .ok (.map es) ↔ matching.length = k + 1 ∧
      ∃ r, (db.arrange order matching)[k]? = some r ∧ es = db.shown columns r := by
    intro es
    rw [hresult, verdict_eq_map, hlength, ← hbehind, List.getElem?_map, List.getElem?_drop,
      Nat.add_zero, Option.map_eq_some_iff]
    refine and_congr (by omega) (exists_congr fun r => and_congr_right fun _ => eq_comm)
  have hseveral : result = .error (.rejected (.notUnique (.str now.name))) ↔
      k + 2 ≤ matching.length := by
    rw [hresult, verdict_eq_notUnique, hlength]
    omega
  refine ⟨hnone, hrow, hseveral, ?_⟩
  rintro rfl
  refine ⟨by rw [hnone, Nat.le_zero, List.length_eq_zero_iff], fun es => ?_, by rw [hseveral, Nat.zero_add]⟩
  rw [hrow]
  constructor
  · rintro ⟨hone, r, hr, hes⟩
    -- One row is arranged in one way only.
    obtain ⟨r', hr'⟩ := List.length_eq_one_iff.mp hone
    rw [hr'] at hperm hr
    rw [List.perm_singleton.mp hperm] at hr
    cases hr
    exact ⟨r, hr', hes⟩
  · rintro ⟨r, hr, hes⟩
    rw [hr] at hperm ⊢
    rw [List.perm_singleton.mp hperm]
    exact ⟨rfl, r, rfl, hes⟩

/-- Numbers under one column, of which a query picks those that it compares with. -/
def numbers (ns : List Int) : Database where
  Row := Int
  rows _ := ns
  holds p n := match p with
    | .compare _ .eq (.int m) => n == m
    | _ => true
  arrange _ ns := ns
  perm _ _ := .refl _
  shown _ n := [(.str "n", .int n)]

/-- The one number of three that is asked for, with a limit given before. -/
theorem unique_decided_two :
    let x : Behaviour := ⟨fun _ => .ok [], fun _ => .ok .none⟩
    let s := Session.oneTable.run x [.chain 0 (.filter (.map [(.str "n", .int 2)])), .chain 1 (.take (.int 9))]
    s.Reachable x ∧ ∃ h ∈ s.handles,
      ((h.current s.store).exchange (numbers [1, 2, 3]).behaviour .findUnique []).1 =
        .ok (.map [(.str "n", .int 2)]) := by
  intro x s
  let h : Handle := { rules := {}, state :=
    { table := "t", filter := .frozen [(.str "n", .int 2)], take := some (.int 9) } }
  have hr : s.Reachable x := (Session.oneTable_reachable x).run
    ⟨Session.Act.given_chain rfl, Session.Act.given_chain rfl, trivial⟩
  have hh : h ∈ s.handles := by
    refine List.mem_of_getElem? (i := 2) ?_
    with_unfolding_all rfl
  have hnow : h.current s.store = h := by with_unfolding_all rfl
  have hst : h.statement .findUnique =
      .ok (.select .all ⟨none, "t"⟩ [.compare "n" .eq (.int 2)] [] (some 2) none) := by
    dsimp only [h]
    rfl
  obtain ⟨columns, t, filter, order, skip, k, he, -, -, hk, -, -, -, hzero⟩ :=
    (unique_decided hr (numbers [1, 2, 3]) [] h hh).2 _ (hnow ▸ hst)
  cases he
  obtain ⟨-, rfl⟩ | hsome := hk
  · exact ⟨hr, h, hh, ((hzero rfl).2.1 _).mpr ⟨(2 : Int), rfl, rfl⟩⟩
  · cases hsome

/-- The only row that matches is passed over and not found, and of two rows the second is given as the
only one. -/
theorem unique_missed :
    let x : Behaviour := ⟨fun _ => .ok [], fun _ => .ok .none⟩
    let s := Session.oneTable.run x [.chain 0 (.skip (.int 1))]
    s.Reachable x ∧ ∃ h ∈ s.handles,
      (h.current s.store).statement .findUnique =
        .ok (.select .all ⟨none, "t"⟩ [] [] (some 2) (some 1)) ∧
      ((numbers [1]).matching ⟨none, "t"⟩ []).length = 1 ∧
      ((h.current s.store).exchange (numbers [1]).behaviour .findUnique []).1 = .ok .none ∧
      ((numbers [1, 2]).matching ⟨none, "t"⟩ []).length = 2 ∧
      ((h.current s.store).exchange (numbers [1, 2]).behaviour .findUnique []).1 =
        .ok (.map [(.str "n", .int 2)]) := by
  intro x s
  let h : Handle := { rules := {}, state := { table := "t", skip := some (.int 1) } }
  have hh : h ∈ s.handles := by
    refine List.mem_of_getElem? (i := 1) ?_
    with_unfolding_all rfl
  have hnow : h.current s.store = h := by with_unfolding_all rfl
  have hst : h.statement .findUnique = .ok (.select .all ⟨none, "t"⟩ [] [] (some 2) (some 1)) := by
    dsimp only [h]
    rfl
  refine ⟨(Session.oneTable_reachable x).run ⟨Session.Act.given_chain rfl, trivial⟩, h, hh, ?_⟩
  rw [hnow]
  exact ⟨hst, rfl, exchange_findUnique _ [] hst rfl, rfl, exchange_findUnique _ [] hst rfl⟩

end Handle
end TableQuery
