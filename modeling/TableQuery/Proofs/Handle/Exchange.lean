import TableQuery.Handle.Table
import TableQuery.Proofs.Query.Refusals

/-! What passes between a handle and whoever runs its statements: a terminal call dispatches one
statement or none, and what it gives is made of the answer alone. -/

namespace TableQuery

/-- One call of an executor: the statement, and whether a single value is asked for or rows. -/
structure Dispatch where
  scalar : Bool
  statement : Statement
  telemetry : Value

/-- Where statements are run, inside any kind of computation. -/
structure Service (m : Type → Type) where
  rows : Statement → Value → m (List Value)
  scalar : Statement → Value → m Value

/-- An executor in front of a database that answers. -/
def Executor.service (e : Executor) (answer : Answer) : Service Run where
  rows s telemetry := e.fetchAll s telemetry answer
  scalar s telemetry := e.fetchScalar s telemetry answer

/-- An executor of which nothing is known. What it answers, or fails with, may depend on all that it
has ever been asked; the present call is the last one. -/
structure Behaviour where
  rows : List Dispatch → Outcome (List Value)
  scalar : List Dispatch → Outcome Value

/-- A computation that keeps the calls of the executor, however it ends. -/
abbrev Exchange := ExceptT Fault (StateM (List Dispatch))

theorem Run.ofOutcome_map {α β : Type} (f : α → β) (o : Outcome α) :
    Run.ofOutcome (f <$> o) = Run.ofOutcome o >>= fun a => pure (f a) := by
  cases o with
  | ok a => rfl
  | error e =>
    cases e with
    | rejected c =>
      change (Run.log (Run.rejectionEntry c) >>= fun _ => throw (.rejected c) : Run β) =
        (Run.log (Run.rejectionEntry c) >>= fun _ => throw (.rejected c) : Run α) >>= _
      rw [bind_assoc]
      rfl
    | _ => rfl

namespace Exchange

variable {α β : Type}

def ofOutcome (o : Outcome α) : Exchange α := fun calls => (o, calls)

theorem bind_apply (r : Exchange α) (k : α → Exchange β) (calls : List Dispatch) :
    (r >>= k) calls = match r calls with
      | (.ok a, calls) => k a calls
      | (.error f, calls) => (.error f, calls) := by
  simp only [Bind.bind, ExceptT.bind, ExceptT.mk, StateT.bind, Id]
  cases r calls with
  | mk o calls => cases o <;> rfl

/-- What is only worked out from a result makes no calls. -/
theorem bind_ofOutcome {r : Exchange α} {calls calls' : List Dispatch} {o : Outcome α}
    (hr : r calls = (o, calls')) (k : α → Outcome β) :
    (r >>= fun a => ofOutcome (k a)) calls = (o >>= k, calls') := by
  rw [bind_apply, hr]
  cases o <;> rfl

end Exchange

namespace Behaviour

def service (x : Behaviour) : Service Exchange where
  rows s telemetry := fun calls =>
    let calls := calls ++ [⟨false, s, telemetry⟩]
    (x.rows calls, calls)
  scalar s telemetry := fun calls =>
    let calls := calls ++ [⟨true, s, telemetry⟩]
    (x.scalar calls, calls)

/-- The fault that the executor has answered the last of these calls with. -/
def fault? (x : Behaviour) (calls : List Dispatch) : Option Fault :=
  let failure {α : Type} : Outcome α → Option Fault
    | .error f => some f
    | .ok _ => none
  match calls.getLast? with
  | some d => if d.scalar then failure (x.scalar calls) else failure (x.rows calls)
  | none => none

end Behaviour

namespace Handle

/-- The data that a call is given. -/
def Terminal.payload : Terminal → Value
  | create v | createMany v | update v => v
  | _ => .none

/-- Without a model, payloads are taken as they are. -/
theorem data_of_table (t : Terminal) : data none t = .ok t.payload := by
  cases t <;> rfl

/-- What a call makes of the rows that it gets. -/
def finish (h : Handle) : Terminal → List Value → Outcome Value
  | .findFirst, rows => .ok (first rows)
  | .findUnique, rows =>
    if 1 < rows.length then reject (.notUnique (.str h.name)) else .ok (first rows)
  | .create _, rows =>
    if rows.isEmpty then reject (.insertReturnedEmpty (.str h.name)) else .ok (first rows)
  | _, rows => .ok (.list rows)

/-- A terminal call over any service. -/
def conduct {m : Type → Type} [Monad m] (lift : {α : Type} → Outcome α → m α)
    (log : Logging.Entry → m Unit) (service : Service m) (h : Handle) (t : Terminal) :
    m Value := do
  let s ← lift (h.statement t)
  match t with
  | .count =>
    let v ← service.scalar s (.map (h.telemetry .count))
    lift (.int <$> toCount v)
  | t => do
    log { level := .debug, logger := "chainsql.api.table", message := "Dispatching query",
          extra := h.telemetry t.kind }
    let rows ← service.rows s (.map (h.telemetry t.kind))
    lift (h.finish t rows)

/-- The calls that are made are conducted over the executor's own service. -/
theorem perform_eq_conduct (e : Executor) (h : Handle) (t : Terminal) (answer : Answer) :
    perform e h t answer = conduct Run.ofOutcome Run.log (e.service answer) h t := by
  have hrows : ∀ {k : List Value → Run Value}, rows e h t answer >>= k =
      Run.ofOutcome (h.statement t) >>= fun s =>
        Run.log { level := .debug, logger := "chainsql.api.table", message := "Dispatching query",
                  extra := h.telemetry t.kind } >>= fun _ =>
          e.fetchAll s (.map (h.telemetry t.kind)) answer >>= k := by
    intro k
    simp only [rows, bind_assoc]
  cases t with
  | count =>
    exact bind_congr fun s => bind_congr fun v => (Run.ofOutcome_map Value.int (toCount v)).symm
  | findUnique =>
    refine hrows.trans (bind_congr fun s => bind_congr fun _ => bind_congr fun found => ?_)
    dsimp only [finish]
    split <;> rfl
  | create data =>
    refine hrows.trans (bind_congr fun s => bind_congr fun _ => bind_congr fun stored => ?_)
    dsimp only [finish]
    split <;> rfl
  | findMany => exact hrows
  | findFirst => exact hrows
  | createMany data => exact hrows
  | update data => exact hrows
  | delete => exact hrows

/-- A terminal call to an executor of which nothing is known, after other calls of it. -/
def exchange (x : Behaviour) (h : Handle) (t : Terminal) :
    List Dispatch → Outcome Value × List Dispatch :=
  conduct (m := Exchange) Exchange.ofOutcome (fun _ => pure ()) x.service h t

/-- Terminal calls of one handle, one after the other, whatever each of them ends in. -/
def exchangeAll (x : Behaviour) (h : Handle) (ts : List Terminal) (calls : List Dispatch) :
    List Dispatch :=
  ts.foldl (fun calls t => (h.exchange x t calls).2) calls

/-- The one call of the executor that a terminal call stands for, if its statement can be built. -/
def dispatch? (h : Handle) (t : Terminal) : Option Dispatch :=
  (h.statement t).toOption.map fun s =>
    ⟨decide (t.kind = .count), s, .map (h.telemetry t.kind)⟩

/-- What becomes of the answer to the last of these calls. -/
def conclude (x : Behaviour) (h : Handle) (t : Terminal) (calls : List Dispatch) : Outcome Value :=
  if t.kind = .count then x.scalar calls >>= fun v => .int <$> toCount v
  else x.rows calls >>= h.finish t

variable {h : Handle} {t : Terminal}

/-- A statement that cannot be built is no reason to call anyone. -/
theorem exchange_of_error (x : Behaviour) (calls : List Dispatch) {f : Fault}
    (hs : h.statement t = .error f) : h.exchange x t calls = (.error f, calls) := by
  unfold exchange conduct
  rw [hs]
  rfl

theorem dispatch?_of_error {f : Fault} (hs : h.statement t = .error f) : h.dispatch? t = none := by
  rw [dispatch?, hs]
  rfl

theorem dispatch?_of_ok {s : Statement} (hs : h.statement t = .ok s) : h.dispatch? t =
    some ⟨decide (t.kind = .count), s, .map (h.telemetry t.kind)⟩ := by
  rw [dispatch?, hs]
  rfl

/-- Otherwise there is one call, and its answer decides. -/
theorem exchange_of_dispatch (x : Behaviour) (calls : List Dispatch) {d : Dispatch}
    (hd : h.dispatch? t = some d) :
    h.exchange x t calls = (h.conclude x t (calls ++ [d]), calls ++ [d]) := by
  cases hs : h.statement t with
  | error f => rw [dispatch?_of_error hs] at hd; cases hd
  | ok s =>
    rw [dispatch?_of_ok hs] at hd
    cases hd
    unfold exchange conduct
    rw [hs, Exchange.bind_apply]
    cases t with
    | count => exact Exchange.bind_ofOutcome rfl _
    | _ => exact (Exchange.bind_apply _ _ _).trans (Exchange.bind_ofOutcome rfl _)

/-- The executor is called for what a call stands for, and for nothing else. -/
theorem calls_exchange (x : Behaviour) (h : Handle) (t : Terminal) (calls : List Dispatch) :
    (h.exchange x t calls).2 = calls ++ (h.dispatch? t).toList := by
  cases hs : h.statement t with
  | error f => rw [exchange_of_error x calls hs, dispatch?_of_error hs, Option.toList_none, List.append_nil]
  | ok s => rw [exchange_of_dispatch x calls (dispatch?_of_ok hs), dispatch?_of_ok hs, Option.toList_some]

/-- Calls leave the handle as it is: each of them dispatches what it would have dispatched first. -/
theorem exchangeAll_eq (x : Behaviour) (h : Handle) (ts : List Terminal) (calls : List Dispatch) :
    h.exchangeAll x ts calls = calls ++ ts.filterMap h.dispatch? := by
  induction ts generalizing calls with
  | nil => exact (List.append_nil calls).symm
  | cons t ts ih =>
    change h.exchangeAll x ts (h.exchange x t calls).2 = _
    rw [ih, calls_exchange, List.append_assoc]
    cases hd : h.dispatch? t with
    | none => rw [List.filterMap_cons_none hd, Option.toList_none, List.nil_append]
    | some d => rw [List.filterMap_cons_some hd, Option.toList_some, List.singleton_append]

/-- Counting never ends in a refusal. -/
theorem fails_toCount (v : Value) : Outcome.Fails (fun f => f.isRefusal = false) (toCount v) := by
  unfold toCount
  split
  · exact v.fails_toInteger
  · exact .ok _

/-- A call ends in the fault of the executor, in a count, or in what its rows come to. -/
theorem conclude_cases {d : Dispatch} (x : Behaviour) (calls : List Dispatch)
    (hd : h.dispatch? t = some d) :
    (∃ f, x.fault? (calls ++ [d]) = some f ∧ h.conclude x t (calls ++ [d]) = .error f) ∨
    x.fault? (calls ++ [d]) = none ∧
      ((∃ v, h.conclude x t (calls ++ [d]) = .int <$> toCount v) ∨
        ∃ rows, x.rows (calls ++ [d]) = .ok rows ∧
          h.conclude x t (calls ++ [d]) = h.finish t rows) := by
  obtain ⟨s, -, rfl⟩ := Option.map_eq_some_iff.mp hd
  by_cases ht : t.kind = .count
  · simp only [conclude, Behaviour.fault?, List.getLast?_concat, ht, decide_true, if_true]
    cases x.scalar (calls ++ [⟨true, s, .map (h.telemetry .count)⟩]) with
    | error f => exact .inl ⟨f, rfl, rfl⟩
    | ok v => exact .inr ⟨rfl, .inl ⟨v, rfl⟩⟩
  · simp only [conclude, Behaviour.fault?, List.getLast?_concat, ht, decide_false, if_false]
    cases x.rows (calls ++ [⟨false, s, .map (h.telemetry t.kind)⟩]) with
    | error f => exact .inl ⟨f, rfl, rfl⟩
    | ok rows => exact .inr ⟨rfl, .inr ⟨rows, rfl, rfl⟩⟩

theorem finish_rejected {rows : List Value} {c : Rejection}
    (hc : h.finish t rows = .error (.rejected c)) :
    (t = .findUnique ∧ c = .notUnique (.str h.name) ∧ 1 < rows.length) ∨
    ((∃ v, t = .create v) ∧ c = .insertReturnedEmpty (.str h.name) ∧ rows = []) := by
  cases t with
  | findUnique =>
    simp only [finish] at hc
    split at hc
    · rename_i hlen
      cases hc
      exact .inl ⟨rfl, rfl, hlen⟩
    · cases hc
  | create v =>
    simp only [finish] at hc
    split at hc
    · rename_i hempty
      cases hc
      exact .inr ⟨⟨v, rfl⟩, rfl, List.isEmpty_iff.mp hempty⟩
    · cases hc
  | _ => cases hc

/-- A refusal that is not the executor's was found before it was called, or in the rows that it
answered with. -/
theorem exchange_rejected (x : Behaviour) (earlier : List Dispatch) {c : Rejection}
    (hc : (h.exchange x t earlier).1 = .error (.rejected c))
    (ho : (h.exchange x t earlier).2 = earlier ∨ x.fault? (h.exchange x t earlier).2 = none) :
    (h.statement t = .error (.rejected c) ∧ (h.exchange x t earlier).2 = earlier) ∨
    ∃ d rows, (h.exchange x t earlier).2 = earlier ++ [d] ∧
      x.rows (h.exchange x t earlier).2 = .ok rows ∧ h.finish t rows = .error (.rejected c) := by
  cases hs : h.statement t with
  | error f =>
    rw [exchange_of_error x earlier hs] at hc ⊢
    cases hc
    exact .inl ⟨rfl, rfl⟩
  | ok s =>
    have hd := dispatch?_of_ok hs
    rw [exchange_of_dispatch x earlier hd] at hc ho ⊢
    have hnone := ho.resolve_left (by simp)
    rcases conclude_cases x earlier hd with ⟨f, hf, -⟩ | ⟨-, ⟨v, he⟩ | ⟨rows, hrows, he⟩⟩
    · cases hnone.symm.trans hf
    · cases (fails_toCount v).map _ (he.symm.trans hc)
    · exact .inr ⟨_, rows, rfl, hrows, he.symm.trans hc⟩

/-- The state that a terminal call asks with: the handle's own, but for the bounds of the two calls that
cap it. -/
def askedState (h : Handle) (t : Terminal) : State :=
  { h.state with take := match t with
    | .findFirst => some (.int 1)
    | .findUnique => some (.int 2)
    | _ => h.state.take }

/-- Where a refusal comes from that ends a call with these calls of the executor behind it. -/
structure Origin (x : Behaviour) (t : Terminal) (earlier calls : List Dispatch) (c : Rejection) :
    Prop where
  unasked : c.code ≠ .code .notUnique → c.code ≠ .code .insertReturnedEmpty → calls = earlier
  notUnique : c.code = .code .notUnique → t = .findUnique ∧
    ∃ d rows, calls = earlier ++ [d] ∧ x.rows calls = .ok rows ∧ 2 ≤ rows.length
  returnedEmpty : c.code = .code .insertReturnedEmpty → ∃ v d, t = .create v ∧
    calls = earlier ++ [d] ∧ x.rows calls = .ok []

/-- What a terminal call of a table does, of an executor that has been called before. -/
structure Conducts (x : Behaviour) (h : Handle) (t : Terminal) (earlier : List Dispatch) : Prop where
  /-- The calls that are made of an executor are these. -/
  performed : ∀ e answer, perform e h t answer = conduct Run.ofOutcome Run.log (e.service answer) h t
  unbuilt : ∀ f, Query.build h.rules t.kind (h.askedState t) t.payload = .error f →
    (h.exchange x t earlier).1 = .error f ∧ (h.exchange x t earlier).2 = earlier
  once : ∀ s, Query.build h.rules t.kind (h.askedState t) t.payload = .ok s →
    ∃ telemetry, (h.exchange x t earlier).2 =
      earlier ++ [⟨decide (t.kind = .count), s, telemetry⟩]
  failed : ∀ s f, Query.build h.rules t.kind (h.askedState t) t.payload = .ok s →
    x.fault? (h.exchange x t earlier).2 = some f → (h.exchange x t earlier).1 = .error f
  refused : ∀ c, (h.exchange x t earlier).1 = .error (.rejected c) →
    (h.exchange x t earlier).2 = earlier ∨ x.fault? (h.exchange x t earlier).2 = none →
      Origin x t earlier (h.exchange x t earlier).2 c
  again : ∀ ts, h.exchangeAll x ts earlier = earlier ++ ts.filterMap h.dispatch?

/-- Whoever runs the statements, and whatever it answers: a terminal call of a table that cannot be
built is the end of it, and any other asks once, for the statement of its kind under the handle's own
state but for the bounds of the two that cap it. A fault of the executor goes through; a refusal that is
not the executor's was found before it was called, or in the rows of that one call. Calls leave the
handle as it is, so that the same calls dispatch the same statements. -/
theorem one_dispatch_or_none (x : Behaviour) {h : Handle} (hm : h.model = none) (t : Terminal)
    (earlier : List Dispatch) : Conducts x h t earlier := by
  have hst : h.statement t = Query.build h.rules t.kind (h.askedState t) t.payload := by
    rw [statement, hm, data_of_table]
    cases t <;> rfl
  constructor
  case performed => exact fun e answer => perform_eq_conduct e h t answer
  case unbuilt =>
    intro f hf
    rw [exchange_of_error x earlier (hst.trans hf)]
    exact ⟨rfl, rfl⟩
  case once =>
    intro s hs
    rw [exchange_of_dispatch x earlier (dispatch?_of_ok (hst.trans hs))]
    exact ⟨_, rfl⟩
  case failed =>
    intro s f hs hf
    have hd := dispatch?_of_ok (hst.trans hs)
    rw [exchange_of_dispatch x earlier hd] at hf ⊢
    rcases conclude_cases x earlier hd with ⟨g, hg, he⟩ | ⟨hg, -⟩
    · cases hf.symm.trans hg
      exact he
    · cases hf.symm.trans hg
  case refused =>
    intro c hc horigin
    obtain ⟨hs, hcalls⟩ | ⟨d, rows, hcalls, hrows, hf⟩ := exchange_rejected x earlier hc horigin
    · -- Nothing has been asked yet, and no cause within a query has one of the two codes.
      have hcode := (Query.refuses_build h.rules _ t.payload t.kind c (hst.symm.trans hs)).code
      exact ⟨fun _ _ => hcalls, fun h => absurd h hcode.1, fun h => absurd h hcode.2⟩
    · rcases finish_rejected hf with ⟨rfl, rfl, hlen⟩ | ⟨⟨v, rfl⟩, rfl, rfl⟩
      · exact ⟨fun h => absurd rfl h, fun _ => ⟨rfl, d, rows, hcalls, hrows, hlen⟩, nofun⟩
      · exact ⟨fun _ h => absurd rfl h, nofun, fun _ => ⟨v, d, rfl, hcalls, hrows⟩⟩
  case again => exact fun ts => exchangeAll_eq x h ts earlier

/-- Two rows where one is asked for, and what the executor was called with for them. -/
theorem one_dispatch_or_none_twoRows :
    let h : Handle := { rules := {}, state := { table := "users", take := some (.int 5) } }
    let x : Behaviour := ⟨fun _ => .ok [.map [], .map []], fun _ => .ok .none⟩
    h.model = none ∧
    (h.exchange x .findUnique []).1 = .error (.rejected (.notUnique (.str "users"))) ∧
    (∃ telemetry, (h.exchange x .findUnique []).2 =
      [⟨false, .select .all ⟨none, "users"⟩ [] [] (some 2) none, telemetry⟩]) ∧
    ∃ d rows, (h.exchange x .findUnique []).2 = [d] ∧
      x.rows (h.exchange x .findUnique []).2 = .ok rows ∧ 2 ≤ rows.length := by
  intro h x
  have hb : Query.build {} .select { h.state with take := some (.int 2) } .none =
      .ok (.select .all ⟨none, "users"⟩ [] [] (some 2) none) := by
    dsimp only [h]
    rfl
  have hconducts := one_dispatch_or_none x (h := h) rfl .findUnique []
  obtain ⟨telemetry, hcalls⟩ := hconducts.once _ hb
  have hfault : x.fault? (h.exchange x .findUnique []).2 = none := by
    rw [hcalls]
    rfl
  have hresult : (h.exchange x .findUnique []).1 = .error (.rejected (.notUnique (.str "users"))) := by
    rw [exchange_of_dispatch x [] (dispatch?_of_ok (h := h) (t := .findUnique) hb)]
    rfl
  have horigin := hconducts.refused _ hresult (.inr hfault)
  exact ⟨rfl, hresult, ⟨telemetry, hcalls⟩, (horigin.notUnique rfl).2⟩

end Handle
end TableQuery
