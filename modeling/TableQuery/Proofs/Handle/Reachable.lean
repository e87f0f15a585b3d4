import TableQuery.Proofs.Engine.Events
import TableQuery.Proofs.Handle.Unbuilt

/-! Every handle that there ever is, from clients of any kind and through any calls of any handles: it
is sound, so that its table is never refused and its bounds never cut anything else than rows. -/

namespace TableQuery

/-- A handle of a client has the name as its rules read it, and nothing has been asked of it. -/
theorem Client.table_eq_ok {c : Client} {name : Value} {strict qualified : Option Bool}
    {model : Option (Outcome Schema.Overlay)} {level : Logging.Level} {h : Handle}
    (hh : ((c.table name strict qualified model).start level).1 = .ok h) :
    ∃ rules trimmed m, rules.name? name = some trimmed ∧
      h = { rules, state := { table := trimmed }, model := m } := by
  obtain ⟨j, hj⟩ : ∃ j, c.table name strict qualified model level {} = (.ok h, j) := ⟨_, Prod.ext hh rfl⟩
  unfold Client.table at hj
  dsimp only at hj
  generalize (⟨strict.getD c.rules.strict, qualified.getD c.rules.qualified⟩ : Naming) = rules at hj
  cases hname : rules.name? name with
  | none =>
    rw [hname] at hj
    cases Run.ofOutcome_eq_ok hj
  | some trimmed =>
    rw [hname] at hj
    obtain ⟨_, _, -, hj⟩ := Run.bind_eq_ok hj
    cases model with
    | none =>
      cases hj
      exact ⟨rules, trimmed, none, hname, rfl⟩
    | some model =>
      obtain ⟨m, _, -, hj⟩ := Run.bind_eq_ok hj
      cases hj
      exact ⟨rules, trimmed, m, hname, rfl⟩

namespace Session

/-- A step of which the argument, if it is a chain call, is made of objects that are there. -/
def Act.Given (s : Session) : Act → Prop
  | .chain _ c => ∀ n, s.store.Holds c.argument n → n < s.store.cells.length
  | _ => True

/-- An argument without cells in it lacks nothing. -/
theorem Act.given_chain {s : Session} {i : Nat} {c : Handle.Call} (hc : c.argument.cells = []) :
    (Act.chain i c).Given s :=
  fun _ hn => absurd hn (Store.not_holds_of_cells_nil hc)

/-- What clients of any kind lead to: handles that they hand out, chain calls and terminal calls of any
of these, accepted or not, and changes that the caller makes to its own objects. -/
inductive Reachable (x : Behaviour) : Session → Prop
  | start {store : Store} (proper : store.Proper) : Reachable x { store, handles := [] }
  | opened {s : Session} {c : Client} {name : Value} {strict qualified : Option Bool}
    {model : Option (Outcome Schema.Overlay)} {level : Logging.Level} {h : Handle}
    (earlier : Reachable x s)
    (accepted : ((c.table name strict qualified model).start level).1 = .ok h) :
    Reachable x { s with handles := s.handles ++ [h] }
  | act {s : Session} {a : Act} (earlier : Reachable x s) (given : a.Given s) :
    Reachable x (s.step x a).2

/-- Such steps one after the other. -/
def GivenAll (x : Behaviour) : Session → List Act → Prop
  | _, [] => True
  | s, a :: as => a.Given s ∧ GivenAll x (s.step x a).2 as

/-- The cells are lists and mappings, the handles well formed, and the calls so far have had bounds. -/
structure Formed (s : Session) : Prop where
  store : s.store.Proper
  handles : ∀ h ∈ s.handles, h.Formed s.store
  calls : ∀ d ∈ s.calls, d.statement.Paged

variable {x : Behaviour} {s : Session}

theorem Formed.opened (hf : s.Formed) {h : Handle} (hh : h.Formed s.store) :
    Formed { s with handles := s.handles ++ [h] } where
  store := hf.store
  handles := by
    intro g hg
    rcases List.mem_append.mp hg with hg | hg
    · exact hf.handles g hg
    · cases List.mem_singleton.mp hg
      exact hh
  calls := hf.calls

theorem Formed.step (hf : s.Formed) {a : Act} (ha : a.Given s) : (s.step x a).2.Formed := by
  obtain ⟨f, he⟩ | ⟨i, c, h, h', rfl, hh, hc, he⟩ | ⟨i, t, h, rfl, hh, he⟩ |
    ⟨v, path, c, store, rfl, hc, he⟩ := step_cases x s a
  · rw [he]
    exact hf
  · rw [he]
    exact hf.opened ((hf.handles h hh).apply hf.store ha hc)
  · rw [he]
    refine { hf with calls := fun d hd => ?_ }
    rw [Handle.calls_exchange] at hd
    rcases List.mem_append.mp hd with hd | hd
    · exact hf.calls d hd
    · -- The one new call is for the statement of a sound handle.
      exact ((hf.handles h hh).sound hf.store).paged_dispatch (Option.mem_toList.mp hd)
  · rw [he]
    obtain ⟨hproper, hkeeps⟩ := hf.store.change hc
    exact { store := hproper, handles := fun h hh => (hf.handles h hh).keep hf.store hkeeps,
            calls := hf.calls }

theorem Reachable.formed (hr : s.Reachable x) : s.Formed := by
  induction hr with
  | start proper =>
    exact { store := proper, handles := fun _ hh => absurd hh List.not_mem_nil,
            calls := fun _ hd => absurd hd List.not_mem_nil }
  | opened earlier accepted ih =>
    obtain ⟨rules, trimmed, m, hname, rfl⟩ := Client.table_eq_ok accepted
    exact ih.opened (.new hname m)
  | act earlier given ih => exact ih.step given

theorem Reachable.run (hr : s.Reachable x) {as : List Act} (ha : GivenAll x s as) :
    (s.run x as).Reachable x := by
  induction as generalizing s with
  | nil => exact hr
  | cons a as ih => exact ih (hr.act ha.1) ha.2

/-- One table of a client that takes any name. -/
def oneTable : Session := { handles := [{ rules := {}, state := { table := "t" } }] }

theorem oneTable_reachable (x : Behaviour) : oneTable.Reachable x := by
  have haccepted : ((Client.table ⟨.recorder, {}⟩ (.str "t") none none none).start .debug).1 =
      .ok { rules := {}, state := { table := "t" } } := by
    with_unfolding_all rfl
  exact .opened (.start fun v hv => absurd hv List.not_mem_nil) haccepted

/-- Clients of any kind, tables of any name that is accepted, and any calls of any handles in any order,
with any arguments, accepted or refused, and any changes to what was passed: every handle there is then
has a name that is trimmed, not blank and valid under its own rules, bounds that are integers of the
right size, a projection that is not the star alone, and a filter that is kept where nobody changes it.
So no preview and no terminal call of it is ever refused as a matter of set-up, whatever the executor
answers, and whatever is written or dispatched takes its bounds from such integers. -/
theorem handles_sound (hr : s.Reachable x) :
    (∀ h ∈ s.handles,
      let now := h.current s.store
      now.Sound ∧
      (∀ e kind data dialect,
        (∀ c, Handle.preview e now kind data dialect = .error (.rejected c) → c.area ≠ .table) ∧
        ∀ r, Handle.preview e now kind data dialect = .ok r →
          ∃ k st, Query.kind? kind = some k ∧ Query.build now.rules k now.state data = .ok st ∧
            st.Paged ∧ st.render (dialect.getD e.dialect) = .ok r) ∧
      ∀ t c, (now.exchange x t s.calls).1 = .error (.rejected c) →
        (now.exchange x t s.calls).2 = s.calls ∨ x.fault? (now.exchange x t s.calls).2 = none →
          c.area ≠ .table) ∧
    ∀ d ∈ s.calls, d.statement.Paged := by
  refine ⟨fun h hh => ?_, hr.formed.calls⟩
  have hsound := (hr.formed.handles h hh).sound hr.formed.store
  refine ⟨hsound, fun e kind data dialect => ⟨fun c hc => ?_, fun r => hsound.paged_preview⟩, ?_⟩
  · rw [hsound.area_preview hc]
    decide
  · intro t c hc ho
    rcases hsound.area_exchange hc ho with ha | ha <;> rw [ha] <;> decide

/-- A table that is given with blanks around its name, a filter that the caller owns, bounds of which
one is refused, and a dispatch. -/
theorem handles_sound_users :
    let x : Behaviour := ⟨fun _ => .ok [.map []], fun _ => .ok .none⟩
    let c : Client := ⟨.recorder, {}⟩
    let opened : Handle := { rules := { strict := true }, state := { table := "users" } }
    let s : Session := ⟨⟨[.map [(.str "id", .int 1)]]⟩, [opened], []⟩
    let later := s.run x [.chain 0 (.filter (.shared 0)), .chain 1 (.skip (.int 0)),
      .chain 2 (.take (.bool true)), .terminal 2 .findFirst]
    ((c.table (.str " users ") (some true) none none).start .debug).1 = .ok opened ∧
    later.Reachable x ∧ later.handles.length = 3 ∧ later.calls.length = 1 ∧
    (∀ h ∈ later.handles, (h.current later.store).Sound ∧ h.name = "users") ∧
    ∀ d ∈ later.calls, d.statement.Paged := by
  intro x c opened s later
  have haccepted : ((c.table (.str " users ") (some true) none none).start .debug).1 = .ok opened := by
    with_unfolding_all rfl
  have hstart : s.Reachable x := by
    refine .opened (.start fun v hv => ?_) haccepted
    cases List.mem_singleton.mp hv
    rfl
  have hgiven : ∀ n, s.store.Holds (.shared 0) n → n < 1 := by
    intro n hn
    obtain ⟨m, hm, hle⟩ := hn.le_of_descending fun k m hkm => by
      have hk : k = 0 := Nat.lt_one_iff.mp hkm.lt_length
      subst hk
      cases hkm
    cases List.mem_singleton.mp hm
    omega
  have hreachable : later.Reachable x :=
    hstart.run ⟨hgiven, Act.given_chain rfl, Act.given_chain rfl, trivial, trivial⟩
  have hnames : later.handles.map (·.name) = ["users", "users", "users"] := by decide +kernel
  have hcount : later.calls.length = 1 := by decide +kernel
  obtain ⟨hhandles, hcalls⟩ := handles_sound hreachable
  refine ⟨haccepted, hreachable, ?_, hcount, fun h hh => ⟨(hhandles h hh).1, ?_⟩, hcalls⟩
  · have hlength := congrArg List.length hnames
    rwa [List.length_map] at hlength
  · have hname : h.name ∈ later.handles.map (·.name) := List.mem_map_of_mem hh
    rw [hnames] at hname
    simpa using hname

end Session
end TableQuery
