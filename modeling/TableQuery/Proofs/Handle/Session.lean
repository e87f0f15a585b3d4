import TableQuery.Proofs.Handle.Exchange
import TableQuery.Proofs.Store.Change

/-! Runs of a session: chain calls and terminal calls of any handles in it, and changes that the caller
makes to its own objects in between. -/

namespace TableQuery

/-- The caller's objects, the handles there are, and the calls of the executor so far. -/
structure Session where
  store : Store := {}
  handles : List Handle
  calls : List Dispatch := []

/-- A call of a handle by its number, or a change to what is found at the end of a path. -/
inductive Session.Act
  | chain (handle : Nat) (call : Handle.Call)
  | terminal (handle : Nat) (call : Handle.Terminal)
  | change (object : Value) (path : List Value) (change : Store.Change)

namespace Handle

/-- A call with its payload as the caller's objects are now. -/
def Terminal.resolved (s : Store) : Terminal → Terminal
  | create v => .create (s.resolve v)
  | createMany v => .createMany (s.resolve v)
  | update v => .update (s.resolve v)
  | t => t

/-- What a handle has been given, all arguments together. -/
def parts (h : Handle) : List Value := h.state.projection.getD [] ++ h.state.filter :: h.state.order

def Holds (h : Handle) (s : Store) (n : Nat) : Prop := ∃ v ∈ h.parts, s.Holds v n

def Settled (h : Handle) (s : Store) : Prop := ∀ v ∈ h.parts, s.Settled v

/-- What a call is given. -/
def Call.argument : Call → Value
  | select v | filter v | order v | skip v | take v => v

end Handle

namespace Session

/-- What a call gives, and what is there afterwards. A call that fails leaves all as it is, but for the
calls of the executor. -/
def step (x : Behaviour) (s : Session) : Act → Outcome Value × Session
  | .chain i c =>
    match s.handles[i]? with
    | none => (.error (.unknownHandle (toString i)), s)
    | some h =>
      match h.apply s.store c with
      | .ok h' => (.ok .none, { s with handles := s.handles ++ [h'] })
      | .error f => (.error f, s)
  | .terminal i t =>
    match s.handles[i]? with
    | none => (.error (.unknownHandle (toString i)), s)
    | some h =>
      let (result, calls) := (h.current s.store).exchange x (t.resolved s.store) s.calls
      (result, { s with calls })
  | .change v path c =>
    match s.store.change v path c with
    | .ok store => (.ok .none, { s with store })
    | .error f => (.error f, s)

def run (x : Behaviour) (s : Session) (steps : List Act) : Session :=
  steps.foldl (fun s t => (s.step x t).2) s

variable {x : Behaviour} {s : Session}

theorem run_cons (t : Act) (ts : List Act) : s.run x (t :: ts) = (s.step x t).2.run x ts := rfl

theorem run_append (before after : List Act) :
    s.run x (before ++ after) = (s.run x before).run x after :=
  List.foldl_append

theorem step_terminal {i : Nat} {h : Handle} (hi : s.handles[i]? = some h) (t : Handle.Terminal) :
    s.step x (.terminal i t) =
      (((h.current s.store).exchange x (t.resolved s.store) s.calls).1,
        { s with calls := ((h.current s.store).exchange x (t.resolved s.store) s.calls).2 }) := by
  rw [step, hi]

/-- All that a step can do. -/
theorem step_cases (x : Behaviour) (s : Session) (t : Act) :
    (∃ f, s.step x t = (.error f, s)) ∨
    (∃ i c h h', t = .chain i c ∧ h ∈ s.handles ∧ h.apply s.store c = .ok h' ∧
      s.step x t = (.ok .none, { s with handles := s.handles ++ [h'] })) ∨
    (∃ i c h, t = .terminal i c ∧ h ∈ s.handles ∧
      s.step x t = (((h.current s.store).exchange x (c.resolved s.store) s.calls).1,
        { s with calls := ((h.current s.store).exchange x (c.resolved s.store) s.calls).2 })) ∨
    ∃ v path c store, t = .change v path c ∧ s.store.change v path c = .ok store ∧
      s.step x t = (.ok .none, { s with store }) := by
  cases t with
  | chain i c =>
    rw [step]
    split
    · exact .inl ⟨_, rfl⟩
    · rename_i h hi
      split
      · rename_i h' hc
        exact .inr (.inl ⟨i, c, h, h', rfl, List.mem_of_getElem? hi, hc, rfl⟩)
      · exact .inl ⟨_, rfl⟩
  | terminal i c =>
    cases hi : s.handles[i]? with
    | none =>
      rw [step, hi]
      exact .inl ⟨_, rfl⟩
    | some h => exact .inr (.inr (.inl ⟨i, c, h, rfl, List.mem_of_getElem? hi, step_terminal hi c⟩))
  | change v path c =>
    rw [step]
    split
    · rename_i store hc
      exact .inr (.inr (.inr ⟨v, path, c, store, rfl, hc, rfl⟩))
    · exact .inl ⟨_, rfl⟩

/-- Handles stay. -/
theorem handles_prefix_step (x : Behaviour) (s : Session) (t : Act) :
    s.handles <+: (s.step x t).2.handles := by
  obtain ⟨f, he⟩ | ⟨i, c, h, h', -, -, -, he⟩ | ⟨i, c, h, -, -, he⟩ | ⟨v, path, c, store, -, -, he⟩ :=
    step_cases x s t
  · exact he ▸ List.prefix_rfl
  · exact he ▸ List.prefix_append _ _
  · exact he ▸ List.prefix_rfl
  · exact he ▸ List.prefix_rfl

theorem handles_prefix_run (x : Behaviour) (s : Session) (ts : List Act) :
    s.handles <+: (s.run x ts).handles := by
  induction ts generalizing s with
  | nil => exact List.prefix_rfl
  | cons t ts ih => exact (handles_prefix_step x s t).trans (ih _)

/-- Whatever the executor was called for, it was called for by a terminal call of a handle. -/
theorem mem_calls_run {d : Dispatch} {as : List Act} (hd : d ∈ (s.run x as).calls) :
    d ∈ s.calls ∨ ∃ before i t after h, as = before ++ .terminal i t :: after ∧
      h ∈ (s.run x before).handles ∧ (h.current (s.run x before).store).dispatch?
        (t.resolved (s.run x before).store) = some d := by
  induction as generalizing s with
  | nil => exact .inl hd
  | cons a as ih =>
    rw [run_cons] at hd
    rcases ih hd with hd | ⟨before, i, t, after, h, rfl, hh, hdispatch⟩
    · obtain ⟨f, he⟩ | ⟨i, c, h, h', -, -, -, he⟩ | ⟨i, t, h, rfl, hh, he⟩ |
        ⟨v, path, c, store, -, -, he⟩ := step_cases x s a
      · rw [he] at hd
        exact .inl hd
      · rw [he] at hd
        exact .inl hd
      · rw [he, Handle.calls_exchange] at hd
        refine (List.mem_append.mp hd).imp id fun hd => ?_
        exact ⟨[], i, t, as, h, rfl, hh, Option.mem_toList.mp hd⟩
      · rw [he] at hd
        exact .inl hd
    · exact .inr ⟨a :: before, i, t, after, h, rfl, hh, hdispatch⟩

end Session

namespace Handle

variable {h : Handle} {s s' : Store}

theorem Settled.congr (hs : h.Settled s) (hl : s.cells.length ≤ s'.cells.length)
    (ha : ∀ n, h.Holds s n → s'.cell n = s.cell n) : h.Settled s' :=
  fun v hv => (hs v hv).congr hl fun n hn => ha n ⟨v, hv, hn⟩

theorem holds_congr (ha : ∀ n, h.Holds s n → s'.cell n = s.cell n) {n : Nat} :
    h.Holds s' n ↔ h.Holds s n :=
  exists_congr fun v => and_congr_right fun hv => Store.holds_congr fun n hn => ha n ⟨v, hv, hn⟩

/-- A handle reads the same in every store that has grown around its cells. -/
theorem current_eq_of_agree (hs : h.Settled s) (hl : s.cells.length ≤ s'.cells.length)
    (ha : ∀ n, h.Holds s n → s'.cell n = s.cell n) : h.current s' = h.current s := by
  have hpart : ∀ v ∈ h.parts, s'.resolve v = s.resolve v := fun v hv =>
    Store.resolve_eq_of_agree (hs v hv) hl fun n hn => ha n ⟨v, hv, hn⟩
  have hfilter := hpart h.state.filter (by simp [parts])
  have horder : h.state.order.map s'.resolve = h.state.order.map s.resolve :=
    List.map_congr_left fun v hv => hpart v (by simp [parts, hv])
  have hprojection : (h.state.projection.map fun ps => ps.map s'.resolve) =
      h.state.projection.map fun ps => ps.map s.resolve := by
    cases hp : h.state.projection with
    | none => rfl
    | some ps =>
      exact congrArg some (List.map_congr_left fun v hv => hpart v (by simp [parts, hp, hv]))
  rw [current, current, hfilter, horder, hprojection]

end Handle
end TableQuery
