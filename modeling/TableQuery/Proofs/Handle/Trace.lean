import TableQuery.Proofs.Engine.Trace
import TableQuery.Proofs.Handle.Exchange

/-! Terminal calls over an engine, one after the other: its events are one transaction for each
statement that was dispatched, and nothing else. -/

namespace TableQuery
namespace Handle

/-- A terminal call of a handle, and what the database answers if it is asked. -/
structure Turn where
  handle : Handle
  call : Terminal
  answer : Answer

/-- Calls one after the other, whatever each of them ends in. -/
def performAll (e : Executor) : List Turn → Run (List (Outcome Value))
  | [] => pure []
  | u :: us => do
    let result ← (u.handle.perform e u.call u.answer).attempt
    let results ← performAll e us
    pure (result :: results)

namespace Turn

/-- What a call makes of an answer without a fault: a count, or what its rows come to. -/
def outcome (u : Turn) : Outcome Value :=
  if u.call.kind = .count then .int <$> toCount u.answer.scalar
  else u.handle.finish u.call (u.answer.rows.map Value.asDict)

/-- The events of a call, and what it ends in: nothing happens where it is refused; otherwise its
statement is executed in a transaction, which is committed with the answer of the database, or rolled
back with its fault. -/
inductive Leaves (d : Dialect) (u : Turn) : List Event → Outcome Value → Prop
  | refused {f : Fault} (unbuilt : u.handle.statement u.call = .error f) : Leaves d u [] (.error f)
  | committed {s : Statement} {r : Rendered} (built : u.handle.statement u.call = .ok s)
    (written : s.render d = .ok r) (answered : u.answer.failure = none) :
    Leaves d u [.begin, .execute r, .commit] u.outcome
  | rolledBack {s : Statement} {r : Rendered} {f : Fault}
    (built : u.handle.statement u.call = .ok s) (written : s.render d = .ok r)
    (raised : u.answer.failure = some f) : Leaves d u [.begin, .execute r, .rollback] (.error f)

variable {d : Dialect} {u : Turn}

theorem exists_leaves
    (hwritten : ∀ s, u.handle.statement u.call = .ok s → ∃ r, s.render d = .ok r) :
    ∃ es o, u.Leaves d es o := by
  cases hs : u.handle.statement u.call with
  | error f => exact ⟨_, _, .refused hs⟩
  | ok s =>
    obtain ⟨r, hr⟩ := hwritten s hs
    cases hf : u.answer.failure with
    | none => exact ⟨_, _, .committed hs hr hf⟩
    | some f => exact ⟨_, _, .rolledBack hs hr hf⟩

/-- What a call leaves is settled by its statement and the answer. -/
theorem Leaves.unique {es es' : List Event} {o o' : Outcome Value} (h : u.Leaves d es o)
    (h' : u.Leaves d es' o') : (es, o) = (es', o') := by
  cases h with
  | refused unbuilt =>
    cases h' with
    | refused unbuilt' => cases unbuilt.symm.trans unbuilt'; rfl
    | committed built' => cases unbuilt.symm.trans built'
    | rolledBack built' => cases unbuilt.symm.trans built'
  | committed built written answered =>
    cases h' with
    | refused unbuilt' => cases built.symm.trans unbuilt'
    | committed built' written' =>
      cases built.symm.trans built'
      cases written.symm.trans written'
      rfl
    | rolledBack _ _ raised' => cases answered.symm.trans raised'
  | rolledBack built written raised =>
    cases h' with
    | refused unbuilt' => cases built.symm.trans unbuilt'
    | committed _ _ answered' => cases raised.symm.trans answered'
    | rolledBack built' written' raised' =>
      cases built.symm.trans built'
      cases written.symm.trans written'
      cases raised.symm.trans raised'
      rfl

/-- No attribute of a log record is overwritten by what a call says of itself. -/
theorem clash?_telemetry (h : Handle) (k : StatementKind) : Logging.clash? (h.telemetry k) = none := rfl

/-- A call does just that. -/
theorem Leaves.perform (hrows : ∀ row ∈ u.answer.rows, row.IsRecord) {es : List Event}
    {o : Outcome Value} (hl : u.Leaves d es o) :
    (u.handle.perform (.engine d) u.call u.answer).Leaves es o := by
  rw [perform_eq_conduct]
  obtain ⟨h, t, answer⟩ := u
  have ht : ∀ k, Logging.clash? (h.telemetry k) = none := clash?_telemetry h
  unfold conduct
  cases hl with
  | refused unbuilt =>
    dsimp only at unbuilt
    rw [unbuilt]
    exact (Run.Leaves.ofOutcome (.error _)).bind_error
  | @committed s r built written answered =>
    -- Everything but the transaction leaves nothing: the entry before it and what is made of the answer.
    dsimp only at built answered hrows
    rw [built]
    refine (Run.Leaves.ofOutcome (.ok s)).after ?_
    have hscalar := Executor.leaves_fetchScalar (ht t.kind) written answered
    have hfetched := Executor.leaves_fetchAll (ht t.kind) written hrows answered
    cases t with
    | count => exact hscalar.andThen (.ofOutcome _)
    | _ => exact (Run.Leaves.log (ht _)).after (hfetched.andThen (.ofOutcome _))
  | @rolledBack s r f built written raised =>
    dsimp only at built raised
    rw [built]
    refine (Run.Leaves.ofOutcome (.ok s)).after ?_
    obtain ⟨hrows, hscalar⟩ := Executor.leaves_failure (ht t.kind) written raised
    cases t with
    | count => exact hscalar.bind_error
    | _ => exact (Run.Leaves.log (ht _)).after hrows.bind_error

end Turn

theorem leaves_performAll {d : Dialect} {us : List Turn} {left : List (List Event × Outcome Value)}
    (hrows : ∀ u ∈ us, ∀ row ∈ u.answer.rows, row.IsRecord)
    (hl : List.Forall₂ (fun u l => u.Leaves d l.1 l.2) us left) :
    (performAll (.engine d) us).Leaves (left.map Prod.fst).flatten (.ok (left.map Prod.snd)) := by
  induction hl with
  | nil => exact .pure _
  | @cons u l us left hu _ ih =>
    -- Whatever the first call ends in, the others follow it.
    have hfirst := hu.perform (hrows u List.mem_cons_self)
    have hrest := ih fun v hv => hrows v (List.mem_cons_of_mem u hv)
    exact hfirst.attempt.bind (hrest.andThen (.pure _))

/-- Terminal calls of any handles over an engine, in any order, where every statement that is dispatched
can be written in its dialect, with faults of the database wherever they come: the events of the engine
are those of the calls, in their order, and nothing else. A call that is refused while it is built has
none; any other has a transaction around its statement, committed where the database has answered, with
the rows as plain mappings in their order or the single value, and rolled back where it has not, with
the fault as what the call ends in. -/
theorem transactions_traced (d : Dialect) (us : List Turn)
    (hwritten : ∀ u ∈ us, ∀ s, u.handle.statement u.call = .ok s → ∃ r, s.render d = .ok r)
    (hrows : ∀ u ∈ us, ∀ row ∈ u.answer.rows, row.IsRecord) :
    (∃ left : List (List Event × Outcome Value),
      List.Forall₂ (fun u l => u.Leaves d l.1 l.2) us left ∧
      (performAll (.engine d) us).Leaves (left.map Prod.fst).flatten (.ok (left.map Prod.snd))) ∧
    ∀ u ∈ us, ∀ s r, u.handle.statement u.call = .ok s → s.render d = .ok r →
      let telemetry := Value.map (u.handle.telemetry u.call.kind)
      let rows := (Executor.engine d).fetchAll s telemetry u.answer
      let scalar := (Executor.engine d).fetchScalar s telemetry u.answer
      (u.answer.failure = none →
        rows.Leaves [.begin, .execute r, .commit] (.ok (u.answer.rows.map Value.asDict)) ∧
        scalar.Leaves [.begin, .execute r, .commit] (.ok u.answer.scalar)) ∧
      ∀ f, u.answer.failure = some f →
        rows.Leaves [.begin, .execute r, .rollback] (.error f) ∧
        scalar.Leaves [.begin, .execute r, .rollback] (.error f) := by
  constructor
  · have hleft : ∃ left : List (List Event × Outcome Value),
        List.Forall₂ (fun u l => u.Leaves d l.1 l.2) us left := by
      clear hrows
      induction us with
      | nil => exact ⟨[], .nil⟩
      | cons u us ih =>
        obtain ⟨es, o, hu⟩ := Turn.exists_leaves (hwritten u List.mem_cons_self)
        obtain ⟨left, hleft⟩ := ih fun v hv => hwritten v (List.mem_cons_of_mem u hv)
        exact ⟨(es, o) :: left, .cons hu hleft⟩
    obtain ⟨left, hleft⟩ := hleft
    exact ⟨left, hleft, leaves_performAll hrows hleft⟩
  · intro u hu s r _ hr telemetry rows scalar
    have ht := Turn.clash?_telemetry u.handle u.call.kind
    refine ⟨fun hf => ⟨?_, ?_⟩, fun f hf => Executor.leaves_failure ht hr hf⟩
    · exact Executor.leaves_fetchAll ht hr (hrows u hu) hf
    · exact Executor.leaves_fetchScalar ht hr hf

/-- Two rows where one is looked for, which is found out after they were committed; a removal without a
filter; and a count on which the database fails. -/
theorem transactions_traced_three :
    let h : Handle := { rules := {}, state := { table := "t" } }
    let row (n : Int) : Value := .map [(.str "id", .int n)]
    let us : List Turn := [⟨h, .findUnique, { rows := [row 1, row 2] }⟩, ⟨h, .delete, {}⟩,
      ⟨h, .count, { failure := some (.raised "OperationalError" "disk is full") }⟩]
    (∀ u ∈ us, ∀ s, u.handle.statement u.call = .ok s → ∃ r, s.render .sqlite = .ok r) ∧
    (∀ u ∈ us, ∀ row ∈ u.answer.rows, row.IsRecord) ∧
    ∃ r r', (performAll (.engine .sqlite) us).Leaves
        [.begin, .execute r, .commit, .begin, .execute r', .rollback]
        (.ok [.error (.rejected (.notUnique (.str "t"))),
          .error (.rejected (.missingWhere (.str "delete"))),
          .error (.raised "OperationalError" "disk is full")]) ∧
      r.sql = "SELECT * \nFROM \"t\"\n LIMIT ? OFFSET ?" ∧
      r'.sql = "SELECT count(*) AS count \nFROM \"t\"" := by
  intro h row us
  let select : Statement := .select .all ⟨none, "t"⟩ [] [] (some 2) none
  let count : Statement := .count ⟨none, "t"⟩ []
  have hselect : h.statement .findUnique = .ok select := by
    dsimp only [h]
    rfl
  have hdelete : h.statement .delete = .error (.rejected (.missingWhere (.str "delete"))) := rfl
  have hcount : h.statement .count = .ok count := by
    dsimp only [h]
    rfl
  obtain ⟨r, hr, hsql⟩ := Outcome.exists_of_isOk (x := select.render .sqlite)
    (p := fun r => r.sql = "SELECT * \nFROM \"t\"\n LIMIT ? OFFSET ?") (by decide +kernel)
  obtain ⟨r', hr', hsql'⟩ := Outcome.exists_of_isOk (x := count.render .sqlite)
    (p := fun r => r.sql = "SELECT count(*) AS count \nFROM \"t\"") (by decide +kernel)
  have hwritten : ∀ u ∈ us, ∀ s, u.handle.statement u.call = .ok s →
      ∃ r, s.render .sqlite = .ok r := by
    intro u hu s hs
    simp only [us, List.mem_cons, List.not_mem_nil, or_false] at hu
    rcases hu with rfl | rfl | rfl
    · cases hselect.symm.trans hs
      exact ⟨r, hr⟩
    · cases hdelete.symm.trans hs
    · cases hcount.symm.trans hs
      exact ⟨r', hr'⟩
  have hrows : ∀ u ∈ us, ∀ row ∈ u.answer.rows, row.IsRecord := by
    intro u hu v hv
    simp only [us, List.mem_cons, List.not_mem_nil, or_false] at hu
    rcases hu with rfl | rfl | rfl
    · simp only [List.mem_cons, List.not_mem_nil, or_false] at hv
      rcases hv with rfl | rfl <;> exact ⟨_, rfl, List.pairwise_singleton _ _⟩
    · cases hv
    · cases hv
  obtain ⟨⟨left, hleft, hrun⟩, -⟩ := transactions_traced .sqlite us hwritten hrows
  refine ⟨hwritten, hrows, r, r', ?_, hsql, hsql'⟩
  obtain ⟨⟨es₁, o₁⟩, _, h₁, hleft₁, rfl⟩ := List.forall₂_cons_left_iff.1 hleft
  obtain ⟨⟨es₂, o₂⟩, _, h₂, hleft₂, rfl⟩ := List.forall₂_cons_left_iff.1 hleft₁
  obtain ⟨⟨es₃, o₃⟩, _, h₃, hleft₃, rfl⟩ := List.forall₂_cons_left_iff.1 hleft₂
  obtain rfl := List.forall₂_nil_left_iff.1 hleft₃
  obtain ⟨rfl, rfl⟩ := Prod.mk.inj (h₁.unique (.committed hselect hr rfl))
  obtain ⟨rfl, rfl⟩ := Prod.mk.inj (h₂.unique (.refused hdelete))
  obtain ⟨rfl, rfl⟩ := Prod.mk.inj (h₃.unique (.rolledBack hcount hr' rfl))
  exact hrun

end Handle
end TableQuery
