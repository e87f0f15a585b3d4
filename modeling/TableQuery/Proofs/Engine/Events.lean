import TableQuery.Engine.Executor

/-! The events that a dispatch leaves behind: whatever reaches the database is a written form of the
statement that was handed in. -/

namespace TableQuery

/-- An event that carries no statement, or a written form of this one. -/
def Event.Writes (s : Statement) : Event → Prop
  | .dispatched _ r _ | .execute r => ∃ d, s.render d = .ok r
  | .begin | .commit | .rollback => True
  | .connected .. => False

namespace Run

variable {α β : Type} {P : Event → Prop}

theorem bind_apply (r : Run α) (k : α → Run β) (level : Logging.Level) (j : Journal) :
    (r >>= k) level j = match r level j with
      | (.ok a, j) => k a level j
      | (.error f, j) => (.error f, j) := by
  simp only [Bind.bind, ReaderT.bind, ExceptT.bind, ExceptT.mk, StateT.bind, Id]
  cases r level j with
  | mk o j => cases o <;> rfl

theorem bind_eq_ok {r : Run α} {k : α → Run β} {level : Logging.Level} {j j' : Journal} {b : β}
    (h : (r >>= k) level j = (.ok b, j')) :
    ∃ a between, r level j = (.ok a, between) ∧ k a level between = (.ok b, j') := by
  rw [bind_apply] at h
  cases hr : r level j with
  | mk o between =>
    rw [hr] at h
    cases o with
    | ok a => exact ⟨a, between, rfl, h⟩
    | error f => cases h

/-- A run adds events to a journal that all have a property, and takes none away. -/
def Adds (P : Event → Prop) (r : Run α) : Prop :=
  ∀ level j, ∃ es, (r level j).2.events = j.events ++ es ∧ ∀ e ∈ es, P e

theorem Adds.of_same {r : Run α} (h : ∀ level j, (r level j).2.events = j.events) : Adds P r :=
  fun level j => ⟨[], by simp [h level j], by simp⟩

theorem Adds.pure (a : α) : Adds P (pure a) := .of_same fun _ _ => rfl

theorem Adds.throw (f : Fault) : Adds P (throw f : Run α) := .of_same fun _ _ => rfl

theorem Adds.mono {Q : Event → Prop} {r : Run α} (hr : Adds P r) (h : ∀ e, P e → Q e) :
    Adds Q r := by
  intro level j
  obtain ⟨es, he, hp⟩ := hr level j
  exact ⟨es, he, fun e hm => h e (hp e hm)⟩

/-- What follows only has to be known for the values that the first run can give. -/
theorem Adds.bind_of_ok {r : Run α} {k : α → Run β} (hr : Adds P r)
    (hk : ∀ a level j j', r level j = (.ok a, j') → Adds P (k a)) : Adds P (r >>= k) := by
  intro level j
  obtain ⟨es, he, hp⟩ := hr level j
  rw [bind_apply]
  cases ho : r level j with
  | mk o j' =>
    rw [ho] at he
    cases o with
    | ok a =>
      obtain ⟨more, hm, hq⟩ := hk a level j j' ho level j'
      refine ⟨es ++ more, ?_, fun e h => (List.mem_append.mp h).elim (hp e) (hq e)⟩
      change j'.events = j.events ++ es at he
      rw [hm, he, List.append_assoc]
    | error f => exact ⟨es, he, hp⟩

theorem Adds.bind {r : Run α} {k : α → Run β} (hr : Adds P r) (hk : ∀ a, Adds P (k a)) :
    Adds P (r >>= k) :=
  hr.bind_of_ok fun a _ _ _ _ => hk a

theorem Adds.note {e : Event} (he : P e) : Adds P (note e) :=
  fun _ _ => ⟨[e], rfl, by simpa using he⟩

theorem Adds.openSpan (s : Span) : Adds P (openSpan s) := .of_same fun _ _ => rfl

theorem Adds.tellSpan (place : Nat) (more : Span → Span) : Adds P (tellSpan place more) :=
  .of_same fun _ _ => rfl

theorem Adds.forM {xs : List α} {k : α → Run Unit} (hk : ∀ x, Adds P (k x)) : Adds P (xs.forM k) := by
  induction xs with
  | nil => exact Adds.pure ()
  | cons x xs ih => exact (hk x).bind fun _ => ih

theorem Adds.attempt {r : Run α} (hr : Adds P r) : Adds P r.attempt := fun level j => hr level j

theorem Adds.log (e : Logging.Entry) : Adds P (log e) := by
  refine Adds.bind (.of_same fun _ _ => rfl) fun level => ?_
  split
  · split
    · exact Adds.throw _
    · exact .of_same fun _ _ => rfl
  · exact Adds.pure _

theorem Adds.ofOutcome (o : Outcome α) : Adds P (ofOutcome o) := by
  unfold Run.ofOutcome
  split
  · exact Adds.pure _
  · exact Adds.bind (Adds.log _) fun _ => Adds.throw _
  · exact Adds.throw _

theorem ofOutcome_eq_ok {o : Outcome α} {level : Logging.Level} {j j' : Journal} {a : α}
    (h : Run.ofOutcome o level j = (.ok a, j')) : o = .ok a := by
  unfold Run.ofOutcome at h
  split at h
  · cases h
    rfl
  · simp only [Bind.bind, ReaderT.bind, ExceptT.bind, ExceptT.mk, StateT.bind] at h
    revert h
    cases log (rejectionEntry _) level j with
    | mk o j =>
      intro h
      cases o <;> cases h
  · cases h

theorem Adds.ofOutcome_bind {o : Outcome α} {k : α → Run β} (hk : ∀ a, o = .ok a → Adds P (k a)) :
    Adds P (Run.ofOutcome o >>= k) :=
  (Adds.ofOutcome o).bind_of_ok fun a _ _ _ h => hk a (ofOutcome_eq_ok h)

/-- The events of a whole run that starts with an empty journal. -/
theorem Adds.events {r : Run α} (hr : Adds P r) (level : Logging.Level) :
    ∀ e ∈ (r.start level).2.events, P e := by
  obtain ⟨es, he, hp⟩ := hr level {}
  rw [List.nil_append] at he
  exact he ▸ hp

end Run

namespace Executor
open Run

variable {α : Type} {P : Event → Prop} {s : Statement}

theorem adds_spanAttributes (d : Dialect) (s : Statement) (telemetry operation : Value) :
    Adds P (spanAttributes d s telemetry operation) := by
  have ht : Adds P (statementText d s) := by
    unfold statementText
    split
    · exact Adds.pure _
    · exact Adds.bind (Adds.log _) fun _ => Adds.pure _
  exact ht.bind fun _ => (Adds.ofOutcome _).bind fun _ => Adds.pure _

theorem adds_spanned (d : Dialect) (s : Statement) (telemetry : Value) (operation : String)
    {call : Run α} (hc : Adds P call) : Adds P (spanned d s telemetry operation call) := by
  have hg : Adds P (Value.map <$> spanAttributes d s telemetry (.str operation)) :=
    (adds_spanAttributes d s telemetry _).bind fun _ => Adds.pure _
  have hcollect : Adds P (Traced.collect .none
      (Value.map <$> spanAttributes d s telemetry (.str operation))) := by
    refine (Adds.ofOutcome _).bind fun fixed => hg.attempt.bind fun got => ?_
    split
    · exact (Adds.ofOutcome _).bind fun _ => Adds.pure _
    · exact (Adds.log _).bind fun _ => Adds.pure _
  refine (Adds.openSpan _).bind fun span => hcollect.bind fun attributes => ?_
  refine (Adds.forM fun _ => Adds.tellSpan _ _).bind fun _ => hc.attempt.bind fun o => ?_
  cases o with
  | ok a => exact Adds.pure a
  | error f => exact (Adds.tellSpan _ _).bind fun _ => (Adds.tellSpan _ _).bind fun _ => Adds.throw f

/-- A transaction executes the statement it is for. -/
theorem adds_transact (d : Dialect) (s : Statement) (answer : Answer) (read : Outcome α) :
    Adds (Event.Writes s) (transact d s answer read) := by
  refine (Adds.note trivial).bind fun _ => (Adds.attempt ?_).bind fun result => ?_
  · refine Adds.ofOutcome_bind fun r hr => (Adds.note ⟨d, hr⟩).bind fun _ => ?_
    split
    · exact Adds.throw _
    · exact Adds.ofOutcome _
  · split
    · exact (Adds.note trivial).bind fun _ => Adds.pure _
    · exact (Adds.note trivial).bind fun _ => Adds.throw _

theorem adds_logged (failed : String) (extra : Entries) {call : Run α} (hc : Adds P call) :
    Adds P (logged failed extra call) := by
  refine hc.attempt.bind fun o => ?_
  split
  · exact Adds.pure _
  · exact (Adds.log _).bind fun _ => Adds.throw _

theorem adds_recorded (s : Statement) (scalar : Bool) (telemetry : Value) (answer : Answer) :
    Adds (Event.Writes s) (recorded s scalar telemetry answer) := by
  refine Adds.ofOutcome_bind fun r hr => (Adds.note ⟨.postgresql, hr⟩).bind fun _ => ?_
  split
  · exact Adds.throw _
  · exact Adds.pure _

theorem adds_fetchAll (e : Executor) (s : Statement) (telemetry : Value) (answer : Answer) :
    Adds (Event.Writes s) (e.fetchAll s telemetry answer) := by
  cases e with
  | recorder => exact (adds_recorded s false telemetry answer).bind fun _ => Adds.pure _
  | engine d =>
    refine adds_spanned d s telemetry _ ((Adds.ofOutcome _).bind fun extra => ?_)
    refine (adds_transact d s answer _).attempt.bind fun o => ?_
    split
    · exact adds_logged _ _ (Adds.throw _)
    · exact adds_logged _ _ ((Adds.log _).bind fun _ => Adds.pure _)

theorem adds_fetchScalar (e : Executor) (s : Statement) (telemetry : Value) (answer : Answer) :
    Adds (Event.Writes s) (e.fetchScalar s telemetry answer) := by
  cases e with
  | recorder => exact (adds_recorded s true telemetry answer).bind fun _ => Adds.pure _
  | engine d =>
    refine adds_spanned d s telemetry _ ((Adds.ofOutcome _).bind fun extra => ?_)
    refine adds_logged _ _ ((adds_transact d s answer _).bind fun scalar => ?_)
    exact (Adds.log _).bind fun _ => Adds.pure _

end Executor
end TableQuery
