import TableQuery.Proofs.Engine.Settled

/-! What a dispatch to an engine leaves behind, event by event: one transaction around the statement,
and nothing of the spans and log entries around it. -/

namespace TableQuery

namespace Value

/-- The entries of a row under keys that are all different. -/
def IsRecord (v : Value) : Prop :=
  ∃ es, v.entries? = some es ∧ es.Pairwise fun a b => same b.1 a.1 = false

/-- A row as a plain mapping. -/
def asDict (v : Value) : Value := .map (v.entries?.getD [])

theorem IsRecord.toEntries {v : Value} (hv : v.IsRecord) : Value.map <$> v.toEntries = .ok v.asDict := by
  obtain ⟨es, hes, hdistinct⟩ := hv
  have hadd : v.addEntries [] = (es, .ok ()) := by
    rw [addEntries, hes]
    have hall : insertAll es [] = es := insertAll_of_distinct hdistinct
    exact congrArg (·, _) hall
  have hentries : v.toEntries = .ok es := by rw [Value.toEntries, hadd]
  rw [hentries, asDict, hes]
  rfl

end Value

/-- Rows that are records come out as plain mappings, in their order. -/
theorem Answer.records_eq {answer : Answer} (h : ∀ row ∈ answer.rows, row.IsRecord) :
    answer.records = .ok (answer.rows.map Value.asDict) := by
  rw [Answer.records, Outcome.mapM_eq_ok, List.forall₂_map_right_iff]
  exact List.forall₂_same.mpr fun row hrow => (h row hrow).toEntries

namespace Run

variable {α β : Type} {r : Run α} {k : α → Run β} {es gs : List Event}

/-- A run ends in this outcome under every log level, and adds these events to every journal. -/
def Leaves (r : Run α) (es : List Event) (o : Outcome α) : Prop :=
  ∀ level j, ∃ j', r level j = (o, j') ∧ j'.events = j.events ++ es

namespace Leaves

theorem of_same {o : Outcome α} (h : ∀ level j, ∃ j', r level j = (o, j') ∧ j'.events = j.events) :
    r.Leaves [] o := by
  intro level j
  obtain ⟨j', hr, hj⟩ := h level j
  exact ⟨j', hr, by rw [hj, List.append_nil]⟩

theorem pure (a : α) : Leaves (pure a) [] (.ok a) := .of_same fun _ j => ⟨j, rfl, rfl⟩

theorem bind {a : α} {o : Outcome β} (hr : r.Leaves es (.ok a)) (hk : (k a).Leaves gs o) :
    (r >>= k).Leaves (es ++ gs) o := by
  intro level j
  obtain ⟨j', hj, he⟩ := hr level j
  obtain ⟨j'', hj', he'⟩ := hk level j'
  refine ⟨j'', ?_, by rw [he', he, List.append_assoc]⟩
  rw [bind_apply, hj]
  exact hj'

theorem bind_error {f : Fault} (hr : r.Leaves es (.error f)) : (r >>= k).Leaves es (.error f) := by
  intro level j
  obtain ⟨j', hj, he⟩ := hr level j
  refine ⟨j', ?_, he⟩
  rw [bind_apply, hj]

/-- What comes first leaves nothing. -/
theorem after {a : α} {o : Outcome β} (hr : r.Leaves [] (.ok a)) (hk : (k a).Leaves gs o) :
    (r >>= k).Leaves gs o := hr.bind hk

/-- What comes last leaves nothing. -/
theorem andThen {a : α} {o : Outcome β} (hr : r.Leaves es (.ok a)) (hk : (k a).Leaves [] o) :
    (r >>= k).Leaves es o := by
  have h := hr.bind hk
  rwa [List.append_nil] at h

theorem attempt {o : Outcome α} (hr : r.Leaves es o) : r.attempt.Leaves es (.ok o) := by
  intro level j
  obtain ⟨j', hj, he⟩ := hr level j
  refine ⟨j', ?_, he⟩
  rw [Run.attempt, hj]

/-- What a run gives under each level, but for all that is no event. -/
theorem of_gives {o : Outcome α} (h : ∀ level, ∃ k, r.Gives level o k ∧ k.events = es) : r.Leaves es o := by
  intro level j
  obtain ⟨k, hk, he⟩ := h level
  obtain ⟨j', hj, ha⟩ := hk j
  exact ⟨j', hj, (congrArg Journal.events ha).trans (congrArg (j.events ++ ·) he)⟩

theorem log {e : Logging.Entry} (h : Logging.clash? e.extra = none) : Leaves (log e) [] (.ok ()) := by
  refine .of_same fun level j => ?_
  rw [log_apply, h]
  split
  · exact ⟨_, rfl, rfl⟩
  · exact ⟨j, rfl, rfl⟩

/-- A refusal is logged, which is no event. -/
theorem ofOutcome (o : Outcome α) : Leaves (ofOutcome o) [] o := .of_gives fun _ => ⟨_, .ofOutcome o, rfl⟩

end Leaves
end Run

namespace Executor
open Run

variable {d : Dialect} {s : Statement} {r : Rendered} {answer : Answer} {telemetry : Entries}
  {events : List Event}

/-- Telemetry that overwrites nothing of a record leaves the end of a transaction as it is. -/
theorem leaves_rows (ht : Logging.clash? telemetry = none) {o : Outcome (List Value)}
    (h : Transacts d s answer answer.records events o) :
    ((engine d).fetchAll s (.map telemetry) answer).Leaves events o := by
  have htells : Tells (.map telemetry) telemetry := .inr rfl
  obtain ⟨extra, hextra, hclash⟩ := exists_payload d htells
  refine .of_gives fun level => ?_
  obtain ⟨span, hspan⟩ := gives_spanned htells d s "fetch_all" (gives_engineRows hextra h level)
  rw [settled_fst ((rowsReport.clash?_closing (by decide) extra o).trans (hclash.trans ht))] at hspan
  exact ⟨_, hspan, by simp [Journal.events_append]⟩

theorem leaves_scalar (ht : Logging.clash? telemetry = none) {o : Outcome Value}
    (h : Transacts d s answer (.ok answer.scalar) events o) :
    ((engine d).fetchScalar s (.map telemetry) answer).Leaves events o := by
  have htells : Tells (.map telemetry) telemetry := .inr rfl
  obtain ⟨extra, hextra, hclash⟩ := exists_payload d htells
  refine .of_gives fun level => ?_
  obtain ⟨span, hspan⟩ := gives_spanned htells d s "fetch_scalar" (gives_engineScalar hextra h level)
  rw [settled_fst ((scalarReport.clash?_closing (by decide) extra o).trans (hclash.trans ht))] at hspan
  exact ⟨_, hspan, by simp [Journal.events_append]⟩

/-! A dispatch. -/

section Dispatch

variable (ht : Logging.clash? telemetry = none) (hr : s.render d = .ok r)
include ht hr

theorem leaves_fetchAll (hrows : ∀ row ∈ answer.rows, row.IsRecord) (hf : answer.failure = none) :
    ((engine d).fetchAll s (.map telemetry) answer).Leaves [.begin, .execute r, .commit]
      (.ok (answer.rows.map Value.asDict)) :=
  leaves_rows ht (.committed hr hf (Answer.records_eq hrows))

theorem leaves_fetchScalar (hf : answer.failure = none) :
    ((engine d).fetchScalar s (.map telemetry) answer).Leaves [.begin, .execute r, .commit]
      (.ok answer.scalar) :=
  leaves_scalar ht (.committed hr hf rfl)

/-- A fault of the database goes through, whatever was asked for. -/
theorem leaves_failure {f : Fault} (hf : answer.failure = some f) :
    ((engine d).fetchAll s (.map telemetry) answer).Leaves [.begin, .execute r, .rollback] (.error f) ∧
    ((engine d).fetchScalar s (.map telemetry) answer).Leaves [.begin, .execute r, .rollback]
      (.error f) :=
  ⟨leaves_rows ht (.raised hr hf), leaves_scalar ht (.raised hr hf)⟩

end Dispatch

end Executor
end TableQuery
