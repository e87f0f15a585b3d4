import TableQuery.Proofs.Engine.Attributes

/-! Spans around calls: a call of a wrapped function ends as the function does, and leaves behind one span
more. The span is opened first and told its attributes before the function is called. -/

namespace TableQuery

namespace Journal

variable (j k : Journal) (s : Span)

/-- More is told to the span at a place. -/
def told (place : Nat) (more : Span → Span) : Journal := { j with spans := j.spans.modify place more }

theorem told_told (place : Nat) (f g : Span → Span) :
    (j.told place f).told place g = j.told place fun s => g (f s) := by
  rw [told, told, List.modify_modify_eq]
  rfl

theorem told_same (place : Nat) : j.told place (fun s => s) = j := by
  change ({ j with spans := j.spans.modify place id } : Journal) = j
  rw [List.modify_id]

theorem audible_append : (j ++ k).audible = j.audible ++ k.audible := by
  ext1
  · rfl
  · rfl
  · exact List.filter_append ..

/-- A span keeps its place while others are opened behind it. -/
theorem told_append (more : Span → Span) :
    (j ++ { spans := [s] } ++ k).told j.spans.length more = j ++ { spans := [more s] } ++ k := by
  have hmodify : ∀ spans : List Span,
      (spans ++ [s] ++ k.spans).modify spans.length more = spans ++ [more s] ++ k.spans := by
    intro spans
    induction spans with
    | nil => rfl
    | cons t spans ih => simpa using ih
  ext1
  · rfl
  · exact hmodify j.spans
  · rfl

theorem told_last (more : Span → Span) :
    (j ++ { spans := [s] }).told j.spans.length more = j ++ { spans := [more s] } := by
  have h := told_append j {} s more
  rwa [append_empty, append_empty] at h

end Journal

namespace Run

variable {α β : Type} {level : Logging.Level} {j : Journal}

theorem openSpan_apply (s : Span) (level : Logging.Level) (j : Journal) :
    openSpan s level j = (.ok j.spans.length, j ++ { spans := [s] }) := by
  have hopened : ({ j with spans := j.spans ++ [s] } : Journal) = j ++ { spans := [s] } := by
    ext1
    · exact (List.append_nil _).symm
    · rfl
    · exact (List.append_nil _).symm
  exact congrArg (Except.ok j.spans.length, ·) hopened

theorem attempt_apply (r : Run α) (level : Logging.Level) (j : Journal) :
    r.attempt level j = (.ok (r level j).1, (r level j).2) := rfl

theorem tellSpan_apply (place : Nat) (more : Span → Span) (level : Logging.Level) (j : Journal) :
    tellSpan place more level j = (.ok (), j.told place more) := rfl

theorem forM_tellSpan (place : Nat) (es : Entries) (level : Logging.Level) (j : Journal) :
    (es.forM fun a => tellSpan place fun s => { s with attributes := s.attributes ++ [a] } : Run Unit) level j =
      (.ok (), j.told place fun s => { s with attributes := s.attributes ++ es }) := by
  induction es generalizing j with
  | nil =>
    simp only [List.append_nil]
    rw [Journal.told_same]
    rfl
  | cons e es ih =>
    change (tellSpan place _ >>= fun _ => es.forM _ : Run Unit) level j = _
    rw [bind_apply, tellSpan_apply]
    refine (ih _).trans ?_
    simp only [Journal.told_told, List.append_assoc, List.singleton_append]

end Run

namespace Traced
open Run

variable {α : Type} {p : Plan} {a : Arguments} {level : Logging.Level} {statics dynamic : Entries}
  {v : Value} {f : Fault}

/-- Attributes that are told: those that hold something, the dynamic ones in the place of static ones of
their key or else behind them. -/
def attributes (statics dynamic : Entries) : Entries :=
  let kept := statics.filter (!·.2.isNone)
  let news := dynamic.filter (!·.2.isNone)
  kept.map (fun e => (e.1, (Value.lookup e.1 news).getD e.2)) ++ news.filter fun n => !Value.hasKey n.1 kept

/-- Mappings whose keys can be told apart. -/
structure Mergeable (statics dynamic : Entries) : Prop where
  comparable : Value.Comparable (statics.map Prod.fst ++ dynamic.map Prod.fst)
  statics : Value.Distinct statics
  dynamic : Value.Distinct dynamic

theorem Mergeable.kept (h : Mergeable statics dynamic) (keep : Value × Value → Bool) :
    Mergeable (statics.filter keep) (dynamic.filter keep) where
  comparable := h.comparable.mono (List.append_subset.mpr
    ⟨List.subset_append_of_subset_left _ (List.map_subset _ (List.filter_subset_self ..)),
      List.subset_append_of_subset_right _ (List.map_subset _ (List.filter_subset_self ..))⟩)
  statics := h.statics.sublist List.filter_sublist
  dynamic := h.dynamic.sublist List.filter_sublist

/-- A span that was told how a call ended: of a fault, and of its text. -/
def ended (s : Span) : Outcome α → Span
  | .ok _ => s
  | .error f => { s with recorded := s.recorded ++ [f], failure := some f.message }

/-- A call inside a span, step by step: the span is open when the attributes are collected, has all of
them when the function is called, and is told of a fault behind everything else. -/
theorem run_apply {tracer name kind : String} {fixed : Value} {getter : Run Value} {call : Run α}
    {es : Entries} {j k l : Journal} {o : Outcome α}
    (hcollect : collect fixed getter level (j ++ { spans := [{ tracer, name, kind }] }) = (.ok es, k))
    (hcall : call level (k.told j.spans.length fun s => { s with attributes := s.attributes ++ es }) = (o, l)) :
    run tracer name kind fixed getter call level j = (o, l.told j.spans.length (ended · o)) := by
  unfold run
  rw [bind_apply, openSpan_apply]
  dsimp only
  rw [bind_apply, hcollect]
  dsimp only
  rw [bind_apply, forM_tellSpan]
  dsimp only
  rw [bind_apply, attempt_apply, hcall]
  dsimp only
  cases o with
  | ok r => exact congrArg (Except.ok r, ·) (Journal.told_same l _).symm
  | error f =>
    dsimp only
    rw [bind_apply, tellSpan_apply]
    dsimp only
    rw [bind_apply, tellSpan_apply, Journal.told_told]
    rfl

/-- A call inside a span ends as the call does, and adds the span to what the call adds. -/
theorem gives_run {tracer name kind : String} {fixed : Value} {getter : Run Value} {call : Run α}
    {es : Entries} {j : Journal} {o : Outcome α} (hcollect : (collect fixed getter).Gives level (.ok es) {})
    (hcall : call.Gives level o j) : (run tracer name kind fixed getter call).Gives level o
      ({ spans := [ended { tracer, name, kind, attributes := es } o] } ++ j) := by
  intro before
  obtain ⟨opened, hopened, hspan⟩ := hcollect (before ++ { spans := [{ tracer, name, kind }] })
  obtain ⟨behind, hbehind, hadded⟩ :=
    hcall (opened.told before.spans.length fun s => { s with attributes := s.attributes ++ es })
  refine ⟨_, run_apply hopened hbehind, ?_⟩
  have htold : ∀ (k : Journal) (more : Span → Span),
      (k.told before.spans.length more).audible = k.audible.told before.audible.spans.length more :=
    fun _ _ => rfl
  have hattributes : (opened.told before.spans.length fun s =>
      { s with attributes := s.attributes ++ es }).audible =
      before.audible ++ { spans := [{ tracer, name, kind, attributes := es }] } := by
    rw [htold, hspan, Journal.append_empty, Journal.audible_append]
    exact Journal.told_last before.audible _ _
  rw [htold, hadded, hattributes, Journal.told_append, Journal.append_assoc]

/-! Collecting the attributes. -/

def warning (f : Fault) : Logging.Entry where
  level := .warning
  logger := "chainsql.utils.decorators"
  message := "trace attribute getter failed: " ++ f.message

/-- One warning, where warnings are not dropped. -/
def warned (level : Logging.Level) (f : Fault) : Journal :=
  { entries := if level.number ≤ Logging.Level.warning.number then [warning f] else [] }

theorem log_warning (level : Logging.Level) (f : Fault) (j : Journal) :
    Run.log (warning f) level j = (.ok (), j ++ warned level f) := by
  have hadd : ∀ es, ({ j with entries := j.entries ++ es } : Journal) = j ++ { entries := es } := by
    intro es
    ext1
    · exact (List.append_nil _).symm
    · exact (List.append_nil _).symm
    · rfl
  rw [log_apply, warned]
  by_cases h : level.number ≤ Logging.Level.warning.number
  · rw [if_pos h]
    exact (if_pos h).trans (congrArg (Except.ok (), ·) (hadd [warning f]))
  · rw [if_neg h]
    exact (if_neg h).trans (congrArg (Except.ok (), ·) (Journal.append_empty j).symm)

theorem read_of_tells {v : Value} {es : Entries} (h : Executor.Tells v es) : read v = .ok es := by
  rcases h with ⟨rfl, rfl⟩ | h
  · rfl
  · rw [read, h]

variable {getter : Run Value} {fixed : Value} {j k : Journal}

theorem collect_given (hfixed : Executor.Tells fixed statics) (hgetter : getter level j = (.ok v, k))
    (hv : Executor.Tells v dynamic) : collect fixed getter level j = (.ok (merge statics dynamic), k) := by
  unfold collect
  rw [read_of_tells hfixed, bind_apply]
  change (getter.attempt >>= _) level j = _
  rw [bind_apply, attempt_apply, hgetter]
  dsimp only
  rw [read_of_tells hv]
  rfl

theorem collect_failed (hfixed : Executor.Tells fixed statics) (hgetter : getter level j = (.error f, k)) :
    collect fixed getter level j = (.ok (merge statics []), k ++ warned level f) := by
  unfold collect
  rw [read_of_tells hfixed, bind_apply]
  change (getter.attempt >>= _) level j = _
  rw [bind_apply, attempt_apply, hgetter]
  dsimp only
  rw [bind_apply]
  have hlog := log_warning level f k
  rw [warning] at hlog
  rw [hlog]
  rfl

/-- A span around a call, as far as its attributes are told. -/
def Plan.span (p : Plan) (es : Entries) : Span :=
  { tracer := p.space, name := p.spanName, kind := p.kind, attributes := es }

/-- What a getter has to say on a call, with the journal that it leaves: attributes, or nothing. If it fails,
there is a warning more and nothing else. -/
inductive Asked (p : Plan) (a : Arguments) (level : Logging.Level) (opened : Journal) :
    Entries → Journal → Prop
  | given {v : Value} {dynamic : Entries} {k : Journal} (h : p.asked a level opened = (.ok v, k))
    (hv : Executor.Tells v dynamic) : Asked p a level opened dynamic k
  | failed {f : Fault} {k : Journal} (h : p.asked a level opened = (.error f, k)) :
    Asked p a level opened [] (k ++ warned level f)

theorem Asked.collect {opened : Journal} (hfixed : Executor.Tells p.fixed statics)
    (h : Asked p a level opened dynamic k) :
    collect p.fixed (p.asked a) level opened = (.ok (merge statics dynamic), k) := by
  cases h with
  | given h hv => exact collect_given hfixed h hv
  | failed h => exact collect_failed hfixed h

end Traced
end TableQuery
