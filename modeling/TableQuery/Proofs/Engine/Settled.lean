import TableQuery.Proofs.Engine.Spans

/-! What a dispatch to an engine ends in, under every log level and with any telemetry: the end of its
transaction, unless the entry that reports this end cannot be written. -/

namespace TableQuery
namespace Executor
open Run

variable {α : Type} {d : Dialect} {s : Statement} {answer : Answer} {read : Outcome α}
  {level : Logging.Level} {events : List Event} {o : Outcome α} {telemetry : Value} {es extra : Entries}

/-- The events of a transaction and its end. It is committed just where the statement can be written, the
database raises nothing, and what it answers can be read. -/
inductive Transacts (d : Dialect) (s : Statement) (answer : Answer) (read : Outcome α) :
    List Event → Outcome α → Prop
  | unwritten {f : Fault} (text : s.render d = .error f) :
    Transacts d s answer read [.begin, .rollback] (.error f)
  | raised {r : Rendered} {f : Fault} (text : s.render d = .ok r) (failure : answer.failure = some f) :
    Transacts d s answer read [.begin, .execute r, .rollback] (.error f)
  | unread {r : Rendered} {f : Fault} (text : s.render d = .ok r) (failure : answer.failure = none)
    (refused : read = .error f) : Transacts d s answer read [.begin, .execute r, .rollback] (.error f)
  | committed {r : Rendered} {a : α} (text : s.render d = .ok r) (failure : answer.failure = none)
    (taken : read = .ok a) : Transacts d s answer read [.begin, .execute r, .commit] (.ok a)

theorem exists_transacts (d : Dialect) (s : Statement) (answer : Answer) (read : Outcome α) :
    ∃ events o, Transacts d s answer read events o := by
  cases hr : s.render d with
  | error f => exact ⟨_, _, .unwritten hr⟩
  | ok r =>
    cases hf : answer.failure with
    | some f => exact ⟨_, _, .raised hr hf⟩
    | none =>
      cases read with
      | error f => exact ⟨_, _, .unread hr hf rfl⟩
      | ok a => exact ⟨_, _, .committed hr hf rfl⟩

/-- The event that an outcome ends a transaction with. -/
def ending : Outcome α → Event
  | .ok _ => .commit
  | .error _ => .rollback

/-- What is executed comes between the beginning and the end of a transaction. -/
theorem gives_transact {j : Journal}
    (h : (do
      note (.execute (← Run.ofOutcome (s.render d)))
      match answer.failure with
      | some f => throw f
      | none => Run.ofOutcome read : Run α).Gives level o j) :
    (transact d s answer read).Gives level o
      ({ events := [.begin] } ++ (j ++ { events := [ending o] })) := by
  unfold transact
  refine (Gives.note .begin).bind (h.attempt.bind ?_)
  cases o with
  | ok a => exact (Gives.note .commit).andThen (.pure a)
  | error f => exact (Gives.note .rollback).andThen (.throw f)

theorem gives_execute {r : Rendered} (hr : s.render d = .ok r) {k : Run α} (hk : k.Gives level o {}) :
    (do note (.execute (← Run.ofOutcome (s.render d))); k : Run α).Gives level o
      { events := [.execute r] } := by
  rw [hr]
  exact (Gives.pure r).after ((Gives.note (.execute r)).andThen hk)

/-- Whatever the level, a transaction is one of these. -/
theorem Transacts.gives (h : Transacts d s answer read events o) (level : Logging.Level) :
    (transact d s answer read).Gives level o { events } := by
  cases h with
  | unwritten text =>
    refine gives_transact (j := {}) ?_
    rw [text]
    exact (Gives.ofOutcome (.error _)).bind_error
  | raised text failure =>
    refine gives_transact (gives_execute text ?_)
    rw [failure]
    exact .throw _
  | unread text failure refused =>
    refine gives_transact (gives_execute text ?_)
    rw [failure, refused]
    exact .ofOutcome (.error _)
  | committed text failure taken =>
    refine gives_transact (gives_execute text ?_)
    rw [failure, taken]
    exact .ofOutcome (.ok _)

/-! What is reported of the end. -/

/-- What is logged of a dispatch overwrites no more of a record than its telemetry does. -/
theorem exists_payload (d : Dialect) {telemetry : Value} {es : Entries} (h : Tells telemetry es) :
    ∃ extra, payload d telemetry = .ok extra ∧ Logging.clash? extra = Logging.clash? es := by
  -- From here on it is the same whether or not there was telemetry.
  have htail : ∀ gs, Logging.clash? gs = Logging.clash? es →
      ∃ extra, (let kept := gs.filter fun e => !(Value.str "duration.seconds").same e.1
        if Value.hasKey (.str "db.platform") kept then pure kept
        else pure (Value.insert (.str "db.platform") (.str d.name) kept) : Outcome Entries) = .ok extra ∧
        Logging.clash? extra = Logging.clash? es := by
    intro gs hgs
    have hkept : Logging.clash? (gs.filter fun e => !(Value.str "duration.seconds").same e.1) =
        Logging.clash? es := by
      refine (Logging.clash?_filter fun e _ he => ?_).trans hgs
      rw [Value.same_str_iff.mp (by simpa using he)]
      decide
    dsimp only
    split
    · exact ⟨_, rfl, hkept⟩
    · exact ⟨_, rfl, (Logging.clash?_insert_free (by decide) _ _).trans hkept⟩
  unfold payload
  dsimp only
  cases ht : telemetry.isTruthy with
  | false => exact htail [] (by rw [h.eq_nil ht])
  | true =>
    rcases h with ⟨rfl, -⟩ | h
    · cases ht
    · have hread : telemetry.toEntries = .ok (Value.insertAll es []) := by
        rw [Value.toEntries, Value.addEntries, h]
      rw [if_pos rfl, hread]
      exact htail _ (Logging.clash?_insertAll es [])

/-- The entry for a fault. -/
def failedEntry (failed : String) (extra : Entries) (f : Fault) : Logging.Entry where
  level := .error
  logger := loggerName
  message := failed
  extra := Value.insert (.str "error") (.str f.message) extra
  cause := some f

/-- The messages for the two ends of a dispatch, and what is told of a result. -/
structure Report (α : Type) where
  done : String
  failed : String
  told : String
  value : α → Value

def rowsReport : Report (List Value) where
  done := "Results fetched"
  failed := "Fetch all failed"
  told := "row_count"
  value rows := .str (toString rows.length)

def scalarReport : Report Value where
  done := "Scalar fetched"
  failed := "Scalar fetch failed"
  told := "value_is_null"
  value scalar := .str (Value.shown (.bool scalar.isNone))

namespace Report

variable (report : Report α)

/-- The one entry for the end of a transaction. -/
def closing (extra : Entries) : Outcome α → Logging.Entry
  | .ok a => { level := .info, logger := loggerName, message := report.done,
               extra := Value.insert (.str report.told) (report.value a) extra }
  | .error f => failedEntry report.failed extra f

theorem clash?_closing (hfree : Logging.isReserved report.told = false) (extra : Entries) (o : Outcome α) :
    Logging.clash? (report.closing extra o).extra = Logging.clash? extra := by
  cases o with
  | ok a => exact Logging.clash?_insert_free hfree ..
  | error f => exact Logging.clash?_insert_free (by decide) ..

end Report

/-- A fault is logged and goes on, if its entry can be written. -/
theorem gives_logged_error (failed : String) (extra : Entries) {call : Run α} {f : Fault} {j : Journal}
    (hc : call.Gives level (.error f) j) : (logged failed extra call).Gives level
      (settled level (failedEntry failed extra f) (.error f : Outcome α)).1
      (j ++ { entries := (settled level (failedEntry failed extra f) (.error f : Outcome α)).2 }) :=
  hc.attempt.bind (Gives.settled nofun (.throw f))

theorem gives_logged_ok {failed : String} {call : Run α} {a : α} {j : Journal}
    (hc : call.Gives level (.ok a) j) : (logged failed extra call).Gives level (.ok a) j :=
  hc.attempt.andThen (.pure a)

/-- Where the entry for a result could not be written, the one for this fault cannot either. -/
theorem gives_logged_settled {failed : String} {call : Run α} {a : α} {j : Journal} {e : Logging.Entry}
    (he : e.level = .info) (hextra : Logging.clash? e.extra = Logging.clash? extra)
    (hc : call.Gives level (settled level e (.ok a)).1 j) :
    (logged failed extra call).Gives level (settled level e (.ok a)).1 j := by
  by_cases hl : level.number ≤ e.level.number
  · cases hclash : Logging.clash? e.extra with
    | none =>
      rw [settled_kept hl hclash] at hc ⊢
      exact gives_logged_ok hc
    | some key =>
      rw [settled_refused hl hclash] at hc ⊢
      -- The fault is logged with the same telemetry at a higher level, and so is refused for the same key.
      have herror : level.number ≤ (failedEntry failed extra (.overwritesRecord key)).level.number := by
        rw [he] at hl
        exact Nat.le_trans hl (by decide : Logging.Level.info.number ≤ Logging.Level.error.number)
      have hagain : Logging.clash? (failedEntry failed extra (.overwritesRecord key)).extra = some key :=
        (Logging.clash?_insert_free (by decide) ..).trans (hextra.symm.trans hclash)
      have hnext := gives_logged_error failed extra hc
      rwa [settled_refused herror hagain, Journal.append_empty] at hnext
  · rw [settled_dropped hl] at hc ⊢
    exact gives_logged_ok hc

theorem gives_engineRows (hp : payload d telemetry = .ok extra) {o : Outcome (List Value)}
    (h : Transacts d s answer answer.records events o) (level : Logging.Level) :
    (engineRows d s telemetry answer).Gives level (settled level (rowsReport.closing extra o) o).1
      ({ events } ++ { entries := (settled level (rowsReport.closing extra o) o).2 }) := by
  unfold engineRows
  rw [hp]
  refine (Gives.ofOutcome (.ok extra)).after ((h.gives level).attempt.bind ?_)
  cases o with
  | ok rows => exact gives_logged_settled rfl rfl (Gives.settled nofun (.pure rows))
  | error f => exact gives_logged_error _ _ (.throw f)

theorem gives_engineScalar (hp : payload d telemetry = .ok extra) {o : Outcome Value}
    (h : Transacts d s answer (.ok answer.scalar) events o) (level : Logging.Level) :
    (engineScalar d s telemetry answer).Gives level (settled level (scalarReport.closing extra o) o).1
      ({ events } ++ { entries := (settled level (scalarReport.closing extra o) o).2 }) := by
  unfold engineScalar
  rw [hp]
  refine (Gives.ofOutcome (.ok extra)).after ?_
  cases o with
  | ok scalar =>
    have hfree : Logging.clash? (scalarReport.closing extra (.ok scalar)).extra = Logging.clash? extra :=
      scalarReport.clash?_closing (by decide) extra (.ok scalar)
    exact gives_logged_settled rfl hfree ((h.gives level).bind (Gives.settled nofun (.pure scalar)))
  | error f => exact gives_logged_error _ _ (h.gives level).bind_error

/-- What surrounds a dispatch adds a span, and changes nothing of how it ends. -/
theorem gives_spanned (ht : Tells telemetry es) (d : Dialect) (s : Statement) (operation : String)
    {call : Run α} {j : Journal} (hc : call.Gives level o j) :
    ∃ span, (spanned d s telemetry operation call).Gives level o ({ spans := [span] } ++ j) := by
  obtain ⟨-, attributes, -, -, hattributes⟩ := gives_spanAttributes ht d s (.str operation) level
  have hgetter : (Value.map <$> spanAttributes d s telemetry (.str operation)).Gives level
      (.ok (.map attributes)) {} := hattributes.after (.pure _)
  have hcollect : (Traced.collect .none (Value.map <$> spanAttributes d s telemetry (.str operation))).Gives
      level (.ok (Traced.merge [] attributes)) {} :=
    (Gives.ofOutcome (.ok [])).after (hgetter.attempt.after
      ((Gives.ofOutcome (.ok attributes)).after (.pure _)))
  exact ⟨_, Traced.gives_run hcollect hc⟩

/-- How a dispatch ends. The closing entry is the one for the end of the transaction, and the clash the
first attribute of its record that the telemetry has a key for. -/
structure Accounts (level : Logging.Level) (clash : Option String) (closing : Logging.Entry) (o : Outcome α)
    (events : List Event) (run : Outcome α × Journal) : Prop where
  /-- The database sees the transaction and nothing else. -/
  events : run.2.events = events
  /-- Without a clash the dispatch ends as the transaction did, and says so once at most. -/
  told : clash = none → run.1 = o ∧
    run.2.audible.entries = if level.number ≤ closing.level.number then [closing] else []
  /-- So it does, without a word, where the entry is dropped. -/
  dropped : ¬ level.number ≤ closing.level.number → run.1 = o ∧ run.2.audible.entries = []
  /-- Else it ends in the clash, whatever the end of the transaction was. -/
  lost : ∀ key, clash = some key → level.number ≤ closing.level.number →
    run.1 = .error (.overwritesRecord key) ∧ run.2.audible.entries = []

theorem accounts_of_gives {run : Run α} {closing : Logging.Entry} {span : Span}
    (h : run.Gives level (settled level closing o).1
      ({ spans := [span] } ++ ({ events } ++ { entries := (settled level closing o).2 }))) :
    Accounts level (Logging.clash? closing.extra) closing o events (run.start level) := by
  obtain ⟨hresult, hjournal⟩ := h.start
  have hevents : (run.start level).2.events = events := by
    have he := congrArg Journal.events hjournal
    exact he.trans (List.append_nil _)
  have hentries : (run.start level).2.audible.entries = (settled level closing o).2 := by
    rw [hjournal]
    rfl
  refine ⟨hevents, fun hc => ?_, fun hl => ?_, fun key hc hl => ?_⟩
  · by_cases hl : level.number ≤ closing.level.number
    · rw [settled_kept hl hc] at hresult hentries
      exact ⟨hresult, hentries.trans (if_pos hl).symm⟩
    · rw [settled_dropped hl] at hresult hentries
      exact ⟨hresult, hentries.trans (if_neg hl).symm⟩
  · rw [settled_dropped hl] at hresult hentries
    exact ⟨hresult, hentries⟩
  · rw [settled_refused hl hc] at hresult hentries
    exact ⟨hresult, hentries⟩

/-- A fetch of rows or of a single value is one transaction, and ends as that does: in the rows or the
value once it is committed, in the fault of the database once it is rolled back, with one entry for
either where this is not dropped. But a telemetry key that is an attribute of log records takes the place
of both ends, wherever the entry is not dropped. -/
theorem dispatch_accounted (ht : Tells telemetry es) (d : Dialect) (s : Statement) (answer : Answer)
    (level : Logging.Level) : ∃ extra, payload d telemetry = .ok extra ∧
    (∃ events o, Transacts d s answer answer.records events o ∧
      Accounts level (Logging.clash? es) (rowsReport.closing extra o) o events
        (((engine d).fetchAll s telemetry answer).start level)) ∧
    ∃ events o, Transacts d s answer (.ok answer.scalar) events o ∧
      Accounts level (Logging.clash? es) (scalarReport.closing extra o) o events
        (((engine d).fetchScalar s telemetry answer).start level) := by
  obtain ⟨extra, hextra, hclash⟩ := exists_payload d ht
  refine ⟨extra, hextra, ?_, ?_⟩
  · obtain ⟨events, o, ho⟩ := exists_transacts d s answer answer.records
    obtain ⟨span, hspan⟩ := gives_spanned ht d s "fetch_all"
      (gives_engineRows hextra ho level)
    refine ⟨events, o, ho, ?_⟩
    rw [← hclash, ← rowsReport.clash?_closing (by decide) extra o]
    exact accounts_of_gives hspan
  · obtain ⟨events, o, ho⟩ := exists_transacts d s answer (.ok answer.scalar)
    obtain ⟨span, hspan⟩ := gives_spanned ht d s "fetch_scalar"
      (gives_engineScalar hextra ho level)
    refine ⟨events, o, ho, ?_⟩
    rw [← hclash, ← scalarReport.clash?_closing (by decide) extra o]
    exact accounts_of_gives hspan

/-- A driver that fails, asked for a single value at the level for errors. -/
theorem dispatch_accounted_error :
    let s : Statement := .count ⟨none, "t"⟩ []
    let es := Value.named [("operation.object", .str "t")]
    let answer : Answer := { failure := some (.raised "RuntimeError" "boom") }
    let run := ((engine .sqlite).fetchScalar s (.map es) answer).start .error
    Tells (.map es) es ∧ run.1 = .error (.raised "RuntimeError" "boom") ∧
      (∃ r, run.2.events = [.begin, .execute r, .rollback]) ∧
      run.2.audible.entries.map (·.cause) = [some (.raised "RuntimeError" "boom")] := by
  intro s es answer run
  have ht : Tells (.map es) es := .inr rfl
  obtain ⟨extra, -, -, events, o, ho, haccounts⟩ := dispatch_accounted ht .sqlite s answer .error
  obtain ⟨r, hr, -⟩ : ∃ r, s.render .sqlite = .ok r ∧ r.sql = "SELECT count(*) AS count \nFROM \"t\"" :=
    Outcome.exists_of_isOk (by decide +kernel)
  obtain ⟨hresult, hentries⟩ := haccounts.told (by decide +kernel)
  cases ho with
  | unwritten text => cases hr.symm.trans text
  | raised text failure =>
    cases failure
    exact ⟨ht, hresult, ⟨_, haccounts.events⟩, congrArg (List.map (·.cause)) hentries⟩
  | unread text failure => cases failure
  | committed text failure => cases failure

/-- A telemetry key that is an attribute of log records takes the place of the driver's error, and of a
result that is committed. -/
theorem dispatch_overwritten :
    let s : Statement := .count ⟨none, "t"⟩ []
    let telemetry : Value := .map (Value.named [("name", .str "x")])
    let fetch (answer : Answer) := (engine .sqlite).fetchScalar s telemetry answer
    let failed := (fetch { failure := some (.raised "RuntimeError" "boom") }).start .warning
    let fetched := (fetch { scalar := .int 3 }).start .info
    (failed.1 = .error (.overwritesRecord "name") ∧
      ∃ r, failed.2.events = [.begin, .execute r, .rollback]) ∧
    fetched.1 = .error (.overwritesRecord "name") ∧
      ∃ r, fetched.2.events = [.begin, .execute r, .commit] := by
  intro s telemetry fetch failed fetched
  have hfailed : failed.1 = .error (.overwritesRecord "name") := by with_unfolding_all rfl
  have hfetched : fetched.1 = .error (.overwritesRecord "name") := by with_unfolding_all rfl
  exact ⟨⟨hfailed, _, by with_unfolding_all rfl⟩, hfetched, _, by with_unfolding_all rfl⟩

end Executor
end TableQuery
