import TableQuery.Proofs.Handle.Isolation
import TableQuery.Proofs.Schema.Frozen
import TableQuery.Proofs.Schema.Stored

/-! Sessions under a model: what reaches the executor has passed the checks of the model, and what
does not pass them changes nothing. -/

namespace TableQuery

namespace Handle
open Schema Outcome

variable {s : Store} {h h' : Handle} {c : Call} {o : Schema.Overlay} {t : Terminal}

theorem model_of_apply (ha : h.apply s c = .ok h') : h'.model = h.model := by
  cases c <;>
  · obtain ⟨_, -, ha⟩ := bind_eq_ok.mp ha
    cases pure_eq_ok.mp ha
    rfl

/-- A filter is kept as a copy of one that was checked, and no other call touches it. -/
theorem filter_of_apply (ha : h.apply s c = .ok h') : h'.state.filter = h.state.filter ∨
    ∃ v, c = .filter v ∧ checkFilter h.model (s.resolve v) = .ok () ∧
      h'.state.filter = Freeze.filter s.look v := by
  cases c with
  | filter v =>
    obtain ⟨⟨⟩, hcheck, ha⟩ := bind_eq_ok.mp ha
    cases pure_eq_ok.mp ha
    exact .inr ⟨v, rfl, hcheck, rfl⟩
  | select v | order v | skip v | take v =>
    obtain ⟨_, -, ha⟩ := bind_eq_ok.mp ha
    cases pure_eq_ok.mp ha
    exact .inl rfl

theorem checkFilter_of_ok {v : Value} {r : Result} (hr : validateFilter o.model v = .ok r) :
    checkFilter (some o) v = if r.findings = [] then .ok ()
      else .error (.rejected (.schemaFindings "where" r.findings)) := by
  rw [checkFilter, hr]
  change (sound "where" r >>= fun _ => pure ()) = _
  rw [sound, Result.isOk]
  cases r.findings <;> rfl

theorem checkFilter_of_error {v : Value} {e : Fault} (hr : validateFilter o.model v = .error e) :
    checkFilter (some o) v = .error e := by
  rw [checkFilter, hr]
  rfl

theorem cleared_of_checkFilter {v : Value} (hc : checkFilter (some o) v = .ok ()) :
    Cleared o.model v := by
  cases hr : validateFilter o.model v with
  | error e => cases (checkFilter_of_error hr).symm.trans hc
  | ok r =>
    rw [checkFilter_of_ok hr] at hc
    split at hc
    · rename_i hnone
      exact (hnone ▸ judged_of_validateFilter hr : Judged o.model v []).cleared
    · cases hc

/-- The check that a payload goes through, with what it is called where it fails. -/
def Terminal.check (o : Schema.Overlay) : Terminal → Option (String × Outcome Result)
  | create v => some ("data", validateRecord o [] v)
  | createMany v => some ("data", validateRecords o v)
  | update v => some ("update data", validatePartial o.model v)
  | _ => none

/-- A payload that is let through: records that are accepted, or declared fields with values that their
adapters take. -/
def Terminal.Passes (o : Schema.Overlay) : Terminal → Prop
  | create v => RecordPasses o v
  | createMany v => ∃ xs, v.items? = some xs ∧ ∀ x ∈ xs, RecordPasses o x
  | update v => ∃ es, v.entries? = some es ∧
      ∀ e ∈ es, ∃ f, ModelOf.field? o.model e.1 = some f ∧ Accepts f e.2
  | _ => True

/-- What the check of a payload ends in where nothing can be told of a record or an entry of it. -/
def Terminal.Breaks (o : Schema.Overlay) (e : Fault) : Terminal → Prop
  | create v => Schema.Breaks o v e
  | createMany v => ∃ xs, v.items? = some xs ∧ ∃ x ∈ xs, Schema.Breaks o x e
  | update v => ∃ es, v.entries? = some es ∧ ∃ entry ∈ es, EntryBreaks o.model entry.1 entry.2 e
  | _ => False

variable {subject : String} {r : Result} {e : Fault}

theorem findings_of_check (hc : t.check o = some (subject, .ok r)) :
    r.findings = [] ↔ t.Passes o := by
  cases t with
  | create v =>
    obtain ⟨-, hv⟩ := Prod.mk.inj (Option.some.inj hc)
    exact (validateRecord_eq_ok hv).1
  | createMany v =>
    obtain ⟨-, hv⟩ := Prod.mk.inj (Option.some.inj hc)
    exact (validateRecords_eq_ok hv).1
  | update v =>
    obtain ⟨-, hv⟩ := Prod.mk.inj (Option.some.inj hc)
    exact (validatePartial_eq_ok hv).1
  | _ => cases hc

theorem breaks_of_check (hc : t.check o = some (subject, .error e)) : t.Breaks o e := by
  cases t with
  | create v =>
    obtain ⟨-, hv⟩ := Prod.mk.inj (Option.some.inj hc)
    exact breaks_of_validateRecord hv
  | createMany v =>
    obtain ⟨-, hv⟩ := Prod.mk.inj (Option.some.inj hc)
    exact breaks_of_validateRecords hv
  | update v =>
    obtain ⟨-, hv⟩ := Prod.mk.inj (Option.some.inj hc)
    exact breaks_of_validatePartial hv
  | _ => cases hc

/-- Payloads are read as their check has it. -/
theorem data_of_check {checked : Outcome Result} (hc : t.check o = some (subject, checked)) :
    data (some o) t = checked >>= sound subject := by
  cases t with
  | create v | createMany v | update v =>
    obtain ⟨rfl, rfl⟩ := Prod.mk.inj (Option.some.inj hc)
    rfl
  | _ => cases hc

/-- A call whose payload is not sound ends there. -/
theorem statement_of_check (hm : h.model = some o) (hc : t.check o = some (subject, .ok r))
    (hf : r.findings ≠ []) :
    h.statement t = .error (.rejected (.schemaFindings subject r.findings)) := by
  have hsound : sound subject r = .error (.rejected (.schemaFindings subject r.findings)) := by
    rw [sound, Result.isOk]
    cases hr : r.findings with
    | nil => exact absurd hr hf
    | cons f fs => rfl
  rw [statement, hm, data_of_check hc]
  change (sound subject r >>= _) = _
  rw [hsound]
  rfl

theorem statement_of_check_error (hm : h.model = some o)
    (hc : t.check o = some (subject, .error e)) : h.statement t = .error e := by
  rw [statement, hm, data_of_check hc]
  rfl

end Handle

namespace Session
open Schema

variable {x : Behaviour} {s : Session} {o : Schema.Overlay} {passed : Set Nat}

/-- All handles go by the model, and every filter reads as one with a property. -/
def Filters (o : Schema.Overlay) (P : Value → Prop) (s : Session) : Prop :=
  ∀ h ∈ s.handles, h.model = some o ∧ P (s.store.resolve h.state.filter)

/-- A property of filters that the model lets through, as they are kept. -/
def Kept (o : Schema.Overlay) (P : Value → Prop) : Prop :=
  ∀ (store : Store) v, store.Settled v → Handle.checkFilter (some o) (store.resolve v) = .ok () →
    P (store.resolve (Freeze.filter store.look v))

theorem Filters.step {P : Value → Prop} (hP : Kept o P) (hu : s.Filters o P) (hw : s.Within passed)
    {a : Act} (ha : a.Spares s passed) : (s.step x a).2.Filters o P := by
  obtain ⟨-, hcurrent⟩ := hw.step (x := x) ha
  -- A handle that reads as before has the filter that it had.
  have hkept : ∀ h ∈ s.handles, h.model = some o ∧
      P ((s.step x a).2.store.resolve h.state.filter) := by
    intro h hh
    have hfilter : (s.step x a).2.store.resolve h.state.filter =
        s.store.resolve h.state.filter := congrArg (·.state.filter) (hcurrent h hh)
    exact hfilter ▸ hu h hh
  obtain ⟨f, he⟩ | ⟨i, c, h, h', rfl, hh, hc, he⟩ | ⟨i, c, h, rfl, -, he⟩ |
    ⟨v, path, c, store, rfl, -, he⟩ := step_cases x s a
  · rw [he] at hkept ⊢
    exact hkept
  · rw [he] at hkept ⊢
    intro g hg
    rcases List.mem_append.mp hg with hg | hg
    · exact hkept g hg
    · cases List.mem_singleton.mp hg
      obtain ⟨hm, hold⟩ := hu h hh
      refine ⟨(Handle.model_of_apply hc).trans hm, ?_⟩
      rcases Handle.filter_of_apply hc with hf | ⟨v, rfl, hcheck, hf⟩
      · rw [hf]
        exact hold
      · rw [hm] at hcheck
        rw [hf]
        exact hP s.store v ha hcheck
  · rw [he] at hkept ⊢
    exact hkept
  · rw [he] at hkept ⊢
    exact hkept

theorem Filters.run {P : Value → Prop} (hP : Kept o P) (hu : s.Filters o P) (hw : s.Within passed)
    {before after : List Act} (ha : Spares x s passed (before ++ after)) :
    (s.run x before).Filters o P := by
  induction before generalizing s passed with
  | nil => exact hu
  | cons a before ih => exact ih (hu.step hP hw ha.1) (hw.step ha.1).1 ha.2

/-- Handles that nothing has been asked of have no filter. -/
theorem filters_of_new {P : Value → Prop} (hP : P .none)
    (hs : ∀ h ∈ s.handles, h.model = some o ∧ h.state = { table := h.name }) : s.Filters o P := by
  intro h hh
  obtain ⟨hm, hstate⟩ := hs h hh
  refine ⟨hm, ?_⟩
  rw [hstate]
  exact hP

/-- All handles go by the model, and what it lets through is all that they filter by. -/
def Under (o : Schema.Overlay) (s : Session) : Prop :=
  ∀ h ∈ s.handles, h.model = some o ∧ Cleared o.model (s.store.resolve h.state.filter)

theorem Under.run (hu : s.Under o) (hw : s.Within passed) {before after : List Act}
    (ha : Spares x s passed (before ++ after)) : (s.run x before).Under o :=
  Filters.run (P := Cleared o.model)
    (fun _ _ hv hc => (Handle.cleared_of_checkFilter hc).freeze hv) hu hw ha

theorem under_of_new (hs : ∀ h ∈ s.handles, h.model = some o ∧ h.state = { table := h.name }) :
    s.Under o :=
  filters_of_new (P := Cleared o.model) (fun _ hes => nomatch hes) hs

/-- What a handle under a model dispatches is what the model lets through. -/
theorem Under.dispatch (hu : s.Under o) {h : Handle} (hh : h ∈ s.handles) {t : Handle.Terminal}
    {d : Dispatch} (hd : (h.current s.store).dispatch? t = some d) :
    Written o t d.statement ∧ ∀ p ∈ d.statement.filter, Vouched o.model p := by
  obtain ⟨hm, hc⟩ := hu h hh
  obtain ⟨st, hst, rfl⟩ := Option.map_eq_some_iff.mp hd
  have hs : (h.current s.store).statement t = .ok st := by
    cases hx : (h.current s.store).statement t with
    | error f => rw [hx] at hst; cases hst
    | ok st' => rw [hx] at hst; cases hst; rfl
  refine ⟨written_of_statement (h := h.current s.store) hm hs, fun p hp => ?_⟩
  obtain ⟨data, -, hb⟩ := Outcome.bind_eq_ok.mp hs
  rcases Query.filter_of_build hb with ⟨-, hnone⟩ | hfilter
  · rw [hnone] at hp
    cases hp
  · exact hc.vouched hfilter p hp

theorem step_filter_of_error {i : Nat} {h : Handle} {v : Value} {e : Fault}
    (hi : s.handles[i]? = some h) (hm : h.model = some o)
    (he : Handle.checkFilter (some o) (s.store.resolve v) = .error e) :
    s.step x (.chain i (.filter v)) = (.error e, s) := by
  rw [step, hi]
  dsimp only
  rw [Handle.apply, hm, he]
  rfl

theorem step_filter_of_ok {i : Nat} {h : Handle} {v : Value} (hi : s.handles[i]? = some h)
    (hm : h.model = some o) (hc : Handle.checkFilter (some o) (s.store.resolve v) = .ok ()) :
    ∃ h', s.step x (.chain i (.filter v)) = (.ok .none, { s with handles := s.handles ++ [h'] }) := by
  rw [step, hi]
  dsimp only
  rw [Handle.apply, hm, hc]
  exact ⟨_, rfl⟩

/-- What becomes of a filter that is passed to a handle under a model. One that is let through gives a new
handle. Any other is refused with all that is wrong with it, unless an entry spoils the check, and nothing
is any different afterwards. -/
inductive FilterSettled (x : Behaviour) (o : Schema.Overlay) (s : Session) (i : Nat) (v : Value) : Prop
  | accepted {h' : Handle} (judged : Judged o.model (s.store.resolve v) [])
    (cleared : Cleared o.model (s.store.resolve v))
    (step : s.step x (.chain i (.filter v)) = (.ok .none, { s with handles := s.handles ++ [h'] }))
  | refused {found : List Finding} (judged : Judged o.model (s.store.resolve v) found)
    (some : found ≠ [])
    (step : s.step x (.chain i (.filter v)) =
      (.error (.rejected (.schemaFindings "where" found)), s))
  | spoiled {es : List Filter.Entry} {entry : Filter.Entry} {e : Fault}
    (entries : Filter.entries? (s.store.resolve v) = Option.some es) (mem : entry ∈ es)
    (spoils : Spoils o.model entry e) (step : s.step x (.chain i (.filter v)) = (.error e, s))

/-- What becomes of a payload under a model. What is not let through is refused with all that is wrong with
it, unless nothing can be told of a part of it, and nothing is any different afterwards. -/
inductive PayloadSettled (x : Behaviour) (o : Schema.Overlay) (s : Session) (i : Nat)
    (t : Handle.Terminal) (subject : String) : Outcome Result → Prop
  | sound {r : Result} (none : r.findings = []) (passes : (t.resolved s.store).Passes o) :
    PayloadSettled x o s i t subject (.ok r)
  | refused {r : Result} (some : r.findings ≠ []) (fails : ¬ (t.resolved s.store).Passes o)
    (step : s.step x (.terminal i t) =
      (.error (.rejected (.schemaFindings subject r.findings)), s)) :
    PayloadSettled x o s i t subject (.ok r)
  | broken {e : Fault} (breaks : (t.resolved s.store).Breaks o e)
    (step : s.step x (.terminal i t) = (.error e, s)) : PayloadSettled x o s i t subject (.error e)

theorem filterSettled (x : Behaviour) {i : Nat} {h : Handle} (hi : s.handles[i]? = some h)
    (hm : h.model = some o) (v : Value) : FilterSettled x o s i v := by
  cases hr : validateFilter o.model (s.store.resolve v) with
  | error e =>
    obtain ⟨es, entry, entries, mem, spoils⟩ := spoils_of_validateFilter hr
    exact .spoiled entries mem spoils (step_filter_of_error hi hm (Handle.checkFilter_of_error hr))
  | ok r =>
    have hjudged := judged_of_validateFilter hr
    have hc := Handle.checkFilter_of_ok hr
    by_cases hnone : r.findings = []
    · rw [if_pos hnone] at hc
      rw [hnone] at hjudged
      obtain ⟨h', hstep⟩ := step_filter_of_ok (x := x) hi hm hc
      exact .accepted hjudged hjudged.cleared hstep
    · rw [if_neg hnone] at hc
      exact .refused hjudged hnone (step_filter_of_error hi hm hc)

theorem step_of_unbuilt {i : Nat} {h : Handle} {t : Handle.Terminal} {e : Fault}
    (hi : s.handles[i]? = some h)
    (hs : (h.current s.store).statement (t.resolved s.store) = .error e) :
    s.step x (.terminal i t) = (.error e, s) := by
  rw [step_terminal hi, Handle.exchange_of_error x s.calls hs]

theorem payloadSettled (x : Behaviour) {i : Nat} {h : Handle} {t : Handle.Terminal}
    {subject : String} {checked : Outcome Result} (hi : s.handles[i]? = some h)
    (hm : h.model = some o) (hc : (t.resolved s.store).check o = some (subject, checked)) :
    PayloadSettled x o s i t subject checked := by
  cases checked with
  | error e =>
    exact .broken (Handle.breaks_of_check hc) (step_of_unbuilt hi
      (Handle.statement_of_check_error (h := h.current s.store) hm hc))
  | ok r =>
    have hiff := Handle.findings_of_check hc
    by_cases hnone : r.findings = []
    · exact .sound hnone (hiff.mp hnone)
    · exact .refused hnone (mt hiff.mpr hnone) (step_of_unbuilt hi
        (Handle.statement_of_check (h := h.current s.store) hm hc hnone))

/-- A run of calls under a model: what reaches the executor, and what becomes of filters and payloads that
are passed after it. Every statement that reaches the executor filters by conditions that the model vouches
for, on columns with the trimmed names of its fields, and stores what its checks gave back. -/
structure Overlaid (x : Behaviour) (o : Schema.Overlay) (s : Session) (as : List Act) : Prop where
  dispatched : ∀ d ∈ (s.run x as).calls, d ∈ s.calls ∨
    ∃ before i t after, as = before ++ .terminal i t :: after ∧
      Written o (t.resolved (s.run x before).store) d.statement ∧
      ∀ p ∈ d.statement.filter, Vouched o.model p
  filters : ∀ i h v, (s.run x as).handles[i]? = some h → FilterSettled x o (s.run x as) i v
  payloads : ∀ i h t subject checked, (s.run x as).handles[i]? = some h →
    (t.resolved (s.run x as).store).check o = some (subject, checked) →
      PayloadSettled x o (s.run x as) i t subject checked

/-- Every run of calls under a model is of this kind, whatever its adapters make of values and however it
reads whole records, so long as no object is changed that was passed. -/
theorem overlay_sound (x : Behaviour) (o : Schema.Overlay) (s : Session)
    (hs : ∀ h ∈ s.handles, h.model = some o ∧ h.state = { table := h.name }) (as : List Act)
    (ha : Spares x s ∅ as) : Overlaid x o s as := by
  have hw : s.Within ∅ := within_of_new fun h hh => (hs h hh).2
  have hu : s.Under o := under_of_new hs
  have hmodel : ∀ (i : Nat) (h : Handle), (s.run x as).handles[i]? = some h → h.model = some o := by
    intro i h hi
    rw [← List.append_nil as] at ha
    exact ((hu.run hw ha) h (List.mem_of_getElem? hi)).1
  refine ⟨fun d hd => ?_, fun i h v hi => filterSettled x hi (hmodel i h hi) v,
    fun i h t subject checked hi hc => payloadSettled x hi (hmodel i h hi) hc⟩
  -- The filter of a handle was checked when it was given, and reads as it did then.
  refine (mem_calls_run hd).imp id ?_
  rintro ⟨before, i, t, after, h, rfl, hh, hdispatch⟩
  obtain ⟨hwritten, hvouched⟩ := (hu.run hw ha).dispatch hh hdispatch
  exact ⟨before, i, t, after, rfl, hwritten, hvouched⟩

/-- A handle under a model of one integer. -/
def oneHandle : Session where
  handles := [{ rules := {}, state := { table := "t" }, model := some Handle.oneInteger }]

theorem not_faults_oneInteger (e : Fault) : ¬ Faults Handle.oneInteger e := by
  rintro ⟨f, hf, v, h⟩
  cases List.mem_singleton.mp hf
  rw [FieldType.check] at h
  cases hc : checkInteger ({} : Rule).strict (({} : Rule).own .integer) v <;>
  · rw [hc] at h
    cases h

/-- A letter is no integer. -/
theorem not_accepts_letter (name : String) : ¬ Accepts { name, type := .integer } (.str "x") := by
  rintro ⟨c, hc⟩
  have hno : (FieldType.check {} .integer (.str "x")).toOption.any (·.isOk) = false := by
    decide +kernel
  rw [hc] at hno
  cases hno

theorem not_passes_oneInteger : ¬ Passes Handle.oneInteger (.equality (.str "n") (.str "x")) := by
  intro hp
  cases hp with
  | @equality k v f known accepted =>
    obtain ⟨hf, -⟩ := field?_eq_some known
    cases List.mem_singleton.mp hf
    exact not_accepts_letter "n" accepted

/-- A filter and an update with integers, one of them as a text, and then a filter with a text that is
none. -/
theorem overlay_sound_update :
    let x : Behaviour := ⟨fun _ => .ok [], fun _ => .ok .none⟩
    let data : Value := .map [(.str "n", .str "7")]
    let as : List Act := [.chain 0 (.filter (.map [(.str "n", .int 1)])), .terminal 1 (.update data)]
    let now := oneHandle.run x as
    (∀ h ∈ oneHandle.handles, h.model = some Handle.oneInteger ∧ h.state = { table := h.name }) ∧
    Spares x oneHandle ∅ as ∧
    (∃ d ∈ now.calls, Written Handle.oneInteger (.update data) d.statement ∧
      ∀ p ∈ d.statement.filter, Vouched Handle.oneInteger p) ∧
    ∃ found, found ≠ [] ∧ now.step x (.chain 1 (.filter (.map [(.str "n", .str "x")]))) =
      (.error (.rejected (.schemaFindings "where" found)), now) := by
  intro x data as now
  have hnew : ∀ h ∈ oneHandle.handles,
      h.model = some Handle.oneInteger ∧ h.state = { table := h.name } := by
    intro h hh
    cases List.mem_singleton.mp hh
    exact ⟨rfl, rfl⟩
  have hspares : Spares x oneHandle ∅ as :=
    ⟨fun n hn => absurd hn (Store.not_holds_of_cells_nil rfl), trivial, trivial⟩
  have hoverlaid := overlay_sound x Handle.oneInteger oneHandle hnew as hspares
  obtain ⟨h, hh⟩ : ∃ h, now.handles[1]? = some h := by
    refine Option.isSome_iff_exists.mp ?_
    decide +kernel
  refine ⟨hnew, hspares, ?_, ?_⟩
  · obtain ⟨d, hd⟩ : ∃ d, d ∈ now.calls := by
      refine List.exists_mem_of_length_pos ?_
      decide +kernel
    rcases hoverlaid.dispatched d hd with hno | ⟨before, i, t, after, hsplit, hwritten, hvouched⟩
    · cases hno
    · have hlast : t = .update data ∧ before = [.chain 0 (.filter (.map [(.str "n", .int 1)]))] := by
        dsimp only [as] at hsplit
        match before, hsplit with
        | [], hsplit => cases hsplit
        | [_], hsplit => cases hsplit; exact ⟨rfl, rfl⟩
        | _ :: _ :: before, hsplit => cases before <;> cases hsplit
      obtain ⟨rfl, rfl⟩ := hlast
      exact ⟨d, hd, hwritten, hvouched⟩
  · cases hoverlaid.filters 1 h (.map [(.str "n", .str "x")]) hh with
    | accepted _ cleared => exact absurd (cleared _ rfl _ List.mem_cons_self) not_passes_oneInteger
    | refused _ some step => exact ⟨_, some, step⟩
    | spoiled entries mem spoils =>
      cases entries
      cases List.mem_singleton.mp mem
      cases spoils with
      | adapter fault => exact absurd fault (not_faults_oneInteger _)
      | untold untellable =>
        cases untellable with
        | key unknown => cases unknown

/-- Two fields whose names are the same but for a blank. -/
def paddedNames : Schema.Model where
  name := "Row"
  fields := [{ name := "id", type := .integer }, { name := "id ", type := .text }]

/-- A handle that filters by the second of them. -/
def filteredNames : Handle where
  rules := {}
  state := { table := "t", filter := .frozen [(.str "id ", .str "x")] }
  model := some paddedNames

theorem statement_filteredNames : (filteredNames.current {}).statement .findMany =
    .ok (.select .all ⟨none, "t"⟩ [.compare "id" .eq (.str "x")] [] none none) := by
  with_unfolding_all rfl

/-- A condition without an operator is not refused, and neither is an unknown field that cannot be written
out: the check itself fails on them. And a text that was checked for one field is compared with the column
of another, whose adapter does not take it. -/
theorem overlay_missed :
    let x : Behaviour := ⟨fun _ => .ok [], fun _ => .ok .none⟩
    let padded : Session :=
      { handles := [{ rules := {}, state := { table := "t" }, model := some paddedNames }] }
    oneHandle.step x (.chain 0 (.filter (.list [.condition (.base "n") {}]))) =
      (.error (.noMember "BaseCondition" "operator"), oneHandle) ∧
    oneHandle.step x (.chain 0 (.filter (.map [(.tooLong, .int 1)]))) =
      (.error .tooManyDigits, oneHandle) ∧
    (∃ d ∈ (padded.run x [.chain 0 (.filter (.map [(.str "id ", .str "x")])),
      .terminal 1 .findMany]).calls, d.statement.filter = [.compare "id" .eq (.str "x")]) ∧
    ∃ f, ModelOf.field? paddedNames (.str "id") = some f ∧ ¬ Accepts f (.str "x") := by
  intro x padded
  have hlong : oneHandle.step x (.chain 0 (.filter (.map [(.tooLong, .int 1)]))) =
      (.error .tooManyDigits, oneHandle) :=
    step_filter_of_error rfl rfl
      (Handle.checkFilter_of_error (validateFilter_of_untold rfl Value.hasText_tooLong))
  refine ⟨rfl, hlong, ?_, _, rfl, not_accepts_letter "id"⟩
  have hstep : padded.step x (.chain 0 (.filter (.map [(.str "id ", .str "x")]))) =
      (.ok .none, { padded with handles := padded.handles ++ [filteredNames] }) := by
    with_unfolding_all rfl
  obtain ⟨d, hd, hfilter⟩ : ∃ d, ((filteredNames.current {}).exchange x .findMany []).2 = [d] ∧
      d.statement.filter = [.compare "id" .eq (.str "x")] :=
    ⟨_, congrArg Prod.snd (Handle.exchange_of_dispatch x []
      (Handle.dispatch?_of_ok statement_filteredNames)), rfl⟩
  rw [run_cons, hstep, run_cons, step_terminal (h := filteredNames) rfl]
  exact ⟨d, hd ▸ List.mem_singleton_self d, hfilter⟩

end Session
end TableQuery
