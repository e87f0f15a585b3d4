import TableQuery.Proofs.Engine.Events
import TableQuery.Proofs.Value.Keys

/-! What a run gives under one log level: its outcome, and all that it adds to whatever journal, but for
entries that are for debugging. -/

namespace TableQuery

namespace Logging

/-! Entries that overwrite nothing of a record. -/

theorem clash?_eq_none {es : Entries} :
    clash? es = none ↔ ∀ e ∈ es, e.1.text?.filter isReserved = none :=
  List.findSome?_eq_none_iff

theorem clash?_cons (e : Value × Value) (es : Entries) : clash? (e :: es) = (clash? [e]).or (clash? es) := by
  unfold clash?
  rw [List.findSome?_cons, List.findSome?_cons]
  cases e.1.text?.filter isReserved <;> rfl

/-- Only the keys have a say in it. -/
theorem clash?_congr {es gs : Entries} (h : es.map Prod.fst = gs.map Prod.fst) : clash? es = clash? gs := by
  have hkeys : ∀ ls : Entries, clash? ls =
      (ls.map Prod.fst).findSome? fun k => k.text?.filter isReserved := by
    intro ls
    rw [List.findSome?_map]
    rfl
  rw [hkeys, hkeys, h]

/-- An entry that takes the place of another has a key of the same text. -/
theorem clash?_insert (key v : Value) (es : Entries) :
    clash? (Value.insert key v es) = (clash? es).or (clash? [(key, v)]) := by
  rw [Value.insert]
  split
  · rename_i hkey
    have hsame : clash? (es.map fun e => if Value.same key e.1 then (e.1, v) else e) = clash? es := by
      refine clash?_congr ?_
      rw [List.map_map]
      refine List.map_congr_left fun e _ => ?_
      dsimp only [Function.comp]
      split <;> rfl
    rw [hsame]
    -- The entry under the key has its text, so that the key adds no clash to those of the entries.
    cases hes : clash? es with
    | some s => rfl
    | none =>
      obtain ⟨e, he, hsame⟩ := List.any_eq_true.mp hkey
      refine (clash?_eq_none.mpr fun e' he' => ?_).symm
      obtain rfl := List.mem_singleton.mp he'
      cases ht : key.text? with
      | none => rfl
      | some t =>
        have hfree := clash?_eq_none.mp hes e he
        rwa [Value.text?_of_same hsame ht] at hfree
  · exact List.findSome?_append

/-- A key that is not reserved clashes with nothing. -/
theorem clash?_insert_free {key : String} (hk : isReserved key = false) (v : Value) (es : Entries) :
    clash? (Value.insert (.str key) v es) = clash? es := by
  have hnone : clash? [(.str key, v)] = none := by
    refine clash?_eq_none.mpr fun e he => ?_
    obtain rfl := List.mem_singleton.mp he
    exact if_neg (by rw [hk]; exact Bool.false_ne_true)
  rw [clash?_insert, hnone, Option.or_none]

theorem clash?_insertAll (news es : Entries) :
    clash? (Value.insertAll news es) = (clash? es).or (clash? news) := by
  induction news generalizing es with
  | nil => exact Option.or_none.symm
  | cons e news ih =>
    change clash? (Value.insertAll news (Value.insert e.1 e.2 es)) = _
    rw [ih, clash?_insert, clash?_cons e news, Option.or_assoc]

/-- Leaving out what is not reserved makes no difference. -/
theorem clash?_filter {p : Value × Value → Bool} {es : Entries}
    (h : ∀ e ∈ es, p e = false → e.1.text?.filter isReserved = none) : clash? (es.filter p) = clash? es := by
  induction es with
  | nil => rfl
  | cons e es ih =>
    obtain ⟨he, hes⟩ := List.forall_mem_cons.mp h
    cases hp : p e with
    | true => rw [List.filter_cons_of_pos hp, clash?_cons, clash?_cons e es, ih hes]
    | false =>
      have hnone : clash? [e] = none := clash?_eq_none.mpr (List.forall_mem_singleton.mpr (he hp))
      rw [List.filter_cons_of_neg (by simp [hp]), clash?_cons e es, hnone, ih hes]
      rfl

end Logging

attribute [ext] Journal

namespace Journal

instance : Append Journal :=
  ⟨fun j k => ⟨j.events ++ k.events, j.spans ++ k.spans, j.entries ++ k.entries⟩⟩

/-- A journal without the entries that are for debugging. -/
def audible (j : Journal) : Journal :=
  { j with entries := j.entries.filter fun e => e.level ≠ .debug }

variable (j k l : Journal)

theorem events_append : (j ++ k).events = j.events ++ k.events := rfl

theorem append_assoc : j ++ k ++ l = j ++ (k ++ l) := by
  ext1
  · exact List.append_assoc ..
  · exact List.append_assoc ..
  · exact List.append_assoc ..

@[simp]
theorem append_empty : j ++ {} = j := by
  ext1
  · exact List.append_nil _
  · exact List.append_nil _
  · exact List.append_nil _

end Journal

namespace Run

variable {α β : Type} {r : Run α} {k : α → Run β} {level : Logging.Level} {o : Outcome α}
  {j j' : Journal}

/-- Under this level the run ends in this outcome, and this is what it adds to every journal. -/
def Gives (r : Run α) (level : Logging.Level) (o : Outcome α) (added : Journal) : Prop :=
  ∀ j, ∃ j', r level j = (o, j') ∧ j'.audible = j.audible ++ added

namespace Gives

theorem of_same (h : ∀ j, ∃ j', r level j = (o, j') ∧ j'.audible = j.audible) : r.Gives level o {} := by
  intro j
  obtain ⟨j', hr, hj⟩ := h j
  exact ⟨j', hr, hj.trans (Journal.append_empty _).symm⟩

theorem pure (a : α) : Gives (pure a) level (.ok a) {} := .of_same fun j => ⟨j, rfl, rfl⟩

theorem throw (f : Fault) : Gives (throw f : Run α) level (.error f) {} := .of_same fun j => ⟨j, rfl, rfl⟩

theorem bind {a : α} {o : Outcome β} (hr : r.Gives level (.ok a) j) (hk : (k a).Gives level o j') :
    (r >>= k).Gives level o (j ++ j') := by
  intro before
  obtain ⟨between, hb, hj⟩ := hr before
  obtain ⟨behind, hbehind, hj'⟩ := hk between
  refine ⟨behind, ?_, by rw [hj', hj, Journal.append_assoc]⟩
  rw [bind_apply, hb]
  exact hbehind

theorem bind_error {f : Fault} (hr : r.Gives level (.error f) j) : (r >>= k).Gives level (.error f) j := by
  intro before
  obtain ⟨behind, hb, hj⟩ := hr before
  refine ⟨behind, ?_, hj⟩
  rw [bind_apply, hb]

/-- What comes first adds nothing. -/
theorem after {a : α} {o : Outcome β} (hr : r.Gives level (.ok a) {}) (hk : (k a).Gives level o j) :
    (r >>= k).Gives level o j := hr.bind hk

/-- What comes last adds nothing. -/
theorem andThen {a : α} {o : Outcome β} (hr : r.Gives level (.ok a) j) (hk : (k a).Gives level o {}) :
    (r >>= k).Gives level o j := by
  have h := hr.bind hk
  rwa [Journal.append_empty] at h

theorem attempt (hr : r.Gives level o j) : r.attempt.Gives level (.ok o) j := by
  intro before
  obtain ⟨behind, hb, hj⟩ := hr before
  refine ⟨behind, ?_, hj⟩
  rw [Run.attempt, hb]

theorem note (e : Event) : Gives (note e) level (.ok ()) { events := [e] } := by
  refine fun j => ⟨_, rfl, ?_⟩
  ext1
  · rfl
  · exact (List.append_nil _).symm
  · exact (List.append_nil _).symm

/-- The journal of a whole run that starts with an empty one. -/
theorem start (hr : r.Gives level o j) :
    (r.start level).1 = o ∧ (r.start level).2.audible = j := by
  obtain ⟨j', hj, ha⟩ := hr {}
  rw [Run.start, hj]
  exact ⟨rfl, ha⟩

end Gives

theorem log_apply (e : Logging.Entry) (level : Logging.Level) (j : Journal) :
    log e level j = if level.number ≤ e.level.number then
      match Logging.clash? e.extra with
      | some key => (.error (.overwritesRecord key), j)
      | none => (.ok (), { j with entries := j.entries ++ [e] })
    else (.ok (), j) := by
  unfold log
  rw [bind_apply]
  change (if level.number ≤ e.level.number then _ else _ : Run Unit) level j = _
  split
  · cases Logging.clash? e.extra <;> rfl
  · rfl

namespace Gives

variable {e : Logging.Entry} {key : String}

theorem log_dropped (h : ¬ level.number ≤ e.level.number) : (log e).Gives level (.ok ()) {} :=
  .of_same fun j => ⟨j, by rw [log_apply, if_neg h], rfl⟩

theorem log_refused (h : level.number ≤ e.level.number) (hc : Logging.clash? e.extra = some key) :
    (log e).Gives level (.error (.overwritesRecord key)) {} :=
  .of_same fun j => ⟨j, by rw [log_apply, if_pos h, hc], rfl⟩

theorem log_kept (h : level.number ≤ e.level.number) (hc : Logging.clash? e.extra = none)
    (he : e.level ≠ .debug) : (log e).Gives level (.ok ()) { entries := [e] } := by
  refine fun j => ⟨_, by rw [log_apply, if_pos h, hc], ?_⟩
  ext1
  · exact (List.append_nil _).symm
  · exact (List.append_nil _).symm
  · change List.filter _ (j.entries ++ [e]) = _
    rw [List.filter_append, List.filter_cons_of_pos (by simpa using he)]
    rfl

theorem log_debug (he : e.level = .debug) (hc : Logging.clash? e.extra = none) :
    (log e).Gives level (.ok ()) {} := by
  by_cases hl : level.number ≤ e.level.number
  · refine .of_same fun j => ⟨_, by rw [log_apply, if_pos hl, hc], ?_⟩
    ext1
    · rfl
    · rfl
    · change List.filter _ (j.entries ++ [e]) = _
      rw [List.filter_append, List.filter_cons_of_neg (by simp [he]), List.filter_nil, List.append_nil]
      rfl
  · exact log_dropped hl

/-- A refusal is logged, for debugging. -/
theorem ofOutcome (o : Outcome α) : Gives (ofOutcome o) level o {} := by
  cases o with
  | ok a => exact .pure a
  | error f =>
    cases f with
    | rejected c => exact (log_debug rfl rfl).after (.throw _)
    | _ => exact .throw _

end Gives

/-- What becomes of an outcome that is logged first, and what is logged: where the entry is not dropped
and would overwrite its record, neither the outcome nor the entry is left. -/
def settled (level : Logging.Level) (e : Logging.Entry) (o : Outcome α) :
    Outcome α × List Logging.Entry :=
  if level.number ≤ e.level.number then
    match Logging.clash? e.extra with
    | some key => (.error (.overwritesRecord key), [])
    | none => (o, [e])
  else (o, [])

theorem settled_dropped {e : Logging.Entry} (h : ¬ level.number ≤ e.level.number) (o : Outcome α) :
    settled level e o = (o, []) := if_neg h

theorem settled_refused {e : Logging.Entry} {key : String} (h : level.number ≤ e.level.number)
    (hc : Logging.clash? e.extra = some key) (o : Outcome α) :
    settled level e o = (.error (.overwritesRecord key), []) := by
  rw [settled, if_pos h, hc]

theorem settled_kept {e : Logging.Entry} (h : level.number ≤ e.level.number)
    (hc : Logging.clash? e.extra = none) (o : Outcome α) : settled level e o = (o, [e]) := by
  rw [settled, if_pos h, hc]

theorem settled_fst {e : Logging.Entry} (hc : Logging.clash? e.extra = none) (o : Outcome α) :
    (settled level e o).1 = o := by
  rw [settled, hc]
  split <;> rfl

theorem Gives.settled {e : Logging.Entry} (he : e.level ≠ .debug) (hr : r.Gives level o {}) :
    (log e >>= fun _ => r).Gives level (settled level e o).1 { entries := (settled level e o).2 } := by
  by_cases hl : level.number ≤ e.level.number
  · cases hc : Logging.clash? e.extra with
    | some key =>
      rw [settled_refused hl hc]
      exact (log_refused hl hc).bind_error
    | none =>
      rw [settled_kept hl hc]
      exact (log_kept hl hc he).andThen hr
  · rw [settled_dropped hl]
    exact (log_dropped hl).after hr

end Run
end TableQuery
