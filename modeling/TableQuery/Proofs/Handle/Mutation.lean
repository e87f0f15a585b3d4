import TableQuery.Proofs.Handle.Dispatch
import TableQuery.Proofs.Query.Parts

/-! Updates and deletes are always filtered: by every entry of the filter, and by one at least. -/

namespace TableQuery

/-- The statement has predicates, and in each dialect they stand in its text behind WHERE. -/
def Statement.HasWhere (s : Statement) : Prop :=
  s.filter ≠ [] ∧ ∀ d, ∃ before behind, Layout.ofStatement d s =
    before ++ (.text " WHERE " :: Layout.conjunction d s.filter) ++ behind

namespace Query

/-- What can come of a mutation: a statement with one conjunct for each entry of the filter, in their
order, or an error. -/
inductive Guarded (rules : Naming) (filter : Value) : Outcome Statement → Prop
  | filtered {s : Statement} {es : List Filter.Entry} (entries : Filter.entries? filter = some es)
    (present : es ≠ []) (conjuncts : List.Forall₂ (Filter.Conjunct rules) es s.filter)
    (written : s.HasWhere) : Guarded rules filter (.ok s)
  | refused (f : Fault) : Guarded rules filter (.error f)

variable {rules : Naming} {s : State}

theorem update_hasWhere (t : Target) (assignments : List (String × Value)) {f : Filter}
    (c : Columns) (hf : f ≠ []) : (Statement.update t assignments f c).HasWhere := by
  refine ⟨hf, fun d => ⟨.text "UPDATE " :: Layout.target t ++ .text " SET " ::
    Layout.join ", " (assignments.map fun a => Layout.assignment a.1 a.2),
    Layout.returning c, ?_⟩⟩
  have hempty : f.isEmpty = false := by simpa using hf
  simp [Layout.ofStatement, Layout.filter, hempty, Statement.filter]

theorem delete_hasWhere (t : Target) {f : Filter} (c : Columns) (hf : f ≠ []) :
    (Statement.delete t f c).HasWhere := by
  refine ⟨hf, fun d => ⟨.text "DELETE FROM " :: Layout.target t, Layout.returning c, ?_⟩⟩
  have hempty : f.isEmpty = false := by simpa using hf
  simp [Layout.ofStatement, Layout.filter, hempty, Statement.filter]

theorem update_guarded (rules : Naming) (s : State) (data : Value) :
    Guarded rules s.filter (update rules s data) := by
  cases h : update rules s data with
  | error f => exact .refused f
  | ok st =>
    obtain ⟨entries, assignments, t, f, columns, hp, -, -, -, hf, -, rfl⟩ := update_eq_ok.mp h
    obtain ⟨es, he, hne, hc, hfne⟩ := present_conjuncts hp hf
    exact .filtered he hne hc (update_hasWhere t assignments columns hfne)

theorem delete_guarded (rules : Naming) (s : State) : Guarded rules s.filter (delete rules s) := by
  cases h : delete rules s with
  | error f => exact .refused f
  | ok st =>
    obtain ⟨t, f, columns, hp, -, hf, -, rfl⟩ := delete_eq_ok.mp h
    obtain ⟨es, he, hne, hc, hfne⟩ := present_conjuncts hp hf
    exact .filtered he hne hc (delete_hasWhere t columns hfne)

end Query

namespace Handle
open Query

/-- A terminal call that changes or removes rows. -/
def Terminal.Mutates : Terminal → Prop
  | update _ | delete => True
  | _ => False

theorem statement_guarded {h : Handle} {t : Terminal} (ht : t.Mutates) :
    Guarded h.rules h.state.filter (h.statement t) := by
  cases hd : data h.model t with
  | error f =>
    rw [statement, hd]
    exact .refused f
  | ok v =>
    cases t with
    | update w =>
      rw [statement, hd]
      exact update_guarded h.rules (h.capped (.update w)) v
    | delete =>
      rw [statement, hd]
      exact delete_guarded h.rules (h.capped .delete)
    | _ => exact ht.elim

/-- Whatever a filter holds, an update or delete is built with every entry of it and at least one, or
not at all; and whichever chain of calls has led to a handle, and whatever the caller has made of its
objects since, no statement without a filter goes to the database from such a call. -/
theorem mutations_filtered (rules : Naming) (s : State) (v : Value) :
    Guarded rules s.filter (Query.build rules .update s v) ∧
    Guarded rules s.filter (Query.build rules .delete s v) ∧
    ∀ (h : Handle) (calls : List (Store × Call)) (now : Store) (t : Terminal) (e : Executor)
      (answer : Answer) (level : Logging.Level), t.Mutates →
      ∀ event ∈ ((perform e ((h.after calls).current now) t answer).start level).2.events,
        ∃ st, Guarded (h.after calls).rules (now.resolve (h.after calls).state.filter) (.ok st) ∧
          event.Writes st := by
  refine ⟨update_guarded rules s v, delete_guarded rules s, ?_⟩
  intro h calls now t e answer level ht event hm
  obtain ⟨st, hst, hw⟩ := (adds_perform e _ t answer).events level event hm
  have hg : Guarded ((h.after calls).current now).rules ((h.after calls).current now).state.filter
      (((h.after calls).current now).statement t) := statement_guarded ht
  rw [hst] at hg
  exact ⟨st, hg, hw⟩

/-- A delete behind a chain of two filters, of which the later one counts. -/
theorem mutations_filtered_chain :
    let h : Handle := { rules := {}, state := { table := "users" } }
    let calls : List (Store × Call) :=
      [({}, .filter (.map [(.str "id", .int 7)])), ({}, .filter (.map [(.str "age", .none)]))]
    Terminal.delete.Mutates ∧
    0 < ((perform .recorder ((h.after calls).current {}) .delete {}).start .warning).2.events.length ∧
    ∀ event ∈ ((perform .recorder ((h.after calls).current {}) .delete {}).start .warning).2.events,
      ∃ st, Guarded (h.after calls).rules (Store.resolve {} (h.after calls).state.filter) (.ok st) ∧
        event.Writes st := by
  intro h calls
  refine ⟨trivial, by decide +kernel, ?_⟩
  exact (mutations_filtered {} { table := "users" } .none).2.2 h calls {} .delete .recorder {}
    .warning trivial

end Handle
end TableQuery
