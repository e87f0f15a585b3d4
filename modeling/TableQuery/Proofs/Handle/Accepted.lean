import TableQuery.Proofs.Handle.Overlay
import TableQuery.Proofs.Schema.Compiled

/-! Filters that a handle under a model accepts, as its terminal calls compile them. -/

namespace TableQuery

namespace Handle
open Schema

variable {o : Schema.Overlay} {s : Store} {v : Value}

/-- A filter that was accepted is let through, and so is what is kept of it. -/
theorem kept_of_checkFilter (hv : s.Settled v) (hc : checkFilter (some o) (s.resolve v) = .ok ()) :
    (s.resolve (Freeze.filter s.look v) = .none ∨
      (Filter.entries? (s.resolve (Freeze.filter s.look v))).isSome) ∧
      Cleared o.model (s.resolve (Freeze.filter s.look v)) := by
  refine ⟨?_, (cleared_of_checkFilter hc).freeze hv⟩
  cases hr : validateFilter o.model (s.resolve v) with
  | error e => cases (checkFilter_of_error hr).symm.trans hc
  | ok r =>
    rw [checkFilter_of_ok hr] at hc
    split at hc
    · rename_i hnone
      exact Filter.formed_freeze hv (formed_of_validateFilter hr hnone).1
    · cases hc

end Handle

namespace Session
open Schema

/-- A filter in which the model finds nothing wrong compiles under all rules that take its field names:
an equality map in any case, and a list unless an item has entries that its operator has no room for, a
pattern that is no mode or a collection to compare with, and then it is refused there; items that ask for
an order of truth values apart. So does, in a run of calls under the model in which no object is changed
that was passed, the filter of every handle that there is, as its terminal calls read it. -/
theorem accepted_compiles (o : Schema.Overlay) :
    (∀ rules v r, Nameable rules o.model → validateFilter o.model v = .ok r → r.findings = [] →
      Compiles rules v) ∧
    ∀ x s as, (∀ h ∈ s.handles, h.model = some o ∧ h.state = { table := h.name }) → Spares x s ∅ as →
      ∀ h ∈ (s.run x as).handles, Nameable h.rules o.model →
        Compiles h.rules (h.current (s.run x as).store).state.filter := by
  refine ⟨fun rules v r hn hr hnone => ?_, fun x s as hs ha h hh hn => ?_⟩
  · obtain ⟨hformed, hc⟩ := formed_of_validateFilter hr hnone
    exact hc.compiles hn hformed
  · have hnew := filters_of_new
      (P := fun w => (w = .none ∨ (Filter.entries? w).isSome) ∧ Cleared o.model w)
      ⟨.inl rfl, fun es hes => nomatch hes⟩ hs
    rw [← List.append_nil as] at ha
    obtain ⟨-, hformed, hc⟩ := hnew.run (fun store v => Handle.kept_of_checkFilter)
      (within_of_new fun h hh => (hs h hh).2) ha h hh
    exact hc.compiles hn hformed

theorem nameable_oneInteger : Nameable {} Handle.oneInteger := by
  intro f hf
  cases List.mem_singleton.mp hf
  decide

/-- A mapping with the parts of a comparison, and nothing else. -/
def atLeastOne : Value :=
  .map [(.str "field", .str "n"), (.str "operator", .str ">="), (.str "value", .int 1)]

theorem whole_atLeastOne : Whole atLeastOne := by
  intro k o w op hparts hop
  have hge : (atLeastOne.get "operator").text?.bind Operator.ofText? = some (.comparison .ge) := by
    with_unfolding_all rfl
  cases hparts
  cases hge.symm.trans hop
  refine ⟨fun es hes => ⟨fun e he => ?_, nofun⟩, fun _ => by decide +kernel⟩
  cases hes
  simp only [List.mem_cons, List.not_mem_nil, or_false] at he
  rcases he with rfl | rfl | rfl
  · exact ⟨"field", rfl, by decide, by decide +kernel⟩
  · exact ⟨"operator", rfl, by decide, by decide +kernel⟩
  · exact ⟨"value", rfl, by decide, by decide +kernel⟩

/-- A condition has no entries of its own. -/
theorem whole_membership (field : String) (v : Value) (given : Given) :
    Whole (.condition (.membership field v) given) := by
  intro k o w op hparts hop
  have hin : (Value.str "IN").text?.bind Operator.ofText? = some .membership := rfl
  cases hparts
  cases hin.symm.trans hop
  exact ⟨nofun, fun ⟨c, hc⟩ => nomatch hc⟩

/-- A mapping and a condition in a list, and an equality map that a handle has accepted. -/
theorem accepted_compiles_mixed :
    let x : Behaviour := ⟨fun _ => .ok [], fun _ => .ok .none⟩
    let v : Value := .list [atLeastOne, .condition (.membership "n" (.list [.int 1, .int 2])) {}]
    let as : List Act := [.chain 0 (.filter (.map [(.str "n", .int 1)]))]
    (∃ f, Filter.ofValue {} v = .ok f) ∧
    ∃ h ∈ (oneHandle.run x as).handles, h.state.filter = .frozen [(.str "n", .int 1)] ∧
      ∃ f, Filter.ofValue h.rules (h.current (oneHandle.run x as).store).state.filter = .ok f := by
  intro x v as
  obtain ⟨hvalue, hsession⟩ := accepted_compiles Handle.oneInteger
  refine ⟨?_, ?_⟩
  · obtain ⟨r, hr, hnone⟩ : ∃ r, validateFilter Handle.oneInteger v = .ok r ∧ r.findings = [] :=
      Outcome.exists_of_isOk (by decide +kernel)
    obtain ⟨hiff, -⟩ := (hvalue {} v r nameable_oneInteger hr hnone).list _ rfl fun y hy ho => by
      -- Neither of the two is a comparison with a truth value.
      have hread : Condition.ofValue atLeastOne = .ok (.comparison "n" .ge (.int 1)) := by
        with_unfolding_all rfl
      cases ho with
      | mk read order =>
        rcases List.mem_pair.mp hy with rfl | rfl
        · cases hread.symm.trans read
        · cases read
    refine hiff.mpr fun y hy => ?_
    rcases List.mem_pair.mp hy with rfl | rfl
    · exact whole_atLeastOne
    · exact whole_membership _ _ _
  · have hs : ∀ h ∈ oneHandle.handles,
        h.model = some Handle.oneInteger ∧ h.state = { table := h.name } := by
      intro h hh
      cases List.mem_singleton.mp hh
      exact ⟨rfl, rfl⟩
    have hspares : Spares x oneHandle ∅ as :=
      ⟨fun n hn => absurd hn (Store.not_holds_of_cells_nil rfl), trivial⟩
    have hstep : ∃ h, (oneHandle.run x as).handles[1]? = some h ∧ h.rules = ({} : Naming) ∧
        h.state.filter = .frozen [(.str "n", .int 1)] :=
      ⟨{ (oneHandle.handles[0]) with state := { table := "t", filter := .frozen [(.str "n", .int 1)] } },
        by with_unfolding_all rfl, rfl, rfl⟩
    obtain ⟨h, hi, hrules, hfilter⟩ := hstep
    have hh := List.mem_of_getElem? hi
    have hcompiles := hsession x oneHandle as hs hspares h hh (hrules ▸ nameable_oneInteger)
    refine ⟨h, hh, hfilter, hcompiles.map ?_⟩
    change (Value.entries? (Store.resolve _ h.state.filter)).isSome
    rw [hfilter]
    rfl

/-- An entry that no operator has room for is not looked at where the filter is checked, and refused
where it is compiled. -/
theorem accepted_refused :
    let v : Value := .list [.map [(.str "field", .str "n"), (.str "operator", .str "="),
      (.str "value", .int 1), (.str "extra", .int 2)]]
    Nameable {} Handle.oneInteger ∧
    (∃ r, validateFilter Handle.oneInteger v = .ok r ∧ r.findings = []) ∧
    ∃ f, Filter.ofValue {} v = .error f ∧
      f.message = "Invalid condition: extra: Extra inputs are not permitted" :=
  ⟨nameable_oneInteger, Outcome.exists_of_isOk (by decide +kernel),
    Outcome.exists_of_fault? (by decide +kernel)⟩

end Session
end TableQuery
