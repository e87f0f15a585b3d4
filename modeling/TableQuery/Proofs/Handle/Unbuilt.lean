import TableQuery.Proofs.Handle.Preview
import TableQuery.Proofs.Handle.Sound
import TableQuery.Proofs.Schema.Faults
import TableQuery.Proofs.Sql.Faults

/-! What a sound handle can fail with before it dispatches anything, and the bounds of what it
dispatches. -/

namespace TableQuery
open Outcome

/-- A query that is cut is cut to some rows, from a row that may be there. -/
def Statement.Paged : Statement → Prop
  | .select _ _ _ _ take skip => (∀ n, take = some n → 0 < n) ∧ ∀ n, skip = some n → 0 ≤ n
  | _ => True

namespace Query

variable {rules : Naming} {s : State} {kind : StatementKind} {data : Value} {st : Statement}

theorem bound?_eq_some {w : Option Coerce.Whole} {P : Int → Prop}
    (hw : ∀ v, w = some v → ∃ n : Int, v = .int n ∧ P n) {r : Option Int} (h : bound? w = .ok r) :
    ∀ n, r = some n → P n := by
  rintro n rfl
  cases w with
  | none => cases h
  | some v =>
    obtain ⟨m, rfl, hm⟩ := hw v rfl
    cases h
    exact hm

theorem paged_build (ht : ∀ w, s.take = some w → ∃ n : Int, w = .int n ∧ 0 < n)
    (hk : ∀ w, s.skip = some w → ∃ n : Int, w = .int n ∧ 0 ≤ n)
    (h : build rules kind s data = .ok st) : st.Paged := by
  cases kind with
  | select =>
    obtain ⟨_, _, _, _, take, skip, -, -, -, -, htake, hskip, rfl⟩ := select_eq_ok.mp h
    exact ⟨bound?_eq_some ht htake, bound?_eq_some hk hskip⟩
  | count =>
    obtain ⟨_, _, -, -, rfl⟩ := count_eq_ok.mp h
    trivial
  | insert =>
    obtain ⟨_, _, _, _, -, -, -, -, rfl⟩ := insert_eq_ok.mp h
    trivial
  | insertMany =>
    obtain ⟨_, _, _, _, _, -, -, -, -, -, -, rfl⟩ := insertMany_eq_ok h
    trivial
  | update =>
    obtain ⟨_, _, _, _, _, -, -, -, -, -, -, rfl⟩ := update_eq_ok.mp h
    trivial
  | delete =>
    obtain ⟨_, _, _, -, -, -, -, rfl⟩ := delete_eq_ok.mp h
    trivial

theorem Wrong.area {v : Value} {c : Rejection}
    (hc : Wrong rules s v (.rejected c)) : c.area = .query := by
  cases hc with
  | refused hq =>
    cases hq with
    | refused _ area => exact area

end Query

namespace Handle

/-- What a model finds wrong with a payload, or a check that cannot be made. -/
inductive Unchecked : Option Schema.Overlay → Fault → Prop
  | findings (o : Schema.Overlay) (subject : String) (found : List Finding) :
    Unchecked (some o) (.rejected (.schemaFindings subject found))
  | stuck {o : Schema.Overlay} {f : Fault} (fault : Schema.Stuck o.Raises f) : Unchecked (some o) f

/-- What is wrong with the payload of a call, or with the query of a handle beside the payload as it is
read. -/
inductive Unbuilt (h : Handle) (read : Outcome Value) (f : Fault) : Prop
  | unchecked (failed : read = .error f) (fault : Unchecked h.model f)
  | wrong {v : Value} (ok : read = .ok v) (fault : Query.Wrong h.rules h.state v f)

theorem Unbuilt.area {h : Handle} {read : Outcome Value} {c : Rejection}
    (hc : h.Unbuilt read (.rejected c)) : c.area = .query ∨ c.area = .schema := by
  cases hc with
  | wrong _ fault => exact .inl fault.area
  | unchecked _ fault =>
    generalize h.model = model at fault
    cases fault with
    | findings => exact .inr rfl
    | stuck fault =>
      cases fault with
      | given raised =>
        cases raised with
        | type _ raises => cases raises

theorem fails_sound (o : Schema.Overlay) (subject : String) (r : Schema.Result) :
    Fails (Unchecked (some o)) (sound subject r) := by
  unfold Handle.sound
  split
  · exact .ok _
  · exact .reject (.findings o subject _)

theorem fails_data (o : Option Schema.Overlay) (t : Terminal) : Fails (Unchecked o) (data o t) := by
  cases o with
  | none =>
    rw [data_of_table]
    exact .ok _
  | some o =>
    have hstuck : ∀ {α : Type} {x : Outcome α}, Fails (Schema.Stuck o.Raises) x →
        Fails (Unchecked (some o)) x := fun hx => hx.mono fun _ => .stuck
    cases t with
    | create v =>
      exact (hstuck (Schema.fails_validateRecord o [] v)).bind fun r _ => fails_sound o _ r
    | createMany v =>
      exact (hstuck (Schema.fails_validateRecords o v)).bind fun r _ => fails_sound o _ r
    | update v =>
      exact (hstuck (Schema.fails_validatePartial o v)).bind fun r _ => fails_sound o _ r
    | _ => exact .ok _

/-- A bound that a call puts in its place makes nothing wrong with a query. -/
theorem wrong_of_capped {h : Handle} {t : Terminal} {v : Value} {f : Fault}
    (hf : Query.Wrong h.rules (h.capped t) v f) : Query.Wrong h.rules h.state v f := by
  cases hf with
  | refused hq => exact .refused hq
  | unordered ho => exact .unordered ho

namespace Sound

variable {h : Handle} (hs : h.Sound)
include hs

/-- A bound that a call puts in place of the handle's own is one. -/
theorem take_capped (t : Terminal) :
    ∀ w, (h.capped t).take = some w → ∃ n : Int, w = .int n ∧ 0 < n := by
  intro w hw
  cases t with
  | findFirst | findUnique =>
    cases hw
    exact ⟨_, rfl, by decide⟩
  | _ => exact hs.take w hw

theorem fails_build {s : State} (hname : s.table = h.name) (hskip : s.skip = h.state.skip)
    (htake : ∀ w, s.take = some w → ∃ n : Int, w = .int n ∧ 0 < n) (kind : StatementKind)
    (data : Value) : Fails (Query.Wrong h.rules s data) (Query.build h.rules kind s data) := by
  refine (Query.fails_build h.rules s data kind).mono fun f hf => ?_
  cases hf with
  | query hq => exact hq
  | table hno =>
    rw [hname, hs.valid] at hno
    cases hno
  | bound given unread =>
    -- Both bounds are integers, which are read as they are.
    rcases given with hw | hw
    · obtain ⟨n, rfl, -⟩ := htake _ hw
      cases unread
    · obtain ⟨n, rfl, -⟩ := hs.skip _ (hskip ▸ hw)
      cases unread

theorem fails_statement (t : Terminal) :
    Fails (h.Unbuilt (data h.model t)) (h.statement t) := by
  intro f hf
  rcases bind_eq_error.mp hf with hd | ⟨v, hv, hb⟩
  · exact .unchecked hd (fails_data h.model t f hd)
  · have hwrong := hs.fails_build (s := h.capped t) rfl rfl (hs.take_capped t) _ v f hb
    exact .wrong hv (wrong_of_capped hwrong)

theorem paged_statement {t : Terminal} {st : Statement} (hst : h.statement t = .ok st) :
    st.Paged := by
  obtain ⟨v, -, hb⟩ := bind_eq_ok.mp hst
  exact Query.paged_build (hs.take_capped t) hs.skip hb

theorem paged_dispatch {t : Terminal} {d : Dispatch} (hd : h.dispatch? t = some d) :
    d.statement.Paged := by
  cases hst : h.statement t with
  | error f => cases (dispatch?_of_error hst).symm.trans hd
  | ok st =>
    cases (dispatch?_of_ok hst).symm.trans hd
    exact hs.paged_statement hst

/-- A preview is no call: its kind may be none, and what is built may not be writable. -/
theorem fails_preview (e : Executor) (kind data : Value) (dialect : Option Dialect) :
    Fails (fun f => (∃ v, f = .unknownKind v) ∨ Query.Wrong h.rules h.state data f ∨
      Binding.Unwritten f) (preview e h kind data dialect) := by
  unfold preview
  split
  · exact .error (.inl ⟨kind, rfl⟩)
  · refine Fails.bind ?_ fun st _ => ?_
    · exact (hs.fails_build rfl rfl hs.take _ data).mono fun _ hq => .inr (.inl hq)
    · exact (st.fails_render _).mono fun _ hw => .inr (.inr hw)

theorem paged_preview {e : Executor} {kind data : Value} {dialect : Option Dialect} {r : Rendered}
    (hr : preview e h kind data dialect = .ok r) : ∃ k st, Query.kind? kind = some k ∧
      Query.build h.rules k h.state data = .ok st ∧ st.Paged ∧
      st.render (dialect.getD e.dialect) = .ok r := by
  unfold preview at hr
  split at hr
  · cases hr
  · rename_i k hk
    obtain ⟨st, hst, hr⟩ := bind_eq_ok.mp hr
    exact ⟨k, st, hk, hst, Query.paged_build hs.take hs.skip hst, hr⟩

/-- A preview is never refused for the name of the table. -/
theorem area_preview {e : Executor} {kind data : Value} {dialect : Option Dialect} {c : Rejection}
    (hc : preview e h kind data dialect = .error (.rejected c)) : c.area = .query := by
  rcases hs.fails_preview e kind data dialect _ hc with ⟨v, hv⟩ | hq | hw
  · cases hv
  · exact hq.area
  · cases hw

/-- Nor is a terminal call, unless the executor refuses it. -/
theorem area_exchange {x : Behaviour} {t : Terminal} {earlier : List Dispatch} {c : Rejection}
    (hc : (h.exchange x t earlier).1 = .error (.rejected c))
    (ho : (h.exchange x t earlier).2 = earlier ∨ x.fault? (h.exchange x t earlier).2 = none) :
    c.area = .query ∨ c.area = .schema := by
  obtain ⟨hst, -⟩ | ⟨d, rows, -, -, hf⟩ := exchange_rejected x earlier hc ho
  · exact (hs.fails_statement t _ hst).area
  · rcases finish_rejected hf with ⟨-, rfl, -⟩ | ⟨-, rfl, -⟩
    · exact .inl rfl
    · exact .inl rfl

end Sound
end Handle
end TableQuery
