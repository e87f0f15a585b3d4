import TableQuery.Proofs.Handle.Exchange

/-! Previews: the text of the statement that a call would dispatch. A preview takes payloads as they
are, so that it shows another statement where the model of a handle reads a payload as something else. -/

namespace TableQuery
namespace Handle

variable {h : Handle} {t : Terminal}

def Terminal.HasPayload : Terminal → Prop
  | create _ | createMany _ | update _ => True
  | _ => False

/-- The model of the handle has no say in a call: there is no model, or no payload, or the payload is
what the model reads it as. -/
def ReadsAsGiven (h : Handle) (t : Terminal) : Prop :=
  h.model = none ∨ ¬ t.HasPayload ∨ data h.model t = .ok t.payload

theorem data_of_not_hasPayload (o : Option Schema.Overlay) (ht : ¬ t.HasPayload) :
    data o t = .ok t.payload := by
  cases t with
  | create v => exact absurd trivial ht
  | createMany v => exact absurd trivial ht
  | update v => exact absurd trivial ht
  | _ => cases o <;> rfl

theorem data_of_readsAsGiven (hg : h.ReadsAsGiven t) : data h.model t = .ok t.payload := by
  rcases hg with hm | ht | hd
  · rw [hm, data_of_table]
  · exact data_of_not_hasPayload h.model ht
  · exact hd

/-- A call that has no bound of its own goes by the state of the handle. -/
theorem capped_of_cap (hc : t.cap = none) : h.capped t = h.state := by
  rw [capped, hc]
  rfl

theorem statement_of_readsAsGiven (hg : h.ReadsAsGiven t) (hc : t.cap = none) :
    h.statement t = Query.build h.rules t.kind h.state t.payload := by
  rw [statement, data_of_readsAsGiven hg, capped_of_cap hc]
  rfl

theorem preview_eq (e : Executor) (h : Handle) {kind : Value} {k : StatementKind}
    (hk : Query.kind? kind = some k) (v : Value) (dialect : Option Dialect) :
    preview e h kind v dialect =
      Query.build h.rules k h.state v >>= fun s => s.render (dialect.getD e.dialect) := by
  rw [preview, hk]

/-- Whoever runs the statements: a preview is the written form of the one that the call of its kind
dispatches, or the fault that the call ends in before it dispatches anything. It asks nothing of the
executor but, where no dialect is given, for its own. -/
theorem preview_shows_dispatch (e : Executor) (h : Handle) (t : Terminal) (kind : Value)
    (dialect : Option Dialect) (hk : Query.kind? kind = some t.kind) (hc : t.cap = none)
    (hg : h.ReadsAsGiven t) (x : Behaviour) (earlier : List Dispatch) :
    ((∃ d, (h.exchange x t earlier).2 = earlier ++ [d] ∧
        preview e h kind t.payload dialect = d.statement.render (dialect.getD e.dialect)) ∨
      ∃ f, h.exchange x t earlier = (.error f, earlier) ∧
        preview e h kind t.payload dialect = .error f) ∧
    ∀ e', dialect.getD e'.dialect = dialect.getD e.dialect →
      preview e' h kind t.payload dialect = preview e h kind t.payload dialect := by
  have hp := preview_eq e h hk t.payload dialect
  rw [← statement_of_readsAsGiven hg hc] at hp
  refine ⟨?_, fun e' he => ?_⟩
  · cases hs : h.statement t with
    | error f =>
      rw [hs] at hp
      exact .inr ⟨f, exchange_of_error x earlier hs, hp⟩
    | ok s =>
      rw [hs] at hp
      refine .inl ⟨_, congrArg Prod.snd (exchange_of_dispatch x earlier (dispatch?_of_ok hs)), hp⟩
  · rw [preview_eq e' h hk, preview_eq e h hk, he]

/-- A row with one integer. -/
def oneInteger : Schema.Model := { name := "Row", fields := [{ name := "n", type := .integer }] }

/-- An integer that is given as one. -/
theorem preview_shows_dispatch_insert :
    let h : Handle := { rules := {}, state := { table := "t" }, model := some ↑oneInteger }
    let v : Value := .map [(.str "n", .int 7)]
    let x : Behaviour := ⟨fun _ => .ok [v], fun _ => .ok .none⟩
    Query.kind? (.str "INSERT") = some (Terminal.create v).kind ∧ (Terminal.create v).cap = none ∧
    h.ReadsAsGiven (.create v) ∧
    ∃ d r, (h.exchange x (.create v) []).2 = [d] ∧ d.statement.render .sqlite = .ok r ∧
      preview .recorder h (.str "INSERT") v (some .sqlite) = .ok r ∧
      r.sql = "INSERT INTO \"t\" (\"n\") VALUES (?) RETURNING *" := by
  intro h v x
  have hk : Query.kind? (.str "INSERT") = some (Terminal.create v).kind := by decide
  have hg : h.ReadsAsGiven (.create v) := by
    refine .inr (.inr ?_)
    with_unfolding_all rfl
  obtain ⟨r, hr, hsql⟩ := Outcome.exists_of_isOk
    (x := preview .recorder h (.str "INSERT") v (some .sqlite))
    (p := fun r => r.sql = "INSERT INTO \"t\" (\"n\") VALUES (?) RETURNING *") (by decide +kernel)
  obtain ⟨⟨d, hcalls, hd⟩ | ⟨f, -, hf⟩, -⟩ :=
    preview_shows_dispatch .recorder h (.create v) (.str "INSERT") (some .sqlite) hk rfl hg x []
  · exact ⟨hk, rfl, hg, d, r, hcalls, hd.symm.trans hr, hr, hsql⟩
  · cases hr.symm.trans hf

/-- An integer that is given as a text: it is stored as an integer, and shown as the text. What is no
integer at all is refused, and shown as well. -/
theorem preview_unread :
    let h : Handle := { rules := {}, state := { table := "t" }, model := some ↑oneInteger }
    let v : Value := .map [(.str "n", .str "7")]
    let w : Value := .map [(.str "n", .str "x")]
    (∃ r r', (h.statement (.create v) >>= fun s => s.render .postgresql) = .ok r ∧
      preview .recorder h (.str "INSERT") v none = .ok r' ∧
      r.params.map (fun p => Value.same p.2 (.int 7)) = [true] ∧
      r'.params.map (fun p => Value.same p.2 (.str "7")) = [true]) ∧
    (∃ f, h.statement (.create w) = .error f) ∧
    ∃ r, preview .recorder h (.str "INSERT") w none = .ok r := by
  intro h v w
  obtain ⟨r, hr, hp⟩ := Outcome.exists_of_isOk
    (x := h.statement (.create v) >>= fun s => s.render .postgresql)
    (p := fun r => r.params.map (fun p => Value.same p.2 (.int 7)) = [true]) (by decide +kernel)
  obtain ⟨r', hr', hp'⟩ := Outcome.exists_of_isOk (x := preview .recorder h (.str "INSERT") v none)
    (p := fun r => r.params.map (fun p => Value.same p.2 (.str "7")) = [true]) (by decide +kernel)
  obtain ⟨r'', hr'', -⟩ := Outcome.exists_of_isOk (x := preview .recorder h (.str "INSERT") w none)
    (p := fun _ => True) (by decide +kernel)
  refine ⟨⟨r, r', hr, hr', hp, hp'⟩, ?_, r'', hr''⟩
  cases hw : h.statement (.create w) with
  | error f => exact ⟨f, rfl⟩
  | ok s =>
    have hno : (h.statement (.create w)).toOption.isNone = true := by decide +kernel
    rw [hw] at hno
    cases hno

end Handle
end TableQuery
