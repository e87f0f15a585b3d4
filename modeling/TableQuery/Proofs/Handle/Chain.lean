import Mathlib.Data.List.Perm.Basic
import TableQuery.Proofs.Handle.Overlay

/-! Chains of calls, each on the handle that the last accepted call gave. What is left of a chain is
the last accepted call of each kind. -/

namespace TableQuery

/-- What a chain call sets in a state. -/
inductive Setting
  | projection (columns : Option (List Value))
  | filter (spec : Value)
  | order (entries : List Value)
  | skip (count : Option Coerce.Whole)
  | take (count : Option Coerce.Whole)

namespace Setting

inductive Kind
  | projection | filter | order | skip | take
deriving DecidableEq

def Kind.all : List Kind := [.projection, .filter, .order, .skip, .take]

def kind : Setting → Kind
  | projection _ => .projection
  | filter _ => .filter
  | order _ => .order
  | skip _ => .skip
  | take _ => .take

end Setting

namespace State

variable {s t : State}

def put (s : State) : Setting → State
  | .projection columns => { s with projection := columns }
  | .filter spec => { s with filter := spec }
  | .order entries => { s with order := entries }
  | .skip count => { s with skip := count }
  | .take count => { s with take := count }

/-- What is set in a state. -/
def setting (s : State) : Setting.Kind → Setting
  | .projection => .projection s.projection
  | .filter => .filter s.filter
  | .order => .order s.order
  | .skip => .skip s.skip
  | .take => .take s.take

theorem setting_put (s : State) (a : Setting) (k : Setting.Kind) :
    (s.put a).setting k = if a.kind = k then a else s.setting k := by
  cases a <;> cases k <;> rfl

theorem table_put (s : State) (a : Setting) : (s.put a).table = s.table := by
  cases a <;> rfl

/-- A state is its table with what is set. -/
theorem eq_of_setting_eq (ht : s.table = t.table) (h : ∀ k, s.setting k = t.setting k) : s = t := by
  obtain ⟨table, projection, filter, order, skip, take⟩ := s
  cases ht
  cases h .projection
  cases h .filter
  cases h .order
  cases h .skip
  cases h .take
  rfl

end State

namespace Handle
open Outcome

/-- A chain call, with the caller's objects as they are when it is made. -/
structure Step where
  store : Store
  call : Call

def Call.kind : Call → Setting.Kind
  | select _ => .projection
  | filter _ => .filter
  | order _ => .order
  | skip _ => .skip
  | take _ => .take

namespace Step

/-- What a call is read as. Nothing but the model of a handle has a say in it. -/
def read (model : Option Schema.Overlay) (p : Step) : Outcome Setting :=
  match p.call with
  | .select v => .projection <$> Freeze.projection p.store.look v
  | .filter v => do
    checkFilter model (p.store.resolve v)
    pure (.filter (Freeze.filter p.store.look v))
  | .order v => .order <$> Freeze.order p.store.look v
  | .skip v => (fun n => .skip (n.map .int)) <$> Pagination.skip (p.store.resolve v)
  | .take v => (fun n => .take (n.map .int)) <$> Pagination.take (p.store.resolve v)

variable {model : Option Schema.Overlay} {p : Step} {a : Setting}

theorem kind_of_read (h : p.read model = .ok a) : a.kind = p.call.kind := by
  obtain ⟨s, c⟩ := p
  cases c with
  | filter v =>
    obtain ⟨-, -, h⟩ := bind_eq_ok.mp h
    cases pure_eq_ok.mp h
    rfl
  | _ =>
    obtain ⟨_, -, rfl⟩ := map_eq_ok.mp h
    rfl

def isAccepted (model : Option Schema.Overlay) (p : Step) : Bool := (p.read model).toOption.isSome

end Step

/-- A call either sets what it is read as, or fails. -/
theorem apply_eq_read (h : Handle) (p : Step) :
    h.apply p.store p.call = (fun a => { h with state := h.state.put a }) <$> p.read h.model := by
  obtain ⟨s, c⟩ := p
  cases c with
  | select v =>
    simp only [apply, Step.read]
    cases Freeze.projection s.look v <;> rfl
  | filter v =>
    simp only [apply, Step.read]
    cases checkFilter h.model (s.resolve v) <;> rfl
  | order v =>
    simp only [apply, Step.read]
    cases Freeze.order s.look v <;> rfl
  | skip v =>
    simp only [apply, Step.read]
    cases Pagination.skip (s.resolve v) <;> rfl
  | take v =>
    simp only [apply, Step.read]
    cases Pagination.take (s.resolve v) <;> rfl

/-- The handle to go on with after a call: the one that it gave, or else the one it was made on. -/
def next (h : Handle) (p : Step) : Handle :=
  match h.apply p.store p.call with
  | .ok h' => h'
  | .error _ => h

def chain (h : Handle) (ps : List Step) : Handle := ps.foldl next h

/-- The calls of a chain that were accepted, each by the handle that it was made on. -/
def accepted (h : Handle) : List Step → List Step
  | [] => []
  | p :: ps =>
    match h.apply p.store p.call with
    | .ok h' => p :: accepted h' ps
    | .error _ => accepted h ps

/-- The last accepted call of a kind. -/
def last? (h : Handle) (k : Setting.Kind) (ps : List Step) : Option Step :=
  ((h.accepted ps).filter fun p => p.call.kind = k).getLast?

/-- What the last accepted call of a kind has set. -/
def lastSet? (h : Handle) (k : Setting.Kind) (ps : List Step) : Option Setting :=
  (h.last? k ps).bind fun p => (p.read h.model).toOption

/-- The last accepted calls, one of each kind that there is. -/
def canonical (h : Handle) (ps : List Step) : List Step := Setting.Kind.all.filterMap (h.last? · ps)

variable {h h' : Handle} {p : Step} {ps qs : List Step} {k : Setting.Kind}

theorem next_of_ok {a : Setting} (ha : p.read h.model = .ok a) :
    h.next p = { h with state := h.state.put a } := by
  rw [next, apply_eq_read, ha]
  rfl

theorem next_of_error {e : Fault} (he : h.apply p.store p.call = .error e) : h.next p = h := by
  rw [next, he]

theorem isAccepted_iff : p.isAccepted h.model ↔ ∃ h', h.apply p.store p.call = .ok h' := by
  rw [apply_eq_read, Step.isAccepted]
  cases p.read h.model with
  | ok a => exact iff_of_true rfl ⟨_, rfl⟩
  | error e => exact iff_of_false Bool.false_ne_true nofun

theorem next_cases (h : Handle) (p : Step) : (∃ a, p.read h.model = .ok a ∧
    h.next p = { h with state := h.state.put a }) ∨ (p.isAccepted h.model = false ∧ h.next p = h) := by
  cases hr : p.read h.model with
  | ok a => exact .inl ⟨a, rfl, next_of_ok hr⟩
  | error e =>
    have he : h.apply p.store p.call = .error e := by
      rw [apply_eq_read, hr]
      rfl
    refine .inr ⟨?_, next_of_error he⟩
    rw [Step.isAccepted, hr]
    rfl

theorem frame_next (h : Handle) (p : Step) : (h.next p).rules = h.rules ∧
    (h.next p).model = h.model ∧ (h.next p).state.table = h.state.table := by
  obtain ⟨a, -, hn⟩ | ⟨-, hn⟩ := next_cases h p
  · rw [hn]
    exact ⟨rfl, rfl, State.table_put h.state a⟩
  · rw [hn]
    exact ⟨rfl, rfl, rfl⟩

theorem chain_append (ps qs : List Step) : h.chain (ps ++ qs) = (h.chain ps).chain qs :=
  List.foldl_append

/-- A chain leaves the table, the rules and the model as they are. -/
theorem frame_chain (h : Handle) (ps : List Step) : (h.chain ps).rules = h.rules ∧
    (h.chain ps).model = h.model ∧ (h.chain ps).state.table = h.state.table := by
  induction ps generalizing h with
  | nil => exact ⟨rfl, rfl, rfl⟩
  | cons p ps ih =>
    obtain ⟨hrules, hmodel, htable⟩ := ih (h.next p)
    obtain ⟨hrules', hmodel', htable'⟩ := frame_next h p
    exact ⟨hrules.trans hrules', hmodel.trans hmodel', htable.trans htable'⟩

/-- Whether a call is accepted does not depend on the calls before it. -/
theorem accepted_eq_filter (h : Handle) (ps : List Step) :
    h.accepted ps = ps.filter (Step.isAccepted h.model) := by
  induction ps generalizing h with
  | nil => rfl
  | cons p ps ih =>
    rw [accepted]
    split
    · rename_i h' ha
      rw [List.filter_cons_of_pos (isAccepted_iff.mpr ⟨h', ha⟩), ih, model_of_apply ha]
    · rename_i e he
      rw [List.filter_cons_of_neg, ih]
      rw [isAccepted_iff]
      rintro ⟨h', ha⟩
      cases ha.symm.trans he

theorem last?_eq (h : Handle) (k : Setting.Kind) (ps : List Step) : h.last? k ps =
    (ps.filter fun p => decide (p.call.kind = k) && p.isAccepted h.model).getLast? := by
  rw [last?, accepted_eq_filter, List.filter_filter]

theorem last?_concat (h : Handle) (k : Setting.Kind) (ps : List Step) (p : Step) :
    h.last? k (ps ++ [p]) =
      if p.call.kind = k ∧ p.isAccepted h.model then some p else h.last? k ps := by
  rw [last?_eq, last?_eq, List.filter_append]
  split
  · rename_i hp
    rw [List.filter_cons_of_pos (by simp [hp.1, hp.2]), List.filter_nil, List.getLast?_concat]
  · rename_i hp
    rw [List.filter_cons_of_neg (by simpa using hp), List.filter_nil, List.append_nil]

/-- After a chain, what is set is what the last accepted call of a kind has set; without one, it is
what was set before. -/
theorem setting_chain (h : Handle) (ps : List Step) (k : Setting.Kind) :
    (h.chain ps).state.setting k = (h.lastSet? k ps).getD (h.state.setting k) := by
  induction ps using List.reverseRecOn with
  | nil => rfl
  | append_singleton ps p ih =>
    obtain ⟨-, hmodel, -⟩ := frame_chain h ps
    rw [chain_append, lastSet?, last?_concat]
    change ((h.chain ps).next p).state.setting k = _
    obtain ⟨a, ha, hn⟩ | ⟨hrejected, hn⟩ := next_cases (h.chain ps) p
    · rw [hmodel] at ha
      have haccepted : p.isAccepted h.model = true := by
        rw [Step.isAccepted, ha]
        rfl
      rw [hn, State.setting_put, Step.kind_of_read ha]
      by_cases hk : p.call.kind = k
      · rw [if_pos hk, if_pos ⟨hk, haccepted⟩, Option.bind_some, ha]
        rfl
      · rw [if_neg hk, if_neg fun hp => hk hp.1]
        exact ih
    · rw [hmodel] at hrejected
      rw [hn, if_neg fun hp => Bool.false_ne_true (hrejected.symm.trans hp.2)]
      exact ih

/-- Two chains give the same handle where they start from handles of one table, rules and model, and
where what was set last of each kind is the same, if only by what they start from. -/
theorem chain_congr {g : Handle} (hrules : g.rules = h.rules) (hmodel : g.model = h.model)
    (htable : g.state.table = h.state.table) (hset : ∀ k, (g.lastSet? k qs).getD (g.state.setting k) =
      (h.lastSet? k ps).getD (h.state.setting k)) : g.chain qs = h.chain ps := by
  obtain ⟨hg, hg', hg''⟩ := frame_chain g qs
  obtain ⟨hh, hh', hh''⟩ := frame_chain h ps
  have hstate : (g.chain qs).state = (h.chain ps).state := by
    refine State.eq_of_setting_eq ((hg''.trans htable).trans hh''.symm) fun k => ?_
    rw [setting_chain, setting_chain, hset]
  cases hgc : g.chain qs with
  | mk rules state model =>
    cases hhc : h.chain ps with
    | mk rules' state' model' =>
      rw [hgc] at hg hg' hstate
      rw [hhc] at hh hh' hstate
      cases (hg.trans hrules).trans hh.symm
      cases (hg'.trans hmodel).trans hh'.symm
      cases hstate
      rfl

theorem chain_eq_of_last? (hl : ∀ k, h.last? k qs = h.last? k ps) : h.chain qs = h.chain ps :=
  chain_congr rfl rfl rfl fun k => by rw [lastSet?, lastSet?, hl]

/-- A rejected call leaves no trace. -/
theorem chain_rejected {before after : List Step} {e : Fault}
    (he : (h.chain before).apply p.store p.call = .error e) :
    h.chain (before ++ p :: after) = h.chain (before ++ after) := by
  rw [chain_append, chain_append]
  change ((h.chain before).next p).chain after = _
  rw [next_of_error he]

/-- Calls of different kinds commute. -/
theorem chain_swap {before after : List Step} {q : Step} (hk : p.call.kind ≠ q.call.kind) :
    h.chain (before ++ p :: q :: after) = h.chain (before ++ q :: p :: after) := by
  refine chain_eq_of_last? fun k => ?_
  -- One of the two is no call of this kind.
  have hone : ¬ (p.call.kind = k) ∨ ¬ (q.call.kind = k) := by
    by_contra hboth
    push Not at hboth
    exact hk (hboth.1.trans hboth.2.symm)
  rw [last?_eq, last?_eq, List.filter_append, List.filter_append]
  rcases hone with hp | hq
  · simp only [List.filter_cons, hp, decide_false, Bool.false_and, Bool.false_eq_true, if_false]
  · simp only [List.filter_cons, hq, decide_false, Bool.false_and, Bool.false_eq_true, if_false]

/-- An accepted call cancels the earlier ones of its kind. -/
theorem chain_cancel {before between after : List Step} {q : Step} (hk : p.call.kind = q.call.kind)
    (hq : (h.chain (before ++ p :: between)).apply q.store q.call = .ok h') :
    h.chain (before ++ p :: (between ++ q :: after)) = h.chain (before ++ (between ++ q :: after)) := by
  obtain ⟨-, hmodel, -⟩ := frame_chain h (before ++ p :: between)
  have haccepted := isAccepted_iff.mpr ⟨h', hq⟩
  rw [hmodel] at haccepted
  refine chain_eq_of_last? fun k => ?_
  rw [last?_eq, last?_eq, List.filter_append, List.filter_append, List.filter_cons]
  split
  · rename_i hp
    have hkind : q.call.kind = k := by
      simp only [Bool.and_eq_true, decide_eq_true_eq] at hp
      exact hk ▸ hp.1
    rw [List.filter_append, List.filter_cons_of_pos (by simp [hkind, haccepted]),
      ← List.append_assoc, ← List.cons_append, ← List.append_assoc,
      List.getLast?_append_cons, List.getLast?_append_cons]
  · rfl

theorem kind_of_last? (hp : h.last? k ps = some p) :
    p ∈ ps ∧ p.call.kind = k ∧ p.isAccepted h.model := by
  rw [last?_eq] at hp
  have hmem := List.mem_of_getLast? hp
  rw [List.mem_filter, Bool.and_eq_true, decide_eq_true_eq] at hmem
  exact hmem

/-- The calls of a kind among the last ones are the last one of that kind. -/
theorem filter_canonical (h : Handle) (k : Setting.Kind) (ps : List Step) :
    ((h.canonical ps).filter fun p => decide (p.call.kind = k) && p.isAccepted h.model) =
      (h.last? k ps).toList := by
  have hother : ∀ k', k' ≠ k → ((h.last? k' ps).toList.filter
      fun p => decide (p.call.kind = k) && p.isAccepted h.model) = [] := by
    intro k' hk'
    rw [List.filter_eq_nil_iff]
    intro p hp
    obtain ⟨-, hkind, -⟩ := kind_of_last? (Option.mem_toList.mp hp)
    simp [hkind, hk']
  have hsame : ((h.last? k ps).toList.filter
      fun p => decide (p.call.kind = k) && p.isAccepted h.model) = (h.last? k ps).toList := by
    rw [List.filter_eq_self]
    intro p hp
    obtain ⟨-, hkind, hacc⟩ := kind_of_last? (Option.mem_toList.mp hp)
    simp [hkind, hacc]
  have hsplit : h.canonical ps = Setting.Kind.all.flatMap fun k => (h.last? k ps).toList :=
    List.filterMap_eq_flatMap_toList ..
  rw [hsplit, Setting.Kind.all]
  simp only [List.flatMap_cons, List.flatMap_nil, List.filter_append, List.filter_nil]
  cases k <;> simp [hother, hsame]

/-- The last accepted calls do what the chain does, in whatever order they are made. -/
theorem chain_canonical (hqs : qs.Perm (h.canonical ps)) : h.chain qs = h.chain ps := by
  refine chain_eq_of_last? fun k => ?_
  have hperm := hqs.filter fun p => decide (p.call.kind = k) && p.isAccepted h.model
  rw [filter_canonical] at hperm
  rw [last?_eq]
  cases hl : h.last? k ps with
  | none =>
    rw [hl] at hperm
    rw [hperm.eq_nil, List.getLast?_nil]
  | some p =>
    rw [hl] at hperm
    rw [List.perm_singleton.mp hperm, List.getLast?_singleton]

theorem length_canonical_le (h : Handle) (ps : List Step) : (h.canonical ps).length ≤ 5 :=
  List.length_filterMap_le _ Setting.Kind.all

theorem mem_of_mem_canonical (hp : p ∈ h.canonical ps) : p ∈ ps := by
  obtain ⟨k, -, hk⟩ := List.mem_filterMap.mp hp
  exact (kind_of_last? hk).1

/-- A filter in which the model finds something wrong is rejected. -/
theorem apply_filter_of_findings {o : Schema.Overlay} {s : Store} {v : Value} {r : Schema.Result}
    (hm : h.model = some o) (hr : Schema.validateFilter o.model (s.resolve v) = .ok r)
    (hne : r.findings ≠ []) :
    h.apply s (.filter v) = .error (.rejected (.schemaFindings "where" r.findings)) := by
  rw [apply, hm, checkFilter_of_ok hr, if_neg hne]
  rfl

/-- The normal form of a chain. What is set in the end is what the last accepted call of each kind has
set, and the rest is as it was; so these calls alone give the same handle, in any order. Calls of
different kinds commute, an accepted call cancels the earlier ones of its kind, and a rejected call
leaves no trace, be it a filter that the model of the handle refuses. -/
structure Normal (h : Handle) (ps : List Step) : Prop where
  set : ∀ k, (h.chain ps).state.setting k = (h.lastSet? k ps).getD (h.state.setting k)
  rules : (h.chain ps).rules = h.rules
  model : (h.chain ps).model = h.model
  table : (h.chain ps).state.table = h.state.table
  canonical_length : (h.canonical ps).length ≤ 5
  canonical_mem : ∀ p ∈ h.canonical ps, p ∈ ps
  canonical : ∀ qs, qs.Perm (h.canonical ps) → h.chain qs = h.chain ps
  determined : ∀ (g : Handle) qs, g.rules = h.rules → g.model = h.model →
    g.state.table = h.state.table →
    (∀ k, (g.lastSet? k qs).getD (g.state.setting k) = (h.lastSet? k ps).getD (h.state.setting k)) →
    g.chain qs = h.chain ps ∧ ∀ e s kind data dialect,
      preview e ((g.chain qs).current s) kind data dialect =
        preview e ((h.chain ps).current s) kind data dialect
  swap : ∀ p q after, p.call.kind ≠ q.call.kind →
    h.chain (ps ++ p :: q :: after) = h.chain (ps ++ q :: p :: after)
  cancel : ∀ p between q after h', p.call.kind = q.call.kind →
    (h.chain (ps ++ p :: between)).apply q.store q.call = .ok h' →
    h.chain (ps ++ p :: (between ++ q :: after)) = h.chain (ps ++ (between ++ q :: after))
  rejected : ∀ p after e, (h.chain ps).apply p.store p.call = .error e →
    h.chain (ps ++ p :: after) = h.chain (ps ++ after)
  refused : ∀ o s v r after, h.model = some o →
    Schema.validateFilter o.model (s.resolve v) = .ok r → r.findings ≠ [] →
    (∃ e, (h.chain ps).apply s (.filter v) = .error e) ∧
      h.chain (ps ++ ⟨s, .filter v⟩ :: after) = h.chain (ps ++ after)

theorem chain_normal (h : Handle) (ps : List Step) : Normal h ps where
  set := setting_chain h ps
  rules := (frame_chain h ps).1
  model := (frame_chain h ps).2.1
  table := (frame_chain h ps).2.2
  canonical_length := length_canonical_le h ps
  canonical_mem _ := mem_of_mem_canonical
  canonical _ := chain_canonical
  determined g qs hrules hmodel htable hset := by
    have heq := chain_congr hrules hmodel htable hset
    exact ⟨heq, fun e s kind data dialect => by rw [heq]⟩
  swap _ _ _ := chain_swap
  cancel _ _ _ _ _ := chain_cancel
  rejected _ _ _ := chain_rejected
  refused o s v r after hm hr hne := by
    have he := apply_filter_of_findings ((frame_chain h ps).2.1.trans hm) hr hne
    exact ⟨⟨_, he⟩, chain_rejected he⟩

/-- Two filters, of which the model refuses one, and counts of which one is no count. -/
theorem chain_normal_mixed :
    let h : Handle := { rules := {}, state := { table := "t" }, model := some ↑oneInteger }
    let filter (v : Value) : Step := ⟨{}, .filter (.map [(.str "n", v)])⟩
    let take (n : Int) : Step := ⟨{}, .take (.int n)⟩
    h.chain [filter (.int 1), take 5, take 0, filter (.str "x"), take 7] =
        h.chain [take 7, filter (.int 1)] ∧
      h.chain (h.canonical [take 5, take 7]).reverse = h.chain [take 5, take 7] ∧
      { h with state := { h.state with take := some (.int 3) } }.chain [take 7] = h.chain [take 7] := by
  intro h filter take
  obtain ⟨r, hr, hne⟩ : ∃ r, Schema.validateFilter oneInteger
      (({} : Store).resolve (.map [(.str "n", .str "x")])) = .ok r ∧ r.findings ≠ [] :=
    exists_of_isOk (by decide +kernel)
  refine ⟨?_, (chain_normal h [take 5, take 7]).canonical _ (List.reverse_perm _), ?_⟩
  · calc h.chain [filter (.int 1), take 5, take 0, filter (.str "x"), take 7]
        = h.chain [filter (.int 1), take 5, filter (.str "x"), take 7] :=
          (chain_normal h [filter (.int 1), take 5]).rejected (take 0) [filter (.str "x"), take 7] _ rfl
      _ = h.chain [filter (.int 1), take 5, take 7] :=
          ((chain_normal h [filter (.int 1), take 5]).refused oneInteger {} _ r [take 7] rfl hr hne).2
      _ = h.chain [filter (.int 1), take 7] :=
          (chain_normal h [filter (.int 1)]).cancel (take 5) [] (take 7) [] _ rfl rfl
      _ = h.chain [take 7, filter (.int 1)] :=
          (chain_normal h []).swap (filter (.int 1)) (take 7) [] (by decide)
  · exact ((chain_normal h [take 7]).determined _ [take 7] rfl rfl rfl
      fun k => by cases k <;> rfl).1

end Handle
end TableQuery
