import TableQuery.Proofs.Query.Inserted
import TableQuery.Proofs.Query.Strict
import TableQuery.Proofs.Sql.Insertion

/-! Batches: which records can be inserted together, what is wrong with others, and where their values
go. -/

namespace TableQuery

namespace Value

theorem sameKeys_iff {ks ks' : List Value} : sameKeys ks ks' ↔
    (∀ k ∈ ks, ∃ k' ∈ ks', same k k') ∧ ∀ k ∈ ks', ∃ k' ∈ ks, same k k' := by
  simp only [sameKeys, Bool.and_eq_true, List.all_eq_true, List.any_eq_true]

/-- Keys that are texts are the same as others in both directions, or through others. -/
theorem sameKeys_of_texts {ks ks' fs : List Value} (h : ∀ k ∈ ks, ∃ s, k.text? = some s)
    (h' : ∀ k ∈ ks', ∃ s, k.text? = some s) (hks : sameKeys ks fs) (hks' : sameKeys ks' fs) :
    sameKeys ks ks' := by
  have hthrough : ∀ {as bs : List Value}, (∀ k ∈ as, ∃ s, k.text? = some s) → sameKeys as fs →
      sameKeys bs fs → ∀ k ∈ as, ∃ k' ∈ bs, same k k' := by
    intro as bs htexts has hbs k hk
    obtain ⟨s, hs⟩ := htexts k hk
    obtain ⟨f, hf, hsame⟩ := (sameKeys_iff.mp has).1 k hk
    obtain ⟨k', hk', hsame'⟩ := (sameKeys_iff.mp hbs).2 f hf
    exact ⟨k', hk', same_of_text? hs (text?_of_same hsame' (text?_of_same hsame hs))⟩
  exact sameKeys_iff.mpr ⟨hthrough h hks hks', hthrough h' hks' hks⟩

end Value

namespace Query
open Layout Binding Reading Outcome

variable {rules : Naming} {s : State} {data : Value}

/-! The records of a batch. -/

/-- A sequence of records. -/
def Records (data : Value) (batch : List (List (Value × Value))) : Prop :=
  ∃ items, data.items? = some items ∧ List.Forall₂ (fun v es => record? v = some es) items batch

/-- Its keys are names of columns, no two of which are the same when they are trimmed. -/
structure WellNamed (rules : Naming) (es : List (Value × Value)) : Prop where
  valid : ∀ e ∈ es, rules.column.isValid e.1
  distinct : (es.filterMap fun e => rules.column.name? e.1).Nodup

/-- Records that can be inserted together. -/
structure Homogeneous (rules : Naming) (data : Value) (batch : List (List (Value × Value))) :
    Prop where
  records : Records data batch
  some : batch ≠ []
  keys : ∀ es ∈ batch, ∀ fs ∈ batch, Value.sameKeys (es.map Prod.fst) (fs.map Prod.fst)
  named : ∀ es ∈ batch, WellNamed rules es

/-- Their keys are those of the first one. -/
def Uniform (batch : List (List (Value × Value))) : Prop :=
  ∀ r ∈ batch.tail, Value.sameKeys (r.map Prod.fst) ((batch.headD []).map Prod.fst)

/-- The names of a record, in the order of its keys. -/
theorem map_fst_named (es : List (Value × Value)) :
    (es.filterMap fun e => (rules.column.name? e.1).map fun n => (n, e.2)).map Prod.fst =
      es.filterMap fun e => rules.column.name? e.1 := by
  rw [List.map_filterMap]
  refine List.filterMap_congr fun e _ => ?_
  cases rules.column.name? e.1 <;> rfl

theorem exists_payload {es : List (Value × Value)} :
    (∃ row, payload rules es = .ok row) ↔ WellNamed rules es := by
  by_cases hvalid : ∀ e ∈ es, rules.column.isValid e.1
  · rw [payload_of_valid hvalid, exists_bind]
    constructor
    · rintro ⟨⟨⟩, hd, -⟩
      exact ⟨hvalid, map_fst_named es ▸ (distinct_eq_ok.mp hd).1⟩
    · intro h
      exact ⟨(), distinct_eq_ok.mpr ⟨(map_fst_named es).symm ▸ h.distinct,
        fun _ _ => List.not_mem_nil⟩, _, rfl⟩
  · rw [payload_of_invalid hvalid]
    exact iff_of_false (fun ⟨_, h⟩ => reject_ne_ok h) fun h => hvalid h.valid

theorem Homogeneous.uniform {batch : List (List (Value × Value))} (h : Homogeneous rules data batch) :
    Uniform batch := by
  intro r hr
  obtain ⟨first, rest, rfl⟩ := List.exists_cons_of_ne_nil h.some
  exact h.keys r (List.mem_cons_of_mem first hr) first List.mem_cons_self

theorem homogeneous_of_uniform {batch : List (List (Value × Value))} (hr : Records data batch)
    (hne : batch ≠ []) (hu : Uniform batch) (hn : ∀ es ∈ batch, WellNamed rules es) :
    Homogeneous rules data batch := by
  have htexts : ∀ es ∈ batch, ∀ k ∈ es.map Prod.fst, ∃ s, k.text? = some s := by
    intro es hes k hk
    obtain ⟨e, he, rfl⟩ := List.mem_map.mp hk
    obtain ⟨n, hname⟩ := Option.isSome_iff_exists.mp ((hn es hes).valid e he)
    obtain ⟨s, hs, -⟩ := Naming.name?_eq_some.mp hname
    exact ⟨s, hs⟩
  obtain ⟨first, rest, rfl⟩ := List.exists_cons_of_ne_nil hne
  have hfirst : ∀ es ∈ first :: rest, Value.sameKeys (es.map Prod.fst) (first.map Prod.fst) := by
    refine List.forall_mem_cons.mpr ⟨?_, hu⟩
    have hself : ∀ k ∈ first.map Prod.fst, ∃ k' ∈ first.map Prod.fst, Value.same k k' := by
      intro k hk
      obtain ⟨s, hs⟩ := htexts first List.mem_cons_self k hk
      exact ⟨k, hk, Value.same_of_text? hs hs⟩
    exact Value.sameKeys_iff.mpr ⟨hself, hself⟩
  exact ⟨hr, hne, fun es hes fs hfs => Value.sameKeys_of_texts (htexts es hes) (htexts fs hfs)
    (hfirst es hes) (hfirst fs hfs), hn⟩

/-! What is wrong with a batch. -/

/-- Keys of a record that are no names, or else the first name that is there before. -/
inductive Misnamed (rules : Naming) (es : List (Value × Value)) : List Value → Prop
  | invalid (ne : ((es.map Prod.fst).filter fun k => !rules.column.isValid k) ≠ []) :
    Misnamed rules es ((es.map Prod.fst).filter fun k => !rules.column.isValid k)
  | repeated {before behind : List String} {n : String}
    (names : List.Forall₂ (fun e n => rules.column.name? e.1 = some n) es (before ++ n :: behind))
    (distinct : before.Nodup) (again : n ∈ before) : Misnamed rules es [.str n]

/-- Why records cannot be inserted together: there are none, or one is none or empty; or one has other
keys than the first; or the keys of one are not well named. -/
inductive BatchFlaw (rules : Naming) (data : Value) : Rejection → Prop
  | none (h : ∀ items, data.items? = some items → items = []) :
    BatchFlaw rules data (.invalidInsertData .none)
  | record {before behind : List Value} {v : Value} (items : data.items? = some (before ++ v :: behind))
    (records : ∀ w ∈ before, isRecord w) (bad : ¬ isRecord v) :
    BatchFlaw rules data (.invalidInsertData (.int before.length))
  | keys {first r : List (Value × Value)} {before behind : List (List (Value × Value))}
    (records : Records data (first :: (before ++ r :: behind))) (same : Uniform (first :: before))
    (other : ¬ Value.sameKeys (r.map Prod.fst) (first.map Prod.fst)) :
    BatchFlaw rules data (.inconsistentColumns (.int (before.length + 1 : Nat)) (first.map Prod.fst)
      (r.map Prod.fst))
  | names {r : List (Value × Value)} {before behind : List (List (Value × Value))} {names : List Value}
    (records : Records data (before ++ r :: behind)) (same : Uniform (before ++ r :: behind))
    (named : ∀ es ∈ before, WellNamed rules es) (misnamed : Misnamed rules r names) :
    BatchFlaw rules data (.invalidColumns names)

theorem records_eq_error {index : Nat} {items : List Value} {f : Fault} :
    records index items = .error f ↔ ∃ before v behind, items = before ++ v :: behind ∧
      (∀ w ∈ before, isRecord w) ∧ ¬ isRecord v ∧
      f = .rejected (.invalidInsertData (.int (index + before.length : Nat))) := by
  induction items generalizing index with
  | nil => simp [records]
  | cons v items ih =>
    have hnext : ∀ k, index + 1 + k = index + (k + 1) := fun k => by omega
    rw [Lists.exists_first_cons (Q := fun k _ =>
      f = .rejected (.invalidInsertData (.int (index + k : Nat)))), records]
    have hrest := @ih (index + 1)
    simp only [hnext] at hrest
    cases hv : record? v with
    | none =>
      have hbad : ¬ isRecord v := by simp [isRecord, hv]
      exact ⟨fun h => .inl ⟨hbad, (Except.error.inj h).symm⟩,
        fun h => congrArg _ (h.resolve_right fun h => hbad h.1).2.symm⟩
    | some entries =>
      dsimp only
      rw [bind_eq_error, hrest]
      simp [isRecord, hv, pure, Except.pure]

theorem consistent_eq_error {expected : List Value} {index : Nat}
    {rs : List (List (Value × Value))} {f : Fault} :
    consistent expected index rs = .error f ↔ ∃ before r behind, rs = before ++ r :: behind ∧
      (∀ q ∈ before, Value.sameKeys (q.map Prod.fst) expected) ∧
      ¬ Value.sameKeys (r.map Prod.fst) expected ∧
      f = .rejected (.inconsistentColumns (.int (index + before.length : Nat)) expected
        (r.map Prod.fst)) := by
  induction rs generalizing index with
  | nil => simp [consistent]
  | cons r rs ih =>
    have hnext : ∀ k, index + 1 + k = index + (k + 1) := fun k => by omega
    rw [Lists.exists_first_cons (Q := fun k (r : List (Value × Value)) => f = .rejected
      (.inconsistentColumns (.int (index + k : Nat)) expected (r.map Prod.fst))), consistent]
    have hrest := @ih (index + 1)
    simp only [hnext] at hrest
    split
    · rename_i hr
      rw [hrest]
      simp [hr]
    · rename_i hr
      exact ⟨fun h => .inl ⟨hr, (Except.error.inj h).symm⟩,
        fun h => congrArg _ (h.resolve_right fun h => hr h.1).2.symm⟩

/-- The first name that is there before is refused. -/
theorem distinct_eq_error {seen : List String} {entries : List (String × Value)} {f : Fault} :
    distinct seen entries = .error f ↔ ∃ before n behind,
      entries.map Prod.fst = before ++ n :: behind ∧ (before.Nodup ∧ ∀ m ∈ before, m ∉ seen) ∧
        (n ∈ before ∨ n ∈ seen) ∧ f = .rejected (.invalidColumns [.str n]) := by
  induction entries generalizing seen with
  | nil => simp [distinct]
  | cons e entries ih =>
    obtain ⟨n, v⟩ := e
    -- Behind the first name that name counts as seen.
    have hagain : ∀ {m : String} {before : List String},
        m ∈ n :: before ∨ m ∈ seen ↔ m ∈ before ∨ m ∈ n :: seen := by
      simp only [List.mem_cons]
      tauto
    rw [distinct, List.map_cons]
    split
    · rename_i hn
      have hseen := List.contains_iff_mem.mp hn
      constructor
      · intro h
        cases h
        exact ⟨[], n, _, rfl, ⟨List.nodup_nil, List.forall_mem_nil _⟩, .inr hseen, rfl⟩
      · rintro ⟨before, m, behind, he, ⟨-, hfresh⟩, -, rfl⟩
        cases before with
        | nil =>
          obtain ⟨rfl, -⟩ := List.cons.inj he
          rfl
        | cons k before =>
          obtain ⟨rfl, -⟩ := List.cons.inj he
          exact absurd hseen (hfresh n List.mem_cons_self)
    · rename_i hn
      have hseen := mt List.contains_iff_mem.mpr hn
      rw [ih]
      constructor
      · rintro ⟨before, m, behind, he, hfresh, hm, rfl⟩
        exact ⟨n :: before, m, behind, congrArg (n :: ·) he,
          Lists.nodup_cons_fresh.mpr ⟨hseen, hfresh⟩, hagain.mpr hm, rfl⟩
      · rintro ⟨before, m, behind, he, hfresh, hm, rfl⟩
        cases before with
        | nil =>
          obtain ⟨rfl, -⟩ := List.cons.inj he
          exact absurd (hm.resolve_left List.not_mem_nil) hseen
        | cons k before =>
          obtain ⟨rfl, hrest⟩ := List.cons.inj he
          exact ⟨before, m, behind, hrest, (Lists.nodup_cons_fresh.mp hfresh).2, hagain.mp hm, rfl⟩

theorem payload_eq_error {es : List (Value × Value)} {f : Fault} : payload rules es = .error f ↔
    ∃ names, Misnamed rules es names ∧ f = (Rejection.invalidColumns names).raised := by
  by_cases hvalid : ∀ e ∈ es, rules.column.isValid e.1
  · rw [payload_of_valid hvalid, bind_eq_error]
    constructor
    · rintro (h | ⟨-, -, h⟩)
      · obtain ⟨before, n, behind, he, ⟨hnd, -⟩, hn, rfl⟩ := distinct_eq_error.mp h
        rw [map_fst_named] at he
        exact ⟨_, .repeated (Lists.forall₂_filterMap.mpr ⟨hvalid, he⟩) hnd
          (hn.resolve_right List.not_mem_nil), rfl⟩
      · cases h
    · rintro ⟨names, hmis, rfl⟩
      cases hmis with
      | invalid ne => exact absurd (filter_invalid.mpr hvalid) ne
      | @repeated before behind n names distinct again =>
        refine .inl (distinct_eq_error.mpr ⟨before, n, behind, ?_,
          ⟨distinct, fun _ _ => List.not_mem_nil⟩, .inl again, rfl⟩)
        rw [map_fst_named, (Lists.forall₂_filterMap.mp names).2]
  · rw [payload_of_invalid hvalid]
    constructor
    · intro h
      exact ⟨_, .invalid (mt filter_invalid.mp hvalid), (Except.error.inj h).symm⟩
    · rintro ⟨names, hmis, rfl⟩
      cases hmis with
      | invalid ne => rfl
      | repeated names distinct again => exact absurd (Lists.forall₂_filterMap.mp names).1 hvalid

/-! Which batches are inserted. -/

section Built

variable {t : Target} {c : Columns}

theorem insertMany_eq {items : List Value} (h : data.items? = some items) (hne : items ≠ []) :
    insertMany rules s data = (do
      let batch ← records 0 items
      consistent ((batch.headD []).map Prod.fst) 1 batch.tail
      let rows ← batch.mapM (payload rules)
      let t ← target rules (.str s.table)
      let names := (rows.headD []).map Prod.fst
      let columns ← returning rules s
      pure (.insertMany t names (rows.map fun r => names.map fun n => (r.lookup n).getD .none)
        columns)) := by
  rw [insertMany, h]
  cases items with
  | nil => exact absurd rfl hne
  | cons v items => rfl

theorem insertMany_eq_reject (h : ∀ items, data.items? = some items → items = []) :
    insertMany rules s data = reject (.invalidInsertData .none) := by
  rw [insertMany]
  cases hi : data.items? with
  | none => rfl
  | some items => rw [h items hi]

theorem Records.ne_nil {items : List Value} {batch : List (List (Value × Value))}
    (h : List.Forall₂ (fun v es => record? v = some es) items batch) (hne : batch ≠ []) :
    items ≠ [] := by
  rintro rfl
  exact hne (List.forall₂_nil_left_iff.mp h)

/-- The values of rows, each under the names of the first one. -/
def rowValues (rows : List (List (String × Value))) : List (List Value) :=
  rows.map fun r => ((rows.headD []).map Prod.fst).map fun n => (r.lookup n).getD .none

variable (ht : target rules (.str s.table) = .ok t) (hc : returning rules s = .ok c)
include ht hc

/-- Records are refused just for what is wrong with them. -/
theorem insertMany_eq_error {f : Fault} :
    insertMany rules s data = .error f ↔ ∃ cause, BatchFlaw rules data cause ∧ f = cause.raised := by
  constructor
  · intro h
    by_cases hitems : ∀ items, data.items? = some items → items = []
    · rw [insertMany_eq_reject hitems] at h
      exact ⟨_, .none hitems, (Except.error.inj h).symm⟩
    · push Not at hitems
      obtain ⟨items, hi, hne⟩ := hitems
      rw [insertMany_eq hi hne] at h
      -- The checks in their order; each is reached where those before it pass.
      rcases bind_eq_error.mp h with h | ⟨batch, hb, h⟩
      · obtain ⟨before, v, behind, rfl, hbefore, hv, rfl⟩ := records_eq_error.mp h
        exact ⟨_, .record hi hbefore hv, by rw [Nat.zero_add]; rfl⟩
      have hbatch := records_eq_ok.mp hb
      rcases bind_eq_error.mp h with h | ⟨⟨⟩, hu, h⟩
      · obtain ⟨before, r, behind, he, hbefore, hr, rfl⟩ := consistent_eq_error.mp h
        cases batch with
        | nil => simp at he
        | cons first rest =>
          cases he
          exact ⟨_, .keys ⟨items, hi, hbatch⟩ hbefore hr, by rw [Nat.add_comm]; rfl⟩
      rcases bind_eq_error.mp h with h | ⟨rows, -, h⟩
      · obtain ⟨before, r, behind, ys, rfl, hbefore, hr⟩ := mapM_eq_error.mp h
        obtain ⟨names, hmis, rfl⟩ := payload_eq_error.mp hr
        refine ⟨_, .names ⟨items, hi, hbatch⟩ (consistent_eq_ok.mp hu) (fun es hes => ?_) hmis, rfl⟩
        obtain ⟨row, -, hrow⟩ := Lists.exists_of_mem_left hbefore hes
        exact exists_payload.mp ⟨row, hrow⟩
      rw [ht, hc] at h
      cases h
  · rintro ⟨cause, hflaw, rfl⟩
    cases hflaw with
    | none h => exact insertMany_eq_reject h
    | record items records bad =>
      rw [insertMany_eq items (by simp)]
      exact bind_eq_error.mpr (.inl (records_eq_error.mpr
        ⟨_, _, _, rfl, records, bad, by rw [Nat.zero_add]; rfl⟩))
    | keys records same other =>
      obtain ⟨items, hi, hbatch⟩ := records
      rw [insertMany_eq hi (Records.ne_nil hbatch (List.cons_ne_nil _ _))]
      refine bind_eq_error.mpr (.inr ⟨_, records_eq_ok.mpr hbatch, bind_eq_error.mpr (.inl ?_)⟩)
      exact consistent_eq_error.mpr ⟨_, _, _, rfl, same, other, by rw [Nat.add_comm]; rfl⟩
    | names records same named misnamed =>
      obtain ⟨items, hi, hbatch⟩ := records
      obtain ⟨rows, hrows⟩ := Lists.exists_forall₂ fun es hes => exists_payload.mpr (named es hes)
      rw [insertMany_eq hi (Records.ne_nil hbatch (by simp))]
      refine bind_eq_error.mpr (.inr ⟨_, records_eq_ok.mpr hbatch, bind_eq_error.mpr
        (.inr ⟨(), consistent_eq_ok.mpr same, bind_eq_error.mpr (.inl ?_)⟩)⟩)
      exact mapM_eq_error.mpr ⟨_, _, _, rows, rfl, hrows, payload_eq_error.mpr ⟨_, misnamed, rfl⟩⟩

theorem exists_built {batch : List (List (Value × Value))} (h : Homogeneous rules data batch) :
    ∃ rows, List.Forall₂ (fun r row => payload rules r = .ok row) batch rows ∧
      insertMany rules s data =
        .ok (.insertMany t ((rows.headD []).map Prod.fst) (rowValues rows) c) := by
  obtain ⟨items, hi, hbatch⟩ := h.records
  obtain ⟨rows, hrows⟩ := Lists.exists_forall₂ fun es hes => exists_payload.mpr (h.named es hes)
  refine ⟨rows, hrows, ?_⟩
  rw [insertMany_eq hi (Records.ne_nil hbatch h.some)]
  exact bind_eq_ok.mpr ⟨batch, records_eq_ok.mpr hbatch, bind_eq_ok.mpr ⟨(),
    consistent_eq_ok.mpr h.uniform, bind_eq_ok.mpr ⟨rows, mapM_eq_ok.mpr hrows,
      bind_eq_ok.mpr ⟨t, ht, bind_eq_ok.mpr ⟨c, hc, rfl⟩⟩⟩⟩⟩

/-- Records are inserted just where they are homogeneous. -/
theorem exists_insertMany :
    (∃ st, insertMany rules s data = .ok st) ↔ ∃ batch, Homogeneous rules data batch := by
  constructor
  · rintro ⟨st, h⟩
    obtain ⟨items, batch, rows, t', c', hi, hb, hu, hrows, -, -, -⟩ := insertMany_eq_ok h
    have hbatch := records_eq_ok.mp hb
    have hne : batch ≠ [] := by
      rintro rfl
      cases hbatch
      rw [insertMany_eq_reject fun items' hi' => Option.some.inj (hi'.symm.trans hi)] at h
      exact reject_ne_ok h
    refine ⟨batch, homogeneous_of_uniform ⟨items, hi, hbatch⟩ hne (consistent_eq_ok.mp hu)
      fun es hes => ?_⟩
    obtain ⟨row, -, hrow⟩ := Lists.exists_of_mem_left hrows hes
    exact exists_payload.mp ⟨row, hrow⟩
  · rintro ⟨batch, h⟩
    obtain ⟨rows, -, hbuilt⟩ := exists_built ht hc h
    exact ⟨_, hbuilt⟩

end Built

/-! Where the values of a batch go. -/

/-- What a record has under a key is what it has under the name of the key. -/
theorem lookup_named {es : List (Value × Value)} {row : List (String × Value)} {k : Value} {n : String}
    (hp : payload rules es = .ok row) (hk : ∃ k' ∈ es.map Prod.fst, Value.same k k')
    (hn : rules.column.name? k = some n) :
    ∃ v, Value.lookup k es = some v ∧ row.lookup n = some v := by
  obtain ⟨k', hk', hsame⟩ := hk
  obtain ⟨e', he', rfl⟩ := List.mem_map.mp hk'
  obtain ⟨e, he⟩ := Option.isSome_iff_exists.mp
    (List.find?_isSome (p := fun e => Value.same k e.1).mpr ⟨e', he', hsame⟩)
  obtain ⟨m, hm, hlookup⟩ := mem_named hp (List.mem_of_find?_eq_some he)
  have hfound : Value.same k e.1 := by simpa using List.find?_some he
  cases (name?_of_same hfound hn).symm.trans hm
  exact ⟨e.2, congrArg (Option.map Prod.snd) he, hlookup⟩

/-- The names of the first record, each with the key that it is the name of. -/
theorem names_first {batch : List (List (Value × Value))} {rows : List (List (String × Value))}
    (hrows : List.Forall₂ (fun r row => payload rules r = .ok row) batch rows) :
    List.Forall₂ (fun e n => rules.column.name? e.1 = some n) (batch.headD [])
      ((rows.headD []).map Prod.fst) := by
  cases hrows with
  | nil => exact .nil
  | cons hfirst hrest =>
    exact List.forall₂_map_right_iff.mpr ((payload_eq_ok.mp hfirst).1.imp fun _ _ h => h.1)

/-- Every record has a value under every key of the first one, and a row holds these. -/
theorem values_batch {batch : List (List (Value × Value))} {rows : List (List (String × Value))}
    (h : Homogeneous rules data batch)
    (hrows : List.Forall₂ (fun r row => payload rules r = .ok row) batch rows) :
    (∀ es ∈ batch, ∀ e ∈ batch.headD [], (Value.lookup e.1 es).isSome) ∧
    (rowValues rows).map (List.map some) =
      batch.map fun es => (batch.headD []).map fun e => Value.lookup e.1 es := by
  obtain ⟨first, rest, rfl⟩ := List.exists_cons_of_ne_nil h.some
  have hnames := names_first hrows
  have hfound : ∀ es ∈ first :: rest, ∀ row, payload rules es = .ok row → ∀ e ∈ first, ∀ n,
      rules.column.name? e.1 = some n → ∃ v, Value.lookup e.1 es = some v ∧ row.lookup n = some v := by
    intro es hes row hp e he n hn
    have hkeys := h.keys first List.mem_cons_self es hes
    exact lookup_named hp ((Value.sameKeys_iff.mp hkeys).1 e.1 (List.mem_map_of_mem he)) hn
  constructor
  · intro es hes e he
    obtain ⟨row, -, hp⟩ := Lists.exists_of_mem_left hrows hes
    obtain ⟨n, -, hn⟩ := Lists.exists_of_mem_left hnames he
    obtain ⟨v, hv, -⟩ := hfound es hes row hp e he n hn
    exact Option.isSome_of_eq_some hv
  · rw [rowValues, List.map_map]
    refine (Lists.map_eq_map hrows fun es hes row _ hp => ?_).symm
    rw [Function.comp_apply, List.map_map]
    refine Lists.map_eq_map hnames fun e he n _ hn => ?_
    obtain ⟨v, hv, hlookup⟩ := hfound es hes row hp e he n hn
    rw [hv, Function.comp_apply, hlookup]
    rfl

theorem strict_insertMany {t : Target} {c : Columns} {ns : List String} {rows : List (List Value)}
    (d : Dialect) (ht : ∀ q ∈ Layout.target t, q.Strict) (hw : ∀ n ∈ ns, Wordy n)
    (hc : ∀ ns, c = .named ns → ∀ n ∈ ns, Wordy n) :
    ∀ q ∈ ofStatement d (.insertMany t ns rows c), q.Strict := by
  have hnames : ∀ q ∈ names ns, q.Strict := strict_columns (c := .named ns) fun _ h => by
    cases h
    exact hw
  have hrow : ∀ cells ∈ numberedRows ns rows, ∀ q ∈ row cells, q.Strict := by
    intro cells hcells
    refine List.forall_mem_append.mpr ⟨List.forall_mem_cons.mpr ⟨.text _, forall_join (.text _)
      fun l hl => ?_⟩, List.forall_mem_singleton.mpr (.text _)⟩
    obtain ⟨cell, hcell, rfl⟩ := List.mem_map.mp hl
    have hkey := List.mem_map_of_mem (f := Prod.fst) (List.mem_flatten_of_mem hcells hcell)
    exact List.forall_mem_singleton.mpr (.cell (wordy_of_mem_numberedRows hw hkey) _)
  rw [ofStatement_insertMany]
  refine List.forall_mem_append.mpr ⟨List.forall_mem_append.mpr ⟨?_, ?_⟩, strict_returning hc⟩
  · exact List.forall_mem_append.mpr ⟨List.forall_mem_append.mpr
      ⟨List.forall_mem_cons.mpr ⟨.text _, ht⟩, List.forall_mem_cons.mpr ⟨.text _, hnames⟩⟩,
      List.forall_mem_singleton.mpr (.text _)⟩
  · refine forall_join (.text _) fun l hl => ?_
    obtain ⟨cells, hcells, rfl⟩ := List.mem_map.mp hl
    exact hrow cells hcells

/-- What comes out for a batch: one INSERT under the names of the first record, in the order of its keys,
with a tuple for each record, in which a place has what the record has under the key of its column. -/
structure Inserts (d : Dialect) (rules : Naming) (t : Target) (c : Columns)
    (batch : List (List (Value × Value))) (r : Rendered) (q : Insertion) : Prop where
  text : HasInsertion d r.sql q
  target : q.target = t
  returning : q.returning = c
  names : List.Forall₂ (fun e n => rules.column.name? e.1 = some n) (batch.headD []) q.names
  tuples : q.rows.length = batch.length
  found : ∀ es ∈ batch, ∀ e ∈ batch.headD [], (Value.lookup e.1 es).isSome
  values : r.valuesAt d 0 q.rows =
    batch.map fun es => (batch.headD []).map fun e => Value.lookup e.1 es
  params : r.params.length = batch.length * (batch.headD []).length

theorem length_valuesAt (d : Dialect) (r : Rendered) (k : Nat) (rows : List (List Place)) :
    (r.valuesAt d k rows).length = rows.length := by
  induction rows generalizing k with
  | nil => rfl
  | cons row rows ih => exact congrArg (· + 1) (ih _)

/-- Under strict rules, a statement that inserts a batch is written out for each dialect. -/
theorem exists_inserts {t : Target} {c : Columns} (hs : rules.strict = true)
    (ht : target rules (.str s.table) = .ok t) (hc : returning rules s = .ok c)
    {batch : List (List (Value × Value))} (h : Homogeneous rules data batch)
    {rows : List (List (String × Value))}
    (hrows : List.Forall₂ (fun r row => payload rules r = .ok row) batch rows) (d : Dialect) :
    ∃ r q, (Statement.insertMany t ((rows.headD []).map Prod.fst) (rowValues rows) c).render d =
      .ok r ∧ Inserts d rules t c batch r q := by
  have hnames := names_first hrows
  obtain ⟨hfound, hvalues⟩ := values_batch h hrows
  have hlength := hrows.length_eq
  obtain ⟨first, rest, rfl⟩ := List.exists_cons_of_ne_nil h.some
  obtain ⟨row, rows, hfirst, -, rfl⟩ := List.forall₂_cons_left_iff.mp hrows
  have hw : ∀ n ∈ row.map Prod.fst, Wordy n :=
    List.forall_mem_map.mpr (wordy_of_payload hs hfirst)
  have hsome : row.map Prod.fst ≠ [] := by
    intro he
    rw [List.headD_cons, List.headD_cons, he] at hnames
    obtain ⟨items, -, hrecords⟩ := h.records
    obtain ⟨v, -, hv⟩ := Lists.exists_of_mem_right hrecords List.mem_cons_self
    rw [List.forall₂_nil_right_iff.mp hnames, record?_eq_some] at hv
    exact hv.2 rfl
  have hlengths : ∀ vs ∈ rowValues (row :: rows), vs.length = (row.map Prod.fst).length := by
    intro vs hvs
    obtain ⟨r, -, rfl⟩ := List.mem_map.mp hvs
    exact List.length_map ..
  obtain ⟨r, q, hr, hsql, htarget, hcolumns, hreturning, hplaces, hparams⟩ :=
    Statement.exists_insertion (Strict.legible (strict_insertMany d (strict_of_target hs ht) hw
      (wordy_of_returning hs hc))) hw hsome (payload_eq_ok.mp hfirst).2
      (show rowValues (row :: rows) ≠ [] from List.cons_ne_nil _ _) hlengths
      (Projection.ofItems_eq_ok.mp hc).ne_nil
  rw [hvalues] at hplaces
  refine ⟨r, q, hr, hsql, htarget, hreturning, hcolumns ▸ hnames, ?_, hfound, hplaces, ?_⟩
  · rw [← length_valuesAt d r 0, hplaces, List.length_map]
  · rw [hparams, rowValues, List.length_map, ← hlength]
    exact congrArg _ hnames.length_eq.symm

theorem BatchFlaw.area {cause : Rejection} (h : BatchFlaw rules data cause) : cause.area = .query := by
  cases h <;> rfl

/-- Under strict rules, records are inserted just where they are homogeneous, every value in the place of
its record and its column. Others are refused for the first thing that is wrong with them: for what is
no record first, then for other keys, then for the names of the keys; a name that cannot be written out
fails in the report of it. -/
theorem batch_decided {t : Target} {c : Columns} (hs : rules.strict = true)
    (ht : target rules (.str s.table) = .ok t) (hc : returning rules s = .ok c) (data : Value) :
    ((∃ st, build rules .insertMany s data = .ok st) ↔ ∃ batch, Homogeneous rules data batch) ∧
    (∀ batch, Homogeneous rules data batch → ∃ st, build rules .insertMany s data = .ok st ∧
      ∀ d, ∃ r q, st.render d = .ok r ∧ Inserts d rules t c batch r q) ∧
    ∀ f, build rules .insertMany s data = .error f ↔
      ∃ cause, BatchFlaw rules data cause ∧ cause.area = .query ∧ f = cause.raised := by
  refine ⟨exists_insertMany ht hc, fun batch h => ?_, fun f => ?_⟩
  · obtain ⟨rows, hrows, hbuilt⟩ := exists_built ht hc h
    exact ⟨_, hbuilt, exists_inserts hs ht hc h hrows⟩
  · refine (insertMany_eq_error ht hc).trans (exists_congr fun cause => and_congr_right fun h => ?_)
    exact (and_iff_right h.area).symm

end Query
end TableQuery
