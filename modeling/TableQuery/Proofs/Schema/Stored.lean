import TableQuery.Handle.Table
import TableQuery.Proofs.Schema.Payloads

/-! Statements that come of calls under a model: what they filter by, and what they store. -/

namespace TableQuery
namespace Schema
open Outcome Query

variable {m : Model} {o : Overlay} {rules : Naming} {s : State} {es : List (Value × Value)}

/-- A column has the value of an entry, under the trimmed name of a declared field. -/
def Stores (m : Model) (e : Value × Value) (a : String × Value) : Prop :=
  ∃ f ∈ m.fields, e.1.text? = some f.name ∧ a.1 = Text.trim f.name ∧ a.2 = e.2

/-- The columns have the values of the entries, no more and no less. -/
def Stored (m : Model) (es : List (Value × Value)) (columns : List (String × Value)) : Prop :=
  (∀ a ∈ columns, ∃ e ∈ es, Stores m e a) ∧ ∀ e ∈ es, ∃ a ∈ columns, Stores m e a

/-- What a call under a model may write: nothing, or what its payload was read as. -/
inductive Written (o : Overlay) : Handle.Terminal → Statement → Prop
  | select {t : Handle.Terminal} (kind : t.kind = .select) (columns : Columns) (target : Target)
    (filter : Filter) (order : List (String × Direction)) (take skip : Option Int) :
    Written o t (.select columns target filter order take skip)
  | count (target : Target) (filter : Filter) : Written o .count (.count target filter)
  | delete (target : Target) (filter : Filter) (returning : Columns) :
    Written o .delete (.delete target filter returning)
  | insert {v : Value} {r : Result} {es : List (Value × Value)} {names : List String}
    {row : List Value} (target : Target) (returning : Columns)
    (checked : validateRecord o [] v = .ok r) (sound : r.findings = [])
    (data : r.data.entries? = some es) (width : row.length = names.length)
    (stored : Stored o.model es (names.zip row)) :
    Written o (.create v) (.insert target names row returning)
  | insertMany {v : Value} {r : Result} {datas : List Value} {names : List String}
    {rows : List (List Value)} (target : Target) (returning : Columns)
    (checked : validateRecords o v = .ok r) (sound : r.findings = [])
    (data : r.data.items? = some datas)
    (stored : List.Forall₂ (fun d row => row.length = names.length ∧
      ∃ es, d.entries? = some es ∧ Stored o.model es (names.zip row)) datas rows) :
    Written o (.createMany v) (.insertMany target names rows returning)
  | update {v : Value} {r : Result} {es : List (Value × Value)} {assignments : List (String × Value)}
    (target : Target) (filter : Filter) (returning : Columns)
    (checked : validatePartial o.model v = .ok r) (sound : r.findings = [])
    (data : r.data.entries? = some es) (stored : Stored o.model es assignments) :
    Written o (.update v) (.update target assignments filter returning)

theorem stores_of_name? {e : Value × Value} {n : String} (hn : Named m es) (he : e ∈ es)
    (h : rules.column.name? e.1 = some n) : Stores m e (n, e.2) := by
  obtain ⟨s, hs, f, hf, rfl⟩ := hn e he
  exact ⟨f, hf, hs, eq_trim_of_name? h hs, rfl⟩

theorem stored_of_payload {row : List (String × Value)} (hn : Named m es)
    (h : payload rules es = .ok row) : Stored m es row := by
  obtain ⟨hnamed, -⟩ := payload_eq_ok.mp h
  refine ⟨fun a ha => ?_, fun e he => ?_⟩
  · obtain ⟨e, he, hname, hvalue⟩ := Lists.exists_of_mem_right hnamed ha
    obtain ⟨n, w⟩ := a
    cases hvalue
    exact ⟨e, he, stores_of_name? hn he hname⟩
  · obtain ⟨⟨n, w⟩, ha, hname, hvalue⟩ := Lists.exists_of_mem_left hnamed he
    cases hvalue
    exact ⟨_, ha, stores_of_name? hn he hname⟩

/-- Every column of the first record is one of each other. -/
theorem exists_of_first {batch : List (List (Value × Value))} {rows : List (List (String × Value))}
    (hc : consistent ((batch.headD []).map Prod.fst) 1 batch.tail = .ok ())
    (hrows : List.Forall₂ (fun r row => payload rules r = .ok row) batch rows)
    (hes : es ∈ batch) {n : String} (hn : n ∈ (rows.headD []).map Prod.fst) :
    ∃ e ∈ es, rules.column.name? e.1 = some n := by
  cases hrows with
  | nil => cases hes
  | @cons first row rest rows hfirst hrest =>
    obtain ⟨a, ha, rfl⟩ := List.mem_map.mp hn
    obtain ⟨hnamed, -⟩ := payload_eq_ok.mp hfirst
    obtain ⟨e, he, hname, -⟩ := Lists.exists_of_mem_right hnamed ha
    rcases List.mem_cons.mp hes with rfl | hes
    · exact ⟨e, he, hname⟩
    · have hkeys := consistent_eq_ok.mp hc es hes
      obtain ⟨-, hall⟩ := Bool.and_eq_true_iff.mp hkeys
      obtain ⟨k, hk, hsame⟩ := List.any_eq_true.mp
        (List.all_eq_true.mp hall e.1 (List.mem_map_of_mem he))
      obtain ⟨e', he', rfl⟩ := List.mem_map.mp hk
      exact ⟨e', he', name?_of_same hsame hname⟩

/-- A row of a batch, whose columns are those of the first record. -/
theorem stored_of_batch {batch : List (List (Value × Value))} {rows : List (List (String × Value))}
    (hc : consistent ((batch.headD []).map Prod.fst) 1 batch.tail = .ok ())
    (hrows : List.Forall₂ (fun r row => payload rules r = .ok row) batch rows) (hes : es ∈ batch)
    (hn : Named m es) {row : List (String × Value)} (hp : payload rules es = .ok row) :
    Stored m es (((rows.headD []).map Prod.fst).zip
      (((rows.headD []).map Prod.fst).map fun n => (row.lookup n).getD .none)) := by
  rw [← List.map_prod_left_eq_zip]
  -- Values are looked up under the columns of the first record, which are those of every other.
  refine ⟨fun a ha => ?_, fun e he => ?_⟩
  · obtain ⟨n, hnmem, rfl⟩ := List.mem_map.mp ha
    obtain ⟨e, he, hname⟩ := exists_of_first hc hrows hes hnmem
    obtain ⟨n', hname', hlookup⟩ := mem_named hp he
    cases hname.symm.trans hname'
    rw [hlookup]
    exact ⟨e, he, stores_of_name? hn he hname⟩
  · obtain ⟨n, hname, hlookup⟩ := mem_named hp he
    refine ⟨_, List.mem_map_of_mem (mem_first hc hrows hes he hname), ?_⟩
    rw [hlookup]
    exact stores_of_name? hn he hname

/-- Data is what a check gives back where it has found nothing. -/
theorem sound_eq_ok {subject : String} {checked : Outcome Result} {data : Value}
    (h : (checked >>= Handle.sound subject) = .ok data) :
    ∃ r, checked = .ok r ∧ r.findings = [] ∧ data = r.data := by
  obtain ⟨r, hr, h⟩ := bind_eq_ok.mp h
  rw [Handle.sound] at h
  split at h
  · rename_i hok
    cases h
    exact ⟨r, hr, List.isEmpty_iff.mp hok, rfl⟩
  · exact absurd h reject_ne_ok

variable {h : Handle} {t : Handle.Terminal} {st : Statement}

theorem written_of_statement (hm : h.model = some o) (hs : h.statement t = .ok st) :
    Written o t st := by
  obtain ⟨data, hd, hs⟩ := bind_eq_ok.mp hs
  rw [hm] at hd
  have hread : ∀ {k : StatementKind}, t.kind = k → build h.rules k (h.capped t) data = .ok st := by
    intro k hk
    rw [← hk]
    exact hs
  have hselect (hk : t.kind = .select) : Written o t st := by
    obtain ⟨columns, target, f, order, take, skip, -, -, -, -, -, -, rfl⟩ :=
      select_eq_ok.mp (hread hk)
    exact .select hk columns target f order take skip
  cases t with
  | findMany | findFirst | findUnique => exact hselect rfl
  | count =>
    obtain ⟨target, f, -, -, rfl⟩ := count_eq_ok.mp hs
    exact .count target f
  | delete =>
    obtain ⟨target, f, columns, -, -, -, -, rfl⟩ := delete_eq_ok.mp hs
    exact .delete target f columns
  | create v =>
    obtain ⟨r, hr, hnone, rfl⟩ := sound_eq_ok hd
    obtain ⟨es, row, target, columns, hrecord, hp, -, -, rfl⟩ := insert_eq_ok.mp hs
    have hes := (record?_eq_some.mp hrecord).1
    have hrow := stored_of_payload ((validateRecord_eq_ok hr).2 hnone es hes) hp
    refine .insert target columns hr hnone hes (by simp) ?_
    rwa [← List.zip_of_prod rfl rfl]
  | createMany v =>
    obtain ⟨r, hr, hnone, rfl⟩ := sound_eq_ok hd
    obtain ⟨items, batch, rows, target, columns, hitems, hb, hc, hrows, -, -, rfl⟩ :=
      insertMany_eq_ok hs
    obtain ⟨datas, hdatas, hnamed⟩ := (validateRecords_eq_ok hr).2 hnone
    have heq : items = datas := by
      rw [hdatas] at hitems
      exact (Option.some.inj hitems).symm
    refine .insertMany target columns hr hnone hitems ?_
    rw [List.forall₂_map_right_iff]
    -- Records and rows are related through the entries of the records.
    refine Lists.forall₂_trans (records_eq_ok.mp hb) hrows fun d hd es hes row hrecord hp => ?_
    have hentries := (record?_eq_some.mp hrecord).1
    exact ⟨by simp, es, hentries,
      stored_of_batch hc hrows hes (hnamed d (heq ▸ hd) es hentries) hp⟩
  | update v =>
    obtain ⟨r, hr, hnone, rfl⟩ := sound_eq_ok hd
    obtain ⟨es, assignments, target, f, columns, -, hrecord, hp, -, -, -, rfl⟩ := update_eq_ok.mp hs
    have hes := (record?_eq_some.mp hrecord).1
    exact .update target f columns hr hnone hes
      (stored_of_payload ((validatePartial_eq_ok hr).2 hnone es hes) hp)

end Schema
end TableQuery
