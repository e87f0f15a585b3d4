import TableQuery.Proofs.Query.Inserted
import TableQuery.Proofs.Schema.Records
import TableQuery.Proofs.Schema.Vouched

/-! What a model lets through of a payload, and that the data it gives back has declared names only. -/

namespace TableQuery

namespace Schema
open Outcome

variable {m : Model} {o : Overlay} {v : Value} {k : Value}

/-- The name of a declared field. -/
def Declared (m : Model) (name : String) : Prop := ∃ f ∈ m.fields, f.name = name

theorem declared_of_field? {f : Field} {s : String} (h : ModelOf.field? m k = some f)
    (hs : k.text? = some s) : Declared m s := by
  obtain ⟨hf, hname⟩ := field?_eq_some h
  exact ⟨f, hf, Option.some.inj (hname.symm.trans hs)⟩

/-! Records as data. -/

theorem names_of_said {fields : List Field} {es : List (Value × Value)} {said : List FieldVerdict}
    (h : List.Forall₂ (Says es) fields said) : said.map (·.name) = fields.map (·.name) := by
  induction h with
  | nil => rfl
  | cons hf _ ih => rw [List.map_cons, List.map_cons, hf.name, ih]

theorem keys_of_plainFields {fs : List (String × Value)} {es : List (Value × Value)}
    (h : plainFields fs = .ok es) : es.map Prod.fst = fs.map fun f => .str f.1 := by
  induction fs generalizing es with
  | nil =>
    cases h
    rfl
  | cons f fs ih =>
    obtain ⟨n, v⟩ := f
    rw [plainFields] at h
    obtain ⟨w, -, h⟩ := bind_eq_ok.mp h
    obtain ⟨rest, hr, h⟩ := bind_eq_ok.mp h
    cases pure_eq_ok.mp h
    rw [List.map_cons, List.map_cons, ih hr]

theorem keys_of_givenFields {others : List String} {fs : List (String × Bool × Checked)}
    {es : List (Value × Value)} (h : Checked.givenFields others fs = .ok es) {e : Value × Value}
    (he : e ∈ es) : ∃ f ∈ fs, e.1 = .str f.1 := by
  induction fs generalizing es with
  | nil =>
    cases h
    cases he
  | cons f fs ih =>
    obtain ⟨n, given, c⟩ := f
    have hrest : ∀ rest, Checked.givenFields others fs = .ok rest → e ∈ rest →
        ∃ g ∈ (n, given, c) :: fs, e.1 = .str g.1 := by
      intro rest hr he
      obtain ⟨g, hg, hkey⟩ := ih hr he
      exact ⟨g, List.mem_cons_of_mem _ hg, hkey⟩
    rw [Checked.givenFields] at h
    dsimp only at h
    split at h
    · obtain ⟨here, hh, h⟩ := bind_eq_ok.mp h
      obtain ⟨rest, hr, h⟩ := bind_eq_ok.mp h
      cases pure_eq_ok.mp h
      obtain ⟨w, -, rfl⟩ := map_eq_ok.mp hh
      rcases List.mem_cons.mp he with rfl | he
      · exact ⟨_, List.mem_cons_self, rfl⟩
      · exact hrest rest hr he
    · obtain ⟨here, hh, h⟩ := bind_eq_ok.mp h
      obtain ⟨rest, hr, h⟩ := bind_eq_ok.mp h
      cases pure_eq_ok.mp hh
      cases pure_eq_ok.mp h
      exact hrest rest hr he

/-- A record that is accepted, without keys that are not declared. -/
def RecordPasses (o : Overlay) (v : Value) : Prop :=
  (∀ e ∈ v.entries?.getD [], ∃ f, ModelOf.field? o.model e.1 = some f) ∧ ∃ c, o.check v = .ok (.ok c)

/-- The data of a record has declared names. -/
def Named (m : Model) (es : List (Value × Value)) : Prop :=
  ∀ e ∈ es, ∃ s, e.1.text? = some s ∧ Declared m s

theorem named_of_model {c : Checked} {data : Value}
    (hk : ∀ e ∈ v.entries?.getD [], ∃ f, ModelOf.field? m e.1 = some f)
    (hc : checkModel m v = .ok (.ok c)) (hd : c.given = .ok data) {es : List (Value × Value)}
    (hes : data.entries? = some es) : Named m es := by
  obtain ⟨name, extra, fields⟩ := m
  rw [checkModel] at hc
  cases he : v.entries? with
  | none => rw [he] at hc; cases hc
  | some entries =>
    rw [he] at hc hk
    obtain ⟨verdicts, hv, hc⟩ := bind_eq_ok.mp hc
    have hc := pure_eq_ok.mp hc
    unfold assemble at hc
    dsimp only at hc
    split at hc
    · cases hc
      rw [Checked.given] at hd
      obtain ⟨given, hg, hd⟩ := bind_eq_ok.mp hd
      obtain ⟨plain, hp, hd⟩ := bind_eq_ok.mp hd
      cases pure_eq_ok.mp hd
      cases hes
      intro e hmem
      -- What an open model keeps beside its fields has keys of the record, which are declared.
      rcases Value.key_of_mem_insertAll hmem with hkey | hkey
      · rw [keys_of_plainFields hp] at hkey
        obtain ⟨f, hf, hkey⟩ := List.mem_map.mp hkey
        obtain ⟨e', he', hread, -⟩ := name_of_extraFields hf
        obtain ⟨field, hfield⟩ := hk e' he'
        obtain ⟨-, hname⟩ := field?_eq_some hfield
        have hf : field.name = f.1 := Except.ok.inj ((Condition.text_eq_ok hname).symm.trans hread)
        exact ⟨f.1, by rw [← hkey]; rfl, hf ▸ declared_of_field? hfield hname⟩
      · obtain ⟨g, hgmem, hgkey⟩ := List.mem_map.mp hkey
        obtain ⟨f, hf, hkey'⟩ := keys_of_givenFields hg hgmem
        obtain ⟨verdict, hverdict, hmade⟩ := List.mem_filterMap.mp hf
        obtain ⟨c', -, rfl⟩ := Option.map_eq_some_iff.mp hmade
        have hname : verdict.name ∈ verdicts.map (·.name) := List.mem_map_of_mem hverdict
        rw [names_of_said (checkFields_eq_ok.mp hv)] at hname
        obtain ⟨field, hfield, hname⟩ := List.mem_map.mp hname
        exact ⟨verdict.name, by rw [← hgkey, hkey']; rfl, field, hfield, hname⟩
    · cases hc

/-- An instance that a reading gives back has values for fields of the model. -/
theorem named_of_instance {values : List (Option Checked)} {data : Value}
    (hd : (ModelOf.instanceOf m values).given = .ok data) {es : List (Value × Value)}
    (hes : data.entries? = some es) : Named m es := by
  rw [ModelOf.instanceOf, Checked.given] at hd
  obtain ⟨given, hg, hd⟩ := bind_eq_ok.mp hd
  obtain ⟨others, hothers, hd⟩ := bind_eq_ok.mp hd
  cases pure_eq_ok.mp hd
  cases hothers
  cases hes
  intro e he
  obtain ⟨f, hf, hkey⟩ := keys_of_givenFields hg he
  obtain ⟨⟨n, c⟩, hp, rfl⟩ := List.mem_map.mp hf
  obtain ⟨g, hg, hname⟩ := List.mem_map.mp (List.of_mem_zip hp).1
  exact ⟨n, by rw [hkey]; rfl, g, hg, hname⟩

theorem named_of_given {c : Checked} {data : Value}
    (hk : ∀ e ∈ v.entries?.getD [], ∃ f, ModelOf.field? o.model e.1 = some f)
    (hc : o.check v = .ok (.ok c)) (hd : c.given = .ok data) {es : List (Value × Value)}
    (hes : data.entries? = some es) : Named o.model es := by
  unfold Overlay.check at hc
  split at hc
  · exact named_of_model hk hc hd hes
  · rename_i read _
    cases hr : read v with
    | taken values =>
      rw [hr] at hc
      cases hc
      exact named_of_instance hd hes
    | refused i is =>
      rw [hr] at hc
      cases hc
    | raised kind message =>
      rw [hr] at hc
      cases hc

/-- A record is found sound where it passes, and then its data has declared names. -/
theorem validateRecord_eq_ok {before : List String} {r : Result}
    (h : validateRecord o before v = .ok r) : (r.findings = [] ↔ RecordPasses o v) ∧
      (r.findings = [] → ∀ es, r.data.entries? = some es → Named o.model es) := by
  obtain ⟨verdict, hv, hfound, hdata⟩ := validateRecord_cases h
  have hpasses : r.findings = [] ↔ RecordPasses o v := by
    rw [hfound, List.append_eq_nil_iff, unknownAt_eq_nil, findings_eq_nil, issues_eq_nil hv,
      RecordPasses, hv]
    simp
  refine ⟨hpasses, fun hnone es hes => ?_⟩
  obtain ⟨c, rfl, hd⟩ := hdata hnone
  exact named_of_given (hpasses.mp hnone).1 hv hd hes

/-! Batches and parts of records. -/

theorem validateEach_eq_ok {index : Nat} {records : List Value} {results : List Result}
    (h : validateEach o index records = .ok results) :
    List.Forall₂ (fun v r => ∃ before, validateRecord o before v = .ok r) records results := by
  induction records generalizing index results with
  | nil =>
    cases h
    exact .nil
  | cons v records ih =>
    rw [validateEach] at h
    obtain ⟨first, hf, h⟩ := bind_eq_ok.mp h
    obtain ⟨rest, hr, h⟩ := bind_eq_ok.mp h
    cases pure_eq_ok.mp h
    exact .cons ⟨_, hf⟩ (ih hr)

/-- A batch is found sound where each of its records passes. -/
theorem validateRecords_eq_ok {r : Result} (h : validateRecords o v = .ok r) :
    (r.findings = [] ↔ ∃ xs, v.items? = some xs ∧ ∀ x ∈ xs, RecordPasses o x) ∧
      (r.findings = [] → ∃ datas, r.data = .list datas ∧
        ∀ d ∈ datas, ∀ es, d.entries? = some es → Named o.model es) := by
  rw [validateRecords] at h
  cases hi : v.items? with
  | none =>
    rw [hi] at h
    cases h
    exact ⟨by simp, nofun⟩
  | some xs =>
    rw [hi] at h
    obtain ⟨results, hr, h⟩ := bind_eq_ok.mp h
    have heach := validateEach_eq_ok hr
    have hsound : (results.flatMap (·.findings)) = [] ↔ ∀ x ∈ xs, RecordPasses o x := by
      rw [List.flatMap_eq_nil_iff]
      constructor
      · intro hnone x hx
        obtain ⟨r, hr, before, hv⟩ := Lists.exists_of_mem_left heach hx
        exact (validateRecord_eq_ok hv).1.mp (hnone r hr)
      · intro hall r hr
        obtain ⟨x, hx, before, hv⟩ := Lists.exists_of_mem_right heach hr
        exact (validateRecord_eq_ok hv).1.mpr (hall x hx)
    have h := pure_eq_ok.mp h
    simp only [Option.some.injEq, exists_eq_left']
    split at h
    · rename_i hempty
      cases h
      have hnone := List.isEmpty_iff.mp hempty
      refine ⟨iff_of_true rfl (hsound.mp hnone), fun _ => ⟨_, rfl, ?_⟩⟩
      intro d hd es hes
      obtain ⟨r, hr, rfl⟩ := List.mem_map.mp hd
      obtain ⟨x, hx, before, hv⟩ := Lists.exists_of_mem_right heach hr
      exact (validateRecord_eq_ok hv).2 (List.flatMap_eq_nil_iff.mp hnone r hr) es hes
    · rename_i hsome
      cases h
      exact ⟨hsound, fun hnone => absurd (List.isEmpty_iff.mpr hnone) hsome⟩

theorem partialEntry_eq_ok {k v : Value} {r : Except (List Finding) (Value × Value)}
    (h : partialEntry m k v = .ok r) :
    (∃ f c, ModelOf.field? m k = some f ∧ f.type.check f.rule v = .ok (.ok c) ∧
      r = .ok (k, c.toValue)) ∨
    (¬ ∃ f, ModelOf.field? m k = some f ∧ Accepts f v) ∧
      ∃ found, r = .error found ∧ found ≠ [] := by
  rw [partialEntry] at h
  cases hf : ModelOf.field? m k with
  | none =>
    rw [hf] at h
    obtain ⟨-, rfl⟩ := tell_eq_ok.mp h
    exact .inr ⟨by simp, _, rfl, List.cons_ne_nil _ _⟩
  | some f =>
    rw [hf] at h
    obtain ⟨verdict, hv, h⟩ := bind_eq_ok.mp h
    cases verdict with
    | ok c =>
      cases pure_eq_ok.mp h
      exact .inl ⟨f, c, rfl, hv, rfl⟩
    | error issues =>
      cases pure_eq_ok.mp h
      refine .inr ⟨?_, _, rfl, ?_⟩
      · rintro ⟨f', hf', c, hc⟩
        cases hf'
        cases hv.symm.trans hc
      · rw [Ne, List.map_eq_nil_iff]
        exact fun he => grounded_check f.rule v f.type hv (congrArg _ he)

/-- Part of a record is found sound where each entry is a declared field with a value that its adapter
takes. -/
theorem validatePartial_eq_ok {r : Result} (h : validatePartial m v = .ok r) :
    (r.findings = [] ↔ ∃ es, v.entries? = some es ∧
      ∀ e ∈ es, ∃ f, ModelOf.field? m e.1 = some f ∧ Accepts f e.2) ∧
      (r.findings = [] → ∀ es, r.data.entries? = some es → Named m es) := by
  rw [validatePartial] at h
  cases he : v.entries? with
  | none =>
    rw [he] at h
    cases h
    exact ⟨by simp, nofun⟩
  | some es =>
    rw [he] at h
    obtain ⟨entries, hm, h⟩ := bind_eq_ok.mp h
    have heach := mapM_eq_ok.mp hm
    have h := pure_eq_ok.mp h
    generalize hfound : List.flatMap _ entries = found at h
    -- An entry has either a value or findings, and never both.
    have hsound : found = [] ↔ ∀ e ∈ es, ∃ f, ModelOf.field? m e.1 = some f ∧ Accepts f e.2 := by
      rw [← hfound, List.flatMap_eq_nil_iff]
      constructor
      · intro hnone e he
        obtain ⟨r, hr, hentry⟩ := Lists.exists_of_mem_left heach he
        rcases partialEntry_eq_ok hentry with ⟨f, c, hf, hc, -⟩ | ⟨-, found, rfl, hne⟩
        · exact ⟨f, hf, c, hc⟩
        · exact absurd (hnone _ hr) hne
      · intro hall r hr
        obtain ⟨e, he, hentry⟩ := Lists.exists_of_mem_right heach hr
        rcases partialEntry_eq_ok hentry with ⟨f, c, -, -, rfl⟩ | ⟨hno, -⟩
        · rfl
        · exact absurd (hall e he) hno
    simp only [Option.some.injEq, exists_eq_left']
    split at h
    · rename_i hempty
      cases h
      refine ⟨iff_of_true rfl (hsound.mp (List.isEmpty_iff.mp hempty)), fun _ gs hgs g hg => ?_⟩
      cases hgs
      obtain ⟨r, hr, hg⟩ := List.mem_filterMap.mp hg
      obtain ⟨e, -, hentry⟩ := Lists.exists_of_mem_right heach hr
      rcases partialEntry_eq_ok hentry with ⟨f, c, hf, -, rfl⟩ | ⟨-, found, rfl, -⟩
      · cases hg
        obtain ⟨hmem, hname⟩ := field?_eq_some hf
        exact ⟨f.name, hname, f, hmem, rfl⟩
      · cases hg
    · rename_i hsome
      cases h
      exact ⟨hsound, fun hnone => absurd (List.isEmpty_iff.mpr hnone) hsome⟩

/-! Payloads that are neither sound nor refused. -/

variable {e : Fault}

/-- What the check of a record ends in where nothing can be told of the record: of an unknown key, since
it cannot be written out; or because it is not read; or because no data can be made of what was read. -/
inductive Breaks (o : Overlay) (v : Value) : Fault → Prop
  | untold (long : Untold (unknownKeys o.model v)) : Breaks o v .tooManyDigits
  | unread {e : Fault} (read : o.check v = .error e) : Breaks o v e
  | unmade {c : Checked} {e : Fault} (read : o.check v = .ok (.ok c)) (made : c.given = .error e) :
    Breaks o v e

/-- What the check of one entry ends in where nothing can be told of the entry. -/
inductive EntryBreaks (m : Model) (k v : Value) : Fault → Prop
  | untold (unknown : ModelOf.field? m k = none) (long : k.hasText = false) :
    EntryBreaks m k v .tooManyDigits
  | unread {f : Field} {e : Fault} (known : ModelOf.field? m k = some f)
    (read : f.type.check f.rule v = .error e) : EntryBreaks m k v e

theorem breaks_of_validateRecord {before : List String} (h : validateRecord o before v = .error e) :
    Breaks o v e := by
  rcases bind_eq_error.mp h with hu | ⟨unknown, -, h⟩
  · obtain ⟨long, rfl⟩ := unknownFindings_eq_error.mp hu
    exact .untold long
  · rcases bind_eq_error.mp h with hc | ⟨verdict, hv, h⟩
    · exact .unread hc
    · dsimp only at h
      split at h
      · rename_i c _
        rcases bind_eq_error.mp h with hd | ⟨data, -, h⟩
        · exact .unmade hv hd
        · cases h
      · cases h

theorem breaks_of_validateEach {index : Nat} {records : List Value}
    (h : validateEach o index records = .error e) : ∃ x ∈ records, Breaks o x e := by
  induction records generalizing index with
  | nil => cases h
  | cons x records ih =>
    rw [validateEach] at h
    rcases bind_eq_error.mp h with hf | ⟨first, -, h⟩
    · exact ⟨x, List.mem_cons_self, breaks_of_validateRecord hf⟩
    · rcases bind_eq_error.mp h with hr | ⟨rest, -, h⟩
      · obtain ⟨y, hy, hb⟩ := ih hr
        exact ⟨y, List.mem_cons_of_mem x hy, hb⟩
      · cases h

theorem breaks_of_validateRecords (h : validateRecords o v = .error e) :
    ∃ xs, v.items? = some xs ∧ ∃ x ∈ xs, Breaks o x e := by
  rw [validateRecords] at h
  cases hi : v.items? with
  | none =>
    rw [hi] at h
    cases h
  | some xs =>
    rw [hi] at h
    rcases bind_eq_error.mp h with hr | ⟨results, -, h⟩
    · exact ⟨xs, rfl, breaks_of_validateEach hr⟩
    · cases h

theorem breaks_of_partialEntry (h : partialEntry m k v = .error e) : EntryBreaks m k v e := by
  rw [partialEntry] at h
  cases hf : ModelOf.field? m k with
  | none =>
    rw [hf] at h
    obtain ⟨long, rfl⟩ := tell_eq_error.mp h
    exact .untold hf long
  | some f =>
    rw [hf] at h
    rcases bind_eq_error.mp h with hv | ⟨verdict, -, h⟩
    · exact .unread hf hv
    · split at h <;> cases h

theorem breaks_of_validatePartial (h : validatePartial m v = .error e) :
    ∃ es, v.entries? = some es ∧ ∃ entry ∈ es, EntryBreaks m entry.1 entry.2 e := by
  rw [validatePartial] at h
  cases he : v.entries? with
  | none =>
    rw [he] at h
    cases h
  | some es =>
    rw [he] at h
    rcases bind_eq_error.mp h with hm | ⟨entries, -, h⟩
    · obtain ⟨entry, hmem, hentry⟩ := exists_of_mapM_error hm
      exact ⟨es, rfl, entry, hmem, breaks_of_partialEntry hentry⟩
    · cases h

end Schema
end TableQuery
