import TableQuery.Proofs.Schema.Data

/-! Full records: which ones a model takes, what is given back, and how unknown keys are reported. -/

namespace TableQuery
namespace Schema
open Outcome

variable {m : Model} {f : Field} {v : Value} {r : List (String × Value)} {before : List String}

/-- A record of which all keys are names of fields, that has every required field, and of which every
value passes the check of its field. -/
structure Complete (m : Model) (r : List (String × Value)) : Prop where
  known : ∀ e ∈ r, ModelOf.hasField m (.str e.1)
  required : ∀ f ∈ m.fields, f.default = none → f.name ∈ r.map Prod.fst
  passes : ∀ e ∈ r, checkValue m (.str e.1) e.2 .none = .ok []

/-- What the fields take of the record can be given back as plain data. -/
def Returnable (m : Model) (r : List (String × Value)) : Prop :=
  ∀ e ∈ r, ∀ f ∈ m.fields, f.name = e.1 →
    ∀ c, f.type.check f.rule e.2 = .ok (.ok c) → ∃ data, c.given = .ok data

/-- The keys that are no names of fields. -/
def unknownNames (m : Model) (r : List (String × Value)) : List String :=
  (r.map Prod.fst).filter fun k => !ModelOf.hasField m (.str k)

theorem checkValue_eq_nil {k w : Value} : checkValue m k w .none = .ok [] ↔
    ∃ f, ModelOf.field? m k = some f ∧ Accepts f w := by
  rw [checkValue]
  cases hf : ModelOf.field? m k with
  | none => simp
  | some f =>
    simp only [Option.some.injEq, exists_eq_left']
    constructor
    · intro h
      obtain ⟨found, hfound, h⟩ := bind_eq_ok.mp h
      have hnone : found = [] := by
        by_contra hne
        rw [if_neg (mt List.isEmpty_iff.mp hne)] at h
        exact hne (tell_eq_ok.mp h).2
      exact (checkAs_eq_ok hfound).mp hnone
    · rintro ⟨c, hc⟩
      rw [checkAs, hc]
      rfl

theorem known_named : Known m (Value.named r) ↔ ∀ e ∈ r, ModelOf.hasField m (.str e.1) := by
  rw [Known, Value.named, List.forall_mem_map]
  simp only [ModelOf.hasField, Option.isSome_iff_exists]

/-- Where every field gives something or is left to its default, every entry is given by its field. -/
theorem gives_of_mem (hl : Unlabelled m) (hr : (r.map Prod.fst).Nodup)
    (hk : ∀ e ∈ r, ModelOf.hasField m (.str e.1))
    (hall : ∀ f ∈ m.fields, (∃ d, Gives (Value.named r) f d) ∨
      (Value.lookup (.str f.key) (Value.named r) = none ∧ ∃ d, f.default = some d))
    {e : String × Value} (he : e ∈ r) : ∃ f, ModelOf.field? m (.str e.1) = some f ∧
      ∃ c, f.type.check f.rule e.2 = .ok (.ok c) ∧ ∃ data, c.given = .ok data := by
  obtain ⟨f, hfield⟩ := Option.isSome_iff_exists.mp (hk e he)
  obtain ⟨hf, hname⟩ := field?_eq_some hfield
  have hlookup : Value.lookup (.str f.key) (Value.named r) = some e.2 := by
    rw [Value.lookup_named, hl f hf, ← Option.some.inj hname]
    exact Lists.lookup_of_mem hr he
  rcases hall f hf with ⟨d, -, w, c, found, read, hd⟩ | ⟨absent, -⟩
  · cases hlookup.symm.trans found
    exact ⟨f, hfield, c, read, _, hd⟩
  · cases hlookup.symm.trans absent

/-- A complete record has for each field something to be given back, or leaves it to its default. -/
theorem gives_of_complete (hn : m.fieldNames.Nodup) (hl : Unlabelled m)
    (hr : (r.map Prod.fst).Nodup) (hc : Complete m r) (hreturn : Returnable m r) {f : Field}
    (hf : f ∈ m.fields) : (∃ d, Gives (Value.named r) f d) ∨
      (Value.lookup (.str f.key) (Value.named r) = none ∧ ∃ d, f.default = some d) := by
  rw [Value.lookup_named, hl f hf]
  cases hlookup : r.lookup f.name with
  | none =>
    refine .inr ⟨rfl, Option.ne_none_iff_exists'.mp fun hd => ?_⟩
    obtain ⟨e, he, hname⟩ := List.mem_map.mp (hc.required f hf hd)
    cases hlookup.symm.trans (Lists.lookup_of_mem (b := e.2) hr (hname ▸ he))
  | some w =>
    have hmem := Lists.mem_of_lookup hlookup
    obtain ⟨g, hfield, c, hread⟩ := checkValue_eq_nil.mp (hc.passes _ hmem)
    cases hfield.symm.trans (field?_of_mem hn hf rfl)
    obtain ⟨data, hdata⟩ := hreturn _ hmem f hf rfl c hread
    exact .inl ⟨(f.name, data), rfl, w, c, by rw [Value.lookup_named, hl f hf, hlookup], hread, hdata⟩

/-- A record is taken and given back just where it is complete, and what it holds can be given back. -/
theorem exists_sound_iff_complete (hn : m.fieldNames.Nodup) (hl : Unlabelled m)
    (he : v.entries? = some (Value.named r)) (hr : (r.map Prod.fst).Nodup) :
    (∃ res, validateRecord m before v = .ok res ∧ res.findings = []) ↔
      Complete m r ∧ Returnable m r := by
  rw [exists_sound_of_unlabelled hl he, known_named]
  constructor
  · rintro ⟨hk, hall⟩
    refine ⟨⟨hk, fun f hf hd => ?_, fun e hemem => ?_⟩, fun e hemem f hf hname c hc => ?_⟩
    · rcases hall f hf with ⟨d, -, w, c, found, -⟩ | ⟨-, d, hsome⟩
      · rw [Value.lookup_named, hl f hf] at found
        exact List.mem_map_of_mem (Lists.mem_of_lookup found)
      · cases hd.symm.trans hsome
    · obtain ⟨f, hfield, c, hc, -⟩ := gives_of_mem hl hr hk hall hemem
      exact checkValue_eq_nil.mpr ⟨f, hfield, c, hc⟩
    · obtain ⟨g, hfield, c', hc', hdata⟩ := gives_of_mem hl hr hk hall hemem
      cases hfield.symm.trans (field?_of_mem hn hf (congrArg some hname.symm))
      cases hc.symm.trans hc'
      exact hdata
  · rintro ⟨hcomplete, hreturn⟩
    exact ⟨hcomplete.known, fun f hf => gives_of_complete hn hl hr hcomplete hreturn hf⟩

/-! What is given back. -/

/-- What is given back are the keys of the record, in the order of the model. -/
theorem keys_perm_of_gives {ds : List (String × Value)} (hn : m.fieldNames.Nodup) (hl : Unlabelled m)
    (hr : (r.map Prod.fst).Nodup) (hk : Known m (Value.named r))
    (h : List.Forall₂ (Gives (Value.named r)) (givenBy (Value.named r) m.fields) ds) :
    (ds.map Prod.fst).Perm (r.map Prod.fst) := by
  have hnodup : (ds.map Prod.fst).Nodup := by
    rw [name_of_gives h]
    exact hn.sublist (List.filter_sublist.map _)
  refine (List.perm_ext_iff_of_nodup hnodup hr).mpr fun k => ?_
  rw [name_of_gives h, List.mem_map]
  constructor
  · rintro ⟨f, hf, rfl⟩
    obtain ⟨hf, hsome⟩ := List.mem_filter.mp hf
    rw [hl f hf, Value.lookup_named] at hsome
    obtain ⟨w, hw⟩ := Option.isSome_iff_exists.mp hsome
    exact List.mem_map_of_mem (Lists.mem_of_lookup hw)
  · intro hmem
    obtain ⟨e, he, rfl⟩ := List.mem_map.mp hmem
    obtain ⟨f, hfield⟩ := hk _ (List.mem_map_of_mem he)
    obtain ⟨hf, hname⟩ := field?_eq_some hfield
    have hname : e.1 = f.name := Option.some.inj hname
    refine ⟨f, List.mem_filter.mpr ⟨hf, ?_⟩, hname.symm⟩
    rw [hl f hf, Value.lookup_named, ← hname, Lists.lookup_of_mem (b := e.2) hr he]
    rfl

/-! How unknown keys are reported. -/

/-- An unknown key is reported under its place in the whole. -/
def unknownField (before : List String) (k : String) : Finding :=
  finding (".".intercalate (before ++ [k])) "Unknown field"

theorem hasField_str {k : String} : ModelOf.hasField m (.str k) ↔ ∃ f ∈ m.fields, f.name = k := by
  simp [ModelOf.hasField, ModelOf.field?, Value.text?, List.find?_isSome]

/-- Going through the entries for those under unknown keys. -/
theorem filterMap_unknown {α : Type} (g : String → α) (r : List (String × Value)) :
    (r.filterMap fun e => if ModelOf.hasField m (.str e.1) then none else some (g e.1)) =
      (unknownNames m r).map g := by
  induction r with
  | nil => rfl
  | cons e r ih =>
    rw [unknownNames] at ih ⊢
    rw [List.filterMap_cons, List.map_cons, List.filter_cons, ih]
    cases ModelOf.hasField m (.str e.1) <;> rfl

theorem unknownAt_named (he : v.entries? = some (Value.named r)) :
    unknownAt m before v = (unknownNames m r).map (unknownField before) := by
  have hkeys : unknownKeys m v = (unknownNames m r).map .str := by
    have hnames : (Value.named r).map Prod.fst = (r.map Prod.fst).map .str := by
      rw [Value.named, List.map_map, List.map_map]
      rfl
    rw [unknownKeys, he, Option.getD_some, unknownNames, hnames, List.filter_map]
    rfl
  rw [unknownAt, hkeys, List.map_map]
  rfl

/-- A closed model reports an unknown key on its own account. -/
theorem extraIssues_named (hl : Unlabelled m) : extraIssues m.extra (foundKeys m.fields (Value.named r))
    (Value.named r) = if m.extra = .forbid then
      (unknownNames m r).map fun k => ⟨[.key k], .extraForbidden⟩ else [] := by
  have hfound : ∀ e ∈ r, e.1 ∈ foundKeys m.fields (Value.named r) ↔ ModelOf.hasField m (.str e.1) := by
    intro e he
    rw [mem_foundKeys, hasField_str, Value.isSome_lookup]
    constructor
    · rintro ⟨⟨f, hf, hkey⟩, -⟩
      exact ⟨f, hf, (hl f hf).symm.trans hkey⟩
    · rintro ⟨f, hf, hname⟩
      exact ⟨⟨f, hf, (hl f hf).trans hname⟩, _, List.mem_map_of_mem he, rfl⟩
  cases m.extra with
  | ignore => rfl
  | allow =>
    refine List.filterMap_eq_nil_iff.mpr fun e he => ?_
    obtain ⟨e, -, rfl⟩ := List.mem_map.mp he
    rfl
  | forbid =>
    rw [if_pos rfl, ← filterMap_unknown]
    change List.filterMap _ (Value.named r) = _
    rw [Value.named, List.filterMap_map]
    refine List.filterMap_congr fun e he => ?_
    have hmem := hfound e he
    change (if (true && !(foundKeys m.fields (Value.named r)).contains e.1) = true then _ else _) = _
    cases hk : ModelOf.hasField m (.str e.1) with
    | true => simp [hmem, hk]
    | false =>
      simp [hmem, hk]
      rfl

theorem head?_of_fieldIssues {es : List (Value × Value)} {fields : List Field}
    {said : List FieldVerdict} (h : List.Forall₂ (Says es) fields said) {i : Issue}
    (hi : i ∈ fieldIssues said) : ∃ f ∈ fields, i.path.head? = some (.key f.key) := by
  obtain ⟨s, hs, hi⟩ := List.mem_flatMap.mp hi
  obtain ⟨o, -, rfl⟩ := List.mem_map.mp hi
  obtain ⟨f, hf, hsays⟩ := Lists.exists_of_mem_right h hs
  exact ⟨f, hf, by rw [← hsays.key]; rfl⟩

/-- A record whose keys are texts, under a model whose fields go by their names. It is sound just where it
is complete and can be given back; then its own keys are given back. Of each unknown key there is one
finding of its own, and a second one where the model is closed; all others are at fields. -/
theorem validateRecord_complete (hn : m.fieldNames.Nodup) (hl : Unlabelled m)
    (he : v.entries? = some (Value.named r)) (hr : (r.map Prod.fst).Nodup) (before : List String) :
    ((∃ res, validateRecord m before v = .ok res ∧ res.findings = []) ↔
      Complete m r ∧ Returnable m r) ∧
    ∀ res, validateRecord m before v = .ok res →
      (res.findings = [] → ∃ ds, res.data = .map (Value.named ds) ∧
        (ds.map Prod.fst).Perm (r.map Prod.fst)) ∧
      ∃ own : List Issue, (∀ i ∈ own, ∃ f ∈ m.fields, i.path.head? = some (.key f.name)) ∧
        res.findings = (unknownNames m r).map (unknownField before) ++ findings before (own ++
          if m.extra = .forbid then (unknownNames m r).map fun k => ⟨[.key k], .extraForbidden⟩
          else []) := by
  refine ⟨exists_sound_iff_complete hn hl he hr, fun res h => ⟨fun hnone => ?_, ?_⟩⟩
  · obtain ⟨hk, ds, hdata, hds⟩ := data_of_sound hl he h hnone
    exact ⟨ds, hdata, keys_perm_of_gives hn hl hr hk hds⟩
  · obtain ⟨verdict, hv, hfound, -⟩ := validateRecord_cases h
    obtain ⟨said, hsaid, hissues, -⟩ := checkModel_cases he hv
    refine ⟨fieldIssues said, fun i hi => ?_, ?_⟩
    · obtain ⟨f, hf, hhead⟩ := head?_of_fieldIssues hsaid hi
      exact ⟨f, hf, hl f hf ▸ hhead⟩
    · rw [hfound, hissues, unknownAt_named he, extraIssues_named hl]

/-- Two fields in another order than the model's, and a third that is left to its default. -/
theorem validateRecord_complete_row :
    let m : Model := { name := "Row", extra := .forbid, fields := [
      { name := "id", type := .integer, rule := { strict := true } },
      { name := "note", type := .text, default := some (.str "") },
      { name := "tags", type := .listOf .text }] }
    let r : List (String × Value) := [("tags", .list [.str "a"]), ("id", .int 7)]
    m.fieldNames.Nodup ∧ Unlabelled m ∧ (r.map Prod.fst).Nodup ∧ Complete m r ∧ Returnable m r ∧
    ∃ res ds, validateRecord m [] (.map (Value.named r)) = .ok res ∧
      res.data = .map (Value.named ds) ∧ (ds.map Prod.fst).Perm ["tags", "id"] := by
  intro m r
  have hn : m.fieldNames.Nodup := by decide
  have hl : Unlabelled m := by decide
  have hr : (r.map Prod.fst).Nodup := by decide
  obtain ⟨res, h, hnone⟩ : ∃ res, validateRecord m [] (.map (Value.named r)) = .ok res ∧
      res.findings = [] := Outcome.exists_of_isOk (by decide +kernel)
  obtain ⟨hiff, hres⟩ := validateRecord_complete hn hl (v := .map (Value.named r)) rfl hr []
  obtain ⟨hcomplete, hreturn⟩ := hiff.mp ⟨res, h, hnone⟩
  obtain ⟨ds, hdata, hperm⟩ := (hres res h).1 hnone
  exact ⟨hn, hl, hr, hcomplete, hreturn, res, ds, h, hdata, hperm⟩

/-- No record is sound under a model with a required field whose label is no name: under its label the
field is not known, and under its name it is missing. -/
theorem findings_of_label (hf : f ∈ m.fields) (hd : f.default = none) (hlabel : f.key ∉ m.fieldNames)
    {res : Result} (h : validateRecord m before v = .ok res) : res.findings ≠ [] := by
  intro hnone
  obtain ⟨hk, c, hc, -⟩ := exists_sound.mp ⟨res, h, hnone⟩
  obtain ⟨es, he⟩ := entries_of_accepted hc
  rw [he] at hk
  obtain ⟨fs, hfs, -, -⟩ := (checkModel_eq_accepted he).mp hc
  obtain ⟨g, -, hg⟩ := Lists.exists_of_mem_left hfs hf
  cases hg with
  | given found read =>
    obtain ⟨e, hemem, hkey⟩ := Value.isSome_lookup.mp (Option.isSome_iff_exists.mpr ⟨_, found⟩)
    obtain ⟨g, hfield⟩ := hk e hemem
    obtain ⟨hmem, hname⟩ := field?_eq_some hfield
    exact hlabel (Option.some.inj (hkey.symm.trans hname) ▸ List.mem_map_of_mem hmem)
  | default absent default => cases hd.symm.trans default

/-- With a label a complete record is refused whatever it is called under, and without a default no record
passes at all; with a default a value is dropped that its field would not take. A closed model reports an
unknown key twice. -/
theorem validateRecord_incomplete :
    let required : Model := { name := "Row", fields := [
      { name := "user_id", type := .integer, label := some "userId" }] }
    let defaulted : Model := { name := "Row", fields := [
      { name := "user_id", type := .integer, label := some "userId", default := some (.int 0) }] }
    let closed : Model := { name := "Row", extra := .forbid, fields := [
      { name := "id", type := .integer }] }
    Complete required [("user_id", .int 1)] ∧
    (∀ before v res, validateRecord required before v = .ok res → res.findings ≠ []) ∧
    checkValue defaulted (.str "user_id") (.str "x") .none ≠ .ok [] ∧
    validateRecord defaulted [] (.map [(.str "user_id", .str "x")]) = .ok ⟨.map [], []⟩ ∧
    validateRecord closed [] (.map [(.str "id", .int 1), (.str "zz", .int 7)]) =
      .ok ⟨.none, [⟨"zz", "Unknown field"⟩, ⟨"zz", "Extra inputs are not permitted"⟩]⟩ := by
  intro required defaulted closed
  have hcomplete : Complete required [("user_id", .int 1)] := by
    refine ⟨by decide, by decide, fun e he => ?_⟩
    cases List.mem_singleton.mp he
    rfl
  refine ⟨hcomplete, ?_, ?_, ?_, ?_⟩
  · intro before v res h
    exact findings_of_label (List.mem_singleton.mpr rfl) rfl (by decide) h
  · intro h
    obtain ⟨f, hfield, c, hc⟩ := checkValue_eq_nil.mp h
    cases hfield
    cases hc
  · with_unfolding_all rfl
  · with_unfolding_all rfl

end Schema
end TableQuery
