import TableQuery.Proofs.Schema.Conditions
import TableQuery.Proofs.Value.Told

/-! What a record says of the fields of a model, one after the other, and what becomes of it. -/

namespace TableQuery
namespace Schema
open Outcome

variable {m : Model} {f : Field} {v : Value} {es : List (Value × Value)} {before : List String}

/-- What a record says of a field: the value under its key, as its type takes it, or the default. -/
inductive Says (es : List (Value × Value)) (f : Field) : FieldVerdict → Prop
  | given {v : Value} {verdict : Verdict} (found : Value.lookup (.str f.key) es = some v)
    (read : f.type.check f.rule v = .ok verdict) : Says es f ⟨f.name, f.key, true, verdict⟩
  | default {d : Value} (absent : Value.lookup (.str f.key) es = none) (default : f.default = some d) :
    Says es f ⟨f.name, f.key, false, .ok (.value d)⟩
  | missing (absent : Value.lookup (.str f.key) es = none) (required : f.default = none) :
    Says es f ⟨f.name, f.key, false, fail .missing⟩

theorem checkField_eq (f : Field) (es : List (Value × Value)) : checkField f es =
    match Value.lookup (.str f.key) es with
    | some v => do return ⟨f.name, f.key, true, ← f.type.check f.rule v⟩
    | none => return ⟨f.name, f.key, false, match f.default with
      | some d => .ok (.value d)
      | none => fail .missing⟩ := by
  obtain ⟨name, type, rule, default, label⟩ := f
  unfold checkField
  rfl

theorem checkField_eq_ok {said : FieldVerdict} : checkField f es = .ok said ↔ Says es f said := by
  rw [checkField_eq]
  constructor
  · intro h
    cases hl : Value.lookup (.str f.key) es with
    | some v =>
      rw [hl] at h
      obtain ⟨verdict, hv, h⟩ := bind_eq_ok.mp h
      cases pure_eq_ok.mp h
      exact .given hl hv
    | none =>
      rw [hl] at h
      cases pure_eq_ok.mp h
      cases hd : f.default with
      | some d => exact .default hl hd
      | none => exact .missing hl hd
  · intro h
    cases h with
    | given found read =>
      rw [found]
      exact bind_eq_ok.mpr ⟨_, read, rfl⟩
    | default absent default =>
      rw [absent, default]
      rfl
    | missing absent required =>
      rw [absent, required]
      rfl

theorem checkFields_eq_ok {fields : List Field} {said : List FieldVerdict} :
    checkFields fields es = .ok said ↔ List.Forall₂ (Says es) fields said := by
  induction fields generalizing said with
  | nil =>
    rw [checkFields, List.forall₂_nil_left_iff, Except.ok.injEq, eq_comm]
  | cons f fields ih =>
    rw [checkFields, List.forall₂_cons_left_iff]
    constructor
    · intro h
      obtain ⟨first, hf, h⟩ := bind_eq_ok.mp h
      obtain ⟨rest, hr, h⟩ := bind_eq_ok.mp h
      exact ⟨first, rest, checkField_eq_ok.mp hf, ih.mp hr, (pure_eq_ok.mp h).symm⟩
    · rintro ⟨first, rest, hf, hr, rfl⟩
      exact bind_eq_ok.mpr ⟨first, checkField_eq_ok.mpr hf, bind_eq_ok.mpr ⟨rest, ih.mpr hr, rfl⟩⟩

theorem checkModel_eq_ok {verdict : Verdict} (he : v.entries? = some es) :
    checkModel m v = .ok verdict ↔
      ∃ said, List.Forall₂ (Says es) m.fields said ∧ verdict = assemble m.name m.extra es said := by
  obtain ⟨name, extra, fields⟩ := m
  rw [checkModel, he]
  simp only [← checkFields_eq_ok]
  refine bind_eq_ok.trans (exists_congr fun said => and_congr_right fun _ => ?_)
  rw [pure_eq_ok, eq_comm]

theorem entries_of_accepted {c : Checked} (h : checkModel m v = .ok (.ok c)) :
    ∃ es, v.entries? = some es := by
  obtain ⟨name, extra, fields⟩ := m
  rw [checkModel] at h
  cases he : v.entries? with
  | none =>
    rw [he] at h
    cases h
  | some es => exact ⟨es, rfl⟩

theorem Says.name {said : FieldVerdict} (h : Says es f said) : said.name = f.name := by
  cases h <;> rfl

theorem Says.key {said : FieldVerdict} (h : Says es f said) : said.key = f.key := by
  cases h <;> rfl

theorem Says.given_iff {said : FieldVerdict} (h : Says es f said) :
    said.given ↔ (Value.lookup (.str f.key) es).isSome := by
  cases h with
  | given found => simp [found]
  | default absent | missing absent => simp [absent]

/-- What is said depends on the value under the key only. -/
theorem Says.congr {es' : List (Value × Value)} {said : FieldVerdict} (h : Says es f said)
    (heq : Value.lookup (.str f.key) es = Value.lookup (.str f.key) es') : Says es' f said := by
  cases h with
  | given found read => exact .given (heq ▸ found) read
  | default absent default => exact .default (heq ▸ absent) default
  | missing absent required => exact .missing (heq ▸ absent) required

theorem Says.unique {said said' : FieldVerdict} (h : Says es f said) (h' : Says es f said') :
    said = said' := Except.ok.inj ((checkField_eq_ok.mpr h).symm.trans (checkField_eq_ok.mpr h'))

/-- The keys of the fields that a record gives, in the order of the fields. -/
def foundKeys (fields : List Field) (es : List (Value × Value)) : List String :=
  (fields.filter fun f => (Value.lookup (.str f.key) es).isSome).map (·.key)

theorem mem_foundKeys {fields : List Field} {key : String} : key ∈ foundKeys fields es ↔
    (∃ f ∈ fields, f.key = key) ∧ (Value.lookup (.str key) es).isSome := by
  simp only [foundKeys, List.mem_map, List.mem_filter]
  constructor
  · rintro ⟨f, ⟨hf, hsome⟩, rfl⟩
    exact ⟨⟨f, hf, rfl⟩, hsome⟩
  · rintro ⟨⟨f, hf, rfl⟩, hsome⟩
    exact ⟨f, ⟨hf, hsome⟩, rfl⟩

theorem foundKeys_of_said {fields : List Field} {said : List FieldVerdict}
    (h : List.Forall₂ (Says es) fields said) :
    (said.filter (·.given)).map (·.key) = foundKeys fields es := by
  induction h with
  | nil => rfl
  | @cons f first fields said hf _ ih =>
    rw [foundKeys] at ih ⊢
    rw [List.filter_cons, List.filter_cons, ← Bool.eq_iff_iff.mpr hf.given_iff]
    split
    · rw [List.map_cons, List.map_cons, hf.key, ih]
    · exact ih

/-- Others than the fields are entries of the record under keys that are none of the found. -/
theorem name_of_extraFields {extra : Extra} {found : List String} {o : String × Value}
    (h : o ∈ extraFields extra found es) :
    ∃ e ∈ es, Coerce.text false e.1 = .ok o.1 ∧ o.1 ∉ found := by
  cases extra with
  | ignore | forbid => cases h
  | allow =>
    obtain ⟨e, he, ho⟩ := List.mem_filterMap.mp h
    obtain ⟨s, hs, rfl⟩ := Option.map_eq_some_iff.mp ho
    obtain ⟨g, hg, hkey⟩ := List.mem_map.mp (Value.key_of_mem_ofEntries he)
    obtain ⟨e', he', hread⟩ := List.mem_filterMap.mp hg
    refine ⟨e', he', ?_⟩
    split at hread
    · rename_i t ht
      split at hread
      · cases hread
      · rename_i hnot
        cases hread
        rw [← hkey] at hs
        cases hs
        exact ⟨ht, fun hmem => hnot (List.contains_iff_mem.mpr hmem)⟩
    · cases hread

/-- The issues of the fields, each under the key of its field. -/
def fieldIssues (said : List FieldVerdict) : List Issue :=
  said.flatMap fun f => f.verdict.issues.map (·.within (.key f.key))

def FieldVerdict.toField? (said : FieldVerdict) : Option (String × Bool × Checked) :=
  said.verdict.toOption.map fun c => (said.name, said.given, c)

/-- What an accepted record has a field read as, and whether the field is given. -/
inductive Reads (es : List (Value × Value)) (f : Field) : String × Bool × Checked → Prop
  | given {v : Value} {c : Checked} (found : Value.lookup (.str f.key) es = some v)
    (read : f.type.check f.rule v = .ok (.ok c)) : Reads es f (f.name, true, c)
  | default {d : Value} (absent : Value.lookup (.str f.key) es = none) (default : f.default = some d) :
    Reads es f (f.name, false, .value d)

theorem Says.reads {said : FieldVerdict} (h : Says es f said) (hnone : said.verdict.issues = []) :
    ∃ g, Reads es f g ∧ said.toField? = some g := by
  cases h with
  | @given v verdict found read =>
    cases verdict with
    | ok c => exact ⟨_, .given found read, rfl⟩
    | error issues => exact absurd (congrArg Except.error hnone) (grounded_check f.rule v f.type read)
  | default absent default => exact ⟨_, .default absent default, rfl⟩
  | missing => cases hnone

theorem Reads.says {g : String × Bool × Checked} (h : Reads es f g) :
    ∃ said, Says es f said ∧ said.verdict.issues = [] ∧ said.toField? = some g := by
  cases h with
  | given found read => exact ⟨_, .given found read, rfl, rfl⟩
  | default absent default => exact ⟨_, .default absent default, rfl, rfl⟩

/-- Without issues every field is read. -/
theorem forall₂_reads {fields : List Field} {fs : List (String × Bool × Checked)} :
    List.Forall₂ (Reads es) fields fs ↔ ∃ said, List.Forall₂ (Says es) fields said ∧
      fieldIssues said = [] ∧ said.filterMap (·.toField?) = fs := by
  induction fields generalizing fs with
  | nil =>
    rw [List.forall₂_nil_left_iff]
    constructor
    · rintro rfl
      exact ⟨[], .nil, rfl, rfl⟩
    · rintro ⟨said, h, -, rfl⟩
      cases h
      rfl
  | cons f fields ih =>
    rw [List.forall₂_cons_left_iff]
    constructor
    · rintro ⟨g, rest, hg, hrest, rfl⟩
      obtain ⟨first, hf, hnone, hfield⟩ := hg.says
      obtain ⟨said, hsaid, hissues, rfl⟩ := ih.mp hrest
      refine ⟨first :: said, .cons hf hsaid, ?_, List.filterMap_cons_some hfield⟩
      rw [fieldIssues, List.flatMap_cons, hnone]
      exact hissues
    · rintro ⟨said, h, hissues, rfl⟩
      obtain ⟨first, rest, hf, hrest, rfl⟩ := List.forall₂_cons_left_iff.mp h
      rw [fieldIssues, List.flatMap_cons] at hissues
      obtain ⟨hfirst, hothers⟩ := List.append_eq_nil_iff.mp hissues
      obtain ⟨g, hg, hfield⟩ := hf.reads (List.map_eq_nil_iff.mp hfirst)
      exact ⟨g, _, hg, ih.mpr ⟨rest, hrest, hothers, rfl⟩, List.filterMap_cons_some hfield⟩

theorem assemble_of_said {fields : List Field} {said : List FieldVerdict} (model : String)
    (extra : Extra) (h : List.Forall₂ (Says es) fields said) : assemble model extra es said =
      if (fieldIssues said ++ extraIssues extra (foundKeys fields es) es).isEmpty then
        .ok (.instance model (said.filterMap (·.toField?))
          (extraFields extra (foundKeys fields es) es))
      else .error (fieldIssues said ++ extraIssues extra (foundKeys fields es) es) := by
  rw [← foundKeys_of_said h]
  rfl

/-- The verdict on a record: the issues of its fields and then of its other entries. Without any it is
an instance of the model. -/
theorem checkModel_cases {verdict : Verdict} (he : v.entries? = some es)
    (h : checkModel m v = .ok verdict) : ∃ said, List.Forall₂ (Says es) m.fields said ∧
      verdict.issues = fieldIssues said ++ extraIssues m.extra (foundKeys m.fields es) es ∧
      ∀ c, verdict = .ok c → c = .instance m.name (said.filterMap (·.toField?))
        (extraFields m.extra (foundKeys m.fields es) es) := by
  obtain ⟨said, hsaid, rfl⟩ := (checkModel_eq_ok he).mp h
  refine ⟨said, hsaid, ?_⟩
  rw [assemble_of_said _ _ hsaid]
  split
  · rename_i hnone
    refine ⟨(List.isEmpty_iff.mp hnone).symm, ?_⟩
    rintro c ⟨⟩
    rfl
  · exact ⟨rfl, nofun⟩

/-- A model accepts a record when each field is read and no other entry is in the way. -/
theorem checkModel_eq_accepted {c : Checked} (he : v.entries? = some es) :
    checkModel m v = .ok (.ok c) ↔ ∃ fs, List.Forall₂ (Reads es) m.fields fs ∧
      extraIssues m.extra (foundKeys m.fields es) es = [] ∧
      c = .instance m.name fs (extraFields m.extra (foundKeys m.fields es) es) := by
  constructor
  · intro h
    obtain ⟨said, hsaid, hissues, hc⟩ := checkModel_cases he h
    obtain ⟨hfields, hextra⟩ := List.append_eq_nil_iff.mp hissues.symm
    exact ⟨_, forall₂_reads.mpr ⟨said, hsaid, hfields, rfl⟩, hextra, hc c rfl⟩
  · rintro ⟨fs, hfs, hextra, rfl⟩
    obtain ⟨said, hsaid, hfields, rfl⟩ := forall₂_reads.mp hfs
    refine (checkModel_eq_ok he).mpr ⟨said, hsaid, ?_⟩
    rw [assemble_of_said _ _ hsaid, hfields, hextra]
    rfl

/-! Whole records, read by the model or as an overlay has it. -/

variable {o : Overlay}

/-- A model reads records by its fields. -/
@[simp]
theorem check_model (m : Model) (v : Value) : (m : Overlay).check v = checkModel m v := rfl

theorem unknownKeys_eq_nil : unknownKeys m v = [] ↔
    ∀ e ∈ v.entries?.getD [], ∃ f, ModelOf.field? m e.1 = some f := by
  rw [unknownKeys, List.filter_eq_nil_iff, List.forall_mem_map]
  refine forall₂_congr fun e _ => ?_
  rw [ModelOf.hasField, ← Option.isSome_iff_exists]
  simp [Option.isSome_iff_ne_none]

/-- What is found of the unknown keys of a record. -/
def unknownAt (m : Model) (before : List String) (v : Value) : List Finding :=
  (unknownKeys m v).map fun k => finding (".".intercalate (before ++ [k.plain])) "Unknown field"

/-- Unknown keys are found where they can be written out. -/
theorem unknownFindings_eq_ok {found : List Finding} : unknownFindings m before v = .ok found ↔
    (∀ k ∈ unknownKeys m v, k.hasText) ∧ found = unknownAt m before v :=
  mapM_tell

theorem unknownFindings_eq_error {e : Fault} : unknownFindings m before v = .error e ↔
    (∃ k ∈ unknownKeys m v, k.hasText = false) ∧ e = .tooManyDigits :=
  mapM_tell_eq_error

theorem unknownAt_eq_nil : unknownAt m before v = [] ↔
    ∀ e ∈ v.entries?.getD [], ∃ f, ModelOf.field? m e.1 = some f :=
  List.map_eq_nil_iff.trans unknownKeys_eq_nil

theorem findings_eq_nil {issues : List Issue} : findings before issues = [] ↔ issues = [] :=
  List.map_eq_nil_iff

theorem issues_eq_nil {verdict : Verdict} (h : o.check v = .ok verdict) :
    verdict.issues = [] ↔ ∃ c, verdict = .ok c := by
  cases verdict with
  | ok c => simp [Verdict.issues]
  | error issues =>
    have hne : issues ≠ [] := fun he => grounded_overlay h (congrArg _ he)
    simp [Verdict.issues, hne]

theorem told_of_validateRecord {res : Result} (h : validateRecord o before v = .ok res) :
    ∀ k ∈ unknownKeys o.model v, k.hasText := by
  obtain ⟨unknown, hu, -⟩ := bind_eq_ok.mp h
  exact (unknownFindings_eq_ok.mp hu).1

/-- What is found wrong with a record: its unknown keys, and what the model has to say. Where nothing
is, what the model has made of the record is given back. -/
theorem validateRecord_cases {res : Result} (h : validateRecord o before v = .ok res) :
    ∃ verdict, o.check v = .ok verdict ∧
      res.findings = unknownAt o.model before v ++ findings before verdict.issues ∧
      (res.findings = [] → ∃ c, verdict = .ok c ∧ c.given = .ok res.data) := by
  obtain ⟨unknown, hu, h⟩ := bind_eq_ok.mp h
  obtain ⟨-, rfl⟩ := unknownFindings_eq_ok.mp hu
  obtain ⟨verdict, hv, h⟩ := bind_eq_ok.mp h
  refine ⟨verdict, hv, ?_⟩
  dsimp only at h
  split at h
  · rename_i c hnone
    obtain ⟨data, hd, h⟩ := bind_eq_ok.mp h
    cases pure_eq_ok.mp h
    exact ⟨hnone.symm, fun _ => ⟨c, rfl, hd⟩⟩
  · rename_i found hno
    cases pure_eq_ok.mp h
    refine ⟨rfl, fun hnil => ?_⟩
    obtain ⟨c, rfl⟩ := (issues_eq_nil hv).mp (findings_eq_nil.mp (List.append_eq_nil_iff.mp hnil).2)
    exact absurd hnil (hno c rfl)

/-- A record is found sound where its keys are known and the model takes it and can give it back. -/
theorem exists_sound : (∃ res, validateRecord o before v = .ok res ∧ res.findings = []) ↔
    (∀ e ∈ v.entries?.getD [], ∃ f, ModelOf.field? o.model e.1 = some f) ∧
      ∃ c, o.check v = .ok (.ok c) ∧ ∃ data, c.given = .ok data := by
  constructor
  · rintro ⟨res, h, hnone⟩
    obtain ⟨verdict, hv, hfound, hdata⟩ := validateRecord_cases h
    obtain ⟨c, rfl, hd⟩ := hdata hnone
    rw [hnone] at hfound
    exact ⟨unknownAt_eq_nil.mp (List.append_eq_nil_iff.mp hfound.symm).1, c, hv, _, hd⟩
  · rintro ⟨hk, c, hc, data, hd⟩
    have hunknown : unknownFindings o.model before v = .ok [] := by
      refine unknownFindings_eq_ok.mpr ⟨?_, (unknownAt_eq_nil.mpr hk).symm⟩
      rw [unknownKeys_eq_nil.mpr hk]
      exact fun _ h => absurd h List.not_mem_nil
    exact ⟨⟨data, []⟩, bind_eq_ok.mpr ⟨_, hunknown, bind_eq_ok.mpr
      ⟨_, hc, bind_eq_ok.mpr ⟨data, hd, rfl⟩⟩⟩, rfl⟩

end Schema
end TableQuery
