import TableQuery.Proofs.Schema.Records

/-! The data that a sound record comes to: what its fields are given back as, in the order of the model.
Where a field goes by another key than its name, the two ways of telling which keys are known fall
apart, and a record is refused that gives the field. -/

namespace TableQuery
namespace Schema
open Outcome

variable {m : Model} {f : Field} {v : Value} {es : List (Value × Value)} {before : List String}

/-- Every field goes by its name. -/
def Unlabelled (m : Model) : Prop := ∀ f ∈ m.fields, f.key = f.name

instance (m : Model) : Decidable (Unlabelled m) :=
  inferInstanceAs (Decidable (∀ f ∈ m.fields, f.key = f.name))

theorem field?_of_mem (hn : m.fieldNames.Nodup) (hf : f ∈ m.fields) {k : Value}
    (hk : k.text? = some f.name) : ModelOf.field? m k = some f := by
  have hsome : (ModelOf.field? m k).isSome := by
    rw [ModelOf.field?, hk, Option.bind_some, List.find?_isSome]
    exact ⟨f, hf, beq_self_eq_true _⟩
  obtain ⟨g, hg⟩ := Option.isSome_iff_exists.mp hsome
  obtain ⟨hmem, hname⟩ := field?_eq_some hg
  rw [hg, List.inj_on_of_nodup_map hn hmem hf (Option.some.inj (hname.symm.trans hk))]

/-- All keys are names of fields. -/
def Known (m : Model) (es : List (Value × Value)) : Prop :=
  ∀ e ∈ es, ∃ f, ModelOf.field? m e.1 = some f

theorem mem_foundKeys_of_known (hl : Unlabelled m) (hk : Known m es) {e : Value × Value}
    (he : e ∈ es) : ∃ s, Coerce.text false e.1 = .ok s ∧ s ∈ foundKeys m.fields es := by
  obtain ⟨f, hfield⟩ := hk e he
  obtain ⟨hf, hname⟩ := field?_eq_some hfield
  refine ⟨f.name, Condition.text_eq_ok hname, mem_foundKeys.mpr ⟨⟨f, hf, hl f hf⟩, ?_⟩⟩
  exact Value.isSome_lookup.mpr ⟨e, he, hname⟩

theorem extraIssues_of_known (hl : Unlabelled m) (hk : Known m es) :
    extraIssues m.extra (foundKeys m.fields es) es = [] := by
  have hnone : ∀ forbidden,
      es.filterMap (fun e => Condition.extraIssue (foundKeys m.fields es) forbidden e.1) = [] := by
    intro forbidden
    refine List.filterMap_eq_nil_iff.mpr fun e he => ?_
    obtain ⟨s, hs, hmem⟩ := mem_foundKeys_of_known hl hk he
    rw [Condition.extraIssue, hs]
    simp [hmem]
  unfold extraIssues
  split
  · rfl
  · exact hnone _

theorem extraFields_of_known (hl : Unlabelled m) (hk : Known m es) :
    extraFields m.extra (foundKeys m.fields es) es = [] := by
  refine List.eq_nil_iff_forall_not_mem.mpr fun o ho => ?_
  obtain ⟨e, he, hread, hnot⟩ := name_of_extraFields ho
  obtain ⟨s, hs, hmem⟩ := mem_foundKeys_of_known hl hk he
  cases hread.symm.trans hs
  exact hnot hmem

/-- What a field that a record gives is given back as, under its name. -/
structure Gives (es : List (Value × Value)) (f : Field) (d : String × Value) : Prop where
  name : d.1 = f.name
  value : ∃ v c, Value.lookup (.str f.key) es = some v ∧ f.type.check f.rule v = .ok (.ok c) ∧
    c.given = .ok d.2

theorem name_of_gives {es : List (Value × Value)} {fields : List Field}
    {ds : List (String × Value)} (h : List.Forall₂ (Gives es) fields ds) :
    ds.map Prod.fst = fields.map (·.name) := by
  induction h with
  | nil => rfl
  | cons hd _ ih => rw [List.map_cons, List.map_cons, hd.name, ih]

/-- The fields that a record gives. -/
def givenBy (es : List (Value × Value)) (fields : List Field) : List Field :=
  fields.filter fun f => (Value.lookup (.str f.key) es).isSome

theorem givenFields_of_reads {fields : List Field} {fs : List (String × Bool × Checked)}
    (h : List.Forall₂ (Reads es) fields fs) {gs : List (Value × Value)} :
    Checked.givenFields [] fs = .ok gs ↔
      ∃ ds, gs = Value.named ds ∧ List.Forall₂ (Gives es) (givenBy es fields) ds := by
  induction h generalizing gs with
  | nil =>
    constructor
    · rintro ⟨⟩
      exact ⟨[], rfl, .nil⟩
    · rintro ⟨ds, rfl, h⟩
      cases h
      rfl
  | @cons f g fields fs hg _ ih =>
    rw [Checked.givenFields.eq_def]
    -- Only what was given is handed back; a default adds nothing.
    cases hg with
    | @given v c found read =>
      have hgiven : givenBy es (f :: fields) = f :: givenBy es fields :=
        List.filter_cons_of_pos (by simp [found])
      rw [hgiven]
      simp only [Bool.true_or, if_true, bind_eq_ok, map_eq_ok, pure_eq_ok]
      constructor
      · rintro ⟨-, ⟨u, hu, rfl⟩, rest, hrest, rfl⟩
        obtain ⟨ds, rfl, hds⟩ := ih.mp hrest
        exact ⟨(f.name, u) :: ds, rfl, .cons ⟨rfl, v, c, found, read, hu⟩ hds⟩
      · rintro ⟨ds, rfl, hds⟩
        obtain ⟨d, rest, ⟨hname, w, c', hfound, hread, hu⟩, hrest, rfl⟩ :=
          List.forall₂_cons_left_iff.mp hds
        cases found.symm.trans hfound
        cases read.symm.trans hread
        refine ⟨_, ⟨d.2, hu, rfl⟩, _, ih.mpr ⟨rest, rfl, hrest⟩, ?_⟩
        rw [← hname]
        rfl
    | default absent default =>
      have hnot : givenBy es (f :: fields) = givenBy es fields :=
        List.filter_cons_of_neg (by simp [absent])
      rw [hnot, ← ih]
      simp only [Bool.false_or, List.contains_nil, Bool.false_eq_true, if_false, pure_bind,
        List.nil_append, bind_pure]

/-- A sound record is given back field by field. -/
theorem data_of_sound {res : Result} (hl : Unlabelled m) (he : v.entries? = some es)
    (h : validateRecord m before v = .ok res) (hnone : res.findings = []) :
    Known m es ∧ ∃ ds, res.data = .map (Value.named ds) ∧
      List.Forall₂ (Gives es) (givenBy es m.fields) ds := by
  obtain ⟨verdict, hv, hfound, hdata⟩ := validateRecord_cases h
  obtain ⟨c, rfl, hd⟩ := hdata hnone
  rw [hnone] at hfound
  have hk : Known m es := by
    have hknown := unknownAt_eq_nil.mp (List.append_eq_nil_iff.mp hfound.symm).1
    rwa [he] at hknown
  refine ⟨hk, ?_⟩
  obtain ⟨fs, hfs, -, rfl⟩ := (checkModel_eq_accepted he).mp hv
  rw [extraFields_of_known hl hk, Checked.given] at hd
  obtain ⟨gs, hgs, hd⟩ := bind_eq_ok.mp hd
  obtain ⟨ds, rfl, hds⟩ := (givenFields_of_reads hfs).mp hgs
  exact ⟨ds, (pure_eq_ok.mp hd).symm, hds⟩

/-- A record is sound where all its keys are names of fields, and each field either can be given back or is
not given and has a default. -/
theorem exists_sound_of_unlabelled (hl : Unlabelled m) (he : v.entries? = some es) :
    (∃ res, validateRecord m before v = .ok res ∧ res.findings = []) ↔ Known m es ∧
      ∀ f ∈ m.fields, (∃ d, Gives es f d) ∨
        (Value.lookup (.str f.key) es = none ∧ ∃ d, f.default = some d) := by
  rw [exists_sound, he, Option.getD_some]
  refine and_congr_right fun (hk : Known m es) => ?_
  constructor
  · rintro ⟨c, hc, data, hd⟩ f hf
    obtain ⟨fs, hfs, -, rfl⟩ := (checkModel_eq_accepted he).mp hc
    rw [extraFields_of_known hl hk, Checked.given] at hd
    obtain ⟨gs, hgs, -⟩ := bind_eq_ok.mp hd
    obtain ⟨ds, -, hds⟩ := (givenFields_of_reads hfs).mp hgs
    obtain ⟨g, -, hg⟩ := Lists.exists_of_mem_left hfs hf
    cases hg with
    | given found read =>
      obtain ⟨d, -, hgives⟩ := Lists.exists_of_mem_left hds
        (List.mem_filter.mpr ⟨hf, by rw [found]; rfl⟩)
      exact .inl ⟨d, hgives⟩
    | default absent default => exact .inr ⟨absent, _, default⟩
  · intro hall
    have hreads : ∀ f ∈ m.fields, ∃ g, Reads es f g := by
      intro f hf
      rcases hall f hf with ⟨d, -, w, c, found, read, -⟩ | ⟨absent, d, default⟩
      · exact ⟨_, .given found read⟩
      · exact ⟨_, .default absent default⟩
    have hgives : ∀ f ∈ givenBy es m.fields, ∃ d, Gives es f d := by
      intro f hf
      obtain ⟨hf, hsome⟩ := List.mem_filter.mp hf
      refine (hall f hf).resolve_right fun h => ?_
      rw [h.1] at hsome
      cases hsome
    obtain ⟨fs, hfs⟩ := Lists.exists_forall₂ hreads
    obtain ⟨ds, hds⟩ := Lists.exists_forall₂ hgives
    refine ⟨_, (checkModel_eq_accepted he).mpr ⟨fs, hfs, extraIssues_of_known hl hk, rfl⟩, ?_⟩
    rw [extraFields_of_known hl hk, Checked.given]
    exact ⟨_, bind_eq_ok.mpr ⟨_, (givenFields_of_reads hfs).mpr ⟨ds, rfl, hds⟩, rfl⟩⟩

end Schema
end TableQuery
