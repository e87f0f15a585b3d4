import TableQuery.Proofs.Filter.Varies
import TableQuery.Proofs.Schema.Verdicts

/-! What a model lets through of a filter, entry by entry, and what it finds wrong with the rest. -/

namespace TableQuery

/-! Conditions by their parts. -/

theorem Operator.eq_text_of_ofText? {s : String} {o : Operator} (h : ofText? s = some o) :
    s = o.text := by
  have htext := List.find?_some h
  exact (beq_iff_eq.mp htext).symm

theorem Operator.ofText?_text : ∀ o : Operator, ofText? o.text = some o
  | .comparison c => by cases c <;> rfl
  | .like l => by cases l <;> rfl
  | .membership => rfl
  | .nullCheck n => by cases n <;> rfl

theorem Family.find_operator : ∀ o : Operator,
    (Family.ofOperator o).operators.find? (·.text == o.text) = some o
  | .comparison c => by cases c <;> rfl
  | .like l => by cases l <;> rfl
  | .membership => rfl
  | .nullCheck n => by cases n <;> rfl

namespace Condition

variable {es : Entries} {c : Condition Value} {o : Operator}

theorem readOperator_eq_ok {v : Value} (h : v.text?.bind Operator.ofText? = some o) :
    readOperator (.ofOperator o) v = .ok o := by
  obtain ⟨s, hs, ho⟩ := Option.bind_eq_some_iff.mp h
  -- No two operators have the same text, so a family finds the one that was found among all.
  obtain rfl := Operator.eq_text_of_ofText? ho
  rw [readOperator, hs, Option.bind_some, Family.find_operator]

theorem text_eq_ok {v : Value} {s : String} (h : v.text? = some s) : Coerce.text false v = .ok s := by
  cases v with
  | str u =>
    cases h
    rfl
  | token t =>
    rw [Value.text?] at h
    split at h
    · cases h
      simp [Coerce.text]
    · cases h
  | _ => cases h

/-- A part that has to be there is read as it stands. -/
theorem required_eq_ok {α β : Type} {name : String} {read : Value → Except Problem α} {a : α}
    {g : Value → Option β} {b : β} (hnone : g .none = none) (hread : ∀ v, g v = some b → read v = .ok a)
    (h : g ((Value.lookup (.str name) es).getD .none) = some b) : required es name read = .ok a := by
  rw [required]
  cases hl : Value.lookup (.str name) es with
  | none =>
    rw [hl] at h
    cases hnone.symm.trans h
  | some v =>
    rw [hl] at h
    exact hread v h

theorem field_eq_ok {s : String}
    (h : ((Value.lookup (.str "field") es).getD .none).text? = some s) :
    required es "field" (Coerce.text false) = .ok s :=
  required_eq_ok (g := Value.text?) rfl (fun _ => text_eq_ok) h

theorem operator_eq_ok
    (h : ((Value.lookup (.str "operator") es).getD .none).text?.bind Operator.ofText? = some o) :
    required es "operator" (readOperator (.ofOperator o)) = .ok o :=
  required_eq_ok (g := fun v => v.text?.bind Operator.ofText?) rfl (fun _ => readOperator_eq_ok) h

/-- A condition that is read from a mapping has the parts that the mapping has. -/
theorem parts_of_ofEntries
    (ho : ((Value.lookup (.str "operator") es).getD .none).text?.bind Operator.ofText? = some o)
    (h : ofEntries (.ofOperator o) es = .ok c) : required es "field" (Coerce.text false) = .ok c.field ∧
      c.operator? = some o ∧ c.value? = some (operand es) := by
  unfold ofEntries at h
  dsimp only at h
  rw [operator_eq_ok ho] at h
  split at h
  · rename_i field hfield _
    cases o <;> cases h <;> exact ⟨hfield, rfl, rfl⟩
  · cases h

end Condition

namespace Schema
open Outcome Condition

variable {m : Model} {f : Field} {k v : Value}

/-- The adapter of the field takes the value. -/
def Accepts (f : Field) (v : Value) : Prop := ∃ c, f.type.check f.rule v = .ok (.ok c)

/-- An adapter of the model ends in this fault where it should accept or refuse a value. -/
def Faults (m : Model) (e : Fault) : Prop := ∃ f ∈ m.fields, ∃ v, f.type.check f.rule v = .error e

/-- A value that goes with an operator: none for null checks, members for IN, a text for LIKE. -/
inductive Fits (f : Field) : Operator → Value → Prop
  | absent (o : NullCheck) : Fits f (.nullCheck o) .none
  | members {v : Value} {xs : List Value} (items : v.items? = some xs) (ne : xs ≠ [])
    (accepted : ∀ x ∈ xs, Accepts f x) : Fits f .membership v
  | text (o : LikeOperator) {v : Value} {s : String} (text : v.text? = some s) : Fits f (.like o) v
  | value (o : Comparison) {v : Value} (present : v ≠ .none) (accepted : Accepts f v) :
    Fits f (.comparison o) v

/-- Field, operator and value of a condition, or of a mapping that stands for one. -/
def parts? : Value → Option (Value × Value × Value)
  | .condition c _ =>
    match c.operator?, c.value? with
    | some o, some w => some (.str c.field, .str o.text, w)
    | _, _ => none
  | v => if v.isMapping then some (v.get "field", v.get "operator", v.get "value") else none

/-- An entry of a filter that the model lets through. -/
inductive Passes (m : Model) : Filter.Entry → Prop
  | absent {k : Value} {f : Field} (known : ModelOf.field? m k = some f) :
    Passes m (.equality k .none)
  | equality {k v : Value} {f : Field} (known : ModelOf.field? m k = some f)
    (accepted : Accepts f v) : Passes m (.equality k v)
  | condition {v k o w : Value} {f : Field} {op : Operator} (parts : parts? v = some (k, o, w))
    (known : ModelOf.field? m k = some f) (operator : o.text?.bind Operator.ofText? = some op)
    (fits : Fits f op w) : Passes m (.condition v)

/-- All entries of the filter are let through. -/
def Cleared (m : Model) (v : Value) : Prop :=
  ∀ es, Filter.entries? v = some es → ∀ e ∈ es, Passes m e

theorem field?_eq_some (h : ModelOf.field? m k = some f) :
    f ∈ m.fields ∧ k.text? = some f.name := by
  obtain ⟨s, hs, hf⟩ := Option.bind_eq_some_iff.mp h
  have hname := List.find?_some hf
  obtain rfl := beq_iff_eq.mp hname
  exact ⟨List.mem_of_find?_eq_some hf, hs⟩

/-! Findings: none exactly where an entry passes. -/

theorem checkAs_eq_ok {path : Value} {found : List Finding} (h : checkAs f path v = .ok found) :
    found = [] ↔ Accepts f v := by
  obtain ⟨verdict, hv, h⟩ := bind_eq_ok.mp h
  cases pure_eq_ok.mp h
  rw [List.map_eq_nil_iff, Accepts, hv]
  cases verdict with
  | ok c => simp [Verdict.issues]
  | error issues =>
    have hne : issues ≠ [] := fun he => grounded_check f.rule v f.type hv (congrArg _ he)
    simp [Verdict.issues, hne]

theorem checkEntry_eq_ok {found : List Finding} (h : checkEntry m k v = .ok found) :
    found = [] ↔ Passes m (.equality k v) := by
  rw [checkEntry] at h
  cases hf : ModelOf.field? m k with
  | none =>
    rw [hf] at h
    obtain ⟨-, rfl⟩ := tell_eq_ok.mp h
    refine ⟨nofun, fun hp => ?_⟩
    cases hp with
    | absent known | equality known => cases hf.symm.trans known
  | some f =>
    rw [hf] at h
    dsimp only at h
    split at h
    · rename_i hv
      obtain rfl := Filter.isNone_iff.mp hv
      cases h
      exact iff_of_true rfl (.absent hf)
    · rename_i hv
      rw [checkAs_eq_ok h]
      refine ⟨.equality hf, fun hp => ?_⟩
      cases hp with
      | absent => exact absurd rfl hv
      | equality known accepted =>
        cases hf.symm.trans known
        exact accepted

theorem checkMembers_eq_ok {path : String} {index : Nat} {vs : List Value} {found : List Finding}
    (h : checkMembers f path index vs = .ok found) : found = [] ↔ ∀ v ∈ vs, Accepts f v := by
  induction vs generalizing index found with
  | nil =>
    cases h
    simp
  | cons v vs ih =>
    rw [checkMembers] at h
    obtain ⟨here, hh, h⟩ := bind_eq_ok.mp h
    obtain ⟨rest, hr, h⟩ := bind_eq_ok.mp h
    cases pure_eq_ok.mp h
    rw [List.append_eq_nil_iff, checkAs_eq_ok hh, ih hr, List.forall_mem_cons]

theorem fits_nullCheck {o : NullCheck} : Fits f (.nullCheck o) v ↔ v = .none := by
  constructor
  · rintro ⟨⟩
    rfl
  · rintro rfl
    exact .absent o

theorem fits_membership : Fits f .membership v ↔
    ∃ xs, v.items? = some xs ∧ xs ≠ [] ∧ ∀ x ∈ xs, Accepts f x := by
  constructor
  · rintro (_ | ⟨items, ne, accepted⟩)
    exact ⟨_, items, ne, accepted⟩
  · rintro ⟨xs, items, ne, accepted⟩
    exact .members items ne accepted

theorem fits_like {o : LikeOperator} : Fits f (.like o) v ↔ v.text?.isSome := by
  rw [Option.isSome_iff_exists]
  constructor
  · rintro (_ | _ | ⟨_, text⟩)
    exact ⟨_, text⟩
  · rintro ⟨s, text⟩
    exact .text o text

theorem fits_comparison {o : Comparison} :
    Fits f (.comparison o) v ↔ v ≠ .none ∧ Accepts f v := by
  constructor
  · rintro (_ | _ | _ | ⟨_, present, accepted⟩)
    exact ⟨present, accepted⟩
  · rintro ⟨present, accepted⟩
    exact .value o present accepted

/-- What is found where the field and the operator are known. -/
theorem checkParts_of_known {index : Nat} {o : Value} {op : Operator} {found : List Finding}
    (hf : ModelOf.field? m k = some f) (ho : o.text?.bind Operator.ofText? = some op)
    (h : checkParts m index k o v = .ok found) : found = [] ↔ Fits f op v := by
  rw [checkParts, hf] at h
  dsimp only at h
  rw [ho] at h
  cases op with
  | nullCheck n =>
    cases h
    rw [fits_nullCheck, ← Filter.isNone_iff]
    split <;> simp_all
  | membership =>
    rw [fits_membership]
    dsimp only at h
    split at h
    · rename_i x xs hi
      rw [checkMembers_eq_ok h, hi]
      simp
    · rename_i hno
      cases h
      refine iff_of_false (List.cons_ne_nil _ _) ?_
      rintro ⟨xs, items, ne, -⟩
      obtain ⟨x, rest, rfl⟩ := List.exists_cons_of_ne_nil ne
      exact hno x rest items
  | like l =>
    cases h
    rw [fits_like]
    split <;> simp_all
  | comparison c =>
    rw [fits_comparison, Ne, ← Filter.isNone_iff]
    dsimp only at h
    split at h
    · rename_i hv
      cases h
      simp [hv]
    · rename_i hv
      rw [checkAs_eq_ok h]
      simp [hv]

theorem checkParts_eq_ok {index : Nat} {o : Value} {found : List Finding}
    (h : checkParts m index k o v = .ok found) : found = [] ↔
      ∃ f op, ModelOf.field? m k = some f ∧ o.text?.bind Operator.ofText? = some op ∧ Fits f op v := by
  cases hf : ModelOf.field? m k with
  | none =>
    rw [checkParts, hf] at h
    obtain ⟨-, rfl⟩ := tell_eq_ok.mp h
    simp
  | some f =>
    cases ho : o.text?.bind Operator.ofText? with
    | none =>
      rw [checkParts, hf] at h
      dsimp only at h
      rw [ho] at h
      obtain ⟨-, rfl⟩ := tell_eq_ok.mp h
      simp
    | some op =>
      rw [checkParts_of_known hf ho h]
      simp

theorem passes_condition_iff : Passes m (.condition v) ↔ ∃ k o w, parts? v = some (k, o, w) ∧
    ∃ f op, ModelOf.field? m k = some f ∧ o.text?.bind Operator.ofText? = some op ∧ Fits f op w := by
  constructor
  · rintro (_ | _ | ⟨parts, known, operator, fits⟩)
    exact ⟨_, _, _, parts, _, _, known, operator, fits⟩
  · rintro ⟨k, o, w, parts, f, op, known, operator, fits⟩
    exact .condition parts known operator fits

/-- Parts are looked at as they are, and a value without parts is a finding or, where it is a condition
without an operator, a fault. -/
theorem checkCondition_eq (m : Model) (index : Nat) (v : Value) : checkCondition m index v =
    match parts? v with
    | some (k, o, w) => checkParts m index k o w
    | none =>
      match v with
      | .condition c _ => .error (.noMember c.family "operator")
      | _ => .ok [findingAt (.int index) "Expected a condition"] := by
  cases v with
  | condition c g => cases c <;> rfl
  | map _ | frozen _ => rfl
  | _ => rfl

theorem checkCondition_eq_ok {index : Nat} {found : List Finding}
    (h : checkCondition m index v = .ok found) : found = [] ↔ Passes m (.condition v) := by
  rw [checkCondition_eq] at h
  rw [passes_condition_iff]
  cases hp : parts? v with
  | some parts =>
    obtain ⟨k, o, w⟩ := parts
    rw [hp] at h
    rw [checkParts_eq_ok h]
    constructor
    · exact fun hf => ⟨k, o, w, rfl, hf⟩
    · rintro ⟨k', o', w', he, hf⟩
      cases he
      exact hf
  | none =>
    rw [hp] at h
    have hne : found ≠ [] := by
      dsimp only at h
      split at h
      · cases h
      · cases h
        exact List.cons_ne_nil _ _
    refine iff_of_false hne ?_
    rintro ⟨k, o, w, he, -⟩
    cases he

theorem checkConditions_eq_ok {index : Nat} {vs : List Value} {found : List Finding}
    (h : checkConditions m index vs = .ok found) : ∃ groups,
      List.Forall₂ (fun v g => g = [] ↔ Passes m (.condition v)) vs groups ∧
      found = groups.flatten := by
  induction vs generalizing index found with
  | nil =>
    cases h
    exact ⟨[], .nil, rfl⟩
  | cons v vs ih =>
    rw [checkConditions] at h
    obtain ⟨here, hh, h⟩ := bind_eq_ok.mp h
    obtain ⟨rest, hr, h⟩ := bind_eq_ok.mp h
    cases pure_eq_ok.mp h
    obtain ⟨groups, hg, rfl⟩ := ih hr
    exact ⟨here :: groups, .cons (checkCondition_eq_ok hh) hg, rfl⟩

/-- What a check finds in a filter: nothing in an absent one; for each entry none or some findings,
depending on whether it passes; and something in whatever cannot be a filter. -/
inductive Judged (m : Model) : Value → List Finding → Prop
  | absent : Judged m .none []
  | entries {v : Value} {es : List Filter.Entry} {groups : List (List Finding)}
    (entries : Filter.entries? v = some es)
    (each : List.Forall₂ (fun e g => g = [] ↔ Passes m e) es groups) : Judged m v groups.flatten
  | neither {v : Value} {found : List Finding} (present : v ≠ .none)
    (noEntries : Filter.entries? v = none) (some : found ≠ []) : Judged m v found

theorem judged_of_validateFilter {r : Result} (h : validateFilter m v = .ok r) :
    Judged m v r.findings := by
  rw [validateFilter] at h
  split at h
  · rename_i hv
    obtain rfl := Filter.isNone_iff.mp hv
    cases h
    exact .absent
  · rename_i hv
    have hne : v ≠ .none := fun he => hv (Filter.isNone_iff.mpr he)
    cases he : v.entries? with
    | some es =>
      rw [he] at h
      obtain ⟨found, hf, h⟩ := bind_eq_ok.mp h
      cases pure_eq_ok.mp h
      obtain ⟨groups, hg, hf⟩ := bind_eq_ok.mp hf
      cases pure_eq_ok.mp hf
      have hentries : Filter.entries? v = some (es.map fun e => .equality e.1 e.2) := by
        rw [Filter.entries?, he]
      refine .entries hentries ?_
      rw [List.forall₂_map_left_iff]
      exact (mapM_eq_ok.mp hg).imp fun e g hg => checkEntry_eq_ok hg
    | none =>
      rw [he] at h
      cases hi : v.items? with
      | some xs =>
        rw [hi] at h
        obtain ⟨found, hf, h⟩ := bind_eq_ok.mp h
        cases pure_eq_ok.mp h
        obtain ⟨groups, hg, rfl⟩ := checkConditions_eq_ok hf
        have hentries : Filter.entries? v = some (xs.map .condition) := by
          rw [Filter.entries?, he, hi]
        refine .entries hentries ?_
        rw [List.forall₂_map_left_iff]
        exact hg
      | none =>
        rw [hi] at h
        cases h
        exact .neither hne (by rw [Filter.entries?, he, hi]) (List.cons_ne_nil _ _)

/-- Without findings every entry is let through. -/
theorem Judged.cleared (h : Judged m v []) : Cleared m v := by
  intro es hes e he
  generalize hfound : ([] : List Finding) = found at h
  cases h with
  | absent => cases hes
  | @entries v es' groups entries each =>
    cases entries.symm.trans hes
    obtain ⟨g, hg, hiff⟩ := Lists.exists_of_mem_left each he
    exact hiff.mp (List.flatten_eq_nil_iff.mp hfound.symm g hg)
  | neither _ noEntries => cases noEntries.symm.trans hes

/-! Faults: those of adapters, one for a condition without an operator, and one for what cannot be written
out where it is unknown. -/

/-- A condition that has a field and nothing else. -/
def Bare (v : Value) : Prop := ∃ name given, v = .condition (.base name) given

/-- An entry of which the field, or else the operator, is unknown and cannot be written out. -/
inductive Untellable (m : Model) : Filter.Entry → Prop
  | key {k v : Value} (unknown : ModelOf.field? m k = none) (long : k.hasText = false) :
    Untellable m (.equality k v)
  | field {v k o w : Value} (parts : parts? v = some (k, o, w)) (unknown : ModelOf.field? m k = none)
    (long : k.hasText = false) : Untellable m (.condition v)
  | operator {v k o w : Value} {f : Field} (parts : parts? v = some (k, o, w))
    (known : ModelOf.field? m k = some f) (unknown : o.text?.bind Operator.ofText? = none)
    (long : o.hasText = false) : Untellable m (.condition v)

/-- What the check of an entry ends in where nothing can be found or be told of it. -/
inductive Spoils (m : Model) : Filter.Entry → Fault → Prop
  | adapter {entry : Filter.Entry} {e : Fault} (fault : Faults m e) : Spoils m entry e
  | bare {v : Value} (bare : Bare v) : Spoils m (.condition v) (.noMember "BaseCondition" "operator")
  | untold {entry : Filter.Entry} (untellable : Untellable m entry) : Spoils m entry .tooManyDigits

/-- An unknown field that cannot be written out ends the check that would find it. -/
theorem validateFilter_of_untold (unknown : ModelOf.field? m k = none) (long : k.hasText = false) :
    validateFilter m (.map [(k, v)]) = .error .tooManyDigits := by
  have hentry : checkEntry m k v = .error .tooManyDigits := by
    rw [checkEntry, unknown]
    exact tell_eq_error.mpr ⟨long, rfl⟩
  have hentries : checkEntries m [(k, v)] = .error .tooManyDigits := by
    rw [checkEntries, List.mapM_cons, hentry]
    rfl
  have hfilter : validateFilter m (.map [(k, v)]) =
      (do let found ← checkEntries m [(k, v)]; pure ⟨.map [(k, v)], found⟩) := rfl
  rw [hfilter, hentries]
  rfl

variable {e : Fault}

theorem faults_of_checkAs {path : Value} (hf : f ∈ m.fields) (h : checkAs f path v = .error e) :
    Faults m e := by
  rcases bind_eq_error.mp h with hv | ⟨verdict, -, h⟩
  · exact ⟨f, hf, v, hv⟩
  · cases h

theorem spoils_of_checkEntry (h : checkEntry m k v = .error e) : Spoils m (.equality k v) e := by
  rw [checkEntry] at h
  cases hf : ModelOf.field? m k with
  | none =>
    rw [hf] at h
    obtain ⟨long, rfl⟩ := tell_eq_error.mp h
    exact .untold (.key hf long)
  | some f =>
    rw [hf] at h
    dsimp only at h
    split at h
    · cases h
    · exact .adapter (faults_of_checkAs (field?_eq_some hf).1 h)

theorem faults_of_checkMembers {path : String} {index : Nat} {vs : List Value} (hf : f ∈ m.fields)
    (h : checkMembers f path index vs = .error e) : Faults m e := by
  induction vs generalizing index with
  | nil => cases h
  | cons v vs ih =>
    rw [checkMembers] at h
    rcases bind_eq_error.mp h with hh | ⟨here, -, h⟩
    · exact faults_of_checkAs hf hh
    · rcases bind_eq_error.mp h with hr | ⟨rest, -, h⟩
      · exact ih hr
      · cases h

theorem spoils_of_checkParts {index : Nat} {o w : Value} (hp : parts? v = some (k, o, w))
    (h : checkParts m index k o w = .error e) : Spoils m (.condition v) e := by
  rw [checkParts] at h
  cases hf : ModelOf.field? m k with
  | none =>
    rw [hf] at h
    obtain ⟨long, rfl⟩ := tell_eq_error.mp h
    exact .untold (.field hp hf long)
  | some f =>
    rw [hf] at h
    have hmem := (field?_eq_some hf).1
    dsimp only at h
    split at h
    · cases h
    · split at h
      · exact .adapter (faults_of_checkMembers hmem h)
      · cases h
    · cases h
    · split at h
      · cases h
      · exact .adapter (faults_of_checkAs hmem h)
    · rename_i ho
      obtain ⟨long, rfl⟩ := tell_eq_error.mp h
      exact .untold (.operator hp hf ho long)

theorem spoils_of_checkCondition {index : Nat} (h : checkCondition m index v = .error e) :
    Spoils m (.condition v) e := by
  rw [checkCondition_eq] at h
  cases hp : parts? v with
  | some parts =>
    rw [hp] at h
    exact spoils_of_checkParts hp h
  | none =>
    rw [hp] at h
    dsimp only at h
    split at h
    · rename_i c g
      cases c with
      | base name =>
        cases h
        exact .bare ⟨name, g, rfl⟩
      | _ => cases hp
    · cases h

theorem spoils_of_checkConditions {index : Nat} {vs : List Value}
    (h : checkConditions m index vs = .error e) : ∃ v ∈ vs, Spoils m (.condition v) e := by
  induction vs generalizing index with
  | nil => cases h
  | cons v vs ih =>
    rw [checkConditions] at h
    rcases bind_eq_error.mp h with hh | ⟨here, -, h⟩
    · exact ⟨v, List.mem_cons_self, spoils_of_checkCondition hh⟩
    · rcases bind_eq_error.mp h with hr | ⟨rest, -, h⟩
      · obtain ⟨w, hw, hs⟩ := ih hr
        exact ⟨w, List.mem_cons_of_mem v hw, hs⟩
      · cases h

/-- A filter is judged, unless one of its entries spoils the check. -/
theorem spoils_of_validateFilter (h : validateFilter m v = .error e) :
    ∃ es entry, Filter.entries? v = some es ∧ entry ∈ es ∧ Spoils m entry e := by
  rw [validateFilter] at h
  split at h
  · cases h
  · split at h
    · rename_i es _ hes
      rcases bind_eq_error.mp h with hf | ⟨found, -, h⟩
      · rcases bind_eq_error.mp hf with hm | ⟨groups, -, hf⟩
        · obtain ⟨entry, hmem, he⟩ := exists_of_mapM_error hm
          exact ⟨_, _, Filter.entries?_of_map hes, List.mem_map_of_mem hmem, spoils_of_checkEntry he⟩
        · cases hf
      · cases h
    · rename_i xs _ hi
      rcases bind_eq_error.mp h with hf | ⟨found, -, h⟩
      · obtain ⟨x, hx, hs⟩ := spoils_of_checkConditions hf
        exact ⟨_, _, Filter.entries?_of_items? hi, List.mem_map_of_mem hx, hs⟩
      · cases h
    · cases h

end Schema
end TableQuery
