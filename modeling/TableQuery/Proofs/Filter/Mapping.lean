import TableQuery.Proofs.Schema.Compiled
import TableQuery.Proofs.Value.Texts

/-! Conditions spelled out as mappings: which mappings are conditions, which condition each of them is,
and what is wrong with the others. -/

namespace TableQuery

namespace LikeMode

theorem eq_text_of_ofText? {s : String} {m : LikeMode} (h : ofText? s = some m) : s = m.text :=
  (beq_iff_eq.mp (List.find?_some (p := fun m : LikeMode => m.text == s) h)).symm

theorem ofText?_text (m : LikeMode) : ofText? m.text = some m := by
  cases m <;> rfl

end LikeMode

namespace Condition
open Outcome

/-- A value that is read as a text where texts are read laxly: a text, octets that encode one, or an
error code, which stands for its own text. -/
inductive Reads : Value → String → Prop
  | text {v : Value} {s : String} (text : v.text? = some s) : Reads v s
  | octets {b : List UInt8} {s : String} (utf8 : Text.ofUtf8? b = some s) : Reads (.bytes b) s
  | code (c : ErrorCode) : Reads (.token (.code c)) c.text

/-- The ways to give an operator: its token, or the member for it. -/
def Names (o : Operator) (w : Value) : Prop := w = .str o.text ∨ w = .token (.operator o)

/-- What is read as a pattern. Without one there are no wildcards. -/
inductive Patterns : Value → Option LikeMode → Prop
  | absent : Patterns .none none
  | mode {v : Value} (m : LikeMode) (reads : Reads v m.text) : Patterns v (some m)

/-- The pattern of a condition. -/
def mode? : Condition Value → Option LikeMode
  | like _ _ _ p => p
  | _ => none

/-- The mapping spells out this condition: its operator, its field, its value and its pattern, and
nothing beside the parts that the class of the operator has. -/
structure Describes (v : Value) (o : Operator) (c : Condition Value) : Prop where
  keyed : v.isMapping = true
  operator : Names o (v.get "operator")
  owner : c.operator? = some o
  field : Reads (v.get "field") c.field
  value : c.value? = some (v.get "value")
  pattern : Patterns (v.get "pattern") c.mode?
  keys : ∀ es, v.entries? = some es →
    ∀ e ∈ es, ∃ s ∈ (Family.ofOperator o).parts, e.1.text? = some s

/-- What is wrong with a value that is no condition: the first of these that applies. -/
inductive Refused (v : Value) : ErrorCode → Prop
  | shape (unkeyed : v.isMapping = false) : Refused v .invalidCondition
  | operator (keyed : v.isMapping = true) (none : ¬ ∃ o, Names o (v.get "operator")) :
    Refused v .unsupportedOperator
  | field (keyed : v.isMapping = true) {o : Operator} (operator : Names o (v.get "operator"))
    (none : ¬ ∃ s, Reads (v.get "field") s) : Refused v .invalidField
  | parts (keyed : v.isMapping = true) {o : Operator} (operator : Names o (v.get "operator"))
    {s : String} (field : Reads (v.get "field") s) : Refused v .invalidCondition

/-- The values that a refusal has to write out. -/
def blamed (v : Value) : ErrorCode → List Value
  | .unsupportedOperator => [v.get "field", v.get "operator"]
  | .invalidField => [v.get "field"]
  | _ => [v]

theorem text_eq_reads {v : Value} {s : String} : Coerce.text false v = .ok s ↔ Reads v s := by
  constructor
  · intro h
    cases v with
    | bytes b =>
      rw [Coerce.text] at h
      cases hb : Text.ofUtf8? b with
      | none => simp [hb] at h
      | some u =>
        simp only [hb, Bool.false_eq_true, if_false, Except.ok.injEq] at h
        exact .octets (h ▸ hb)
    | token t =>
      simp only [Coerce.text, Bool.not_false, Bool.or_true, if_true, Except.ok.injEq] at h
      cases t with
      | code c => exact h ▸ .code c
      | _ => exact .text (congrArg some h)
    | str u => exact .text (congrArg some (Except.ok.inj h))
    | _ => cases h
  · intro h
    cases h with
    | text text => exact text_eq_ok text
    | octets utf8 => simp [Coerce.text, utf8]
    | code c => rfl

theorem Reads.unique {v : Value} {s t : String} (hs : Reads v s) (ht : Reads v t) : s = t :=
  Except.ok.inj ((text_eq_reads.mpr hs).symm.trans (text_eq_reads.mpr ht))

theorem readPattern_eq_ok {v : Value} {p : Option LikeMode} :
    readPattern v = .ok p ↔ Patterns v p := by
  constructor
  · intro h
    unfold readPattern at h
    split at h
    · cases h
      exact .absent
    · cases hs : Coerce.text false v with
      | error e =>
        simp only [hs] at h
        cases h
      | ok s =>
        simp only [hs] at h
        cases hm : LikeMode.ofText? s with
        | none =>
          simp only [hm] at h
          cases h
        | some m =>
          simp only [hm, Except.ok.injEq] at h
          subst h
          obtain rfl := LikeMode.eq_text_of_ofText? hm
          exact .mode m (text_eq_reads.mp hs)
  · intro h
    cases h with
    | absent => rfl
    | mode m reads =>
      have hread := text_eq_reads.mpr reads
      unfold readPattern
      split
      · cases hread
      · simp only [hread, LikeMode.ofText?_text]

theorem Patterns.unique {v : Value} {p q : Option LikeMode} (hp : Patterns v p)
    (hq : Patterns v q) : p = q :=
  Except.ok.inj ((readPattern_eq_ok.mpr hp).symm.trans (readPattern_eq_ok.mpr hq))

theorem operator_eq_names {w : Value} {o : Operator} :
    w.text?.bind Operator.ofText? = some o ↔ Names o w := by
  have htext : w.text?.bind Operator.ofText? = some o ↔ w.text? = some (Token.operator o).text := by
    rw [Option.bind_eq_some_iff]
    constructor
    · rintro ⟨s, hs, ho⟩
      rw [hs, Operator.eq_text_of_ofText? ho]
      rfl
    · exact fun h => ⟨_, h, Operator.ofText?_text o⟩
  exact htext.trans (Value.text?_eq_text rfl)

theorem operator_eq_none {w : Value} :
    w.text?.bind Operator.ofText? = none ↔ ¬ ∃ o, Names o w := by
  simp only [← operator_eq_names, not_exists]
  exact Option.eq_none_iff_forall_ne_some

/-- A condition is known by its operator, its field, its value and its pattern. -/
theorem ext_parts {c c' : Condition Value} {o : Operator} (ho : c.operator? = some o)
    (ho' : c'.operator? = some o) (hf : c.field = c'.field) (hv : c.value? = c'.value?)
    (hm : c.mode? = c'.mode?) : c = c' := by
  cases c <;> cases ho <;> cases c' <;> cases ho' <;>
    simp_all [Condition.field, Condition.value?, mode?]

theorem family_eq {c : Condition Value} {o : Operator} (h : c.operator? = some o) :
    c.family = (Family.ofOperator o).name := by
  cases c <;> cases h <;> rfl

section Entries

variable {es : Entries} {o : Operator} {c : Condition Value}

theorem required_text {name s : String} :
    required es name (Coerce.text false) = .ok s ↔
      Reads ((Value.lookup (.str name) es).getD .none) s := by
  rw [← text_eq_reads, required]
  cases Value.lookup (.str name) es with
  | none => exact iff_of_false (by rintro ⟨⟩) (by rintro ⟨⟩)
  | some v => rfl

/-- What a mapping has under the name of a part that the class of its operator does not have. -/
theorem lookup_of_keys {name : String}
    (hkeys : ∀ e ∈ es, ∃ s ∈ (Family.ofOperator o).parts, e.1.text? = some s)
    (hn : name ∉ (Family.ofOperator o).parts) : Value.lookup (.str name) es = none := by
  rw [Value.lookup, Option.map_eq_none_iff, List.find?_eq_none]
  intro e he hsame
  obtain ⟨s, hs, htext⟩ := hkeys e he
  cases htext.symm.trans (Value.same_str_iff.mp hsame)
  exact hn hs

/-- Without a pattern among the parts of an operator, there is no pattern. -/
theorem patterns_of_keys (hkeys : ∀ e ∈ es, ∃ s ∈ (Family.ofOperator o).parts, e.1.text? = some s)
    (hlike : Family.ofOperator o ≠ .like) :
    Patterns ((Value.lookup (.str "pattern") es).getD .none) none := by
  have hparts : "pattern" ∉ (Family.ofOperator o).parts := by
    cases o with
    | like l => exact absurd rfl hlike
    | _ => simp [Family.ofOperator, Family.parts]
  rw [lookup_of_keys hkeys hparts]
  exact .absent

/-- A mapping with textual keys has room for a condition where it has no key that is not the name of a
part, and a pattern that can be read. -/
theorem fitting_iff (htexts : ∀ e ∈ es, e.1.text?.isSome = true) : Fitting (.ofOperator o) es ↔
    (∀ e ∈ es, ∃ s ∈ (Family.ofOperator o).parts, e.1.text? = some s) ∧
      ∃ p, Patterns ((Value.lookup (.str "pattern") es).getD .none) p := by
  have hkeys : (∀ e ∈ es, ∃ s, Coerce.text false e.1 = .ok s ∧ s ∈ (Family.ofOperator o).parts ∧
      Value.hasKey (.str s) es) ↔ ∀ e ∈ es, ∃ s ∈ (Family.ofOperator o).parts, e.1.text? = some s := by
    refine forall₂_congr fun e he => ?_
    obtain ⟨u, hu⟩ := Option.isSome_iff_exists.mp (htexts e he)
    constructor
    · rintro ⟨s, hs, hparts, -⟩
      cases (text_eq_ok hu).symm.trans hs
      exact ⟨u, hparts, hu⟩
    · rintro ⟨s, hparts, hs⟩
      exact ⟨s, text_eq_ok hs, hparts, List.any_eq_true.mpr ⟨e, he, Value.same_str_iff.mpr hs⟩⟩
  rw [Fitting, hkeys]
  refine and_congr_right fun h => ?_
  simp only [readPattern_eq_ok]
  by_cases hlike : Family.ofOperator o = .like
  · exact forall_prop_of_true hlike
  · exact iff_of_true (fun hl => absurd hl hlike) ⟨none, patterns_of_keys h hlike⟩

/-- A condition that is read from a mapping has the pattern that is read there. -/
theorem mode_of_ofEntries (ho : required es "operator" (readOperator (.ofOperator o)) = .ok o)
    (hkeys : ∀ e ∈ es, ∃ s ∈ (Family.ofOperator o).parts, e.1.text? = some s)
    (h : ofEntries (.ofOperator o) es = .ok c) :
    Patterns ((Value.lookup (.str "pattern") es).getD .none) c.mode? := by
  unfold ofEntries at h
  dsimp only at h
  rw [ho] at h
  split at h
  · rename_i field _ hissues
    cases o with
    | like l =>
      cases hl : Value.lookup (.str "pattern") es with
      | none =>
        simp only [hl] at h
        cases h
        exact .absent
      | some v =>
        simp only [hl] at h hissues
        cases hp : readPattern v with
        | error e => simp [Family.ofOperator, partIssue, hp] at hissues
        | ok p =>
          rw [hp] at h
          cases h
          cases p <;> exact readPattern_eq_ok.mp hp
    | _ =>
      cases h
      exact patterns_of_keys hkeys (by rintro ⟨⟩)
  · cases h

omit es in
theorem path_of_partIssue {α : Type} {name : String} {read : Except Problem α} {i : Issue}
    (hi : i ∈ partIssue name read) : i.path = [.key name] := by
  cases read with
  | ok a => cases hi
  | error p =>
    rw [List.mem_singleton.mp hi]
    rfl

/-- An entry that has no place is not reported as a field. -/
theorem path_of_extraIssues {f : Family} (htexts : ∀ e ∈ es, e.1.text?.isSome = true) {i : Issue}
    (hi : i ∈ extraIssues f es) : ∃ s, i.path = [.key s] ∧ s ≠ "field" := by
  have hfield : "field" ∈ f.parts := by cases f <;> decide
  obtain ⟨e, he, hextra⟩ := List.mem_filterMap.mp hi
  obtain ⟨s, hs⟩ := Option.isSome_iff_exists.mp (htexts e he)
  have hstep : keyStep e.1 = .key s := by simp only [keyStep, hs]
  rw [extraIssue, text_eq_ok hs] at hextra
  simp only [Bool.true_and] at hextra
  split at hextra
  · rename_i hnew
    cases hextra
    refine ⟨s, by rw [hstep], ?_⟩
    rintro rfl
    have hthere : Value.hasKey (.str "field") es = true :=
      List.any_eq_true.mpr ⟨e, he, Value.same_str_iff.mpr hs⟩
    simp [List.mem_filter, hfield, hthere] at hnew
  · cases hextra

/-- Of what is wrong with a mapping, something is wrong with its field just where that cannot be read. -/
theorem field_of_ofEntries {issues : List Issue} (htexts : ∀ e ∈ es, e.1.text?.isSome = true)
    (ho : required es "operator" (readOperator (.ofOperator o)) = .ok o)
    (h : ofEntries (.ofOperator o) es = .error issues) :
    (issues.any fun i => i.path.getLast? == some (.key "field")) = true ↔
      ¬ ∃ s, Reads ((Value.lookup (.str "field") es).getD .none) s := by
  simp only [← required_text]
  unfold ofEntries at h
  dsimp only at h
  rw [ho] at h
  cases hf : required es "field" (Coerce.text false) with
  | error p =>
    rw [hf] at h
    cases h
    refine iff_of_true ?_ nofun
    simp [partIssue, issue]
  | ok field =>
    refine iff_of_false ?_ fun hno => hno ⟨field, rfl⟩
    rw [hf] at h
    split at h
    · cases o <;> cases h
    · cases h
      intro hany
      obtain ⟨i, hi, hlast⟩ := List.any_eq_true.mp hany
      rcases List.mem_append.mp hi with hi | hi
      · obtain ⟨name, hpath, hne⟩ : ∃ name, i.path = [.key name] ∧ name ≠ "field" := by
          rcases List.mem_append.mp hi with hi | hi
          · rcases List.mem_append.mp hi with hi | hi
            · cases hi
            · split at hi <;> cases hi
          · split at hi
            · exact ⟨"pattern", path_of_partIssue hi, by decide⟩
            · cases hi
        rw [hpath] at hlast
        exact hne (by simpa using hlast)
      · obtain ⟨s, hs, hne⟩ := path_of_extraIssues htexts hi
        rw [hs] at hlast
        exact hne (by simpa using hlast)

end Entries

section Values

variable {v : Value} {o : Operator} {c : Condition Value}

theorem isMapping_of_entries {es : Entries} (he : v.entries? = some es) : v.isMapping = true := by
  rw [Value.isMapping, he]
  rfl

theorem get_of_entries {es : Entries} (he : v.entries? = some es) (name : String) :
    v.get name = (Value.lookup (.str name) es).getD .none := by
  rw [Value.get, he]
  rfl

/-- A mapping is read as the condition that it spells out, and as no other. -/
theorem ofValue_eq_describes {es : Entries} (he : v.entries? = some es)
    (htexts : ∀ e ∈ es, e.1.text?.isSome = true) :
    ofValue v = .ok c ↔ ∃ o, Describes v o c := by
  have hget := get_of_entries he
  have hparts : ∀ {o c}, Names o (v.get "operator") → ofEntries (.ofOperator o) es = .ok c →
      Describes v o c := by
    intro o c ho hc
    have hop := operator_eq_names.mpr ho
    rw [hget] at hop
    have hreq := operator_eq_ok hop
    obtain ⟨hfield, howner, hvalue⟩ := parts_of_ofEntries hop hc
    obtain ⟨hkeys, -⟩ := (fitting_iff htexts).mp ((exists_ofEntries hfield hreq).mp ⟨c, hc⟩)
    refine ⟨isMapping_of_entries he, ho, howner, ?_, ?_, ?_, ?_⟩
    · exact hget "field" ▸ required_text.mp hfield
    · exact hget "value" ▸ hvalue
    · exact hget "pattern" ▸ mode_of_ofEntries hreq hkeys hc
    · intro es' hes'
      cases he.symm.trans hes'
      exact hkeys
  rw [ofValue_eq_ok he]
  constructor
  · rintro ⟨o, ho, hc⟩
    rw [← hget, operator_eq_names] at ho
    exact ⟨o, hparts ho hc⟩
  · rintro ⟨o, h⟩
    have hop := operator_eq_names.mpr h.operator
    have hfield := h.field
    have hpattern := h.pattern
    rw [hget] at hop hfield hpattern
    -- The entries fit, so that some condition is read; its parts are the described ones, and fix it.
    obtain ⟨c', hc'⟩ := (exists_ofEntries (required_text.mpr hfield) (operator_eq_ok hop)).mpr
      ((fitting_iff htexts).mpr ⟨h.keys es he, _, hpattern⟩)
    have h' := hparts h.operator hc'
    obtain rfl := ext_parts h.owner h'.owner (h.field.unique h'.field)
      (h.value.trans h'.value.symm) (h.pattern.unique h'.pattern)
    exact ⟨o, hop, hc'⟩

/-- A value that is refused is refused for the first thing that is wrong with it, as far as what is to blame
can be written out. -/
theorem refused_of_ofValue {f : Fault} (hv : ∀ c g, v ≠ .condition c g)
    (htexts : ∀ es, v.entries? = some es → ∀ e ∈ es, e.1.text?.isSome = true)
    (h : ofValue v = .error f) :
    ∃ (r : Rejection) (e : ErrorCode), f = r.raised ∧ r.area = .query ∧ r.code = .code e ∧
      Refused v e ∧ (r.hasText = false ↔ Untold (blamed v e)) := by
  have hreason : ∀ s, (Rejection.invalidCondition v (.str s)).hasText = false ↔ Untold [v] := by
    simp [Rejection.cited]
  -- The checks in their order: a mapping, its operator, and then all its parts at once.
  unfold ofValue at h
  split at h
  · exact absurd rfl (hv _ _)
  split at h
  · rename_i he
    cases h
    exact ⟨_, .invalidCondition, rfl, rfl, rfl, .shape (by rw [Value.isMapping, he]; rfl), hreason _⟩
  rename_i es he
  have hkeyed := isMapping_of_entries he
  have hget := get_of_entries he
  split at h
  · rename_i ho
    cases h
    exact ⟨_, .unsupportedOperator, rfl, rfl, rfl, .operator hkeyed (operator_eq_none.mp ho),
      Rejection.hasText_eq_false⟩
  rename_i o ho
  split at h
  · cases h
  rename_i issues hes
  have hfield := field_of_ofEntries (htexts es he) (operator_eq_ok (hget _ ▸ ho)) hes
  rw [← hget] at hfield
  split at h
  · rename_i hany
    cases h
    exact ⟨_, .invalidField, rfl, rfl, rfl,
      .field hkeyed (operator_eq_names.mp ho) (hfield.mp hany), Rejection.hasText_eq_false⟩
  · rename_i hany
    cases h
    obtain ⟨s, hs⟩ := not_not.mp (mt hfield.mpr hany)
    exact ⟨_, .invalidCondition, rfl, rfl, rfl, .parts hkeyed (operator_eq_names.mp ho) hs, hreason _⟩

/-- A part of a condition as it is, or its operator or its pattern as a member. -/
inductive Spells : String × Value → String × Value → Prop
  | same (p : String × Value) : Spells p p
  | operator (o : Operator) : Spells ("operator", .str o.text) ("operator", .token (.operator o))
  | pattern (m : LikeMode) : Spells ("pattern", .str m.text) ("pattern", .token (.mode m))

/-- The entries are all the parts of the condition, in any order, each in one of its spellings. -/
def ListsParts (c : Condition Value) (es : Entries) : Prop :=
  ∃ ps, List.Forall₂ Spells (c.parts .str .none) ps ∧ es.Perm (ps.map fun p => (.str p.1, p.2))

theorem Spells.fst {p q : String × Value} (h : Spells p q) : q.1 = p.1 := by
  cases h <;> rfl

/-- A text stays the same text, and what is none stays as it is. -/
theorem Spells.text {p q : String × Value} (h : Spells p q) {s : String} (hp : p.2 = .str s) :
    q.2.text? = some s := by
  cases h with
  | same => rw [hp]; rfl
  | operator o => cases hp; rfl
  | pattern m => cases hp; rfl

theorem Spells.eq {p q : String × Value} (h : Spells p q)
    (hp : p.1 ∉ ["operator", "pattern"] ∨ p.2 = .none) : q = p := by
  cases h with
  | same => rfl
  | operator o => exact absurd hp (by simp)
  | pattern m => exact absurd hp (by simp)

theorem spells_lookup {ps qs : List (String × Value)} (h : List.Forall₂ Spells ps qs) {name : String}
    {x : Value} (hx : ps.lookup name = some x) :
    ∃ w, qs.lookup name = some w ∧ Spells (name, x) (name, w) := by
  induction h with
  | nil => cases hx
  | @cons p q ps qs hpq h ih =>
    obtain ⟨k, u⟩ := p
    obtain ⟨k', w⟩ := q
    obtain rfl : k' = k := hpq.fst
    rw [List.lookup_cons] at hx ⊢
    by_cases hk : name = k'
    · subst hk
      simp only [beq_self_eq_true, Option.some.injEq] at hx ⊢
      exact ⟨w, rfl, hx ▸ hpq⟩
    · simp only [beq_eq_false_iff_ne.mpr hk] at hx ⊢
      exact ih hx

/-- What a mapping has under a name where it lists named parts, each once. -/
theorem lookup_listed {ps : List (String × Value)} (hn : (ps.map Prod.fst).Nodup) {es : Entries}
    (h : es.Perm (ps.map fun p => (.str p.1, p.2))) (name : String) :
    Value.lookup (.str name) es = ps.lookup name := by
  have hmem : ∀ e, e ∈ es ↔ ∃ p ∈ ps, (Value.str p.1, p.2) = e := by
    intro e
    rw [h.mem_iff, List.mem_map]
  rw [Value.lookup]
  cases hfind : es.find? fun e => Value.same (.str name) e.1 with
  | none =>
    refine (Lists.lookup_of_not_mem fun hm => ?_).symm
    obtain ⟨p, hp, rfl⟩ := List.mem_map.mp hm
    exact List.find?_eq_none.mp hfind _ ((hmem _).mpr ⟨p, hp, rfl⟩) (Value.same_str_iff.mpr rfl)
  | some e =>
    obtain ⟨⟨k, x⟩, hp, rfl⟩ := (hmem e).mp (List.mem_of_find?_eq_some hfind)
    have hsame : Value.same (.str name) (.str k) = true :=
      List.find?_some (p := fun e : Value × Value => Value.same (.str name) e.1) hfind
    obtain rfl : k = name := Option.some.inj (Value.same_str_iff.mp hsame)
    exact (Lists.lookup_of_mem hn hp).symm

theorem parts_names (h : c.operator? = some o) :
    (c.parts .str .none).map Prod.fst = (Family.ofOperator o).parts := by
  cases c <;> cases h <;> rfl

/-- A mapping that lists the parts of a condition has a spelling of each part under its name. -/
theorem spelled_of_lists {es : Entries} (hc : c.operator? = some o) (he : v.entries? = some es)
    (h : ListsParts c es) {name : String} {x : Value}
    (hx : (c.parts .str .none).lookup name = some x) : Spells (name, x) (name, v.get name) := by
  obtain ⟨ps, hps, hperm⟩ := h
  have hnames : ps.map Prod.fst = (Family.ofOperator o).parts := by
    rw [← parts_names hc]
    exact (Lists.map_eq_map hps fun p _ q _ hpq => hpq.fst.symm).symm
  have hnodup : (ps.map Prod.fst).Nodup := by
    rw [hnames]
    cases o <;> simp [Family.ofOperator, Family.parts]
  obtain ⟨w, hw, hspells⟩ := spells_lookup hps hx
  rw [get_of_entries he, lookup_listed hnodup hperm, hw]
  exact hspells

theorem keys_of_lists {es : Entries} (hc : c.operator? = some o) (h : ListsParts c es) :
    ∀ e ∈ es, ∃ s ∈ (Family.ofOperator o).parts, e.1.text? = some s := by
  obtain ⟨ps, hps, hperm⟩ := h
  intro e hm
  obtain ⟨p, hp, rfl⟩ := List.mem_map.mp (hperm.mem_iff.mp hm)
  obtain ⟨q, hq, hspells⟩ := Lists.exists_of_mem_right hps hp
  refine ⟨p.1, ?_, rfl⟩
  rw [hspells.fst, ← parts_names hc]
  exact List.mem_map_of_mem hq

/-- A condition is read back from any mapping that lists its parts. -/
theorem describes_of_lists {es : Entries} (hc : c.operator? = some o) (he : v.entries? = some es)
    (h : ListsParts c es) : Describes v o c := by
  have hkeys := keys_of_lists hc h
  have hkept : ∀ name {x}, (c.parts .str .none).lookup name = some x →
      name ∉ ["operator", "pattern"] ∨ x = .none → v.get name = x := fun name _ hx hp =>
    (Prod.mk.inj ((spelled_of_lists hc he h hx).eq hp)).2
  refine ⟨isMapping_of_entries he, ?_, hc, ?_, ?_, ?_, ?_⟩
  · have hop : (c.parts .str .none).lookup "operator" = some (.str o.text) := by
      cases c <;> cases hc <;> rfl
    have hspelled := (spelled_of_lists hc he h hop).text rfl
    exact (Value.text?_eq_text (t := .operator o) rfl).mp hspelled
  · have hfield : (c.parts .str .none).lookup "field" = some (.str c.field) := by
      cases c <;> rfl
    rw [hkept "field" hfield (.inl (by decide))]
    exact .text rfl
  · obtain ⟨x, hx, hvalue⟩ : ∃ x, (c.parts .str .none).lookup "value" = some x ∧ c.value? = some x := by
      cases c <;> cases hc <;> exact ⟨_, rfl, rfl⟩
    rw [hkept "value" hx (.inl (by decide)), hvalue]
  · cases c with
    | like f l x p =>
      cases p with
      | none => exact (hkept "pattern" rfl (.inr rfl)).symm ▸ .absent
      | some m =>
        have hpattern : (parts .str .none (.like f l x (some m))).lookup "pattern" =
            some (.str m.text) := rfl
        exact .mode m (.text ((spelled_of_lists hc he h hpattern).text rfl))
    | base f => cases hc
    | _ =>
      cases hc
      have hpattern := patterns_of_keys hkeys (by rintro ⟨⟩)
      rwa [get_of_entries he]
  · intro es' hes'
    cases he.symm.trans hes'
    exact hkeys

end Values

/-- A value that has the keys of texts, if it has any, is read as the condition that it is or that it
spells out, in the class that its operator belongs to. A condition is read back from every mapping that
lists its parts. What is no condition is refused for the first thing that is wrong with it, unless what is
to blame cannot be written out, where the report fails instead. -/
theorem language_exact :
    (∀ c g, ofValue (.condition c g) = .ok c) ∧
    (∀ v, (∀ c g, v ≠ .condition c g) →
      (∀ es, v.entries? = some es → ∀ e ∈ es, e.1.text?.isSome = true) →
      (∀ c, ofValue v = .ok c ↔ ∃ o, Describes v o c) ∧
      ∀ f, ofValue v = .error f →
        ∃ (r : Rejection) (e : ErrorCode), f = r.raised ∧ r.area = .query ∧ r.code = .code e ∧
          Refused v e ∧ (r.hasText = false ↔ Untold (blamed v e))) ∧
    (∀ v o c, Describes v o c → c.family = (Family.ofOperator o).name) ∧
    ∀ v c es, c.operator? ≠ none → v.entries? = some es → ListsParts c es → ofValue v = .ok c := by
  refine ⟨fun c g => rfl, fun v hv htexts => ⟨fun c => ?_, fun f => refused_of_ofValue hv htexts⟩,
    fun v o c h => family_eq h.owner, fun v c es hc he h => ?_⟩
  · cases he : v.entries? with
    | some es => exact ofValue_eq_describes he (htexts es he)
    | none =>
      refine iff_of_false (fun h => ?_) ?_
      · unfold ofValue at h
        split at h
        · exact hv _ _ rfl
        · rw [he] at h
          exact reject_ne_ok h
      · rintro ⟨o, h⟩
        have := h.keyed
        rw [Value.isMapping, he] at this
        cases this
  · obtain ⟨o, ho⟩ := Option.ne_none_iff_exists'.mp hc
    have hd := describes_of_lists ho he h
    refine (ofValue_eq_describes he fun e hm => ?_).mpr ⟨o, hd⟩
    obtain ⟨s, -, hs⟩ := hd.keys es he e hm
    rw [hs]
    rfl

/-- A mapping with an encoded field, and with its operator and its pattern as members. -/
theorem language_exact_ilike :
    let v : Value := .map [(.str "pattern", .token (.mode .endsWith)), (.str "value", .str "x"),
      (.str "operator", .token (.operator (.like .ilike))), (.str "field", .bytes [101, 109])]
    ofValue v = .ok (.like "em" .ilike (.str "x") (some .endsWith)) := by
  intro v
  have hkeys : ∀ es, v.entries? = some es →
      ∀ e ∈ es, ∃ s ∈ Family.like.parts, e.1.text? = some s := by
    rintro _ ⟨⟩
    simp [Value.text?, Family.parts]
  have hparts : v.get "operator" = .token (.operator (.like .ilike)) ∧ v.get "value" = .str "x" ∧
      v.get "field" = .bytes [101, 109] ∧ v.get "pattern" = .token (.mode .endsWith) := by
    simp [v, Value.get, Value.entries?, Value.lookup, Value.same]
  obtain ⟨ho, hvalue, hfield, hpattern⟩ := hparts
  have hd : Describes v (.like .ilike) (.like "em" .ilike (.str "x") (some .endsWith)) :=
    ⟨rfl, .inr ho, rfl, hfield ▸ .octets (by decide +kernel), hvalue ▸ rfl,
      hpattern ▸ .mode .endsWith (.text rfl), hkeys⟩
  refine ((language_exact.2.1 v (by simp [v]) fun es he e hm => ?_).1 _).mpr ⟨_, hd⟩
  obtain ⟨s, -, hs⟩ := hkeys es he e hm
  rw [hs]
  rfl

/-- An error code is read as a field, though it is neither a text nor octets. -/
theorem code_read_as_field :
    let v : Value := .map [(.str "field", .token (.code .invalidIn)), (.str "operator", .str "="),
      (.str "value", .int 1)]
    ofValue v = .ok (.comparison "WHERE_002" .eq (.int 1)) ∧
      (v.get "field").text? = none ∧ ∀ b, v.get "field" ≠ .bytes b := by
  intro v
  have hparts : v.get "operator" = .str "=" ∧ v.get "value" = .int 1 ∧
      v.get "field" = .token (.code .invalidIn) ∧ v.get "pattern" = .none := by
    simp [v, Value.get, Value.entries?, Value.lookup, Value.same]
  obtain ⟨ho, hvalue, hfield, hpattern⟩ := hparts
  have hkeys : ∀ e ∈ [(Value.str "field", Value.token (.code .invalidIn)),
      (.str "operator", .str "="), (.str "value", .int 1)],
      ∃ s ∈ Family.comparison.parts, e.1.text? = some s := by
    simp [Value.text?, Family.parts]
  have hd : Describes v (.comparison .eq) (.comparison "WHERE_002" .eq (.int 1)) := by
    refine ⟨rfl, .inl ho, rfl, hfield ▸ .code .invalidIn, hvalue ▸ rfl, hpattern ▸ .absent, ?_⟩
    rintro _ ⟨⟩
    exact hkeys
  refine ⟨(ofValue_eq_describes rfl fun e hm => ?_).mpr ⟨_, hd⟩, ?_⟩
  · obtain ⟨s, -, hs⟩ := hkeys e hm
    rw [hs]
    rfl
  · rw [hfield]
    exact ⟨rfl, by simp⟩

end Condition
end TableQuery
