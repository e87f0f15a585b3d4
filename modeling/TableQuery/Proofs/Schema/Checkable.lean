import TableQuery.Proofs.Schema.Conditions
import TableQuery.Proofs.Schema.Faults

/-! Checks that can be made: all of those of a model whose limits all belong to the types that they are set
for, and of which no given part raises anything, and those of conditions whose values an adapter takes or
refuses. -/

namespace TableQuery

theorem Outcome.exists_of_fails {α : Type} {x : Outcome α} (h : Fails (fun _ => False) x) :
    ∃ a, x = .ok a := by
  cases x with
  | ok a => exact ⟨a, rfl⟩
  | error f => exact (h f rfl).elim

namespace Schema
open Outcome

/-! Models. -/

mutual

/-- Every limit is part of the type that it is set for, inside of the type as well, and no given type raises
anything. -/
def FieldType.Applicable (r : Rule) : FieldType → Prop
  | .listOf item => r.later (.listOf item) = [] ∧ item.Applicable {}
  | .optional type => type.Applicable r
  | .model m => r.later (.model m) = [] ∧ ModelApplicable m
  | .given read => ∀ v kind message, read v ≠ .raised kind message
  | t => r.later t = []

def ModelApplicable : ModelOf FieldType → Prop
  | ⟨_, _, fields⟩ => FieldsApplicable fields

def FieldsApplicable : List (FieldOf FieldType) → Prop
  | [] => True
  | f :: fs => FieldApplicable f ∧ FieldsApplicable fs

def FieldApplicable : FieldOf FieldType → Prop
  | ⟨_, type, rule, _, _⟩ => type.Applicable rule

end

theorem fails_finish_nil {P : Fault → Prop} {type : FieldType} {limits : List Limit} {v : Verdict}
    (h : limits = []) : Fails P (finish type limits v) := by
  subst h
  cases v <;> exact .ok _

mutual

theorem check_of_applicable (r : Rule) : (t : FieldType) → t.Applicable r → (v : Value) →
    Fails (fun _ => False) (t.check r v)
  | .text, h, v | .integer, h, v | .number, h, v | .flag, h, v | .any, h, v | .literal _, h, v => by
    rw [FieldType.check]
    exact fails_finish_nil h
  | .listOf item, h, v => by
    unfold FieldType.check
    dsimp only
    split
    · exact (Fails.pure _).bind fun _ _ => fails_finish_nil h.1
    · exact (fails_checkItems (fun x => check_of_applicable {} item h.2 x) _ _ _ _).bind fun _ _ =>
        fails_finish_nil h.1
  | .optional type, h, v => by
    rw [FieldType.check]
    split
    · exact .ok _
    · exact check_of_applicable r type h v
  | .model m, h, v => by
    rw [FieldType.check]
    split
    · exact (Fails.pure _).bind fun _ _ => fails_finish_nil h.1
    · exact (checkModel_of_applicable m h.2 v).bind fun _ _ => fails_finish_nil h.1
  | .given read, h, v => by
    rw [FieldType.check]
    cases hv : read v with
    | raised kind message => exact absurd hv (h v kind message)
    | taken c | refused i is => exact .ok _

theorem checkModel_of_applicable : (m : ModelOf FieldType) → ModelApplicable m → (v : Value) →
    Fails (fun _ => False) (checkModel m v)
  | ⟨name, extra, fields⟩, h, v => by
    rw [checkModel]
    split
    · exact .ok _
    · exact (checkFields_of_applicable fields h _).bind fun _ _ => .pure _

theorem checkFields_of_applicable : (fs : List (FieldOf FieldType)) → FieldsApplicable fs →
    (entries : List (Value × Value)) → Fails (fun _ => False) (checkFields fs entries)
  | [], _, _ => .ok _
  | f :: fs, h, entries => by
    rw [checkFields]
    exact (checkField_of_applicable f h.1 entries).bind fun _ _ =>
      (checkFields_of_applicable fs h.2 entries).bind fun _ _ => .pure _

theorem checkField_of_applicable : (f : FieldOf FieldType) → FieldApplicable f →
    (entries : List (Value × Value)) → Fails (fun _ => False) (checkField f entries)
  | ⟨name, type, rule, default, label⟩, h, entries => by
    unfold checkField
    dsimp only
    split
    · exact (check_of_applicable rule type h _).bind fun _ _ => .pure _
    · exact .pure _

end

theorem applicable_of_mem {fs : List Field} (h : FieldsApplicable fs) {f : Field} (hf : f ∈ fs) :
    f.type.Applicable f.rule := by
  induction fs with
  | nil => cases hf
  | cons g fs ih =>
    rcases List.mem_cons.mp hf with rfl | hf
    · cases f
      exact h.1
    · exact ih h.2 hf

/-- A field of such a model takes or refuses every value. -/
theorem exists_check {m : Model} (h : ModelApplicable m) {f : Field} (hf : f ∈ m.fields) (v : Value) :
    ∃ verdict, f.type.check f.rule v = .ok verdict := by
  obtain ⟨name, extra, fields⟩ := m
  exact exists_of_fails (check_of_applicable f.rule f.type (applicable_of_mem h hf) v)

/-- The model is such a one, and a given reading of whole records raises nothing either. -/
structure Overlay.Applicable (o : Overlay) : Prop where
  model : ModelApplicable o.model
  whole : ∀ read, o.whole = some read → ∀ v kind message, read v ≠ .raised kind message

theorem check_of_overlay {o : Overlay} (h : o.Applicable) (v : Value) :
    Fails (fun _ => False) (o.check v) := by
  unfold Overlay.check
  split
  · exact checkModel_of_applicable o.model h.model v
  · rename_i read hwhole
    cases hv : read v with
    | raised kind message => exact absurd hv (h.whole read hwhole v kind message)
    | taken c | refused i is => exact .ok _

/-- Under such a model there are two records that nothing can be told of: one with an unknown key that
cannot be written out, and one that no data can be made of. -/
inductive Untold (o : Overlay) (v : Value) : Fault → Prop
  | key (long : TableQuery.Untold (unknownKeys o.model v)) : Untold o v .tooManyDigits
  | data {c : Checked} {e : Fault} (read : o.check v = .ok (.ok c)) (made : c.given = .error e) :
    Untold o v e

theorem untold_of_applicable {o : Overlay} (h : o.Applicable) {v : Value} {e : Fault}
    (hb : Breaks o v e) : Untold o v e := by
  cases hb with
  | untold long => exact .key long
  | unread read => exact (check_of_overlay h v e read).elim
  | unmade read made => exact .data read made

/-! Conditions. -/

variable {m : Model} {f : Field} {v x : Value}

/-- The values that an operator hands to the adapter of the field: that of a comparison, and the
members for IN. -/
inductive Hands (o w : Value) : Value → Prop
  | value {c : Comparison} (operator : o.text?.bind Operator.ofText? = some (.comparison c))
    (present : w ≠ .none) : Hands o w w
  | member {ys : List Value} {y : Value}
    (operator : o.text?.bind Operator.ofText? = some .membership) (items : w.items? = some ys)
    (mem : y ∈ ys) : Hands o w y

/-- The adapter of the field takes or refuses each value that the operator of the item hands to it. -/
def Adapted (m : Model) (x : Value) : Prop :=
  ∀ k o w f, parts? x = some (k, o, w) → ModelOf.field? m k = some f →
    ∀ y, Hands o w y → ∃ verdict, f.type.check f.rule y = .ok verdict

/-- The item has an operator, if it is a condition, what is unknown of it can be written out, and the
adapter of its field takes or refuses each value that the operator hands to it. -/
structure Checkable (m : Model) (x : Value) : Prop where
  whole : ¬ Bare x
  told : ¬ Untellable m (.condition x)
  adapted : Adapted m x

theorem exists_checkAs {path : Value} : (∃ found, checkAs f path v = .ok found) ↔
    ∃ verdict, f.type.check f.rule v = .ok verdict := by
  rw [checkAs, exists_bind]
  exact exists_congr fun verdict => and_iff_left ⟨_, rfl⟩

theorem exists_checkMembers {path : String} {index : Nat} {vs : List Value} :
    (∃ found, checkMembers f path index vs = .ok found) ↔
      ∀ v ∈ vs, ∃ verdict, f.type.check f.rule v = .ok verdict := by
  induction vs generalizing index with
  | nil => exact iff_of_true ⟨[], rfl⟩ fun _ hv => absurd hv List.not_mem_nil
  | cons v vs ih =>
    rw [checkMembers, exists_bind, List.forall_mem_cons, ← @ih (index + 1), ← exists_checkAs]
    constructor
    · rintro ⟨here, hh, hrest⟩
      obtain ⟨rest, hr, -⟩ := exists_bind.mp hrest
      exact ⟨⟨here, hh⟩, rest, hr⟩
    · rintro ⟨⟨here, hh⟩, rest, hr⟩
      exact ⟨here, hh, exists_bind.mpr ⟨rest, hr, _, rfl⟩⟩

/-- Whatever is unknown can be written out where the field and the operator can. -/
theorem not_untellable (h : ∀ k o w, parts? x = some (k, o, w) → k.hasText ∧ o.hasText) :
    ¬ Untellable m (.condition x) := by
  intro hu
  cases hu with
  | field parts _ long => exact absurd (h _ _ _ parts).1 (Bool.eq_false_iff.mp long)
  | operator parts _ _ long => exact absurd (h _ _ _ parts).2 (Bool.eq_false_iff.mp long)

theorem exists_tell {α : Type} {a : α} : (∃ b, v.tell a = .ok b) ↔ v.hasText := by simp

/-- Parts whose field is known. -/
theorem exists_checkParts_of_known {index : Nat} {k o w : Value} (hf : ModelOf.field? m k = some f) :
    (∃ found, checkParts m index k o w = .ok found) ↔
      (o.text?.bind Operator.ofText? = none → o.hasText) ∧
      ∀ y, Hands o w y → ∃ verdict, f.type.check f.rule y = .ok verdict := by
  unfold checkParts
  rw [hf]
  dsimp only
  cases ho : o.text?.bind Operator.ofText? with
  | none =>
    rw [exists_tell]
    refine ⟨fun h => ⟨fun _ => h, fun y hy => ?_⟩, fun h => h.1 rfl⟩
    cases hy with
    | value operator | member operator => cases ho.symm.trans operator
  | some op =>
    rw [and_iff_right (by simp)]
    -- Only what is compared with, or is a member, is handed to an adapter.
    cases op with
    | nullCheck c => exact iff_of_true ⟨_, rfl⟩ fun y hy => by cases hy <;> simp_all
    | like c => exact iff_of_true ⟨_, rfl⟩ fun y hy => by cases hy <;> simp_all
    | membership =>
      dsimp only
      split
      · rename_i y ys hi
        rw [exists_checkMembers]
        constructor
        · intro hall z hz
          cases hz with
          | value operator => cases ho.symm.trans operator
          | member _ items mem =>
            cases hi.symm.trans items
            exact hall z mem
        · exact fun hall z hz => hall z (.member ho hi hz)
      · rename_i hno
        refine iff_of_true ⟨_, rfl⟩ fun z hz => ?_
        cases hz with
        | value operator => cases ho.symm.trans operator
        | member _ items mem =>
          obtain ⟨y, ys, rfl⟩ := List.exists_cons_of_ne_nil (List.ne_nil_of_mem mem)
          exact absurd items (hno y ys)
    | comparison c =>
      dsimp only
      split
      · rename_i hw
        refine iff_of_true ⟨_, rfl⟩ fun z hz => ?_
        cases hz with
        | value _ present => exact absurd (Filter.isNone_iff.mp hw) present
        | member operator => cases ho.symm.trans operator
      · rename_i hw
        rw [exists_checkAs]
        constructor
        · intro hv z hz
          cases hz with
          | value => exact hv
          | member operator => cases ho.symm.trans operator
        · exact fun hall => hall w (.value ho fun hnone => hw (Filter.isNone_iff.mpr hnone))

theorem exists_checkParts {index : Nat} {k o w : Value} (hp : parts? x = some (k, o, w)) :
    (∃ found, checkParts m index k o w = .ok found) ↔
      ¬ Untellable m (.condition x) ∧ Adapted m x := by
  cases hf : ModelOf.field? m k with
  | none =>
    have hparts : checkParts m index k o w =
        k.tell [finding (toString index ++ ".field") ("Unknown field: " ++ k.plain)] := by
      rw [checkParts, hf]
    rw [hparts, exists_tell]
    constructor
    · refine fun htext => ⟨fun hu => ?_, fun k' o' w' f hp' known => ?_⟩
      · cases hu with
        | field parts unknown long =>
          cases hp.symm.trans parts
          cases htext.symm.trans long
        | operator parts known =>
          cases hp.symm.trans parts
          cases hf.symm.trans known
      · cases hp.symm.trans hp'
        cases hf.symm.trans known
    · exact fun h => eq_true_of_ne_false fun long => h.1 (.field hp hf long)
  | some f =>
    rw [exists_checkParts_of_known hf]
    refine and_congr ⟨fun h hu => ?_, fun h ho => ?_⟩ ⟨fun h k' o' w' f' hp' known => ?_, fun h => ?_⟩
    · cases hu with
      | field parts unknown =>
        cases hp.symm.trans parts
        cases hf.symm.trans unknown
      | operator parts _ unknown long =>
        cases hp.symm.trans parts
        cases (h unknown).symm.trans long
    · exact eq_true_of_ne_false fun long => h (.operator hp hf ho long)
    · cases hp.symm.trans hp'
      cases hf.symm.trans known
      exact h
    · exact h k o w f hp hf

theorem exists_checkCondition {index : Nat} :
    (∃ found, checkCondition m index x = .ok found) ↔ Checkable m x := by
  rw [checkCondition_eq]
  cases hp : parts? x with
  | some parts =>
    obtain ⟨k, o, w⟩ := parts
    have hnot : ¬ Bare x := by
      rintro ⟨name, given, rfl⟩
      cases hp
    dsimp only
    rw [exists_checkParts hp]
    exact ⟨fun h => ⟨hnot, h.1, h.2⟩, fun h => ⟨h.told, h.adapted⟩⟩
  | none =>
    have htold : ¬ Untellable m (.condition x) := fun hu => by
      cases hu with
      | field parts | operator parts => cases hp.symm.trans parts
    have hadapted : Adapted m x := fun _ _ _ _ parts => by cases hp.symm.trans parts
    dsimp only
    split
    · rename_i c given
      refine iff_of_false (by simp) fun h => h.whole ?_
      cases c with
      | base name => exact ⟨name, given, rfl⟩
      | _ => cases hp
    · rename_i hno
      refine iff_of_true ⟨_, rfl⟩ ⟨?_, htold, hadapted⟩
      rintro ⟨name, given, rfl⟩
      exact hno _ _ rfl

end Schema
end TableQuery
