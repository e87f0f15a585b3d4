import TableQuery.Proofs.Schema.Payloads

/-! Checking a value against a model refuses nothing: it lists what is wrong with the value, or it cannot
be made at all. -/

namespace TableQuery
namespace Schema
open Outcome

/-- The type is the other one, or is somewhere in it. -/
inductive Part (t : FieldType) : FieldType → Prop
  | whole : Part t t
  | item {type : FieldType} (part : Part t type) : Part t (.listOf type)
  | present {type : FieldType} (part : Part t type) : Part t (.optional type)
  | field {m : Model} {f : Field} (mem : f ∈ m.fields) (part : Part t f.type) : Part t (.model m)

/-- A given type in this one ends in such an error. -/
inductive Raises (type : FieldType) : Fault → Prop
  | given {read : Value → Reading Checked} {v : Value} {kind message : String}
    (part : Part (.given read) type) (raised : read v = .raised kind message) :
    Raises type (.raised kind message)

theorem Raises.mono {type type' : FieldType} (h : ∀ t, Part t type → Part t type') (e : Fault) :
    Raises type e → Raises type' e
  | .given part raised => .given (h _ part) raised

/-- A given type of the model, or a given reading of whole records, ends in such an error. -/
inductive Overlay.Raises (o : Overlay) : Fault → Prop
  | type {f : Field} {e : Fault} (mem : f ∈ o.model.fields) (raises : Schema.Raises f.type e) :
    Raises o e
  | whole {read : Value → Reading (List (Option Checked))} {v : Value} {kind message : String}
    (whole : o.whole = some read) (raised : read v = .raised kind message) :
    Raises o (.raised kind message)

/-- What a check that cannot be made fails with: a limit that makes no sense for a value, a part of a
mapping or a set that is no key, or what a given type or reading raises. -/
inductive Stuck (raises : Fault → Prop) : Fault → Prop
  | limit (reason : String) : Stuck raises (.badCall reason)
  | key (type : String) : Stuck raises (.unhashable type)
  | untold : Stuck raises .tooManyDigits
  | given {e : Fault} (raised : raises e) : Stuck raises e

theorem Stuck.mono {P Q : Fault → Prop} (h : ∀ e, P e → Q e) (e : Fault) : Stuck P e → Stuck Q e
  | .limit reason => .limit reason
  | .key type => .key type
  | .untold => .untold
  | .given raised => .given (h e raised)

/-! Limits and items. -/

variable {P : Fault → Prop}

theorem fails_inapplicable {α : Type} (l : Limit) (v : Value) (behind : String) :
    Fails (Stuck P) (Limit.inapplicable l v behind : Outcome (Except Problem α)) := by
  unfold Limit.inapplicable
  split
  · exact .error (.limit _)
  · exact .ok _

theorem fails_hold (type : String) (l : Limit) (v : Value) : Fails (Stuck P) (l.hold type v) := by
  unfold Limit.hold
  dsimp only
  split
  · split
    · exact .ok _
    · exact fails_inapplicable _ _ _
  · split
    · exact .ok _
    · exact fails_inapplicable _ _ _
  · split
    · exact .ok _
    · exact fails_inapplicable _ _ _
    · exact .ok _
  · split
    · exact .ok _
    · exact fails_inapplicable _ _ _

theorem fails_holdAll (type : String) (limits : List Limit) (v : Value) :
    Fails (Stuck P) (Limit.holdAll type limits v) := by
  induction limits generalizing type v with
  | nil => exact .ok _
  | cons l limits ih =>
    refine (fails_hold type l v).bind fun held _ => ?_
    split
    · exact ih _ _
    · exact .pure _

theorem fails_finish (type : FieldType) (limits : List Limit) (v : Verdict) :
    Fails (Stuck P) (finish type limits v) := by
  unfold finish
  split
  · refine (fails_holdAll _ _ _).bind fun held _ => ?_
    split
    · exact .pure _
    · exact .pure _
  · exact .ok _

section Items

variable {check : Value → Outcome Verdict} (hc : ∀ v, Fails P (check v))
include hc

theorem fails_visit (most : Option Int) (seen : Nat) (items : List Value) :
    Fails P (visit check most seen items) := by
  induction items generalizing seen with
  | nil => exact .ok _
  | cons x items ih =>
    refine (hc x).bind fun first _ => ?_
    split
    · exact .pure _
    · exact (ih _).bind fun _ _ => .pure _

theorem fails_checkItems (free : Bool) (limits : List Limit) (v : Value) (items : List Value) :
    Fails P (checkItems check free limits v items) := by
  unfold checkItems
  dsimp only
  split
  · exact .pure _
  · refine (fails_visit hc _ _ _).bind fun visited _ => ?_
    split
    · exact .pure _
    · split
      · exact .pure _
      · exact .pure _

end Items

/-! Types and models. -/

mutual

theorem fails_check (r : Rule) :
    (t : FieldType) → (v : Value) → Fails (Stuck (Raises t)) (t.check r v)
  | .text, v | .integer, v | .number, v | .flag, v | .any, v | .literal _, v => by
    rw [FieldType.check]
    exact fails_finish _ _ _
  | .listOf item, v => by
    unfold FieldType.check
    dsimp only
    split
    · exact (Fails.pure _).bind fun _ _ => fails_finish _ _ _
    · have hitem : ∀ x, Fails (Stuck (Raises (.listOf item))) (item.check {} x) := fun x =>
        (fails_check {} item x).mono (Stuck.mono (Raises.mono fun _ => .item))
      exact (fails_checkItems hitem _ _ _ _).bind fun _ _ => fails_finish _ _ _
  | .optional type, v => by
    rw [FieldType.check]
    split
    · exact .ok _
    · exact (fails_check r type v).mono (Stuck.mono (Raises.mono fun _ => .present))
  | .model m, v => by
    have hmodel : Fails (Stuck (Raises (.model m))) (checkModel m v) :=
      (fails_checkModel m v).mono (Stuck.mono fun e ⟨_, hf, h⟩ =>
        Raises.mono (fun _ => .field hf) e h)
    rw [FieldType.check]
    split
    · exact (Fails.pure _).bind fun _ _ => fails_finish _ _ _
    · exact hmodel.bind fun _ _ => fails_finish _ _ _
  | .given read, v => by
    rw [FieldType.check]
    intro e he
    cases hv : read v with
    | raised kind message =>
      rw [hv] at he
      cases he
      exact .given (.given .whole hv)
    | taken c | refused i is =>
      rw [hv] at he
      cases he

theorem fails_checkModel : (m : ModelOf FieldType) → (v : Value) →
    Fails (Stuck fun e => ∃ f ∈ m.fields, Raises f.type e) (checkModel m v)
  | ⟨name, extra, fields⟩, v => by
    rw [checkModel]
    split
    · exact .ok _
    · exact (fails_checkFields fields _).bind fun _ _ => .pure _

theorem fails_checkFields : (fs : List (FieldOf FieldType)) → (entries : List (Value × Value)) →
    Fails (Stuck fun e => ∃ f ∈ fs, Raises f.type e) (checkFields fs entries)
  | [], _ => .ok _
  | f :: fs, entries => by
    rw [checkFields]
    have hfirst : Fails (Stuck fun e => ∃ g ∈ f :: fs, Raises g.type e) (checkField f entries) :=
      (fails_checkField f entries).mono (Stuck.mono fun _ h => ⟨f, List.mem_cons_self, h⟩)
    have hrest : Fails (Stuck fun e => ∃ g ∈ f :: fs, Raises g.type e) (checkFields fs entries) :=
      (fails_checkFields fs entries).mono (Stuck.mono fun _ ⟨g, hg, h⟩ =>
        ⟨g, List.mem_cons_of_mem f hg, h⟩)
    exact hfirst.bind fun _ _ => hrest.bind fun _ _ => .pure _

theorem fails_checkField : (f : FieldOf FieldType) → (entries : List (Value × Value)) →
    Fails (Stuck (Raises f.type)) (checkField f entries)
  | ⟨name, type, rule, default, label⟩, entries => by
    unfold checkField
    dsimp only
    split
    · exact (fails_check rule type _).bind fun _ _ => .pure _
    · exact .pure _

end

theorem fails_overlay (o : Overlay) (v : Value) : Fails (Stuck o.Raises) (o.check v) := by
  unfold Overlay.check
  split
  · exact (fails_checkModel o.model v).mono (Stuck.mono fun _ ⟨_, hf, h⟩ => .type hf h)
  · rename_i read hwhole
    intro e he
    cases hv : read v with
    | raised kind message =>
      rw [hv] at he
      cases he
      exact .given (.whole hwhole hv)
    | taken c | refused i is =>
      rw [hv] at he
      cases he

/-! Checked values as data. -/

/-- What data cannot be made of: a mapping or a set with a part that is no key. -/
inductive Keyless : Fault → Prop
  | key (type : String) : Keyless (.unhashable type)

theorem Keyless.stuck {f : Fault} (h : Keyless f) : Stuck P f := by
  cases h with
  | key type => exact .key type

theorem fails_keyable (v : Value) : Fails Keyless (keyable v) := by
  unfold keyable
  split
  · exact .error (.key _)
  · exact .ok _

mutual

theorem fails_plainData : (v : Value) → Fails Keyless (plainData v)
  | .list xs | .tuple xs => by
    rw [plainData]
    exact (fails_plainAll xs).bind fun _ _ => .pure _
  | .set xs => by
    rw [plainData]
    exact (fails_plainMembers xs).bind fun _ _ => .pure _
  | .map es => by
    rw [plainData]
    exact (fails_plainEntries es).bind fun _ _ => .pure _
  | .sort c d => by
    rw [plainData]
    exact (fails_plainData c).bind fun _ _ => (fails_plainData d).bind fun _ _ => .pure _
  | .condition c given => by
    rw [plainData]
    exact (fails_plainParts given c).bind fun _ _ => .pure _
  | .none | .bool _ | .int _ | .float _ | .str _ | .bytes _ | .sequence _ _ | .frozen _ | .token _
  | .record _ _ _ | .shared _ => .ok _

theorem fails_plainAll : (xs : List Value) → Fails Keyless (plainAll xs)
  | [] => .ok _
  | x :: xs => by
    rw [plainAll]
    exact (fails_plainData x).bind fun _ _ => (fails_plainAll xs).bind fun _ _ => .pure _

theorem fails_plainMembers : (xs : List Value) → Fails Keyless (plainMembers xs)
  | [] => .ok _
  | x :: xs => by
    rw [plainMembers]
    exact (fails_plainData x).bind fun _ _ => (fails_keyable _).bind fun _ _ =>
      (fails_plainMembers xs).bind fun _ _ => .pure _

theorem fails_plainEntries : (es : List (Value × Value)) → Fails Keyless (plainEntries es)
  | [] => .ok _
  | (k, v) :: es => by
    rw [plainEntries]
    exact (fails_plainData k).bind fun _ _ => (fails_plainData v).bind fun _ _ =>
      (fails_keyable _).bind fun _ _ => (fails_plainEntries es).bind fun _ _ => .pure _

theorem fails_plainParts (given : Given) : (c : Condition Value) → Fails Keyless (plainParts given c)
  | .base _ => .ok _
  | .comparison _ _ v | .like _ _ v _ | .membership _ v | .nullCheck _ _ v => by
    unfold plainParts
    exact (fails_plainData v).bind fun _ _ => .pure _

end

theorem fails_plainFields (fs : List (String × Value)) : Fails Keyless (plainFields fs) := by
  induction fs with
  | nil => exact .ok _
  | cons f fs ih =>
    exact (fails_plainData f.2).bind fun _ _ => ih.bind fun _ _ => .pure _

mutual

theorem fails_given : (c : Checked) → Fails Keyless c.given
  | .value v => by
    rw [Checked.given]
    exact fails_plainData v
  | .list xs => by
    rw [Checked.given]
    exact (fails_givenAll xs).bind fun _ _ => .pure _
  | .instance _ fs others => by
    rw [Checked.given]
    exact (fails_givenFields _ fs).bind fun _ _ => (fails_plainFields others).bind fun _ _ => .pure _

theorem fails_givenAll : (xs : List Checked) → Fails Keyless (Checked.givenAll xs)
  | [] => .ok _
  | x :: xs => by
    rw [Checked.givenAll]
    exact (fails_given x).bind fun _ _ => (fails_givenAll xs).bind fun _ _ => .pure _

theorem fails_givenFields (others : List String) :
    (fs : List (String × Bool × Checked)) → Fails Keyless (Checked.givenFields others fs)
  | [] => .ok _
  | (n, given, c) :: fs => by
    rw [Checked.givenFields]
    dsimp only
    split
    · exact (fails_given c).map.bind fun _ _ => (fails_givenFields others fs).bind fun _ _ => .pure _
    · exact (Fails.pure _).bind fun _ _ => (fails_givenFields others fs).bind fun _ _ => .pure _

end

/-! Payloads. -/

variable {o : Overlay} {v : Value} {e : Fault}

theorem Breaks.stuck (h : Breaks o v e) : Stuck o.Raises e := by
  cases h with
  | untold => exact .untold
  | unread read => exact fails_overlay o v e read
  | unmade _ made => exact (fails_given _ e made).stuck

theorem fails_validateRecord (o : Overlay) (before : List String) (v : Value) :
    Fails (Stuck o.Raises) (validateRecord o before v) :=
  fun _ he => (breaks_of_validateRecord he).stuck

theorem fails_validateRecords (o : Overlay) (v : Value) :
    Fails (Stuck o.Raises) (validateRecords o v) := by
  intro e he
  obtain ⟨xs, -, x, -, hx⟩ := breaks_of_validateRecords he
  exact hx.stuck

theorem fails_validatePartial (o : Overlay) (v : Value) :
    Fails (Stuck o.Raises) (validatePartial o.model v) := by
  intro e he
  obtain ⟨es, -, entry, -, hentry⟩ := breaks_of_validatePartial he
  cases hentry with
  | untold => exact .untold
  | @unread f _ known read =>
    have hmem := (field?_eq_some known).1
    exact Stuck.mono (fun _ => .type hmem) e (fails_check f.rule f.type _ e read)

end Schema
end TableQuery
