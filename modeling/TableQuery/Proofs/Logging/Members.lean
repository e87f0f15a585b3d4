import TableQuery.Logging.Line
import TableQuery.Proofs.Logging.Attributes
import TableQuery.Proofs.Outcome
import TableQuery.Proofs.Value.Told

/-! The members of a log line: the attributes of a record, and what is always said of it in the place of
attributes of the same names. -/

namespace TableQuery
namespace Logging

namespace Datum

/-- A list, given as a value or not. -/
def items? : Datum → Option (List Datum)
  | value (.list vs) => some (vs.map value)
  | list xs => some xs
  | _ => none

/-- A dictionary, given as a value or not. -/
def members? : Datum → Option (List (Datum × Datum))
  | value (.map es) => some (ofEntries es)
  | map es => some es
  | _ => none

end Datum

namespace Json
open Outcome

variable {d : Datum} {ps : List Point}

def member (a : Datum × Datum) : Outcome (List Point × Json) := do return (← keyOf a.1, ← ofDatum a.2)

theorem member_eq_ok {a : Datum × Datum} {m : List Point × Json} :
    member a = .ok m ↔ keyOf a.1 = .ok m.1 ∧ ofDatum a.2 = .ok m.2 := by
  simp only [member, bind_eq_ok, pure_eq_ok]
  constructor
  · rintro ⟨k, hk, j, hj, rfl⟩
    exact ⟨hk, hj⟩
  · rintro ⟨hk, hj⟩
    exact ⟨m.1, hk, m.2, hj, rfl⟩

theorem ofValues_eq (vs : List Value) : ofValues vs = (vs.map .value).mapM ofDatum := by
  induction vs with
  | nil => rfl
  | cons v vs ih => rw [ofValues, ih, List.map_cons, List.mapM_cons, ofDatum]

theorem ofData_eq (ds : List Datum) : ofData ds = ds.mapM ofDatum := by
  induction ds with
  | nil => rfl
  | cons d ds ih => rw [ofData, ih, List.mapM_cons]

theorem ofEntries_eq (es : Entries) : ofEntries es = (Datum.ofEntries es).mapM member := by
  induction es with
  | nil => rfl
  | cons e es ih =>
    have hcons : Datum.ofEntries (e :: es) = (.value e.1, .value e.2) :: Datum.ofEntries es := rfl
    rw [ofEntries, ih, hcons, List.mapM_cons]
    simp [member, ofDatum]

theorem ofMembers_eq (as : Attributes) : ofMembers as = as.mapM member := by
  induction as with
  | nil => rfl
  | cons a as ih =>
    rw [ofMembers, ih, List.mapM_cons]
    simp [member]

theorem ofMembers_eq_ok {as : Attributes} {ms : List (List Point × Json)} : ofMembers as = .ok ms ↔
    List.Forall₂ (fun a m => keyOf a.1 = .ok m.1 ∧ ofDatum a.2 = .ok m.2) as ms := by
  simp only [ofMembers_eq, mapM_eq_ok, member_eq_ok]

/-- Texts, lists and dictionaries have the same form whichever way they are given. -/
theorem ofDatum_of_text (h : d.text? = some ps) : ofDatum d = .ok (.str ps) := by
  cases d with
  | value v =>
    obtain ⟨s, hs, rfl⟩ := Option.map_eq_some_iff.mp h
    cases v with
    | str t => cases hs; rfl
    | token t =>
      simp only [Value.text?, Option.ite_none_right_eq_some, Option.some.injEq] at hs
      rw [ofDatum, ofValue, if_pos hs.1, hs.2]
    | _ => cases hs
  | text qs => cases h; rfl
  | list | map => cases h

theorem ofDatum_of_items {xs : List Datum} (h : d.items? = some xs) :
    ofDatum d = .arr <$> xs.mapM ofDatum := by
  unfold Datum.items? at h
  split at h <;> cases h
  · rw [ofDatum, ofValue, ofValues_eq]
    rfl
  · rw [ofDatum, ofData_eq]
    rfl

theorem ofDatum_of_members {as : Attributes} (h : d.members? = some as) :
    ofDatum d = .obj <$> ofMembers as := by
  unfold Datum.members? at h
  split at h <;> cases h
  · rw [ofDatum, ofValue, ofEntries_eq, ofMembers_eq]
    rfl
  · rw [ofDatum]
    rfl

theorem keyOf_of_text (h : d.text? = some ps) : keyOf d = .ok ps := by
  unfold keyOf
  split
  case h_5 => rw [h]
  all_goals cases h

/-- Whether something has a form. -/
def Writable (d : Datum) : Prop := ∃ j, ofDatum d = .ok j

theorem not_writable_of_long {n : Int} (h : Numeral.isWritable n = false) :
    ¬Writable (.value (.int n)) := by
  rintro ⟨j, hj⟩
  obtain ⟨_, hn, -⟩ := map_eq_ok.mp hj
  have hwritable := (tell_eq_ok.mp hn).1
  rw [Value.hasText, h] at hwritable
  cases hwritable

theorem exists_ofMembers {as : Attributes} :
    (∃ ms, ofMembers as = .ok ms) ↔ ∀ a ∈ as, (∃ k, keyOf a.1 = .ok k) ∧ Writable a.2 := by
  simp only [ofMembers_eq, exists_mapM, Writable]
  refine forall₂_congr fun a _ => ?_
  constructor
  · rintro ⟨m, hm⟩
    obtain ⟨hk, hj⟩ := member_eq_ok.mp hm
    exact ⟨⟨m.1, hk⟩, m.2, hj⟩
  · rintro ⟨⟨k, hk⟩, j, hj⟩
    exact ⟨(k, j), member_eq_ok.mpr ⟨hk, hj⟩⟩

end Json

namespace Record
open Outcome

variable {r : Record} {ms own : List (List Point × Json)} {m x : List Point × Json} {k : List Point} {j : Json}

/-- The value stands under the name, and no other does. -/
def Only {κ β : Type} (ms : List (κ × β)) (k : κ) (b : β) : Prop := ∀ i, (k, i) ∈ ms ↔ i = b

theorem mem_setMember : x ∈ setMember ms m ↔ x = m ∨ x ∈ ms ∧ x.1 ≠ m.1 := by
  unfold setMember
  split
  · rename_i hany
    obtain ⟨y, hy, hname⟩ := List.any_eq_true.mp hany
    rw [List.mem_map]
    constructor
    · rintro ⟨z, hz, rfl⟩
      split
      · exact .inl rfl
      · rename_i hne
        exact .inr ⟨hz, mt beq_iff_eq.mpr hne⟩
    · rintro (rfl | ⟨hx, hne⟩)
      · exact ⟨y, hy, if_pos hname⟩
      · exact ⟨x, hx, if_neg (mt beq_iff_eq.mp hne)⟩
  · rename_i hany
    have hne : x ∈ ms → x.1 ≠ m.1 := fun hx he => hany (List.any_eq_true.mpr ⟨x, hx, beq_iff_eq.mpr he⟩)
    rw [List.mem_append, List.mem_singleton]
    exact ⟨fun h => h.symm.imp_right fun hx => ⟨hx, hne hx⟩, fun h => h.symm.imp_left And.left⟩

/-- Members that were set have taken the place of all others of their names. -/
theorem mem_setMembers (hn : (own.map Prod.fst).Nodup) :
    x ∈ own.foldl setMember ms ↔ x ∈ own ∨ x ∈ ms ∧ x.1 ∉ own.map Prod.fst := by
  induction own generalizing ms with
  | nil => simp
  | cons m own ih =>
    obtain ⟨hm, hown⟩ := List.nodup_cons.mp hn
    rw [List.foldl_cons, ih hown, mem_setMember, List.mem_cons, List.map_cons, List.mem_cons, not_or]
    constructor
    · rintro (h | ⟨rfl | ⟨h, hne⟩, hx⟩)
      · exact .inl (.inr h)
      · exact .inl (.inl rfl)
      · exact .inr ⟨h, hne, hx⟩
    · rintro ((rfl | h) | ⟨h, hne, hx⟩)
      · exact .inr ⟨.inl rfl, hm⟩
      · exact .inl h
      · exact .inr ⟨.inr ⟨h, hne⟩, hx⟩

theorem only_setMembers (hn : (own.map Prod.fst).Nodup) (h : (k, j) ∈ own) (ms : List (List Point × Json)) :
    Only (own.foldl setMember ms) k j := by
  intro i
  rw [mem_setMembers hn]
  constructor
  · rintro (hi | ⟨-, hi⟩)
    · have hlookup := Lists.lookup_of_mem hn hi
      rw [Lists.lookup_of_mem hn h] at hlookup
      exact (Option.some.inj hlookup).symm
    · exact absurd (List.mem_map.mpr ⟨_, h, rfl⟩) hi
  · rintro rfl
    exact .inl h

/-- The members of other names stay where they are. -/
theorem filter_setMembers {p : List Point × Json → Bool} (hp : ∀ m ∈ own, ∀ x, x.1 = m.1 → p x = false)
    (ms : List (List Point × Json)) : (own.foldl setMember ms).filter p = ms.filter p := by
  have hone : ∀ m : List Point × Json, (∀ x, x.1 = m.1 → p x = false) → ∀ ms,
      (setMember ms m).filter p = ms.filter p := by
    intro m hm ms
    unfold setMember
    split
    · refine Lists.filter_map_of_changed fun x _ => ?_
      split
      · rename_i hname
        exact .inr ⟨hm x (beq_iff_eq.mp hname), hm m rfl⟩
      · exact .inl rfl
    · rw [List.filter_append, List.filter_cons_of_neg (by rw [hm m rfl]; exact Bool.false_ne_true)]
      exact List.append_nil _
  induction own generalizing ms with
  | nil => rfl
  | cons m own ih =>
    obtain ⟨hm, hown⟩ := List.forall_mem_cons.mp hp
    rw [List.foldl_cons, ih hown, hone m hm]

theorem keys_setMember (ms : List (List Point × Json)) (m : List Point × Json) :
    (setMember ms m).map Prod.fst =
      if m.1 ∈ ms.map Prod.fst then ms.map Prod.fst else ms.map Prod.fst ++ [m.1] := by
  have hany : ms.any (·.1 == m.1) = true ↔ m.1 ∈ ms.map Prod.fst := by
    simp [List.any_eq_true]
  unfold setMember
  by_cases hm : m.1 ∈ ms.map Prod.fst
  · rw [if_pos (hany.mpr hm), if_pos hm, List.map_map]
    refine List.map_congr_left fun x _ => ?_
    by_cases hx : x.1 = m.1 <;> simp [hx]
  · rw [if_neg (mt hany.mp hm), if_neg hm, List.map_append]
    rfl

theorem nodup_setMembers (h : (ms.map Prod.fst).Nodup) :
    ((own.foldl setMember ms).map Prod.fst).Nodup := by
  induction own generalizing ms with
  | nil => exact h
  | cons m own ih =>
    refine ih ?_
    rw [keys_setMember]
    split
    · exact h
    · rename_i hm
      exact List.nodup_append.mpr ⟨h, List.nodup_singleton _, by
        rintro a ha b hb rfl
        exact hm (List.mem_singleton.mp hb ▸ ha)⟩

/-- A span whose identifiers count: of 128 and 64 bits, and not zero. -/
def Active (trace id : Nat) : Prop := trace ≠ 0 ∧ trace < Nat.pow 2 128 ∧ id ≠ 0 ∧ id < Nat.pow 2 64

instance (trace id : Nat) : Decidable (Active trace id) := inferInstanceAs (Decidable (_ ∧ _ ∧ _ ∧ _))

def spanNames : Option (Nat × Nat) → List String
  | some (trace, id) => if Active trace id then ["trace_id", "span_id"] else []
  | none => []

/-- Names of what is always said of a record, of one within a span, and of one with an exception. -/
def taken (r : Record) : List String :=
  ["timestamp", "level", "logger", "message"] ++ spanNames r.span ++
    if r.exception.isSome then ["exception"] else []

theorem spanMembers_of_active {trace id : Nat} (h : Active trace id) : spanMembers (some (trace, id)) =
    [texts "trace_id" (String.ofList (Text.hex 32 trace)), texts "span_id" (String.ofList (Text.hex 16 id))] :=
  if_pos h

theorem keys_spanMembers (span : Option (Nat × Nat)) :
    (spanMembers span).map Prod.fst = (spanNames span).map Point.ofText := by
  cases span with
  | none => rfl
  | some s =>
    obtain ⟨trace, id⟩ := s
    by_cases h : Active trace id
    · rw [spanMembers_of_active h, spanNames, if_pos h]
      rfl
    · have hnone : spanMembers (some (trace, id)) = [] := if_neg h
      rw [hnone, spanNames, if_neg h]
      rfl

theorem keys_own (r : Record) (timestamp : String) (message : List Point) :
    (r.own timestamp message).map Prod.fst = r.taken.map Point.ofText := by
  rw [own, taken, List.map_append, List.map_append, List.map_append, List.map_append, keys_spanMembers]
  cases r.exception <;> rfl

theorem taken_sublist (r : Record) :
    r.taken.Sublist ["timestamp", "level", "logger", "message", "trace_id", "span_id", "exception"] := by
  have hspan : (spanNames r.span).Sublist ["trace_id", "span_id"] := by
    unfold spanNames
    split
    · split
      · exact .refl _
      · exact List.nil_sublist _
    · exact List.nil_sublist _
  have hexception : (if r.exception.isSome then ["exception"] else []).Sublist ["exception"] := by
    split
    · exact .refl _
    · exact List.nil_sublist _
  exact ((List.Sublist.refl ["timestamp", "level", "logger", "message"]).append hspan).append hexception

theorem nodup_own (r : Record) (timestamp : String) (message : List Point) :
    ((r.own timestamp message).map Prod.fst).Nodup := by
  rw [keys_own]
  exact ((by decide : List.Nodup _).sublist r.taken_sublist).map Point.ofText_injective

/-- A record is written where its time is a date, its message can be made, and its attributes have forms. -/
theorem members_eq_ok : r.members = .ok ms ↔ ∃ timestamp message attributes,
    Timestamp.text r.created = .ok timestamp ∧ r.attributes.lookup "getMessage" = none ∧
    Template.message r.template r.args = .ok message ∧ Json.ofMembers r.shownAttributes = .ok attributes ∧
    ms = (r.own timestamp message).foldl setMember attributes := by
  unfold members
  cases r.attributes.lookup "getMessage" with
  | some d => exact iff_of_false (by simp) (by simp)
  | none =>
    simp only [bind_eq_ok, pure_eq_ok]
    constructor
    · rintro ⟨timestamp, ht, message, hm, attributes, ha, rfl⟩
      exact ⟨timestamp, message, attributes, ht, trivial, hm, ha, rfl⟩
    · rintro ⟨timestamp, message, attributes, ht, -, hm, ha, rfl⟩
      exact ⟨timestamp, ht, message, hm, attributes, ha, rfl⟩

end Record
end Logging
end TableQuery
