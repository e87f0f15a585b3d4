import TableQuery.Proofs.Outcome
import TableQuery.Schema.Validate

/-! Verdicts on values: a value that is not accepted has an issue, and the findings of a check are none
exactly where the value is accepted. -/

namespace TableQuery
namespace Schema
open Outcome

/-- A verdict that accepts, or says why not. -/
def Verdict.Grounded (v : Verdict) : Prop := v ≠ .error []

namespace Verdict.Grounded

theorem ok (c : Checked) : Grounded (.ok c) := nofun

theorem fail (p : Problem) : Grounded (Schema.fail p) := nofun

theorem ruled {α : Type} (read : Except Problem α) (wrap : α → Value) (broken : α → Option Problem) :
    Grounded (Schema.ruled read wrap broken) := by
  unfold Schema.ruled
  split
  · exact fail _
  · split
    · exact fail _
    · exact ok _

end Verdict.Grounded

open Verdict

theorem grounded_checkInteger (strict : Bool) (limits : List Limit) (v : Value) :
    Grounded (checkInteger strict limits v) := by
  unfold checkInteger
  split
  · exact .fail _
  · split
    · exact .ok _
    · exact .ruled _ _ _

theorem gather_ne_error_nil (verdicts : List Verdict) : gather verdicts ≠ .error [] := by
  unfold gather
  dsimp only
  split
  · nofun
  · rename_i h
    intro he
    exact h (List.isEmpty_iff.mpr (Except.error.inj he))

theorem grounded_checkItems {check : Value → Outcome Verdict} {free : Bool} {limits : List Limit}
    {v : Value} {items : List Value} {verdict : Verdict}
    (h : checkItems check free limits v items = .ok verdict) : Grounded verdict := by
  have hshort : ∀ (n : Nat) (s : Verdict), ((least? limits).bind fun least =>
      if (n : Int) < least then some (fail (.tooShort "List" least n)) else none) = some s →
      Grounded s := by
    intro n s hs
    obtain ⟨least, -, hs⟩ := Option.bind_eq_some_iff.mp hs
    split at hs
    · cases hs
      exact .fail _
    · cases hs
  unfold checkItems at h
  dsimp only at h
  split at h
  · rename_i hs
    cases pure_eq_ok.mp h
    exact hshort _ _ hs
  · obtain ⟨visited, -, h⟩ := bind_eq_ok.mp h
    split at h
    · cases pure_eq_ok.mp h
      exact .fail _
    · split at h
      · rename_i issues hg
        cases pure_eq_ok.mp h
        intro he
        exact gather_ne_error_nil _ (hg.trans (congrArg _ (Except.error.inj he)))
      · rename_i checked hg
        cases pure_eq_ok.mp h
        generalize hs : Option.bind (least? limits) _ = short
        cases short with
        | none => exact .ok _
        | some s => exact hshort _ _ hs

theorem grounded_finish {type : FieldType} {limits : List Limit} {v verdict : Verdict}
    (hv : Grounded v) (h : finish type limits v = .ok verdict) : Grounded verdict := by
  unfold finish at h
  split at h
  · obtain ⟨held, -, h⟩ := bind_eq_ok.mp h
    split at h
    · cases pure_eq_ok.mp h
      exact .fail _
    · cases pure_eq_ok.mp h
      split <;> exact .ok _
  · cases h
    exact hv

theorem grounded_assemble (model : String) (extra : Extra) (entries : List (Value × Value))
    (fields : List FieldVerdict) : Grounded (assemble model extra entries fields) := by
  unfold assemble
  dsimp only
  split
  · exact .ok _
  · rename_i h
    intro he
    exact h (List.isEmpty_iff.mpr (Except.error.inj he))

theorem grounded_checkModel {m : Model} {v : Value} {verdict : Verdict}
    (h : checkModel m v = .ok verdict) : Grounded verdict := by
  obtain ⟨name, extra, fields⟩ := m
  rw [checkModel] at h
  split at h
  · cases h
    exact .fail _
  · obtain ⟨verdicts, -, h⟩ := bind_eq_ok.mp h
    cases pure_eq_ok.mp h
    exact grounded_assemble _ _ _ _

theorem grounded_outcome {r : Reading Checked} {verdict : Verdict} (h : r.outcome = .ok verdict) :
    Grounded verdict := by
  cases r with
  | taken c =>
    cases h
    exact .ok c
  | refused i is =>
    cases h
    exact fun he => List.cons_ne_nil i is (Except.error.inj he)
  | raised kind message => cases h

/-- No value is refused without a reason. -/
theorem grounded_check (r : Rule) (v : Value) {verdict : Verdict} :
    (t : FieldType) → t.check r v = .ok verdict → Grounded verdict
  | .text, h | .number, h | .flag, h => by
    rw [FieldType.check] at h
    exact grounded_finish (.ruled _ _ _) h
  | .integer, h => by
    rw [FieldType.check] at h
    exact grounded_finish (grounded_checkInteger _ _ _) h
  | .any, h => by
    rw [FieldType.check] at h
    exact grounded_finish (.ok _) h
  | .literal options, h => by
    rw [FieldType.check] at h
    refine grounded_finish ?_ h
    split
    · exact .ok _
    · exact .fail _
    · exact .fail _
  | .listOf item, h => by
    unfold FieldType.check at h
    dsimp only at h
    split at h
    · obtain ⟨read, hread, h⟩ := bind_eq_ok.mp h
      cases pure_eq_ok.mp hread
      exact grounded_finish (.fail _) h
    · obtain ⟨read, hread, h⟩ := bind_eq_ok.mp h
      exact grounded_finish (grounded_checkItems hread) h
  | .optional type, h => by
    rw [FieldType.check] at h
    split at h
    · cases h
      exact .ok _
    · exact grounded_check r v type h
  | .model m, h => by
    rw [FieldType.check] at h
    split at h
    · obtain ⟨read, hread, h⟩ := bind_eq_ok.mp h
      cases pure_eq_ok.mp hread
      exact grounded_finish (.fail _) h
    · obtain ⟨read, hread, h⟩ := bind_eq_ok.mp h
      exact grounded_finish (grounded_checkModel hread) h
  | .given read, h => by
    rw [FieldType.check] at h
    exact grounded_outcome h

/-- A whole record is not refused without a reason either, whoever reads it. -/
theorem grounded_overlay {o : Overlay} {v : Value} {verdict : Verdict}
    (h : o.check v = .ok verdict) : Grounded verdict := by
  unfold Overlay.check at h
  split at h
  · exact grounded_checkModel h
  · exact grounded_outcome h

end Schema
end TableQuery
