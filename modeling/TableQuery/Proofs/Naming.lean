import Mathlib.Data.List.DropRight
import TableQuery.Proofs.Query.Parts

/-! Names that rules accept: trimmed, not blank, and accepted by the same rules again. -/

namespace TableQuery

namespace Text

/-- What is stripped at both ends has nothing left to strip. -/
theorem stripBy_stripBy (p : Char → Bool) (cs : List Char) :
    stripBy p (stripBy p cs) = stripBy p cs := by
  have hstrip : ∀ ds, stripBy p ds = (ds.dropWhile p).rdropWhile p := fun _ => rfl
  -- The front of what is left is the front of what the first half left.
  have hfront : ((cs.dropWhile p).rdropWhile p).dropWhile p = (cs.dropWhile p).rdropWhile p := by
    rw [List.dropWhile_eq_self_iff]
    intro hlen
    have hpre := List.rdropWhile_prefix p (cs.dropWhile p)
    rw [hpre.getElem hlen]
    exact List.dropWhile_get_zero_not p cs (hlen.trans_le hpre.length_le)
  rw [hstrip, hstrip, hfront, List.rdropWhile_idempotent]

theorem trim_trim (s : String) : trim (trim s) = trim s := by
  rw [trim, trim, String.toList_ofList, trimChars, stripBy_stripBy]

end Text

namespace Naming

variable {rules : Naming} {v : Value} {n : String}

theorem name?_eq_some : rules.name? v = some n ↔ ∃ s, v.text? = some s ∧
    rules.acceptsChars (Text.trimChars s.toList) = true ∧ n = Text.trim s := by
  rw [name?, Option.bind_eq_bind, Option.bind_eq_some_iff]
  refine exists_congr fun s => and_congr_right fun _ => ?_
  split
  · rename_i h
    exact ⟨fun he => ⟨h, (Option.some.inj he).symm⟩, fun he => congrArg some he.2.symm⟩
  · rename_i h
    exact ⟨nofun, fun he => absurd he.1 h⟩

theorem trim_of_name? (h : rules.name? v = some n) : Text.trim n = n := by
  obtain ⟨s, -, -, rfl⟩ := name?_eq_some.mp h
  exact Text.trim_trim s

/-- An accepted name is a name under the same rules, and stands for itself. -/
theorem name?_of_name? (h : rules.name? v = some n) : rules.name? (.str n) = some n := by
  obtain ⟨s, -, hs, rfl⟩ := name?_eq_some.mp h
  refine name?_eq_some.mpr ⟨_, rfl, ?_, (Text.trim_trim s).symm⟩
  rw [Text.trim, String.toList_ofList, Text.trimChars, Text.stripBy_stripBy]
  exact hs

end Naming
end TableQuery
