import Mathlib.Data.List.Basic
import TableQuery.Text.Point

/-! Texts of code points, and those of characters only. -/

namespace TableQuery
namespace Point

theorem code_lt (p : Point) : p.code < 0x110000 := by
  cases p with
  | char c =>
    have h : c.toNat.isValidChar := c.valid
    rw [code]
    rcases h with h | h <;> omega
  | half n =>
    have h := n.isLt
    rw [code]
    omega

theorem code_injective : Function.Injective code := by
  -- A character is never within the halves.
  have hapart : ∀ (c : Char) (n : Fin 0x800), (char c).code ≠ (half n).code := by
    intro c n h
    have hc : c.toNat.isValidChar := c.valid
    have hn := n.isLt
    rw [code, code] at h
    rcases hc with hc | hc <;> omega
  intro p q h
  cases p <;> cases q
  · exact congrArg char (Char.toNat_inj.mp h)
  · exact absurd h (hapart _ _)
  · exact absurd h.symm (hapart _ _)
  · exact congrArg half (Fin.ext (Nat.add_left_cancel h))

theorem ofText_injective : Function.Injective ofText := by
  intro s t h
  exact String.toList_inj.mp (List.map_injective_iff.mpr (fun _ _ => Point.char.inj) h)

@[simp]
theorem ofText_inj {s t : String} : ofText s = ofText t ↔ s = t := ofText_injective.eq_iff

theorem text?_eq_some {ps : List Point} {s : String} : text? ps = some s ↔ ps = ofText s := by
  have hchars : ∀ {cs : List Char}, ps.mapM char? = some cs ↔ ps = cs.map char := by
    intro cs
    induction ps generalizing cs with
    | nil => simp [eq_comm]
    | cons p ps ih => cases p <;> cases cs <;> simp [char?, Option.bind_eq_some_iff, ih, and_comm]
  rw [text?, Option.map_eq_some_iff]
  constructor
  · rintro ⟨cs, hcs, rfl⟩
    rw [hchars.mp hcs, ofText, String.toList_ofList]
  · rintro rfl
    exact ⟨s.toList, hchars.mpr rfl, String.ofList_toList⟩

end Point
end TableQuery
