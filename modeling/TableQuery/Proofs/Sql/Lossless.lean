import TableQuery.Proofs.Sql.Legible
import TableQuery.Proofs.Sql.Reading

/-! Marks stand for the characters they are read from, so that a text of which no mark is replaced comes
out as it went in. -/

namespace TableQuery
namespace Placeholder
open Binding Text

theorem toChars_value? {cs rest : List Char} {m : Placeholder} (h : value? cs = some (m, rest)) :
    cs = m.toChars ++ rest := by
  obtain ⟨body, hbody, h⟩ := Option.bind_eq_some_iff.mp h
  obtain ⟨behind, hbehind, h⟩ := Option.bind_eq_some_iff.mp h
  split at h
  · cases h
  · cases h
    have hcut := List.takeWhile_append_dropWhile (p := (· != ')')) (l := body)
    rw [dropPrefix?_eq_some] at hbody hbehind
    rw [hbehind] at hcut
    rw [hbody]
    exact (congrArg (['%', '('] ++ ·) hcut.symm).trans (by simp [toChars])

theorem eq_of_aroundTail? {read cs inner rest : List Char}
    (h : aroundTail? read cs = some (inner, rest)) :
    read.reverse ++ cs = inner ++ ['~', '~', ']'] ++ rest := by
  induction cs generalizing read with
  | nil => cases h
  | cons c cs ih =>
    rw [aroundTail?] at h
    split at h
    · rename_i behind hend
      cases h
      split at hend
      · cases hend
      · rw [dropPrefix?_eq_some.mp hend, List.append_assoc]
    · split at h
      · cases h
      · rw [← ih h]
        simp

theorem eq_of_around? {cs around rest : List Char} (h : around? cs = some (around, rest)) :
    cs = around ++ ']' :: rest := by
  obtain ⟨body, hbody, h⟩ := Option.bind_eq_some_iff.mp h
  obtain ⟨⟨inner, behind⟩, htail, h⟩ := Option.bind_eq_some_iff.mp h
  cases h
  have hread : body = inner ++ ['~', '~', ']'] ++ rest := eq_of_aroundTail? htail
  rw [dropPrefix?_eq_some.mp hbody, hread]
  simp [aroundMark]

theorem toChars_membersTail? {read cs rest : List Char} {m : Placeholder}
    (h : membersTail? read cs = some (m, rest)) :
    membersStart ++ read.reverse ++ cs = m.toChars ++ rest := by
  induction cs generalizing read with
  | nil => cases h
  | cons c cs ih =>
    -- A character that ends nothing is read on.
    have hnext : ∀ {o : Option (Placeholder × List Char)},
        o = (if Text.isBlank c then none else membersTail? (c :: read) cs) → o = some (m, rest) →
        membersStart ++ read.reverse ++ c :: cs = m.toChars ++ rest := by
      intro o ho h
      rw [ho] at h
      split at h
      · cases h
      · rw [← ih h]
        simp
    rw [membersTail?] at h
    split at h
    · exact hnext rfl h
    · split at h
      · rename_i around behind haround
        cases h
        rw [eq_of_around? haround]
        simp [toChars]
      · split at h
        · rename_i hc
          cases h
          simp [toChars, hc]
        · exact hnext rfl h

theorem toChars_members? {cs rest : List Char} {m : Placeholder} (h : members? cs = some (m, rest)) :
    cs = m.toChars ++ rest := by
  obtain ⟨body, hbody, h⟩ := Option.bind_eq_some_iff.mp h
  rw [dropPrefix?_eq_some.mp hbody, ← toChars_membersTail? h]
  simp

theorem toChars_mark? {cs rest : List Char} {m : Placeholder} (h : mark? cs = some (m, rest)) :
    cs = m.toChars ++ rest := by
  rcases Option.or_eq_some_iff.mp h with h | ⟨-, h⟩
  · exact toChars_value? h
  · exact toChars_members? h

theorem toChars_ne_nil (m : Placeholder) : m.toChars ≠ [] := by
  cases m <;> simp [toChars]

/-- Scanning loses nothing. -/
theorem toChars_scan (cs : List Char) : (scan cs).flatMap toChars = cs := by
  have htokens : ∀ steps ds, ds.length ≤ steps →
      (tokens mark? char steps ds).flatMap toChars = ds := by
    intro steps
    induction steps with
    | zero =>
      intro ds hs
      rw [List.length_eq_zero_iff.mp (Nat.le_zero.mp hs)]
      rfl
    | succ steps ih =>
      intro ds hs
      cases ds with
      | nil => rfl
      | cons c ds =>
        rw [tokens]
        cases hm : mark? (c :: ds) with
        | none => exact congrArg (c :: ·) (ih ds (Nat.le_of_succ_le_succ hs))
        | some r =>
          obtain ⟨m, rest⟩ := r
          have he := toChars_mark? hm
          have hlen := congrArg List.length he
          have hpos := List.length_pos_of_ne_nil m.toChars_ne_nil
          rw [List.length_append] at hlen
          rw [List.flatMap_cons, ih rest (by omega), ← he]
  have hscan : scan cs = tokens mark? char cs.length cs := scanWith_eq_tokens mark? cs.length cs
  rw [hscan, htokens cs.length cs le_rfl]

theorem anonymous_nil (ms : List Placeholder) : anonymous [] ms = ms.flatMap toChars := by
  refine List.flatMap_congr fun m _ => ?_
  cases m <;> rfl

end Placeholder

namespace Binding
open Placeholder

/-- Without places for parameters the text is settled from the start. -/
theorem settle_unnamed (d : Dialect) {ps : List Named} (h : ps.filterMap (·.name?) = []) :
    (settle d ps).1 = template d ps := by
  cases d with
  | postgresql => rfl
  | sqlite => simp only [settle, h, anonymous_nil, toChars_scan, String.ofList_toList]

end Binding

namespace Reading
open Lexeme Binding

/-- An expression of an ORDER BY is read back as its column and direction, whatever the name is. -/
theorem lex_folded_orderItem (d : Dialect) (o : String × Direction) :
    ∃ sql, (Layout.orderItem o.1 o.2).folded d = .ok sql ∧ lex d sql = ofOrderItem o ∧
      orderItem? (lex d sql) = some (o, []) := by
  obtain ⟨n, direction⟩ := o
  have hregular : (Layout.orderItem n direction).Regular :=
    .quoted (.text (by cases direction <;> decide) .nil) (Layout.startsPlain_text _ _)
  have hspread : List.Forall₂ (Spread d) (Layout.orderItem n direction)
      [[.quoted n], [.text (" " ++ direction.text)]] := .cons (.quoted n) (.cons (.text _) .nil)
  have hlex : lex d (writtenAll d [.quoted n, .text (" " ++ direction.text)]) =
      ofOrderItem (n, direction) := by
    refine (lex_written hregular hspread).trans ?_
    simp [ofBlocks, ofNamed, ofOrderItem]
  refine ⟨template d [.quoted n, .text (" " ++ direction.text)], ?_, hlex, ?_⟩
  · exact congrArg Except.ok (settle_unnamed d rfl)
  · have hread := orderItem?_ofOrderItem (n, direction) []
    rw [List.append_nil] at hread
    exact (congrArg orderItem? hlex).trans hread

end Reading
end TableQuery
