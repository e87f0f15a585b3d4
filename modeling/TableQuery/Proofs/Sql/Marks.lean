import TableQuery.Proofs.Sql.Names
import TableQuery.Proofs.Text.Tokens

/-! The marks that are read in a text. -/

namespace TableQuery
namespace Placeholder
open Binding Text

theorem dropPrefix?_eq_some {p cs rest : List Char} :
    dropPrefix? p cs = some rest ↔ cs = p ++ rest := by
  induction p generalizing cs with
  | nil => simp [dropPrefix?]
  | cons a p ih =>
    cases cs with
    | nil => simp [dropPrefix?]
    | cons c cs =>
      simp only [dropPrefix?, List.cons_append, List.cons.injEq]
      split
      · rename_i h
        rw [ih]
        exact ⟨fun hc => ⟨h.symm, hc⟩, And.right⟩
      · rename_i h
        exact ⟨nofun, fun hc => absurd hc.1.symm h⟩

theorem dropPrefix?_append (p rest : List Char) : dropPrefix? p (p ++ rest) = some rest :=
  dropPrefix?_eq_some.mpr rfl

theorem scanWith_eq_tokens (reads : List Char → Option (Placeholder × List Char)) (steps : Nat)
    (cs : List Char) : scanWith reads steps cs = tokens reads char steps cs := by
  induction steps generalizing cs with
  | zero => rfl
  | succ steps ih =>
    cases cs with
    | nil => rfl
    | cons c cs =>
      rw [scanWith, tokens]
      cases hr : reads (c :: cs) with
      | none => simp only [ih]
      | some m => simp only [ih]

/-- A mark of either kind. -/
def mark? (cs : List Char) : Option (Placeholder × List Char) := (value? cs).or (members? cs)

theorem scan_eq {cs : List Char} {ms : List Placeholder} (h : Scans mark? char cs ms) :
    scan cs = ms := by
  rw [← h.tokens_eq le_rfl, ← scanWith_eq_tokens]
  rfl

theorem scanMembers_eq {cs : List Char} {ms : List Placeholder}
    (h : Scans members? char cs ms) : scanMembers cs = ms := by
  rw [← h.tokens_eq le_rfl, ← scanWith_eq_tokens]
  rfl

/-! Where marks begin. -/

def valueStart : List Char := ['%', '(']

theorem value?_opening {cs : List Char} (h : value? cs ≠ none) : valueStart <+: cs := by
  unfold value? at h
  cases hd : dropPrefix? ['%', '('] cs with
  | none => simp [hd] at h
  | some body => exact ⟨body, (dropPrefix?_eq_some.mp hd).symm⟩

theorem members?_opening {cs : List Char} (h : members? cs ≠ none) : membersStart <+: cs := by
  unfold members? at h
  cases hd : dropPrefix? membersStart cs with
  | none => simp [hd] at h
  | some body => exact ⟨body, (dropPrefix?_eq_some.mp hd).symm⟩

theorem quiet_mark? {cs : List Char} (hv : Quiet value? cs) (hm : Quiet members? cs) :
    Quiet mark? cs := by
  intro t ht hne rest
  rw [mark?, hv t ht hne rest, hm t ht hne rest]
  rfl

/-! What is read at the marks of parameters. -/

theorem value?_mark {x : List Char} (hne : x ≠ []) (hx : ')' ∉ x) (rest : List Char) :
    value? ('%' :: '(' :: x ++ ')' :: 's' :: rest) = some (value x, rest) := by
  have hp : ∀ c ∈ x, (c != ')') = true := by
    intro c hc
    simpa using fun h : c = ')' => hx (h ▸ hc)
  have htake : (x ++ ')' :: 's' :: rest).takeWhile (· != ')') = x := by
    rw [List.takeWhile_append_of_pos hp]
    simp
  have hdrop : (x ++ ')' :: 's' :: rest).dropWhile (· != ')') = ')' :: 's' :: rest := by
    rw [List.dropWhile_append_of_pos hp]
    simp
  have hbody : dropPrefix? ['%', '('] ('%' :: '(' :: x ++ ')' :: 's' :: rest) =
      some (x ++ ')' :: 's' :: rest) := dropPrefix?_append ['%', '('] _
  have hclose : dropPrefix? [')', 's'] (')' :: 's' :: rest) = some rest :=
    dropPrefix?_append [')', 's'] rest
  have hemp : x.isEmpty = false := by rwa [List.isEmpty_eq_false_iff]
  simp only [value?, hbody, Option.bind_eq_bind, Option.bind_some, htake, hdrop, hclose, hemp,
    Bool.false_eq_true, if_false]

/-- Nothing is to stand around the members where no two tildes follow each other. -/
theorem around?_eq_none {c : Char} {cs : List Char} (h : c = '~' → ∀ e ∈ cs.head?, e ≠ '~') :
    around? (c :: cs) = none := by
  have hd : dropPrefix? aroundMark (c :: cs) = none := by
    cases hd : dropPrefix? aroundMark (c :: cs) with
    | none => rfl
    | some rest =>
      have he := dropPrefix?_eq_some.mp hd
      simp only [aroundMark, List.cons_append, List.nil_append, List.cons.injEq] at he
      obtain ⟨rfl, rfl⟩ := he
      exact absurd rfl (h rfl '~' rfl)
  rw [around?, hd]
  rfl

theorem membersTail?_name {x : List Char} (hx : Solid x) (hb : ']' ∉ x) (rest : List Char)
    (read : List Char) (hne : read ≠ [] ∨ x ≠ []) :
    membersTail? read (x ++ ']' :: rest) = some (members (read.reverse ++ x) none, rest) := by
  induction x generalizing read with
  | nil =>
    obtain ⟨r, rs, rfl⟩ := List.exists_cons_of_ne_nil (hne.resolve_right (· rfl))
    have ha : around? (']' :: rest) = none := around?_eq_none (by simp)
    simp [membersTail?, ha]
  | cons c x ih =>
    have hdark : Text.isBlank c = false := hx.dark c (List.mem_cons_self ..)
    obtain ⟨hhead, htail⟩ := List.isChain_cons.mp hx.apart
    obtain ⟨hc, hb⟩ := not_or.mp (List.mem_cons.not.mp hb)
    have hrest := ih ⟨fun e he => hx.dark e (List.mem_cons_of_mem c he), htail⟩ hb (c :: read)
      (.inl (by simp))
    have ha : around? (c :: (x ++ ']' :: rest)) = none := by
      refine around?_eq_none fun h e he => ?_
      cases x with
      | nil =>
        cases he
        decide
      | cons y ys => exact hhead e he h
    rw [List.cons_append, membersTail?, hdark, ha]
    simp only [Bool.false_eq_true, if_false, hrest, if_neg (Ne.symm hc)]
    split <;> simp

theorem members?_mark {x : List Char} (hne : x ≠ []) (hx : Solid x) (hb : ']' ∉ x)
    (rest : List Char) :
    members? (membersStart ++ x ++ ']' :: rest) = some (members x none, rest) := by
  rw [members?, List.append_assoc, dropPrefix?_append]
  exact membersTail?_name hx hb rest [] (.inr hne)

end Placeholder
end TableQuery
