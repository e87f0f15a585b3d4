import Mathlib.Data.List.Infix

/-! Texts read from the left: where a token begins it is read whole, and every other character stands
for itself. -/

namespace TableQuery
namespace Text

/-- Characters gone through one by one. -/
theorem forall_of_all {p : Char → Prop} [DecidablePred p] {cs : List Char}
    (h : (cs.all fun c => decide (p c)) = true) : ∀ c ∈ cs, p c :=
  fun c hc => of_decide_eq_true (List.all_eq_true.mp h c hc)

variable {α : Type} {reads : List Char → Option (α × List Char)} {other : Char → α}

/-- The tokens of a text. A step uses up at least one character. -/
def tokens (reads : List Char → Option (α × List Char)) (other : Char → α) :
    (steps : Nat) → List Char → List α
  | 0, _ | _, [] => []
  | steps + 1, c :: cs =>
    match reads (c :: cs) with
    | some (token, rest) => token :: tokens reads other steps rest
    | none => other c :: tokens reads other steps cs

/-- The tokens of a text, however many steps are taken. -/
inductive Scans (reads : List Char → Option (α × List Char)) (other : Char → α) :
    List Char → List α → Prop
  | nil : Scans reads other [] []
  | token {c : Char} {cs rest : List Char} {t : α} {ts : List α}
    (read : reads (c :: cs) = some (t, rest)) (shorter : rest.length ≤ cs.length)
    (next : Scans reads other rest ts) : Scans reads other (c :: cs) (t :: ts)
  | char {c : Char} {cs : List Char} {ts : List α} (unread : reads (c :: cs) = none)
    (next : Scans reads other cs ts) : Scans reads other (c :: cs) (other c :: ts)

theorem Scans.tokens_eq {cs : List Char} {ts : List α} (h : Scans reads other cs ts) {steps : Nat}
    (hs : cs.length ≤ steps) : tokens reads other steps cs = ts := by
  induction h generalizing steps with
  | nil => cases steps <;> rfl
  | @token c cs rest t ts read shorter next ih =>
    obtain ⟨steps, rfl⟩ : ∃ k, steps = k + 1 := ⟨steps - 1, by simp at hs; omega⟩
    rw [List.length_cons] at hs
    rw [tokens, read]
    exact congrArg (t :: ·) (ih (by omega))
  | @char c cs ts unread next ih =>
    obtain ⟨steps, rfl⟩ : ∃ k, steps = k + 1 := ⟨steps - 1, by simp at hs; omega⟩
    rw [List.length_cons] at hs
    rw [tokens, unread]
    exact congrArg (other c :: ·) (ih (by omega))

theorem Scans.read {cs rest : List Char} {t : α} {ts : List α} (hr : reads cs = some (t, rest))
    (hs : rest.length < cs.length) (h : Scans reads other rest ts) :
    Scans reads other cs (t :: ts) := by
  cases cs with
  | nil => exact absurd hs (by simp)
  | cons c cs => exact .token hr (Nat.le_of_lt_succ hs) h

/-- Nothing is read from anywhere in the text, whatever stands behind it. -/
def Quiet (reads : List Char → Option (α × List Char)) (cs : List Char) : Prop :=
  ∀ t, t <:+ cs → t ≠ [] → ∀ rest, reads (t ++ rest) = none

theorem Scans.quiet {cs rest : List Char} {ts : List α} (hq : Quiet reads cs)
    (h : Scans reads other rest ts) : Scans reads other (cs ++ rest) (cs.map other ++ ts) := by
  induction cs with
  | nil => exact h
  | cons c cs ih =>
    exact .char (hq (c :: cs) List.suffix_rfl (by simp) rest)
      (ih fun t ht hne => hq t (ht.trans (List.suffix_cons c cs)) hne)

/-- The text holds no opening, and its end cannot be a part of one. -/
theorem quiet_of_opening {opening cs : List Char}
    (ho : ∀ s, reads s ≠ none → opening <+: s) (hin : ¬ opening <:+: cs)
    (hend : ∀ c ∈ cs.getLast?, c ∉ opening) : Quiet reads cs := by
  intro t ht hne rest
  by_contra hr
  rcases List.prefix_or_prefix_of_prefix (ho _ hr) (List.prefix_append t rest) with h | h
  · exact hin (h.isInfix.trans ht.isInfix)
  · have hlast : t.getLast? = cs.getLast? := by
      obtain ⟨u, rfl⟩ := ht
      rw [List.getLast?_append_of_ne_nil _ hne]
    have hm : t.getLast hne ∈ cs.getLast? := by
      rw [← hlast]
      exact List.getLast_mem_getLast? hne
    exact hend _ hm (h.subset (List.getLast_mem hne))

/-- No character of the text is the first one of an opening. -/
theorem quiet_of_forall_ne {o : Char} {os cs : List Char}
    (ho : ∀ s, reads s ≠ none → o :: os <+: s) (h : ∀ c ∈ cs, c ≠ o) : Quiet reads cs := by
  intro t ht hne rest
  by_contra hr
  obtain ⟨c, t, rfl⟩ := List.exists_cons_of_ne_nil hne
  have hc := (List.cons_prefix_cons.mp (ho _ hr)).1
  exact h c (ht.subset (List.mem_cons_self ..)) hc.symm

theorem Quiet.append {as bs : List Char} (ha : Quiet reads as) (hb : Quiet reads bs) :
    Quiet reads (as ++ bs) := by
  intro t ht hne rest
  rcases List.suffix_or_suffix_of_suffix ht (List.suffix_append as bs) with h | ⟨u, rfl⟩
  · exact hb t h hne rest
  · have hu : u <:+ as := by
      obtain ⟨w, hw⟩ := ht
      rw [← List.append_assoc] at hw
      exact ⟨w, List.append_cancel_right hw⟩
    rw [List.append_assoc]
    by_cases hn : u = []
    · subst hn
      exact hb bs List.suffix_rfl hne rest
    · exact ha u hu hn (bs ++ rest)

end Text
end TableQuery
