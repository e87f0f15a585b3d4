import TableQuery.Value

/-! The values that a member of a vocabulary can be given as, and those that count as nothing. -/

namespace TableQuery

namespace Token

theorem mem_all (t : Token) : t ∈ all := by
  rcases t with k | o | m | d | c
  · cases k <;> decide
  · rcases o with c | l | _ | n
    · cases c <;> decide
    · cases l <;> decide
    · decide
    · cases n <;> decide
  · cases m <;> decide
  · cases d <;> decide
  · cases c <;> decide

/-- No two members of the textual vocabularies have the same text. -/
theorem eq_of_text_eq {t u : Token} (ht : t.isText = true) (hu : u.isText = true)
    (h : t.text = u.text) : t = u := by
  have hall : ∀ t ∈ all, ∀ u ∈ all, t.isText = true → u.isText = true → t.text = u.text → t = u := by
    decide +kernel
  exact hall t t.mem_all u u.mem_all ht hu h

end Token

namespace Value

/-- The text of a member is given as itself, or as the member. -/
theorem text?_eq_text {v : Value} {t : Token} (ht : t.isText = true) :
    v.text? = some t.text ↔ v = .str t.text ∨ v = .token t := by
  constructor
  · intro h
    cases v with
    | str s => exact .inl (congrArg _ (Option.some.inj h))
    | token u =>
      rw [text?] at h
      split at h
      · rename_i hu
        exact .inr (congrArg _ (Token.eq_of_text_eq hu ht (Option.some.inj h)))
      · cases h
    | _ => cases h
  · rintro (rfl | rfl)
    · rfl
    · simp [text?, ht]

/-- What counts as nothing has nothing to be gone through. -/
theorem items_of_falsy {v : Value} {items : List Value} (h : v.iterate? = some items)
    (hv : v.isTruthy = false) : items = [] := by
  unfold isTruthy at hv
  cases v <;> simp_all [iterate?, text?]

end Value
end TableQuery
