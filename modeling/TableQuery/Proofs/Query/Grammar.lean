import TableQuery.Proofs.Query.Target

/-! The grammar of names: what the rules accept, said by the characters of the trimmed text, and by the
patterns that it is held against. -/

namespace TableQuery
namespace Text

/-- Whether any character of a text is no blank. -/
def IsDark (s : String) : Prop := ∃ c ∈ s.toList, isBlank c = false

theorem isDark_iff {s : String} : IsDark s ↔ trimChars s.toList ≠ [] := by
  rw [Ne, trimChars_eq_nil, IsDark]
  push Not
  simp only [Bool.not_eq_true]

/-- A trimmed text does not end in a blank. -/
theorem isBlank_getLast_trimChars (cs : List Char) (h : trimChars cs ≠ []) :
    isBlank ((trimChars cs).getLast h) = false :=
  Bool.not_eq_true _ ▸ List.rdropWhile_last_not isBlank (cs.dropWhile isBlank) h

end Text

namespace Naming

/-- An ASCII letter, or an underscore. -/
def Leads (c : Char) : Prop := 'A' ≤ c ∧ c ≤ 'Z' ∨ 'a' ≤ c ∧ c ≤ 'z' ∨ c = '_'

/-- One of those, or an ASCII digit. -/
def Follows (c : Char) : Prop := Leads c ∨ '0' ≤ c ∧ c ≤ '9'

def IsPlain (cs : List Char) : Prop := ∃ c rest, cs = c :: rest ∧ Leads c ∧ ∀ d ∈ rest, Follows d

/-- Two identifiers around a dot. -/
def IsDotted (cs : List Char) : Prop := ∃ a b, cs = a ++ '.' :: b ∧ IsPlain a ∧ IsPlain b

/-- An identifier, or two of them around a dot where names may be qualified. -/
def Grammar (qualified : Bool) (cs : List Char) : Prop :=
  IsPlain cs ∨ qualified = true ∧ IsDotted cs

theorem isLetter_iff {c : Char} : isLetter c = true ↔ Leads c := by
  delta isLetter Char.isAlpha Char.isUpper Char.isLower
  simp only [Leads, Bool.or_eq_true, Bool.and_eq_true, decide_eq_true_eq, beq_iff_eq, or_assoc]
  rfl

theorem isFollowing_iff {c : Char} : (isLetter c || c.isDigit) = true ↔ Follows c := by
  rw [Bool.or_eq_true, isLetter_iff, Follows]
  simp only [Char.isDigit, Bool.and_eq_true, decide_eq_true_eq]
  rfl

theorem isIdentifier_iff {cs : List Char} : isIdentifier cs = true ↔ IsPlain cs := by
  cases cs with
  | nil => simp [isIdentifier, IsPlain]
  | cons c cs => simp [isIdentifier, IsPlain, isLetter_iff, ← isFollowing_iff]

theorem IsPlain.dotless {cs : List Char} (h : IsPlain cs) : '.' ∉ cs :=
  fun hm => absurd (isWord_of_isIdentifier (isIdentifier_iff.mpr h) '.' hm) (by decide)

theorem isQualified_iff {cs : List Char} : isQualified cs = true ↔ IsDotted cs := by
  constructor
  · intro h
    rw [isQualified] at h
    split at h
    · rename_i dot name hdrop
      obtain ⟨ha, hb⟩ := Bool.and_eq_true_iff.mp h
      have hdot : dot = '.' := by
        have := List.head?_dropWhile_not (· != '.') cs
        rw [hdrop] at this
        simpa using this
      have hcut := List.takeWhile_append_dropWhile (p := (· != '.')) (l := cs)
      rw [hdrop, hdot] at hcut
      exact ⟨_, name, hcut.symm, isIdentifier_iff.mp ha, isIdentifier_iff.mp hb⟩
    · cases h
  · rintro ⟨a, b, rfl, ha, hb⟩
    have hp : ∀ c ∈ a, (c != '.') = true := fun c hc =>
      bne_iff_ne.mpr fun he => ha.dotless (he ▸ hc)
    rw [isQualified, List.dropWhile_append_of_pos hp, List.takeWhile_append_of_pos hp]
    simp [isIdentifier_iff.mpr ha, isIdentifier_iff.mpr hb]

theorem Grammar.ne_nil {qualified : Bool} {cs : List Char} (h : Grammar qualified cs) : cs ≠ [] := by
  rintro rfl
  rcases h with ⟨c, rest, he, -⟩ | ⟨-, a, b, he, -⟩
  · cases he
  · exact List.append_ne_nil_of_right_ne_nil a (List.cons_ne_nil '.' b) he.symm

theorem acceptsChars_strict {qualified : Bool} {cs : List Char} :
    acceptsChars ⟨true, qualified⟩ cs = true ↔ Grammar qualified cs := by
  have hcases : acceptsChars ⟨true, qualified⟩ cs = true ↔ cs ≠ [] ∧ Grammar qualified cs := by
    simp only [acceptsChars, Grammar, Bool.and_eq_true, Bool.or_eq_true, Bool.not_eq_true', Bool.not_true,
      List.isEmpty_eq_false_iff, isIdentifier_iff, isQualified_iff, Bool.false_eq_true, false_or, Ne]
  exact hcases.trans (and_iff_right_of_imp Grammar.ne_nil)

theorem acceptsChars_lax {qualified : Bool} {cs : List Char} :
    acceptsChars ⟨false, qualified⟩ cs = true ↔ cs ≠ [] := by
  simp [acceptsChars]

theorem IsDotted.count_dot {cs : List Char} (h : IsDotted cs) : cs.count '.' = 1 := by
  obtain ⟨a, b, rfl, ha, hb⟩ := h
  rw [List.count_append, List.count_cons_self, List.count_eq_zero_of_not_mem ha.dotless,
    List.count_eq_zero_of_not_mem hb.dotless]

/-! Patterns. -/

/-- What a text is held against from its front on: one character of a kind, any number of them, one
pattern behind another, a pattern that may be left out, and the finish of the text. -/
inductive Pattern
  | one (p : Char → Prop)
  | many (p : Char → Prop)
  | andThen (a b : Pattern)
  | optional (a : Pattern)
  | finish

/-- What a pattern leaves of a text. A text is finished at its end, and also before a line break that
ends it. -/
inductive Pattern.Leaves : Pattern → List Char → List Char → Prop
  | one {p : Char → Prop} {c : Char} {rest : List Char} (h : p c) : Leaves (.one p) (c :: rest) rest
  | none {p : Char → Prop} {rest : List Char} : Leaves (.many p) rest rest
  | more {p : Char → Prop} {c : Char} {cs rest : List Char} (h : p c) (hs : Leaves (.many p) cs rest) :
    Leaves (.many p) (c :: cs) rest
  | andThen {a b : Pattern} {cs between rest : List Char} (ha : Leaves a cs between)
    (hb : Leaves b between rest) : Leaves (.andThen a b) cs rest
  | left {a : Pattern} {rest : List Char} : Leaves (.optional a) rest rest
  | taken {a : Pattern} {cs rest : List Char} (h : Leaves a cs rest) : Leaves (.optional a) cs rest
  | over : Leaves .finish [] []
  | lineBreak : Leaves .finish ['\n'] ['\n']

namespace Pattern

def identifier : Pattern := .andThen (.one Leads) (.many Follows)

def name (qualified : Bool) : Pattern :=
  .andThen identifier
    (.andThen (.optional (.andThen (.one fun c => c = '.' ∧ qualified = true) identifier)) .finish)

theorem leaves_many {p : Char → Prop} {cs rest : List Char} :
    Leaves (.many p) cs rest ↔ ∃ taken, cs = taken ++ rest ∧ ∀ c ∈ taken, p c := by
  constructor
  · intro h
    generalize hm : Pattern.many p = m at h
    induction h with
    | none => exact ⟨[], rfl, nofun⟩
    | @more _ c _ _ hc _ ih =>
      cases hm
      obtain ⟨taken, rfl, htaken⟩ := ih rfl
      exact ⟨c :: taken, rfl, List.forall_mem_cons.mpr ⟨hc, htaken⟩⟩
    | _ => cases hm
  · rintro ⟨taken, rfl, h⟩
    induction taken with
    | nil => exact .none
    | cons c taken ih =>
      obtain ⟨hc, htaken⟩ := List.forall_mem_cons.mp h
      exact .more hc (ih htaken)

theorem leaves_identifier {cs rest : List Char} :
    Leaves identifier cs rest ↔ ∃ taken, cs = taken ++ rest ∧ IsPlain taken := by
  constructor
  · rintro (⟨⟩ | ⟨⟩ | ⟨⟩ | ⟨⟨hc⟩, hmany⟩)
    obtain ⟨taken, rfl, htaken⟩ := leaves_many.mp hmany
    exact ⟨_ :: taken, rfl, _, taken, rfl, hc, htaken⟩
  · rintro ⟨_, rfl, c, taken, rfl, hc, htaken⟩
    exact .andThen (.one hc) (leaves_many.mpr ⟨taken, rfl, htaken⟩)

theorem leaves_finish {cs rest : List Char} : Leaves .finish cs rest ↔ cs = rest ∧ (rest = [] ∨ rest = ['\n']) := by
  constructor
  · rintro (⟨⟩ | ⟨⟩)
    · exact ⟨rfl, .inl rfl⟩
    · exact ⟨rfl, .inr rfl⟩
  · rintro ⟨rfl, rfl | rfl⟩
    · exact .over
    · exact .lineBreak

/-- A pattern for names matches up to the end of the text, or up to a line break that ends it. -/
theorem leaves_name {qualified : Bool} {cs rest : List Char} : Leaves (name qualified) cs rest ↔
    ∃ taken, cs = taken ++ rest ∧ Grammar qualified taken ∧ (rest = [] ∨ rest = ['\n']) := by
  constructor
  · rintro (⟨⟩ | ⟨⟩ | ⟨⟩ | ⟨hfirst, hbehind⟩)
    obtain ⟨a, rfl, ha⟩ := leaves_identifier.mp hfirst
    cases hbehind with
    | andThen hoptional hfinish =>
      obtain ⟨rfl, hrest⟩ := leaves_finish.mp hfinish
      cases hoptional with
      | left => exact ⟨a, rfl, .inl ha, hrest⟩
      | taken h =>
        cases h with
        | andThen hdot hsecond =>
          cases hdot with
          | one hc =>
            obtain ⟨rfl, hq⟩ := hc
            obtain ⟨b, rfl, hb⟩ := leaves_identifier.mp hsecond
            exact ⟨a ++ '.' :: b, by simp, .inr ⟨hq, a, b, rfl, ha, hb⟩, hrest⟩
  · rintro ⟨taken, rfl, h, hrest⟩
    have hfinish : Leaves .finish rest rest := leaves_finish.mpr ⟨rfl, hrest⟩
    rcases h with h | ⟨hq, a, b, rfl, ha, hb⟩
    · exact .andThen (leaves_identifier.mpr ⟨taken, rfl, h⟩) (.andThen .left hfinish)
    · refine .andThen (leaves_identifier.mpr ⟨a, by rw [List.append_assoc], ha⟩) (.andThen (.taken ?_) hfinish)
      exact .andThen (.one ⟨rfl, hq⟩) (leaves_identifier.mpr ⟨b, rfl, hb⟩)

/-- A line break behind a name would be let through; trimming leaves none. -/
theorem leaves_trimmed {qualified : Bool} (cs : List Char) :
    (∃ rest, Leaves (name qualified) (Text.trimChars cs) rest) ↔ Grammar qualified (Text.trimChars cs) := by
  constructor
  · rintro ⟨rest, h⟩
    obtain ⟨taken, htaken, hname, rfl | rfl⟩ := leaves_name.mp h
    · rwa [htaken, List.append_nil]
    · have hne : Text.trimChars cs ≠ [] := by simp [htaken]
      have hlast := Text.isBlank_getLast_trimChars cs hne
      simp only [htaken, List.getLast_append_singleton] at hlast
      exact absurd hlast (by decide)
  · intro h
    exact ⟨[], leaves_name.mpr ⟨_, (List.append_nil _).symm, h, .inl rfl⟩⟩

end Pattern

/-! Verdicts. -/

variable {v : Value} {qualified : Bool}

theorem isValid_iff {rules : Naming} : rules.isValid v = true ↔
    ∃ s, v.text? = some s ∧ rules.acceptsChars (Text.trimChars s.toList) = true := by
  rw [isValid, Option.isSome_iff_exists]
  simp only [name?_eq_some]
  exact ⟨fun ⟨_, s, hs, h, _⟩ => ⟨s, hs, h⟩, fun ⟨s, hs, h⟩ => ⟨_, s, hs, h, rfl⟩⟩

theorem isValid_lax : isValid ⟨false, qualified⟩ v = true ↔ ∃ s, v.text? = some s ∧ Text.IsDark s := by
  simp only [isValid_iff, acceptsChars_lax, Text.isDark_iff]

theorem isValid_strict : isValid ⟨true, qualified⟩ v = true ↔
    ∃ s, v.text? = some s ∧ Grammar qualified (Text.trim s).toList := by
  simp only [isValid_iff, acceptsChars_strict, Text.trim, String.toList_ofList]

theorem Grammar.isDark {s : String} (h : Grammar qualified (Text.trim s).toList) : Text.IsDark s := by
  rw [Text.isDark_iff, ← String.toList_ofList (l := Text.trimChars s.toList)]
  exact h.ne_nil

/-- A trimmed name is judged as it was before. -/
theorem isValid_trim {rules : Naming} {s : String} (hs : v.text? = some s) :
    rules.isValid (.str (Text.trim s)) = rules.isValid v := by
  have htrim : Text.trimChars (Text.trim s).toList = Text.trimChars s.toList := by
    rw [Text.trim, String.toList_ofList, Text.trimChars, Text.stripBy_stripBy]
  have hsome : ∀ {w : Value} {t : String}, w.text? = some t →
      (rules.isValid w = true ↔ rules.acceptsChars (Text.trimChars t.toList) = true) := by
    intro w t hw
    rw [isValid_iff, hw]
    constructor
    · rintro ⟨u, hu, h⟩
      exact Option.some.inj hu ▸ h
    · intro h
      exact ⟨t, rfl, h⟩
  rw [Bool.eq_iff_iff, hsome hs, hsome rfl, htrim]

/-- What strict rules accept for a column stands in a statement between quotes, as it is. -/
theorem quote_of_wordy {n : String} (d : Dialect) (h : Binding.Wordy n) :
    Identifier.quote d n = "\"" ++ n ++ "\"" := by
  have hchars : n.toList.flatMap (Identifier.quoteChar d) = n.toList := by
    refine (List.flatMap_congr fun c hc => ?_).trans (List.flatMap_singleton' n.toList)
    refine Lexeme.quoteChar_of_not_isDoubled (Bool.eq_false_iff.mpr fun hdoubled => ?_)
    simp only [Lexeme.isDoubled, Bool.or_eq_true, Bool.and_eq_true, beq_iff_eq] at hdoubled
    rcases hdoubled with rfl | ⟨rfl, -⟩
    · exact absurd (h _ hc) (by decide)
    · exact absurd (h _ hc) (by decide)
  rw [Identifier.quote, Identifier.quoteChars, hchars, ← String.toList_inj]
  simp

/-- How a value is judged as a name. -/
structure Judged (v : Value) (qualified : Bool) : Prop where
  /-- Lax rules take every text that is not blank. -/
  lax : isValid ⟨false, qualified⟩ v = true ↔ ∃ s, v.text? = some s ∧ Text.IsDark s
  /-- Strict rules take what the grammar has, once it is trimmed. -/
  strict : isValid ⟨true, qualified⟩ v = true ↔
    ∃ s, v.text? = some s ∧ Grammar qualified (Text.trim s).toList
  /-- This is what the pattern matches, though it would let a line break behind a name through. -/
  matched : isValid ⟨true, qualified⟩ v = true ↔ ∃ s, v.text? = some s ∧ Text.IsDark s ∧
    ∃ rest, (Pattern.name qualified).Leaves (Text.trim s).toList rest
  trimmed : ∀ (rules : Naming) (s : String), v.text? = some s →
    rules.isValid (.str (Text.trim s)) = rules.isValid v
  narrower : isValid ⟨true, qualified⟩ v = true → isValid ⟨false, qualified⟩ v = true
  /-- Qualified names are the only ones that are added where they are taken, and have one dot. -/
  wider : ∀ strict, isValid ⟨strict, false⟩ v = true → isValid ⟨strict, true⟩ v = true
  added : ∀ strict, isValid ⟨strict, true⟩ v = true → isValid ⟨strict, false⟩ v = false →
    ∃ s, v.text? = some s ∧ (Text.trim s).toList.count '.' = 1
  /-- A column that strict rules take stands between quotes as it is. -/
  quoted : isValid ⟨true, false⟩ v = true → ∃ s, v.text? = some s ∧
    Filter.column ⟨true, qualified⟩ v = .ok (Text.trim s) ∧
    ∀ d, Identifier.quote d (Text.trim s) = "\"" ++ Text.trim s ++ "\""

/-- Every value is judged by the grammar of names. -/
theorem grammar_exact (v : Value) (qualified : Bool) : Judged v qualified where
  lax := isValid_lax
  strict := isValid_strict
  matched := by
    rw [isValid_strict]
    refine exists_congr fun s => and_congr_right fun _ => ?_
    rw [Text.trim, String.toList_ofList, Pattern.leaves_trimmed]
    exact (and_iff_right_of_imp fun h => Text.isDark_iff.mpr h.ne_nil).symm
  trimmed _ _ := isValid_trim
  narrower h := by
    obtain ⟨s, hs, hname⟩ := isValid_strict.mp h
    exact isValid_lax.mpr ⟨s, hs, hname.isDark⟩
  wider strict h := by
    cases strict with
    | false => exact isValid_lax.mpr (isValid_lax.mp h)
    | true =>
      obtain ⟨s, hs, hname⟩ := isValid_strict.mp h
      exact isValid_strict.mpr ⟨s, hs, hname.imp_right fun hdotted => absurd hdotted.1 Bool.false_ne_true⟩
  added strict h hnot := by
    cases strict with
    | false =>
      rw [isValid_lax.mpr (isValid_lax.mp h)] at hnot
      cases hnot
    | true =>
      obtain ⟨s, hs, hplain | ⟨-, hdotted⟩⟩ := isValid_strict.mp h
      · rw [isValid_strict.mpr ⟨s, hs, .inl hplain⟩] at hnot
        cases hnot
      · exact ⟨s, hs, hdotted.count_dot⟩
  quoted h := by
    obtain ⟨n, hn⟩ := Option.isSome_iff_exists.mp h
    have hcolumn : Filter.column ⟨true, qualified⟩ v = .ok n := by
      change (⟨true, false⟩ : Naming).name? v = some n at hn
      rw [Filter.column, Naming.column, hn]
    obtain ⟨s, hs, -, rfl⟩ := name?_eq_some.mp hn
    have hwordy : Binding.Wordy (Text.trim s) := @wordy_of_name? ⟨true, qualified⟩ v _ rfl hn
    exact ⟨s, hs, hcolumn, fun d => quote_of_wordy d hwordy⟩

example : isValid ⟨true, true⟩ (.str " public.users\n") = true := by decide
example : isValid ⟨true, true⟩ (.str "db.public.users") = false := by decide

end Naming
end TableQuery
