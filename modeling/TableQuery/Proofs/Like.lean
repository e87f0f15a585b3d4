import Mathlib.Data.List.Infix
import TableQuery.Like
import TableQuery.Proofs.Lists

/-! LIKE matching, and the texts that an escaped pattern matches. -/

namespace TableQuery
namespace Like

/-- A part of a pattern: any text, any one character, or that character. -/
inductive Part
  | many
  | one
  | exactly (c : Char)
deriving DecidableEq, Repr

/-- A character that nothing escapes. -/
def Part.plain (c : Char) : Part := if c = '%' then .many else if c = '_' then .one else .exactly c

def Part.char? : Part → Option Char
  | .exactly c => some c
  | .many | .one => none

/-- The parts of a pattern. The mark escapes a wildcard or itself, and has no other use. -/
def parts? : List Char → Option (List Part)
  | [] => some []
  | c :: cs =>
    if c = escapeMark then
      match cs with
      | d :: ds => if isSpecial d then (parts? ds).map (.exactly d :: ·) else none
      | [] => none
    else (parts? cs).map (.plain c :: ·)

/-- Whether parts match a whole text. Every rest of it is tried after a wildcard for any text. -/
def fits : List Part → List Char → Bool
  | [], s => s.isEmpty
  | .many :: ps, s => s.tails.any (fits ps)
  | .one :: ps, _ :: s => fits ps s
  | .exactly c :: ps, d :: s => c == d && fits ps s
  | .one :: _, [] | .exactly _ :: _, [] => false

/-- Whether a text matches a pattern. A pattern that is not well formed has no answer. -/
def matches? (pattern s : String) : Option Bool :=
  (parts? pattern.toList).map fun ps => fits ps s.toList

/-- How a text stands in another one that it is looked for in. -/
def StandsIn (mode : Option LikeMode) (v s : List Char) : Prop :=
  match mode with
  | some .startsWith => v <+: s
  | some .endsWith => v <:+ s
  | some .contains => v <:+: s
  | some .exact | none => s = v

instance (mode : Option LikeMode) (v s : List Char) : Decidable (StandsIn mode v s) :=
  match mode with
  | some .startsWith => inferInstanceAs (Decidable (v <+: s))
  | some .endsWith => inferInstanceAs (Decidable (v <:+ s))
  | some .contains => inferInstanceAs (Decidable (v <:+: s))
  | some .exact | none => inferInstanceAs (Decidable (s = v))

variable {c : Char} {cs ds s : List Char} {ps : List Part} {mode : Option LikeMode}

theorem parts?_cons (hc : c ≠ escapeMark) : parts? (c :: cs) = (parts? cs).map (.plain c :: ·) := by
  cases cs with
  | nil => exact if_neg hc
  | cons d ds => exact if_neg hc

theorem parts?_escaped (hc : isSpecial c) :
    parts? (escapeMark :: c :: cs) = (parts? cs).map (.exactly c :: ·) := by
  rw [parts?, if_pos rfl]
  exact if_pos hc

theorem plain_of_not_special (hc : ¬ isSpecial c) : Part.plain c = .exactly c ∧ c ≠ escapeMark := by
  simp only [isSpecial, Bool.or_eq_true, beq_iff_eq, not_or] at hc
  obtain ⟨⟨hmany, hone⟩, hmark⟩ := hc
  exact ⟨by rw [Part.plain, if_neg hmany, if_neg hone], hmark⟩

/-- An escaped text is read as its own characters, whatever follows it. -/
theorem parts?_escapeChars_append (cs ds : List Char) :
    parts? (escapeChars cs ++ ds) = (parts? ds).map (cs.map .exactly ++ ·) := by
  induction cs with
  | nil => exact Option.map_id'.symm
  | cons c cs ih =>
    have hstep : parts? (escapeChars (c :: cs) ++ ds) =
        (parts? (escapeChars cs ++ ds)).map (.exactly c :: ·) := by
      rw [escapeChars, List.flatMap_cons]
      by_cases hc : isSpecial c
      · rw [if_pos hc]
        exact parts?_escaped hc
      · obtain ⟨hplain, hmark⟩ := plain_of_not_special hc
        rw [if_neg hc, ← hplain]
        exact parts?_cons hmark
    rw [hstep, ih, Option.map_map]
    rfl

theorem parts?_escapeChars (cs : List Char) : parts? (escapeChars cs) = some (cs.map .exactly) := by
  have h := parts?_escapeChars_append cs []
  rwa [List.append_nil, parts?, Option.map_some, List.append_nil] at h

/-- The parts of a pattern with its wildcards around a text. -/
def wrapped (mode : Option LikeMode) (cs : List Char) : List Part :=
  match mode with
  | some .startsWith => cs.map .exactly ++ [.many]
  | some .endsWith => .many :: cs.map .exactly
  | some .contains => .many :: (cs.map .exactly ++ [.many])
  | some .exact | none => cs.map .exactly

theorem parts?_wrapChars (mode : Option LikeMode) (cs : List Char) :
    parts? (wrapChars mode (escapeChars cs)) = some (wrapped mode cs) := by
  have hmany : ∀ ds, parts? ('%' :: ds) = (parts? ds).map (.many :: ·) :=
    fun ds => parts?_cons (by decide)
  have hend : parts? (escapeChars cs ++ ['%']) = some (cs.map .exactly ++ [.many]) := by
    rw [parts?_escapeChars_append, hmany]
    rfl
  rcases mode with _ | _ | _ | _ | _
  · exact parts?_escapeChars cs
  · exact hend
  · rw [wrapChars, hmany, parts?_escapeChars]
    rfl
  · rw [wrapChars, List.cons_append, hmany, hend]
    rfl
  · exact parts?_escapeChars cs

/-- The characters of a pattern's parts are the text that it was made from. -/
theorem filterMap_wrapped (mode : Option LikeMode) (cs : List Char) :
    (wrapped mode cs).filterMap Part.char? = cs := by
  have hcs : (cs.map Part.exactly).filterMap Part.char? = cs := by
    rw [List.filterMap_map]
    exact List.filterMap_some
  rcases mode with _ | _ | _ | _ | _ <;>
    simp only [wrapped, List.filterMap_append, List.filterMap_cons, List.filterMap_nil, Part.char?, hcs,
      List.append_nil]

theorem fits_many : fits (.many :: ps) s ↔ ∃ t, t <:+ s ∧ fits ps t := by
  rw [fits, List.any_eq_true]
  exact exists_congr fun t => and_congr_left' (List.mem_tails t s)

/-- A wildcard at the end takes whatever is left. -/
theorem fits_many_nil (s : List Char) : fits [.many] s :=
  fits_many.mpr ⟨[], List.nil_suffix, rfl⟩

theorem fits_exactly_append (cs : List Char) :
    fits (cs.map .exactly ++ ps) s ↔ ∃ t, s = cs ++ t ∧ fits ps t := by
  induction cs generalizing s with
  | nil => simp
  | cons c cs ih =>
    cases s with
    | nil => simp [fits]
    | cons d s =>
      rw [List.map_cons, List.cons_append, fits, Bool.and_eq_true, beq_iff_eq, ih]
      constructor
      · rintro ⟨rfl, t, rfl, ht⟩
        exact ⟨t, rfl, ht⟩
      · rintro ⟨t, h, ht⟩
        obtain ⟨rfl, rfl⟩ := List.cons.inj h
        exact ⟨rfl, t, rfl, ht⟩

theorem fits_exactly (cs : List Char) : fits (cs.map .exactly) s ↔ s = cs := by
  have h : fits (cs.map .exactly ++ []) s ↔ _ := fits_exactly_append cs
  rw [List.append_nil] at h
  rw [h]
  constructor
  · rintro ⟨t, rfl, ht⟩
    rw [List.isEmpty_iff.mp ht, List.append_nil]
  · rintro rfl
    exact ⟨[], (List.append_nil s).symm, rfl⟩

theorem fits_exactly_many (cs : List Char) : fits (cs.map .exactly ++ [.many]) s ↔ cs <+: s := by
  rw [fits_exactly_append]
  constructor
  · rintro ⟨t, rfl, -⟩
    exact List.prefix_append cs t
  · rintro ⟨t, rfl⟩
    exact ⟨t, rfl, fits_many_nil t⟩

theorem fits_wrapped (mode : Option LikeMode) (cs s : List Char) :
    fits (wrapped mode cs) s ↔ StandsIn mode cs s := by
  rcases mode with _ | _ | _ | _ | _
  · exact fits_exactly cs
  · exact fits_exactly_many cs
  · rw [wrapped, fits_many]
    constructor
    · rintro ⟨t, ht, hfit⟩
      exact (fits_exactly cs).mp hfit ▸ ht
    · exact fun h => ⟨cs, h, (fits_exactly cs).mpr rfl⟩
  · rw [wrapped, fits_many]
    constructor
    · rintro ⟨t, ht, hfit⟩
      exact ((fits_exactly_many cs).mp hfit).isInfix.trans ht.isInfix
    · rintro ⟨before, behind, rfl⟩
      refine ⟨cs ++ behind, ⟨before, (List.append_assoc ..).symm⟩, ?_⟩
      exact (fits_exactly_many cs).mpr (List.prefix_append cs behind)
  · exact fits_exactly cs

theorem parts?_pattern (mode : Option LikeMode) (v : String) :
    parts? (pattern mode v).toList = some (wrapped mode v.toList) := by
  rw [pattern, String.toList_ofList, parts?_wrapChars]

theorem matches?_pattern_iff (mode : Option LikeMode) (v s : String) :
    matches? (pattern mode v) s = some true ↔ StandsIn mode v.toList s.toList := by
  rw [matches?, parts?_pattern, Option.map_some, Option.some.injEq]
  exact fits_wrapped mode v.toList s.toList

/-- Patterns of different texts differ, whatever their wildcards are. -/
theorem eq_of_pattern_eq {mode mode' : Option LikeMode} {v w : String}
    (h : pattern mode v = pattern mode' w) : v = w := by
  have hparts := parts?_pattern mode v
  rw [h, parts?_pattern, Option.some.injEq] at hparts
  have hchars := congrArg (List.filterMap Part.char?) hparts
  rw [filterMap_wrapped, filterMap_wrapped] at hchars
  exact (String.toList_injective hchars).symm

/-- The pattern of a text is well formed. It matches where that text stands as the mode asks, and
nowhere else, so that no text widens what is matched; and it is the pattern of no other text. -/
theorem pattern_literal (v : String) :
    (patternValue (.str v) .none = .ok (pattern none v) ∧
      ∀ m : LikeMode, patternValue (.str v) (.str m.text) = .ok (pattern (some m) v) ∧
        patternValue (.str v) (.token (.mode m)) = .ok (pattern (some m) v)) ∧
    ∀ mode, (parts? (pattern mode v).toList).isSome ∧
      (∀ s, matches? (pattern mode v) s = some true ↔ StandsIn mode v.toList s.toList) ∧
      ∀ mode' w, pattern mode v = pattern mode' w → v = w := by
  refine ⟨⟨rfl, fun m => ?_⟩, fun mode => ⟨?_, matches?_pattern_iff mode v, fun mode' w => ?_⟩⟩
  · cases m <;> exact ⟨rfl, rfl⟩
  · rw [parts?_pattern]
    rfl
  · exact eq_of_pattern_eq

/-- A text of wildcards with the mark at its end. -/
theorem pattern_literal_marks : pattern (some .contains) "%_\\" = "%\\%\\_\\\\%" ∧
    matches? (pattern (some .contains) "%_\\") "50%_\\" = some true ∧
    matches? (pattern (some .contains) "%_\\") "50%%\\" ≠ some true ∧
    pattern (some .contains) "%_\\" ≠ pattern (some .startsWith) "%_" := by
  obtain ⟨-, h⟩ := pattern_literal "%_\\"
  obtain ⟨-, hmatch, hne⟩ := h (some .contains)
  refine ⟨by decide +kernel, (hmatch _).mpr (by decide +kernel), fun hs => ?_, fun hs => ?_⟩
  · exact absurd ((hmatch _).mp hs) (by decide +kernel)
  · exact absurd (hne _ _ hs) (by decide +kernel)

/-- Any other use of the mark leaves a pattern without meaning. -/
example : matches? "a\\b" "ab" = none ∧ matches? "a\\" "a" = none ∧
    matches? "a_%" "abc" = some true := by decide +kernel

end Like
end TableQuery
