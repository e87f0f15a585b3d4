import Mathlib.Algebra.Group.Nat.Defs
import Mathlib.Data.List.Basic
import TableQuery.Logging.Json
import TableQuery.Proofs.Text.Point

/-! Strings of JSON, as they are written and as they are read. -/

namespace TableQuery

namespace Text

theorem hexDigit?_hexDigit {n : Nat} (h : n < 16) : hexDigit? (hexDigit n) = some n := by
  have hall : ∀ n < 16, hexDigit? (hexDigit n) = some n := by decide
  exact hall n h

theorem hexValue_append (cs : List Char) (c : Char) :
    hexValue (cs ++ [c]) = 16 * hexValue cs + (hexDigit? c).getD 0 := by
  rw [hexValue, List.foldl_append]
  rfl

theorem hexValue_hex (w n : Nat) : hexValue (hex w n) = n % 16 ^ w := by
  induction w generalizing n with
  | zero => exact (Nat.mod_one n).symm
  | succ w ih =>
    rw [hex, hexValue_append, ih, hexDigit?_hexDigit (Nat.mod_lt n (by decide)), Option.getD_some,
      Nat.pow_succ', Nat.mod_mul, Nat.add_comm]

theorem isHexDigit_of_mem_hex {w n : Nat} {c : Char} (h : c ∈ hex w n) : ∃ d < 16, c = hexDigit d := by
  induction w generalizing n with
  | zero => cases h
  | succ w ih =>
    rcases List.mem_append.mp h with h | h
    · exact ih h
    · exact ⟨n % 16, Nat.mod_lt n (by decide), List.mem_singleton.mp h⟩

end Text

namespace Logging

/-- Characters that any terminal shows, and no line break. -/
def Printable (cs : List Char) : Prop := ∀ c ∈ cs, 0x20 ≤ c.toNat ∧ c.toNat < 0x7F

instance : DecidablePred Printable := fun cs =>
  List.decidableBAll (fun c : Char => 0x20 ≤ c.toNat ∧ c.toNat < 0x7F) cs

theorem Printable.append {cs ds : List Char} (hc : Printable cs) (hd : Printable ds) :
    Printable (cs ++ ds) := fun c h => (List.mem_append.mp h).elim (hc c) (hd c)

theorem Printable.cons {c : Char} {cs : List Char} (hc : 0x20 ≤ c.toNat ∧ c.toNat < 0x7F)
    (h : Printable cs) : Printable (c :: cs) := List.forall_mem_cons.mpr ⟨hc, h⟩

theorem printable_hex (w n : Nat) : Printable (Text.hex w n) := by
  intro c hc
  obtain ⟨d, hd, rfl⟩ := Text.isHexDigit_of_mem_hex hc
  have hall : ∀ d < 16, 0x20 ≤ (Text.hexDigit d).toNat ∧ (Text.hexDigit d).toNat < 0x7F := by decide
  exact hall d hd

/-! A string is read in units of 16 bits or whole characters, of which two units can be the halves of one
character. -/

/-- What a character stands for behind a backslash. -/
def escapes : List (Char × Nat) :=
  [('"', 0x22), ('\\', 0x5C), ('/', 0x2F), ('b', 8), ('f', 12), ('n', 10), ('r', 13), ('t', 9)]

def before (ns : List Nat) (r : Option (List Nat × List Char)) : Option (List Nat × List Char) :=
  r.map fun r => (ns ++ r.1, r.2)

/-- The units up to the closing quote, and what follows it. -/
def units : List Char → Option (List Nat × List Char)
  | [] => none
  | '"' :: rest => some ([], rest)
  | '\\' :: 'u' :: a :: b :: c :: d :: rest =>
    if [a, b, c, d].all fun x => (Text.hexDigit? x).isSome then before [Text.hexValue [a, b, c, d]] (units rest)
    else none
  | '\\' :: c :: rest => (escapes.lookup c).bind fun n => before [n] (units rest)
  | c :: rest => if c.toNat < 0x20 then none else before [c.toNat] (units rest)

def isHigh (n : Nat) : Bool := 0xD800 ≤ n && n < 0xDC00

def isLow (n : Nat) : Bool := 0xDC00 ≤ n && n < 0xE000

/-- The first half of a character with the second one is the character. -/
def whole : List Nat → List Nat
  | a :: b :: ns =>
    if isHigh a && isLow b then (0x10000 + (a - 0xD800) * 0x400 + (b - 0xDC00)) :: whole ns
    else a :: whole (b :: ns)
  | ns => ns

/-- The units that a character is written in. -/
def halves (n : Nat) : List Nat :=
  if n < 0x10000 then [n] else [0xD800 + (n - 0x10000) / 0x400, 0xDC00 + (n - 0x10000) % 0x400]

theorem whole_cons_of_not_high {n : Nat} (h : isHigh n = false) (ns : List Nat) :
    whole (n :: ns) = n :: whole ns := by
  cases ns with
  | nil => rfl
  | cons m ns => rw [whole, h, Bool.false_and, if_neg Bool.false_ne_true]

theorem whole_cons_of_not_low {m n : Nat} (h : isLow n = false) (ns : List Nat) :
    whole (m :: n :: ns) = m :: whole (n :: ns) := by
  rw [whole, h, Bool.and_false, if_neg Bool.false_ne_true]

theorem whole_halves_append {n : Nat} (hn : n < 0x110000) (hplane : ¬n < 0x10000) (ns : List Nat) :
    whole (halves n ++ ns) = n :: whole ns := by
  have hhigh : isHigh (0xD800 + (n - 0x10000) / 0x400) = true := by
    rw [isHigh, Bool.and_eq_true, decide_eq_true_eq, decide_eq_true_eq]
    omega
  have hlow : isLow (0xDC00 + (n - 0x10000) % 0x400) = true := by
    rw [isLow, Bool.and_eq_true, decide_eq_true_eq, decide_eq_true_eq]
    omega
  rw [halves, if_neg hplane, List.cons_append, List.singleton_append, whole, hhigh, hlow, Bool.and_self,
    if_pos rfl]
  exact congrArg (List.cons · (whole ns)) (by omega)

/-- What is not a second half does not begin with one. -/
theorem exists_halves {n : Nat} (hn : n < 0x110000) (h : isLow n = false) :
    ∃ m ms, halves n = m :: ms ∧ isLow m = false := by
  unfold halves
  split
  · exact ⟨n, [], rfl, h⟩
  · refine ⟨_, _, rfl, ?_⟩
    rw [isLow, Bool.and_eq_false_iff, decide_eq_false_iff_not]
    omega

/-- Characters that were halved are whole again. -/
theorem whole_halves {ps : List Nat} (hp : ∀ n ∈ ps, n < 0x110000) : whole (ps.flatMap halves) = whole ps := by
  induction ps using whole.induct with
  | case1 a b ns hpair ih =>
    obtain ⟨-, -, hns⟩ := (List.forall_mem_cons.mp hp).imp_right List.forall_mem_cons.mp
    have hbounds := hpair
    simp only [isHigh, isLow, Bool.and_eq_true, decide_eq_true_eq] at hbounds
    have ha : halves a = [a] := if_pos (by omega)
    have hb : halves b = [b] := if_pos (by omega)
    rw [List.flatMap_cons, List.flatMap_cons, ha, hb, List.singleton_append, List.singleton_append, whole, whole,
      if_pos hpair, if_pos hpair, ih hns]
  | case2 a b ns hpair ih =>
    obtain ⟨ha, hns⟩ := List.forall_mem_cons.mp hp
    have hb := hns b List.mem_cons_self
    rw [List.flatMap_cons, whole, if_neg hpair, ← ih hns]
    -- A first half stays alone unless a second half follows, and no halved character begins with one.
    by_cases hplane : a < 0x10000
    · rw [show halves a = [a] from if_pos hplane, List.singleton_append]
      cases hhigh : isHigh a with
      | false => exact whole_cons_of_not_high hhigh _
      | true =>
        have hlow : isLow b = false := by simpa [hhigh] using hpair
        obtain ⟨m, ms, hm, hmlow⟩ := exists_halves hb hlow
        rw [List.flatMap_cons, hm, List.cons_append]
        exact whole_cons_of_not_low hmlow _
    · exact whole_halves_append ha hplane _
  | case3 ns hshort =>
    cases ns with
    | nil => rfl
    | cons a ns =>
      obtain rfl : ns = [] := by
        cases ns with
        | nil => rfl
        | cons b ns => exact (hshort a b ns rfl).elim
      rw [List.flatMap_singleton]
      by_cases hplane : a < 0x10000
      · rw [halves, if_pos hplane]
      · have := whole_halves_append (hp a List.mem_cons_self) hplane []
        rwa [List.append_nil] at this

/-- Characters are whole. -/
theorem whole_of_valid {ps : List Nat} (hp : ∀ n ∈ ps, n.isValidChar) : whole ps = ps := by
  induction ps with
  | nil => rfl
  | cons n ps ih =>
    obtain ⟨hn, hp⟩ := List.forall_mem_cons.mp hp
    have hhigh : isHigh n = false := by
      rw [isHigh, Bool.and_eq_false_iff, decide_eq_false_iff_not, decide_eq_false_iff_not]
      rcases hn with hn | hn <;> omega
    rw [whole_cons_of_not_high hhigh, ih hp]

/-- What is whole and in the first plane was so before. -/
theorem eq_of_whole {ns ms : List Nat} (h : whole ns = ms) (hm : ∀ n ∈ ms, n < 0x10000) : ns = ms := by
  induction ns using whole.induct generalizing ms with
  | case1 a b ns hpair ih =>
    rw [whole, if_pos hpair] at h
    subst h
    have := hm _ List.mem_cons_self
    omega
  | case2 a b ns hpair ih =>
    rw [whole, if_neg hpair] at h
    subst h
    rw [← ih rfl fun n hn => hm n (List.mem_cons_of_mem _ hn)]
  | case3 ns hshort =>
    rw [← h, whole]
    exact hshort

/-- The code points of a text. -/
def points (s : String) : List Nat := s.toList.map Char.toNat

/-- The code points that a text is read as: halves of a character that stand beside each other are the
character. -/
def spelled (ps : List Point) : List Nat := whole (ps.map Point.code)

theorem valid_of_mem_points {s : String} {n : Nat} (h : n ∈ points s) : n.isValidChar := by
  obtain ⟨c, -, rfl⟩ := List.mem_map.mp h
  exact c.valid

theorem codes_ofText (s : String) : (Point.ofText s).map Point.code = points s := by
  rw [Point.ofText, List.map_map]
  rfl

@[simp]
theorem spelled_ofText (s : String) : spelled (Point.ofText s) = points s := by
  rw [spelled, codes_ofText]
  exact whole_of_valid fun _ => valid_of_mem_points

/-- Only the text itself is read as a text of the first plane. -/
theorem eq_ofText_of_spelled {ps : List Point} {s : String} (h : spelled ps = points s)
    (hs : ∀ n ∈ points s, n < 0x10000) : ps = Point.ofText s := by
  refine List.map_injective_iff.mpr Point.code_injective ?_
  rw [codes_ofText]
  exact eq_of_whole h hs

namespace Json

theorem printable_unit (n : Nat) : Printable (unit n) := by
  refine .cons (by decide) (.cons (by decide) (printable_hex 4 n))

theorem toNat_ofNat {n : Nat} (h : n < 0x7F) : (Char.ofNat n).toNat = n := by
  have hall : ∀ n < 0x7F, (Char.ofNat n).toNat = n := by decide
  exact hall n h

theorem printable_escapePoint (n : Nat) : Printable (escapePoint n) := by
  unfold escapePoint
  split_ifs with _ _ _ _ _ _ _ hplain
  rotate_left 7
  · intro c hc
    rw [List.mem_singleton.mp hc, toNat_ofNat hplain.2]
    exact hplain
  · exact printable_unit n
  · exact (printable_unit _).append (printable_unit _)
  all_goals decide

theorem units_unit {n : Nat} (h : n < 0x10000) (cs : List Char) :
    units (unit n ++ cs) = before [n] (units cs) := by
  have hfour : n < 16 ^ 4 := h
  have hvalue : Text.hexValue (Text.hex 4 n) = n := (Text.hexValue_hex 4 n).trans (Nat.mod_eq_of_lt hfour)
  have hdigit := fun k => Text.hexDigit?_hexDigit (Nat.mod_lt k (by decide : 0 < 16))
  simp only [Text.hex, List.nil_append, List.cons_append] at hvalue
  simp only [unit, Text.hex, List.nil_append, List.cons_append, units]
  rw [hvalue, if_pos (by simp [hdigit])]

theorem units_of_plain {c : Char} (hquote : c ≠ '"') (hescape : c ≠ '\\') (hc : 0x20 ≤ c.toNat) (cs : List Char) :
    units (c :: cs) = before [c.toNat] (units cs) := by
  rw [units.eq_def]
  split
  · contradiction
  · rename_i h
    exact absurd (List.cons.inj h).1 hquote
  · rename_i h
    exact absurd (List.cons.inj h).1 hescape
  · rename_i h
    exact absurd (List.cons.inj h).1 hescape
  · rename_i h
    obtain ⟨rfl, rfl⟩ := List.cons.inj h
    rw [if_neg (by omega)]

theorem units_escapePoint {n : Nat} (hn : n < 0x110000) (cs : List Char) :
    units (escapePoint n ++ cs) = before (halves n) (units cs) := by
  unfold escapePoint
  split_ifs with h1 h2 h3 h4 h5 h6 h7 hplain hplane
  rotate_left 7
  · have hsame := toNat_ofNat hplain.2
    have hchar : ∀ c : Char, n ≠ c.toNat → Char.ofNat n ≠ c := fun c hc h => hc (h ▸ hsame.symm)
    have hshown : 0x20 ≤ (Char.ofNat n).toNat := le_of_le_of_eq hplain.1 hsame.symm
    rw [List.singleton_append, units_of_plain (hchar _ h1) (hchar _ h2) hshown, hsame, halves,
      if_pos (by omega)]
  · rw [units_unit hplane, halves, if_pos hplane]
  · rw [List.append_assoc, units_unit (by omega), units_unit (by omega), halves, if_neg hplane, before, before,
      Option.map_map]
    rfl
  all_goals
    subst n
    rfl

theorem printable_quotePoints (ps : List Nat) : Printable (quotePoints ps) := by
  refine (Printable.cons (by decide) fun c hc => ?_).append (by decide)
  obtain ⟨n, -, hn⟩ := List.mem_flatMap.mp hc
  exact printable_escapePoint n c hn

theorem units_quotePoints {ps : List Nat} (hp : ∀ n ∈ ps, n < 0x110000) (rest : List Char) :
    units (ps.flatMap escapePoint ++ '"' :: rest) = some (ps.flatMap halves, rest) := by
  induction ps with
  | nil => rfl
  | cons n ps ih =>
    obtain ⟨hn, hp⟩ := List.forall_mem_cons.mp hp
    rw [List.flatMap_cons, List.append_assoc, units_escapePoint hn, ih hp]
    rfl

end Json
end Logging
end TableQuery
