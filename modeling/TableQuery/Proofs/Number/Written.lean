import Mathlib.Data.List.DropRight
import TableQuery.Number.Reading
import TableQuery.Proofs.Lists
import TableQuery.Proofs.Number.Shortest

/-! The text of a binary number is read back as the number. -/

namespace TableQuery

namespace Numeral

theorem value_append (cs ds : List Char) : value (cs ++ ds) = 10 ^ ds.length * value cs + value ds :=
  (Nat.ofDigitChars_append 0).trans Nat.ofDigitChars_eq_ofDigitChars_zero

theorem value_zeros (n : Nat) : value (List.replicate n '0') = 0 := Nat.ofDigitChars_replicate_zero

theorem value_toDigits (n : Nat) : value (Nat.toDigits 10 n) = n := Nat.ofDigitChars_ten_toDigits

theorem isDigit_of_mem_toDigits {n : Nat} {c : Char} (h : c ∈ Nat.toDigits 10 n) : isDigit c = true :=
  Nat.isDigit_of_mem_toDigits (by decide) (by decide) h

theorem head?_toDigits {n : Nat} (hn : 0 < n) : (Nat.toDigits 10 n).head? ≠ some '0' := by
  induction n using Nat.strongRecOn with
  | ind n ih =>
    rcases Nat.lt_or_ge n 10 with hlt | hge
    · have hall : ∀ n < 10, 0 < n → n.digitChar ≠ '0' := by decide
      rw [Nat.toDigits_of_lt_base hlt]
      exact fun h => hall n hlt hn (Option.some.inj h)
    · rw [Nat.toDigits_of_base_le (by decide) hge, List.head?_append_of_ne_nil _ Nat.toDigits_ne_nil]
      exact ih (n / 10) (by omega) (by omega)

end Numeral

namespace Binary64
open Numeral (value)

/-- The parts of a number with a point or an exponent. -/
structure Spelling where
  whole : List Char
  places : List Char := []
  power : Option (Bool × List Char) := none

namespace Spelling

def fraction (s : Spelling) : List Char := if s.places.isEmpty then [] else '.' :: s.places

def scale (s : Spelling) : List Char :=
  match s.power with
  | none => []
  | some (down, ds) => 'e' :: (if down then '-' else '+') :: ds

def chars (s : Spelling) : List Char := s.whole ++ (s.fraction ++ s.scale)

def digits (s : Spelling) : Nat := value (s.whole ++ s.places)

def exponent (s : Spelling) : Int :=
  (match s.power with
    | none => 0
    | some (down, ds) => if down then -(value ds : Int) else value ds) - s.places.length

/-- There is a part in front and another one, of digits, and a zero in front stands alone. -/
structure Sound (s : Spelling) : Prop where
  whole : s.whole ≠ []
  leading : s.whole = ['0'] ∨ s.whole.head? ≠ some '0'
  isDigit : ∀ c ∈ s.whole ++ s.places, Numeral.isDigit c = true
  power : ∀ p ∈ s.power, p.2 ≠ [] ∧ ∀ c ∈ p.2, Numeral.isDigit c = true
  more : s.places ≠ [] ∨ s.power.isSome

variable {s : Spelling}

theorem scale_stops (s : Spelling) : ∀ c ∈ s.scale.head?, Numeral.isDigit c = false := by
  unfold scale
  split
  · exact nofun
  · rintro _ ⟨⟩
    rfl

theorem fraction_stops (s : Spelling) : ∀ c ∈ (s.fraction ++ s.scale).head?, Numeral.isDigit c = false := by
  unfold fraction
  split
  · exact s.scale_stops
  · rintro _ ⟨⟩
    rfl

theorem Sound.decimal?_chars (h : s.Sound) (negative : Bool) :
    Numeral.decimal? negative s.chars = some (ofDecimal negative s.digits s.exponent) := by
  have hwhole := Lists.span_append (fun c hc => h.isDigit c (List.mem_append_left _ hc)) _ s.fraction_stops
  obtain ⟨whole, places, power⟩ := s
  have hne : whole ≠ [] := h.whole
  have hpower : ∀ down ds, power = some (down, ds) → ds ≠ [] ∧ ds.all Numeral.isDigit = true := by
    intro down ds hp
    obtain ⟨hds, hall⟩ := h.power (down, ds) hp
    exact ⟨hds, List.all_eq_true.mpr hall⟩
  unfold Numeral.decimal? chars
  rw [hwhole.1, hwhole.2]
  -- the parts behind the first one are there or not
  cases places with
  | nil =>
    cases power with
    | none => cases h.more <;> contradiction
    | some p =>
      obtain ⟨down, ds⟩ := p
      obtain ⟨hds, hall⟩ := hpower down ds rfl
      cases down <;> simp [fraction, scale, Numeral.sign, digits, exponent, hne, hds, hall]
  | cons d places =>
    have hdigit : ∀ c ∈ d :: places, Numeral.isDigit c = true := fun c hc =>
      h.isDigit c (List.mem_append_right _ hc)
    obtain ⟨hd, hdigits⟩ := List.forall_mem_cons.mp hdigit
    cases power with
    | none =>
      have hrest := Lists.span_append hdigits [] nofun
      rw [List.append_nil] at hrest
      simp [fraction, scale, digits, exponent, hd, hrest]
    | some p =>
      obtain ⟨down, ds⟩ := p
      obtain ⟨hds, hall⟩ := hpower down ds rfl
      have hrest := fun sign : Char => Lists.span_append hdigits ('e' :: sign :: ds)
        (by rintro _ ⟨⟩; rfl)
      cases down <;> simp [fraction, scale, Numeral.sign, digits, exponent, hd, hds, hall, hrest]

/-- The value of its digits and its exponent. -/
def ratio (s : Spelling) : ℚ := s.digits * 10 ^ s.exponent

end Spelling

theorem value_zero_cons (ds : List Char) : value ('0' :: ds) = value ds := by
  have h := Numeral.value_append (List.replicate 1 '0') ds
  rw [Numeral.value_zeros, Nat.mul_zero, Nat.zero_add] at h
  exact h

theorem isDigit_zeros {n : Nat} : ∀ c ∈ List.replicate n '0', Numeral.isDigit c = true := fun _ hc =>
  List.eq_of_mem_replicate hc ▸ rfl

section Forms

variable {ds : List Char} {point : Int}

/-- A number below one with zeros behind the point. -/
theorem exists_spelling_small (hne : ds ≠ []) (hd : ∀ c ∈ ds, Numeral.isDigit c = true) (hpoint : point < 0) :
    ∃ s : Spelling, s.Sound ∧ '0' :: '.' :: List.replicate (-point - 1).toNat '0' ++ ds = s.chars ∧
      s.ratio = value ds * 10 ^ (point + 1 - ds.length) := by
  let zeros := List.replicate (-point - 1).toNat '0'
  refine ⟨{ whole := ['0'], places := zeros ++ ds }, ?_, ?_, ?_⟩
  · refine ⟨List.cons_ne_nil _ _, .inl rfl, ?_, nofun, .inl (List.append_ne_nil_of_right_ne_nil _ hne)⟩
    simp only [List.mem_append, List.mem_singleton]
    rintro c (rfl | hc | hc)
    · rfl
    · exact isDigit_zeros c hc
    · exact hd c hc
  · simp [Spelling.chars, Spelling.fraction, Spelling.scale, hne, zeros]
  · have hdigits : value (['0'] ++ (zeros ++ ds)) = value ds := by
      rw [List.singleton_append, value_zero_cons, Numeral.value_append, Numeral.value_zeros, Nat.mul_zero,
        Nat.zero_add]
    have hexponent : (0 : Int) - (zeros ++ ds).length = point + 1 - ds.length := by
      rw [List.length_append, List.length_replicate]
      omega
    rw [← hdigits, ← hexponent]
    rfl

/-- An integer, with zeros up to the point. -/
theorem exists_spelling_integral (hne : ds ≠ []) (hd : ∀ c ∈ ds, Numeral.isDigit c = true)
    (hhead : ds.head? ≠ some '0') (zeros : Nat) : ∃ s : Spelling, s.Sound ∧
      ds ++ List.replicate zeros '0' ++ ['.', '0'] = s.chars ∧ s.ratio = value ds * 10 ^ (zeros : Int) := by
  refine ⟨{ whole := ds ++ List.replicate zeros '0', places := ['0'] }, ?_, ?_, ?_⟩
  · refine ⟨List.append_ne_nil_of_left_ne_nil hne _, .inr ?_, ?_, nofun, .inl (List.cons_ne_nil _ _)⟩
    · rwa [List.head?_append_of_ne_nil _ hne]
    · simp only [List.mem_append, List.mem_singleton]
      rintro c ((hc | hc) | rfl)
      · exact hd c hc
      · exact isDigit_zeros c hc
      · rfl
  · simp [Spelling.chars, Spelling.fraction, Spelling.scale]
  · have hdigits : value (ds ++ List.replicate zeros '0' ++ ['0']) = value ds * 10 ^ zeros * 10 := by
      rw [Numeral.value_append, Numeral.value_append, Numeral.value_zeros, List.length_replicate]
      change 10 ^ 1 * (10 ^ zeros * value ds + 0) + 0 = _
      ring
    change ((value (ds ++ List.replicate zeros '0' ++ ['0']) : Nat) : ℚ) * 10 ^ ((0 : Int) - 1) = _
    rw [hdigits, zpow_natCast]
    push_cast
    rw [zpow_neg_one]
    field_simp

/-- Digits on both sides of the point. -/
theorem exists_spelling_split (hd : ∀ c ∈ ds, Numeral.isDigit c = true) (hhead : ds.head? ≠ some '0')
    {whole : Nat} (hwhole : 0 < whole) (hlen : whole < ds.length) : ∃ s : Spelling, s.Sound ∧
      ds.take whole ++ '.' :: ds.drop whole = s.chars ∧
      s.ratio = value ds * 10 ^ ((whole : Int) - ds.length) := by
  have hne : ds.drop whole ≠ [] := fun h => by
    have := List.drop_eq_nil_iff.mp h
    omega
  refine ⟨{ whole := ds.take whole, places := ds.drop whole }, ?_, ?_, ?_⟩
  · refine ⟨fun h => ?_, .inr ?_, ?_, nofun, .inl hne⟩
    · have := congrArg List.length h
      rw [List.length_take] at this
      simp only [List.length_nil] at this
      omega
    · rwa [List.head?_take, if_neg hwhole.ne']
    · rwa [List.take_append_drop]
  · simp [Spelling.chars, Spelling.fraction, Spelling.scale, hne]
  · have hexponent : (0 : Int) - (ds.drop whole).length = whole - ds.length := by
      rw [List.length_drop]
      omega
    rw [Spelling.ratio, Spelling.digits, Spelling.exponent, List.take_append_drop, hexponent]

/-- The digits of an exponent, of which there are at least two. -/
def powerDigits (n : Nat) : List Char :=
  if (Nat.toDigits 10 n).length < 2 then '0' :: Nat.toDigits 10 n else Nat.toDigits 10 n

theorem value_powerDigits (n : Nat) : value (powerDigits n) = n := by
  unfold powerDigits
  split
  · rw [value_zero_cons, Numeral.value_toDigits]
  · exact Numeral.value_toDigits n

theorem powerDigits_ne_nil (n : Nat) : powerDigits n ≠ [] := by
  unfold powerDigits
  split
  · exact List.cons_ne_nil _ _
  · exact Nat.toDigits_ne_nil

theorem isDigit_powerDigits (n : Nat) : ∀ c ∈ powerDigits n, Numeral.isDigit c = true := by
  intro c hc
  unfold powerDigits at hc
  split at hc
  · rcases List.mem_cons.mp hc with rfl | hc
    · rfl
    · exact Numeral.isDigit_of_mem_toDigits hc
  · exact Numeral.isDigit_of_mem_toDigits hc

/-- One digit in front of the point, and an exponent of at least two digits. -/
theorem exists_spelling_scientific {d : Char} (hd : ∀ c ∈ d :: ds, Numeral.isDigit c = true) (hhead : d ≠ '0')
    (point : Int) : ∃ s : Spelling, s.Sound ∧
      (if ds.isEmpty then [d] else d :: '.' :: ds) ++ 'e' :: (if point < 0 then '-' else '+') ::
        powerDigits point.natAbs = s.chars ∧
      s.ratio = value (d :: ds) * 10 ^ (point - ds.length) := by
  refine ⟨{ whole := [d], places := ds, power := some (decide (point < 0), powerDigits point.natAbs) },
    ?_, ?_, ?_⟩
  · refine ⟨List.cons_ne_nil _ _, .inr fun h => hhead (Option.some.inj h), hd, ?_, .inr rfl⟩
    rintro _ ⟨⟩
    exact ⟨powerDigits_ne_nil _, isDigit_powerDigits _⟩
  · cases ds <;> simp [Spelling.chars, Spelling.fraction, Spelling.scale]
  · have hexponent : (if decide (point < 0) then -(value (powerDigits point.natAbs) : Int)
        else value (powerDigits point.natAbs)) = point := by
      rw [value_powerDigits]
      split <;> rename_i h <;> simp only [decide_eq_true_eq] at h <;> omega
    rw [Spelling.ratio, Spelling.digits, Spelling.exponent]
    dsimp only
    rw [hexponent]
    rfl

theorem exists_spelling_textOf (hne : ds ≠ []) (hd : ∀ c ∈ ds, Numeral.isDigit c = true)
    (hhead : ds.head? ≠ some '0') (point : Int) : ∃ s : Spelling, s.Sound ∧ textOf ds point = s.chars ∧
      s.ratio = value ds * 10 ^ (point + 1 - ds.length) := by
  unfold textOf
  split
  · split
    · rename_i hneg
      exact exists_spelling_small hne hd hneg
    · rename_i hneg
      dsimp only
      split
      · rename_i hlen
        obtain ⟨s, hs, hchars, hratio⟩ :=
          exists_spelling_integral hne hd hhead (point.toNat + 1 - ds.length)
        exact ⟨s, hs, hchars, by rw [hratio]; congr 2; omega⟩
      · obtain ⟨s, hs, hchars, hratio⟩ :=
          exists_spelling_split hd hhead (show 0 < point.toNat + 1 by omega) (by omega)
        exact ⟨s, hs, hchars, by rw [hratio]; congr 2; omega⟩
  · cases ds with
    | nil => contradiction
    | cons d ds =>
      obtain ⟨s, hs, hchars, hratio⟩ :=
        exists_spelling_scientific hd (fun h => hhead (h ▸ rfl)) point
      refine ⟨s, hs, ?_, by rw [hratio]; congr 2; rw [List.length_cons]; push_cast; ring⟩
      rw [← hchars]
      cases ds <;> rfl

end Forms

theorem exists_zeros (cs : List Char) :
    ∃ zeros, cs = cs.rdropWhile (· == '0') ++ List.replicate zeros '0' := by
  have hall : ∀ c ∈ cs.rtakeWhile (· == '0'), c = '0' := by
    intro c hc
    have hzero := List.mem_rtakeWhile_imp hc
    exact beq_iff_eq.mp hzero
  refine ⟨(cs.rtakeWhile (· == '0')).length, ?_⟩
  rw [← List.eq_replicate_iff.mpr ⟨rfl, hall⟩, List.rdropWhile_append_rtakeWhile]

/-- Digits without the zeros at their end. -/
theorem significant_eq {digits : Nat} (hdigits : 0 < digits) (exponent : Int) : ∃ kept zeros,
    Nat.toDigits 10 digits = kept ++ List.replicate zeros '0' ∧ kept ≠ [] ∧
      significant digits exponent = (kept, exponent + (kept.length + zeros : Nat) - 1) := by
  obtain ⟨zeros, hsplit⟩ := exists_zeros (Nat.toDigits 10 digits)
  generalize hkept : (Nat.toDigits 10 digits).rdropWhile (· == '0') = kept at hsplit
  have hne : kept ≠ [] := by
    rintro rfl
    have hzero := Numeral.value_toDigits digits
    rw [hsplit, List.nil_append, Numeral.value_zeros] at hzero
    omega
  refine ⟨kept, zeros, hsplit, hne, ?_⟩
  have hlength := congrArg List.length hsplit
  rw [List.length_append, List.length_replicate] at hlength
  have hempty : ¬kept.isEmpty = true := by simpa using hne
  unfold significant
  dsimp only
  rw [hlength, ← List.rdropWhile, hkept, if_neg hempty]

/-- The text of a number is its sign and parts that are read as the number. -/
theorem exists_spelling {m : Nat} {e : Int} (hc : Canonical m e) (negative : Bool) :
    ∃ s : Spelling, s.Sound ∧
      (Binary64.finite negative m e).text.toList = (if negative then ['-'] else []) ++ s.chars ∧
      ofDecimal negative s.digits s.exponent = .finite negative m e := by
  have hsign : ∀ body : List Char, (String.ofList (if negative then '-' :: body else body)).toList =
      (if negative then ['-'] else []) ++ body := by
    intro body
    rw [String.toList_ofList]
    cases negative <;> rfl
  rcases Nat.eq_zero_or_pos m with rfl | hm
  · obtain rfl : e = -1074 := hc.full.resolve_left (by decide)
    have hzeros : ∀ c ∈ ['0', '0'], Numeral.isDigit c = true := List.all_eq_true.mp rfl
    refine ⟨{ whole := ['0'], places := ['0'] }, ⟨List.cons_ne_nil _ _, .inl rfl, hzeros, nofun,
      .inl (List.cons_ne_nil _ _)⟩, ?_, rfl⟩
    exact hsign _
  · -- The shortest digits are near the number, and keep their value without the zeros at their end.
    obtain ⟨digits, exponent, hpair⟩ : ∃ digits exponent, shortestDigits m e = (digits, exponent) := ⟨_, _, rfl⟩
    have hnear := near_shortestDigits hc hm
    rw [hpair] at hnear
    have hdigits : 0 < digits := by
      have := hnear.pos hm
      exact Nat.pos_of_ne_zero fun h0 => by simp [h0] at this
    obtain ⟨kept, zeros, hsplit, hkept, hsignificant⟩ := significant_eq hdigits exponent
    have hvalue : value kept * 10 ^ zeros = digits := by
      have h := Numeral.value_append kept (List.replicate zeros '0')
      rw [← hsplit, Numeral.value_toDigits, Numeral.value_zeros, List.length_replicate] at h
      rw [h, Nat.add_zero, Nat.mul_comm]
    have hd : ∀ c ∈ kept, Numeral.isDigit c = true := fun c hc =>
      Numeral.isDigit_of_mem_toDigits (hsplit ▸ List.mem_append_left _ hc)
    have hhead : kept.head? ≠ some '0' := by
      have := Numeral.head?_toDigits hdigits
      rwa [hsplit, List.head?_append_of_ne_nil _ hkept] at this
    obtain ⟨s, hs, hchars, hratio⟩ :=
      exists_spelling_textOf hkept hd hhead (exponent + (kept.length + zeros : Nat) - 1)
    refine ⟨s, hs, ?_, ofDecimal_of_near negative hc hm ?_⟩
    · unfold text
      dsimp only
      rw [hsign, if_neg hm.ne', hpair]
      dsimp only
      rw [hsignificant]
      exact congrArg _ hchars
    · have hpow : exponent + (kept.length + zeros : Nat) - 1 + 1 - kept.length = exponent + zeros := by
        push_cast
        ring
      have hsame : s.ratio = digits * 10 ^ exponent := by
        rw [hratio, hpow, zpow_add₀ (by norm_num), zpow_natCast, ← hvalue]
        push_cast
        ring
      rw [← hsame] at hnear
      exact hnear

end Binary64
end TableQuery
