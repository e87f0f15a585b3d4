import TableQuery.Proofs.Number.Nearest

/-! The shortest digits of a binary number lie near it. -/

namespace TableQuery
namespace Binary64

variable {m : Nat} {e : Int}

namespace Interval

/-- What the numbers of an interval are over their denominator. -/
structure Spans (i : Interval) (m : Nat) (e : Int) : Prop where
  den : 0 < i.den
  low : (i.low : ℚ) / i.den = (4 * m - quarters m e) * (2 ^ e / 4)
  value : (i.value : ℚ) / i.den = m * 2 ^ e
  high : (i.high : ℚ) / i.den = (4 * m + 2) * (2 ^ e / 4)
  closed : i.closed = decide (m % 2 = 0)

end Interval

theorem interval_spans (hm : 0 < m) (e : Int) : (interval m e).Spans m e := by
  have hunit : ((scaled 1 4 (-e)).1 : ℚ) / (scaled 1 4 (-e)).2 = 2 ^ e / 4 := by
    rw [scaled_eq, zpow_neg]
    simp [div_eq_mul_inv, mul_comm]
  have hlow : ((if m = Nat.pow 2 52 ∧ -1074 < e then 4 * m - 1 else 4 * m - 2 : Nat) : ℚ) =
      4 * m - quarters m e := by
    unfold quarters
    simp only [Nat.pow_eq]
    split <;> push_cast [Nat.cast_sub (show 1 ≤ 4 * m by omega), Nat.cast_sub (show 2 ≤ 4 * m by omega)] <;> rfl
  refine ⟨scaled_den_pos 1 (by decide) _, ?_, ?_, ?_, rfl⟩
  · rw [← hunit, ← hlow, ← mul_div_assoc, ← Nat.cast_mul]
    rfl
  · change ((4 * m * (scaled 1 4 (-e)).1 : Nat) : ℚ) / (scaled 1 4 (-e)).2 = _
    rw [Nat.cast_mul, mul_div_assoc, hunit]
    push_cast
    ring
  · change (((4 * m + 2) * (scaled 1 4 (-e)).1 : Nat) : ℚ) / (scaled 1 4 (-e)).2 = _
    rw [Nat.cast_mul, mul_div_assoc, hunit]
    push_cast
    ring

namespace Interval

variable {i : Interval} {digits : Nat} {exponent : Int}

theorem exists_fraction (digits : Nat) (exponent : Int) : ∃ num den : Nat,
    (if 0 ≤ exponent then (digits * Nat.pow 10 exponent.toNat, 1)
      else (digits, Nat.pow 10 (-exponent).toNat)) = (num, den) ∧ 0 < den ∧
    (digits : ℚ) * 10 ^ exponent = num / den := by
  split
  · rename_i he
    obtain ⟨n, rfl⟩ := Int.eq_ofNat_of_zero_le he
    exact ⟨_, _, rfl, Nat.one_pos, by simp⟩
  · rename_i he
    obtain ⟨n, hn⟩ := Int.eq_ofNat_of_zero_le (show 0 ≤ -exponent by omega)
    obtain rfl : exponent = -n := by omega
    exact ⟨_, _, rfl, Nat.pow_pos (by decide), by simp [div_eq_mul_inv]⟩

theorem mul_le_mul_iff_div {a b c d : Nat} (hb : 0 < b) (hd : 0 < d) :
    a * d ≤ c * b ↔ (a : ℚ) / b ≤ c / d := by
  rw [div_le_div_iff₀ (by exact_mod_cast hb) (by exact_mod_cast hd)]
  exact_mod_cast Iff.rfl

theorem mul_lt_mul_iff_div {a b c d : Nat} (hb : 0 < b) (hd : 0 < d) :
    a * d < c * b ↔ (a : ℚ) / b < c / d := by
  rw [div_lt_div_iff₀ (by exact_mod_cast hb) (by exact_mod_cast hd)]
  exact_mod_cast Iff.rfl

theorem Spans.contains_iff (h : i.Spans m e) : i.contains digits exponent = true ↔
    Near m e (digits * 10 ^ exponent) := by
  obtain ⟨num, den, hpair, hden, hratio⟩ := exists_fraction digits exponent
  unfold contains
  rw [hpair, hratio, h.closed]
  dsimp only
  -- The ends belong to the interval just where the significand is even.
  by_cases heven : m % 2 = 0
  · rw [decide_eq_true heven, if_pos rfl, Bool.and_eq_true, decide_eq_true_eq, decide_eq_true_eq,
      mul_le_mul_iff_div h.den hden, mul_le_mul_iff_div hden h.den, h.low, h.high]
    exact ⟨fun ⟨h1, h2⟩ => ⟨h1, h2, fun h => by omega⟩, fun h => ⟨h.low, h.high⟩⟩
  · rw [decide_eq_false heven, if_neg Bool.false_ne_true, Bool.and_eq_true, decide_eq_true_eq,
      decide_eq_true_eq, mul_lt_mul_iff_div h.den hden, mul_lt_mul_iff_div hden h.den, h.low, h.high]
    exact ⟨fun ⟨h1, h2⟩ => ⟨h1.le, h2.le, fun _ => ⟨h1, h2⟩⟩, fun h => h.inside (by omega)⟩

theorem Spans.onGrid_den_pos (h : i.Spans m e) (exponent : Int) : 0 < (i.onGrid exponent).2 := by
  unfold onGrid
  split
  · exact Nat.mul_pos h.den (Nat.pow_pos (by decide))
  · exact h.den

theorem Spans.onGrid_eq (h : i.Spans m e) (exponent : Int) :
    ((i.onGrid exponent).1 : ℚ) / (i.onGrid exponent).2 = m * 2 ^ e / 10 ^ exponent := by
  rw [← h.value]
  unfold onGrid
  split
  · rename_i he
    obtain ⟨n, rfl⟩ := Int.eq_ofNat_of_zero_le he
    simp [div_div]
  · rename_i he
    obtain ⟨n, hn⟩ := Int.eq_ofNat_of_zero_le (show 0 ≤ -exponent by omega)
    obtain rfl : exponent = -n := by omega
    simp [mul_div_right_comm]

/-- The power of ten is above the number, and the one before it is not, if the guess is not too high. -/
theorem Spans.magnitude_le (h : i.Spans m e) {guess : Int} (hguess : (10 : ℚ) ^ (guess - 1) ≤ m * 2 ^ e) :
    (10 : ℚ) ^ (i.magnitude guess - 1) ≤ m * 2 ^ e := by
  have habove : ∀ k, ¬(i.onGrid k).1 < (i.onGrid k).2 → (10 : ℚ) ^ k ≤ m * 2 ^ e := by
    intro k hk
    have hd : (0 : ℚ) < (i.onGrid k).2 := by exact_mod_cast h.onGrid_den_pos k
    have hpow : (0 : ℚ) < 10 ^ k := by positivity
    have hle : (1 : ℚ) ≤ m * 2 ^ e / 10 ^ k := by
      rw [← h.onGrid_eq k, le_div_iff₀ hd, one_mul]
      exact_mod_cast not_lt.mp hk
    rwa [le_div_iff₀ hpow, one_mul] at hle
  unfold magnitude
  simp only [decide_eq_true_eq]
  split_ifs with h0 h1 h2
  · exact hguess
  · rw [add_sub_cancel_right]
    exact habove guess h0
  · rw [show guess + 2 - 1 = guess + 1 by ring]
    exact habove _ h1
  · rw [show guess + 3 - 1 = guess + 2 by ring]
    exact habove _ h2

theorem contains_of_nearest? {exponent : Int} (h : i.nearest? exponent = some digits) :
    i.contains digits exponent = true := by
  rcases ite_eq_iff.mp h with ⟨hc, he⟩ | ⟨-, h⟩
  · exact Option.some.inj he ▸ hc
  · rcases ite_eq_iff.mp h with ⟨hc, he⟩ | ⟨-, he⟩
    · exact Option.some.inj he ▸ hc
    · cases he

/-- Multiples that are close enough to one another are near enough to the number. -/
theorem Spans.near_first (h : i.Spans m e) (hc : Canonical m e)
    (hfine : (10 : ℚ) ^ exponent * 10 ^ 16 ≤ m * 2 ^ e) :
    Near m e (roundHalfEven (i.onGrid exponent).1 (i.onGrid exponent).2 * 10 ^ exponent) := by
  have hunit : (0 : ℚ) < 2 ^ e := by positivity
  have hpow : (0 : ℚ) < 10 ^ exponent := by positivity
  have hbelow : (m : ℚ) + 1 ≤ 2 ^ 53 := by exact_mod_cast hc.below
  have hround := abs_sub_roundHalfEven_le (i.onGrid exponent).1 (h.onGrid_den_pos exponent)
  rw [h.onGrid_eq, abs_le] at hround
  set first : ℚ := (roundHalfEven (i.onGrid exponent).1 (i.onGrid exponent).2 : ℚ)
  have hgrid : m * 2 ^ e / 10 ^ exponent * 10 ^ exponent = (m : ℚ) * 2 ^ e := div_mul_cancel₀ _ hpow.ne'
  have hlow : (m : ℚ) * 2 ^ e - first * 10 ^ exponent ≤ 10 ^ exponent / 2 := by nlinarith [hround.1]
  have hhigh : first * 10 ^ exponent - (m : ℚ) * 2 ^ e ≤ 10 ^ exponent / 2 := by nlinarith [hround.2]
  -- Half a multiple is less than the way to either end, also to the one that is twice as close.
  have hhalf : (10 : ℚ) ^ exponent / 2 < 2 / 4 * 2 ^ e := by nlinarith
  have hquarter : (10 : ℚ) ^ exponent / 2 < quarters m e * (2 ^ e / 4) := by
    unfold quarters
    split
    · rename_i hq
      rw [hq.1] at hfine
      push_cast at hfine ⊢
      linarith
    · push_cast
      linarith
  have hlow' : (4 * m - quarters m e) * (2 ^ e / 4) < first * 10 ^ exponent := by linarith
  have hhigh' : first * 10 ^ exponent < (4 * m + 2) * (2 ^ e / 4) := by linarith
  exact ⟨hlow'.le, hhigh'.le, fun _ => ⟨hlow', hhigh'⟩⟩

theorem Spans.isSome_nearest? (h : i.Spans m e) (hc : Canonical m e)
    (hfine : (10 : ℚ) ^ exponent * 10 ^ 16 ≤ m * 2 ^ e) : (i.nearest? exponent).isSome := by
  unfold nearest?
  dsimp only
  rw [if_pos (h.contains_iff.mpr (h.near_first hc hfine))]
  rfl

/-- Digits are found as long as there are some of the last length. -/
theorem contains_shortest {k : Int} (hlast : (i.nearest? (k - 17)).isSome) {count left : Nat}
    (hleft : 0 < left) (hcount : count + left = 18) :
    i.contains (i.shortest k count left).1 (i.shortest k count left).2 = true := by
  induction left generalizing count with
  | zero => omega
  | succ left ih =>
    unfold shortest
    cases hn : i.nearest? (k - count) with
    | some digits => exact contains_of_nearest? hn
    | none =>
      refine ih (Nat.pos_of_ne_zero fun h0 => ?_) (by omega)
      obtain rfl : count = 17 := by omega
      rw [Nat.cast_ofNat] at hn
      rw [hn] at hlast
      cases hlast

end Interval

/-- Powers of ten and of two beside each other, by powers of both that are closer. -/
theorem ten_zpow_le_of_pow {p q : Nat} {g l : Int} (hq : q ≠ 0) (h : g * q ≤ p * l)
    (hpow : ((10 : ℚ) ^ p) ^ l ≤ (2 ^ q) ^ l) : (10 : ℚ) ^ g ≤ 2 ^ l := by
  refine le_of_pow_le_pow_left₀ hq (by positivity) ?_
  calc ((10 : ℚ) ^ g) ^ q = 10 ^ (g * q) := by rw [zpow_mul, zpow_natCast]
    _ ≤ 10 ^ (p * l) := zpow_le_zpow_right₀ (by norm_num) h
    _ = (10 ^ p) ^ l := by rw [zpow_mul, zpow_natCast]
    _ ≤ (2 ^ q) ^ l := hpow
    _ = (2 ^ l) ^ q := by rw [← zpow_natCast, ← zpow_mul, mul_comm, zpow_mul, zpow_natCast]

/-- The power of ten that the binary logarithm gives is not above the power of two: `30103 / 100000` is
above the logarithm of two, by less than what one power of ten makes up for. -/
theorem ten_zpow_le_two_zpow {l : Int} (hlow : -1074 ≤ l) (hhigh : l ≤ 1023) :
    (10 : ℚ) ^ (l * 30103 / 100000 - 1) ≤ 2 ^ l := by
  rcases le_total 0 l with hl | hl
  · have hten : (10 : ℚ) ^ 59 ≤ 2 ^ 196 := by norm_num
    exact ten_zpow_le_of_pow (p := 59) (q := 196) (by decide) (by omega)
      (zpow_le_zpow_left₀ hl (by positivity) hten)
  · have hten : (2 : ℚ) ^ 93 ≤ 10 ^ 28 := by norm_num
    refine ten_zpow_le_of_pow (p := 28) (q := 93) (by decide) (by omega) ?_
    obtain ⟨n, hn⟩ := Int.eq_ofNat_of_zero_le (show 0 ≤ -l by omega)
    obtain rfl : l = -n := by omega
    rw [zpow_neg, zpow_neg, zpow_natCast, zpow_natCast]
    exact inv_anti₀ (by positivity) (pow_le_pow_left₀ (by positivity) hten n)

/-- The shortest digits lie near the number. -/
theorem near_shortestDigits (hc : Canonical m e) (hm : 0 < m) :
    Near m e ((shortestDigits m e).1 * 10 ^ (shortestDigits m e).2) := by
  have h := interval_spans hm e
  have hlog : ((2 : ℚ) ^ Nat.log2 m) ≤ m := by exact_mod_cast Nat.log2_self_le hm.ne'
  have hbits : Nat.log2 m < 53 := (Nat.log2_lt hm.ne').mpr hc.below
  have hpow : (2 : ℚ) ^ (Nat.log2 m + e) ≤ m * 2 ^ e := by
    rw [zpow_add₀ two_ne_zero, zpow_natCast]
    gcongr
  have hmagnitude := h.magnitude_le ((ten_zpow_le_two_zpow (by have := hc.least; omega)
    (by have := hc.most; omega)).trans hpow)
  set k := (interval m e).magnitude ((Nat.log2 m + e) * 30103 / 100000) with hk
  have hfine : (10 : ℚ) ^ (k - 17) * 10 ^ 16 ≤ m * 2 ^ e := by
    rw [← zpow_natCast, ← zpow_add₀ (by norm_num)]
    convert hmagnitude using 2
    push_cast
    ring
  exact h.contains_iff.mp (Interval.contains_shortest (h.isSome_nearest? hc hfine) (by decide) rfl)

end Binary64
end TableQuery
