import Mathlib.Algebra.Order.Field.Basic
import Mathlib.Algebra.Order.Field.Power
import Mathlib.Data.Rat.Cast.Order
import Mathlib.Tactic.FieldSimp
import Mathlib.Tactic.Linarith
import Mathlib.Tactic.Ring
import TableQuery.Number.Shortest

/-! Fractions that round to a binary number. -/

namespace TableQuery
namespace Binary64

section Fractions

variable {num den k : Nat}

/-- A fraction without its power of two. -/
theorem scaled_eq (num den : Nat) (e : Int) :
    ((scaled num den e).1 : ℚ) / (scaled num den e).2 = num / den / 2 ^ e := by
  unfold scaled
  split
  · rename_i he
    obtain ⟨n, rfl⟩ := Int.eq_ofNat_of_zero_le he
    simp [div_div]
  · rename_i he
    obtain ⟨n, hn⟩ := Int.eq_ofNat_of_zero_le (show 0 ≤ -e by omega)
    obtain rfl : e = -n := by omega
    simp [mul_div_right_comm]

theorem scaled_den_pos (num : Nat) (hden : 0 < den) (e : Int) : 0 < (scaled num den e).2 := by
  unfold scaled
  split
  · exact Nat.mul_pos hden (Nat.pow_pos (by decide))
  · exact hden

theorem roundHalfEven_bounds (num : Nat) (hden : 0 < den) :
    2 * (den * roundHalfEven num den) ≤ 2 * num + den ∧ 2 * num ≤ 2 * (den * roundHalfEven num den) + den := by
  have hnum := Nat.div_add_mod num den
  have hr := Nat.mod_lt num hden
  have hnext : den * (num / den + 1) = den * (num / den) + den := Nat.mul_succ ..
  unfold roundHalfEven
  dsimp only
  split_ifs <;> omega

theorem abs_sub_roundHalfEven_le (num : Nat) (hden : 0 < den) :
    |(roundHalfEven num den : ℚ) - num / den| ≤ 1 / 2 := by
  obtain ⟨h1, h2⟩ := roundHalfEven_bounds num hden
  have hd : (0 : ℚ) < den := by exact_mod_cast hden
  have hlow : (roundHalfEven num den : ℚ) - 1 / 2 ≤ num / den := by
    rw [le_div_iff₀ hd]
    have : (2 * (den * roundHalfEven num den) : ℚ) ≤ 2 * num + den := by exact_mod_cast h1
    linarith
  have hhigh : (num : ℚ) / den ≤ roundHalfEven num den + 1 / 2 := by
    rw [div_le_iff₀ hd]
    have : (2 * num : ℚ) ≤ 2 * (den * roundHalfEven num den) + den := by exact_mod_cast h2
    linarith
  exact abs_le.mpr ⟨by linarith, by linarith⟩

/-- Twice the fraction lies between the odd numbers next to twice the integer that it is rounded to, and
strictly between them if that integer is odd. -/
theorem roundHalfEven_eq_of_bounds (hden : 0 < den) (hlow : 2 * k * den ≤ 2 * num + den)
    (hhigh : 2 * num ≤ 2 * k * den + den)
    (hodd : k % 2 = 1 → 2 * k * den < 2 * num + den ∧ 2 * num < 2 * k * den + den) :
    roundHalfEven num den = k := by
  have hnum := Nat.div_add_mod num den
  have hr := Nat.mod_lt num hden
  set q := num / den
  set r := num % den
  -- the integer below the fraction is this one or the one before it
  have hq : q = k ∨ q + 1 = k := by
    have h1 : q ≤ k := by
      by_contra h
      have : den * (k + 1) ≤ den * q := Nat.mul_le_mul_left den (by omega)
      nlinarith
    have h2 : k ≤ q + 1 := by
      by_contra h
      have : den * (q + 2) ≤ den * k := Nat.mul_le_mul_left den (by omega)
      nlinarith
    omega
  unfold roundHalfEven
  change (if 2 * r < den then q else if den < 2 * r then q + 1 else if q % 2 = 0 then q else q + 1) = k
  rcases hq with rfl | hq
  · have hle : 2 * r ≤ den := by nlinarith
    have hlt : q % 2 = 1 → 2 * r < den := fun h => by
      have := (hodd h).2
      nlinarith
    split_ifs <;> omega
  · have hle : den ≤ 2 * r := by
      rw [← hq] at hlow
      nlinarith
    have hlt : k % 2 = 1 → den < 2 * r := fun h => by
      have := (hodd h).1
      rw [← hq] at this
      nlinarith
    split_ifs <;> omega

/-- The integer that is within a half is the one that it is rounded to, and an even one also at a half. -/
theorem roundHalfEven_eq (hden : 0 < den) (hlow : (k : ℚ) - 1 / 2 ≤ num / den)
    (hhigh : (num : ℚ) / den ≤ k + 1 / 2)
    (hodd : k % 2 = 1 → (k : ℚ) - 1 / 2 < num / den ∧ (num : ℚ) / den < k + 1 / 2) :
    roundHalfEven num den = k := by
  have hd : (0 : ℚ) < den := by exact_mod_cast hden
  refine roundHalfEven_eq_of_bounds hden ?_ ?_ fun hk => ?_
  · rw [le_div_iff₀ hd] at hlow
    exact_mod_cast (by linarith : (2 * k * den : ℚ) ≤ 2 * num + den)
  · rw [div_le_iff₀ hd] at hhigh
    exact_mod_cast (by linarith : (2 * num : ℚ) ≤ 2 * k * den + den)
  · obtain ⟨h1, h2⟩ := hodd hk
    rw [lt_div_iff₀ hd] at h1
    rw [div_lt_iff₀ hd] at h2
    exact ⟨by exact_mod_cast (by linarith : (2 * k * den : ℚ) < 2 * num + den),
      by exact_mod_cast (by linarith : (2 * num : ℚ) < 2 * k * den + den)⟩

theorem two_pow_add (e : Int) (n : Nat) : (2 : ℚ) ^ (e + n) = 2 ^ n * 2 ^ e := by
  rw [add_comm, zpow_add₀ two_ne_zero, zpow_natCast]

/-- The powers of two around a fraction, by the lengths of its parts. -/
theorem two_pow_log2_le_div (hnum : 0 < num) (hden : 0 < den) :
    (2 : ℚ) ^ ((Nat.log2 num : Int) - (Nat.log2 den + 1 : Nat)) ≤ num / den := by
  have hd : (0 : ℚ) < den := by exact_mod_cast hden
  have hbelow : ((2 : ℚ) ^ Nat.log2 num) ≤ num := by exact_mod_cast Nat.log2_self_le hnum.ne'
  have habove : (den : ℚ) < 2 ^ (Nat.log2 den + 1) := by exact_mod_cast Nat.lt_log2_self
  rw [zpow_sub₀ two_ne_zero, zpow_natCast, zpow_natCast]
  exact div_le_div₀ (Nat.cast_nonneg _) hbelow hd habove.le

theorem div_lt_two_pow_log2 (hden : 0 < den) :
    (num : ℚ) / den < 2 ^ ((Nat.log2 num + 1 : Nat) - (Nat.log2 den : Int)) := by
  have hbelow : ((2 : ℚ) ^ Nat.log2 den) ≤ den := by exact_mod_cast Nat.log2_self_le hden.ne'
  have habove : (num : ℚ) < 2 ^ (Nat.log2 num + 1) := by exact_mod_cast Nat.lt_log2_self
  rw [zpow_sub₀ two_ne_zero, zpow_natCast, zpow_natCast]
  exact div_lt_div₀ habove hbelow (by positivity) (by positivity)

/-- A fraction without its power of two has more than 53 bits just if it is at least the power of two of
54 bits. -/
theorem scaled_wide_iff (num : Nat) (hden : 0 < den) (e : Int) :
    2 ^ 53 * (scaled num den e).2 ≤ (scaled num den e).1 ↔ (2 : ℚ) ^ (e + 53) ≤ num / den := by
  have hpos : (0 : ℚ) < (scaled num den e).2 := by exact_mod_cast scaled_den_pos num hden e
  have hpow : (0 : ℚ) < 2 ^ e := by positivity
  calc 2 ^ 53 * (scaled num den e).2 ≤ (scaled num den e).1
      ↔ (2 : ℚ) ^ 53 ≤ (scaled num den e).1 / (scaled num den e).2 := by
        rw [le_div_iff₀ hpos]
        exact_mod_cast Iff.rfl
    _ ↔ (2 : ℚ) ^ (e + 53) ≤ num / den := by
        have hadd : (2 : ℚ) ^ (e + 53) = 2 ^ 53 * 2 ^ e := two_pow_add e 53
        rw [scaled_eq, le_div_iff₀ hpow, hadd]

end Fractions

section Rounding

variable {m num den : Nat} {e : Int} {v : ℚ}

/-- The significands and exponents that there are. -/
structure Canonical (m : Nat) (e : Int) : Prop where
  below : m < 2 ^ 53
  least : -1074 ≤ e
  most : e ≤ 971
  full : 2 ^ 52 ≤ m ∨ e = -1074

/-- Quarters of a unit down to the middle of the way to the number before: half as many where the numbers
before are twice as close. -/
def quarters (m : Nat) (e : Int) : Nat := if m = 2 ^ 52 ∧ -1074 < e then 1 else 2

/-- No more than half the way from a number to its neighbours, and less if its significand is odd. -/
structure Near (m : Nat) (e : Int) (v : ℚ) : Prop where
  low : (4 * m - quarters m e) * (2 ^ e / 4) ≤ v
  high : v ≤ (4 * m + 2) * (2 ^ e / 4)
  inside : m % 2 = 1 → (4 * m - quarters m e) * (2 ^ e / 4) < v ∧ v < (4 * m + 2) * (2 ^ e / 4)

/-- A significand of 54 bits is one of 53 bits under the next exponent. -/
def carried (negative : Bool) (m : Nat) (e : Int) : Binary64 :=
  if m = 2 ^ 53 then (if 971 < e + 1 then .infinity negative else .finite negative (2 ^ 52) (e + 1))
  else if 971 < e then .infinity negative else .finite negative m e

/-- The significand that a fraction is rounded to under an exponent. -/
def rounded (num den : Nat) (e : Int) : Nat := roundHalfEven (scaled num den e).1 (scaled num den e).2

theorem ofRatio_eq_carried (negative : Bool) (hnum : 0 < num) (hden : 0 < den) {low e : Int}
    (hlow : low = (Nat.log2 num : Int) - Nat.log2 den - 53)
    (he : e = if 2 ^ 53 * (scaled num den low).2 ≤ (scaled num den low).1 then low + 1 else low) :
    ofRatio negative num den =
      carried negative (rounded num den (max (-1074) e)) (max (-1074) e) := by
  have hzero : ¬(num = 0 ∨ den = 0) := by omega
  unfold ofRatio carried rounded
  rw [if_neg hzero]
  simp only [decide_eq_true_eq, Nat.pow_eq, ← hlow, ← he]
  generalize max (-1074) e = e
  generalize roundHalfEven _ _ = m
  by_cases hm : m = 2 ^ 53
  · rw [if_pos hm, if_pos hm]
  · rw [if_neg hm, if_neg hm]

/-- The exponent for which a fraction is a significand of 53 bits, or else the least one. -/
theorem ofRatio_eq (negative : Bool) (hnum : 0 < num) (hden : 0 < den) :
    ∃ e : Int, 2 ^ (e + 52) ≤ (num / den : ℚ) ∧ (num / den : ℚ) < 2 ^ (e + 53) ∧
      ofRatio negative num den =
        carried negative (rounded num den (max (-1074) e)) (max (-1074) e) := by
  obtain ⟨low, hlow⟩ : ∃ low : Int, low = (Nat.log2 num : Int) - Nat.log2 den - 53 := ⟨_, rfl⟩
  have hlower : (2 : ℚ) ^ (low + 52) ≤ num / den := by
    have he : low + 52 = (Nat.log2 num : Int) - (Nat.log2 den + 1 : Nat) := by push_cast; omega
    exact he ▸ two_pow_log2_le_div hnum hden
  have hupper : (num : ℚ) / den < 2 ^ (low + 1 + 53) := by
    have he : low + 1 + 53 = (Nat.log2 num + 1 : Nat) - (Nat.log2 den : Int) := by push_cast; omega
    exact he ▸ div_lt_two_pow_log2 hden
  have hwide := scaled_wide_iff num hden low
  by_cases h : 2 ^ 53 * (scaled num den low).2 ≤ (scaled num den low).1
  · refine ⟨low + 1, ?_, hupper, ofRatio_eq_carried negative hnum hden hlow (if_pos h).symm⟩
    have he : low + 1 + 52 = low + 53 := by ring
    exact he ▸ hwide.mp h
  · exact ⟨low, hlower, not_le.mp (mt hwide.mpr h),
      ofRatio_eq_carried negative hnum hden hlow (if_neg h).symm⟩

theorem quarters_le (m : Nat) (e : Int) : (quarters m e : ℚ) ≤ 2 := by
  unfold quarters
  split <;> norm_num

theorem Near.half_le (h : Near m e v) : ((m : ℚ) - 1 / 2) * 2 ^ e ≤ v := by
  have hunit : (0 : ℚ) < 2 ^ e := by positivity
  have hquarters := quarters_le m e
  exact le_trans (by nlinarith) h.low

theorem Near.le_half (h : Near m e v) : v ≤ ((m : ℚ) + 1 / 2) * 2 ^ e :=
  h.high.trans (by linarith)

theorem Near.pos (h : Near m e v) (hm : 0 < m) : 0 < v := by
  have hone : (1 : ℚ) ≤ m := by exact_mod_cast hm
  have hunit : (0 : ℚ) < 2 ^ e := by positivity
  exact lt_of_lt_of_le (by nlinarith) h.half_le

/-- What is near a number is rounded to its significand under its exponent. -/
theorem Near.rounded_eq (h : Near m e (num / den)) (hden : 0 < den) : rounded num den e = m := by
  have hunit : (0 : ℚ) < 2 ^ e := by positivity
  have hquarters := quarters_le m e
  refine roundHalfEven_eq (scaled_den_pos num hden e) ?_ ?_ fun hodd => ?_
  · rw [scaled_eq, le_div_iff₀ hunit]
    exact h.half_le
  · rw [scaled_eq, div_le_iff₀ hunit]
    exact h.le_half
  · obtain ⟨h1, h2⟩ := h.inside hodd
    rw [scaled_eq, lt_div_iff₀ hunit, div_lt_iff₀ hunit]
    exact ⟨lt_of_le_of_lt (by nlinarith) h1, h2.trans_le (by nlinarith)⟩

/-- The exponent for which it is a significand of 53 bits is not above that of the number. -/
theorem Near.exponent_le {E : Int} (h : Near m e v) (hc : Canonical m e) (hfrom : 2 ^ (E + 52) ≤ v) :
    E ≤ e := by
  have hunit : (0 : ℚ) < 2 ^ e := by positivity
  have hbelow : (m : ℚ) + 1 ≤ 2 ^ 53 := by exact_mod_cast hc.below
  have hhigh := h.le_half
  have hlt : (2 : ℚ) ^ (E + 52) < 2 ^ (e + (53 : Nat)) := by
    rw [two_pow_add]
    nlinarith
  have := (zpow_lt_zpow_iff_right₀ one_lt_two).mp hlt
  push_cast at this
  omega

/-- Only just below a power of two is it less, and then by one. -/
theorem Near.below_power {E : Int} (h : Near m e v) (hc : Canonical m e) (he : -1074 < e) (hE : E < e)
    (hto : v < 2 ^ (E + 53)) :
    m = 2 ^ 52 ∧ E = e - 1 ∧ ((2 : ℚ) ^ 52 - 1 / 4) * 2 ^ e ≤ v ∧ v < 2 ^ 52 * 2 ^ e := by
  have hunit : (0 : ℚ) < 2 ^ e := by positivity
  have hto' : v < 2 ^ 52 * 2 ^ e := by
    rw [← two_pow_add]
    exact hto.trans_le (zpow_le_zpow_right₀ one_le_two (by push_cast; omega))
  have hfull : 2 ^ 52 ≤ m := hc.full.resolve_right he.ne'
  have hm : m = 2 ^ 52 := by
    refine le_antisymm (Nat.lt_succ_iff.mp ?_) hfull
    have hhalf := h.half_le
    have hlt : (m : ℚ) < 2 ^ 52 + 1 := by nlinarith
    exact_mod_cast hlt
  have hlow : ((2 : ℚ) ^ 52 - 1 / 4) * 2 ^ e ≤ v := by
    have := h.low
    rw [quarters, if_pos ⟨hm, he⟩, hm] at this
    push_cast at this
    linarith
  have hlt : (2 : ℚ) ^ (e - 1 + 52) < 2 ^ (E + 53) := by
    have hexp : e - 1 + 52 = e + (51 : Nat) := by push_cast; ring
    rw [hexp, two_pow_add]
    nlinarith
  have := (zpow_lt_zpow_iff_right₀ one_lt_two).mp hlt
  exact ⟨hm, by omega, hlow, hto'⟩

/-- There the significand is rounded up to 54 bits. -/
theorem rounded_below_power (hden : 0 < den) (hlow : ((2 : ℚ) ^ 52 - 1 / 4) * 2 ^ e ≤ num / den)
    (hhigh : (num : ℚ) / den < 2 ^ 52 * 2 ^ e) : rounded num den (e - 1) = 2 ^ 53 := by
  have hunit : (0 : ℚ) < 2 ^ e := by positivity
  have hhalf : (2 : ℚ) ^ (e - 1) = 2 ^ e / 2 := by rw [zpow_sub_one₀ two_ne_zero]; ring
  refine roundHalfEven_eq (scaled_den_pos num hden (e - 1)) ?_ ?_ fun hodd => absurd hodd (by decide)
  · rw [scaled_eq, hhalf, le_div_iff₀ (half_pos hunit)]
    push_cast
    linarith
  · rw [scaled_eq, hhalf, div_le_iff₀ (half_pos hunit)]
    push_cast
    nlinarith

/-- The number is what is near it is rounded to. -/
theorem ofRatio_of_near (negative : Bool) (hc : Canonical m e) (hm : 0 < m) (hden : 0 < den)
    (h : Near m e (num / den)) : ofRatio negative num den = .finite negative m e := by
  have hnum : 0 < num := by
    have := h.pos hm
    exact Nat.pos_of_ne_zero fun h0 => by simp [h0] at this
  have hbelow := hc.below
  have hmost := hc.most
  have hleast := hc.least
  obtain ⟨E, hfrom, hto, heq⟩ := ofRatio_eq negative hnum hden
  have hE := h.exponent_le hc hfrom
  -- The exponent is that of the number, but for fractions just below a power of two.
  by_cases hmax : max (-1074) E = e
  · rw [heq, hmax, h.rounded_eq hden, carried, if_neg (by omega), if_neg (by omega)]
  · obtain ⟨rfl, rfl, hlow, hhigh⟩ := h.below_power hc (by omega) (by omega) hto
    have hmax' : max (-1074) (e - 1) = e - 1 := by omega
    rw [heq, hmax', rounded_below_power hden hlow hhigh, carried, if_pos rfl, if_neg (by omega),
      sub_add_cancel]

theorem Canonical.lt_top (hc : Canonical m e) : ((m : ℚ) + 1 / 2) * 2 ^ e < 2 ^ 1024 := by
  have hbelow : (m : ℚ) + 1 ≤ 2 ^ 53 := by exact_mod_cast hc.below
  have hunit : (0 : ℚ) < 2 ^ e := by positivity
  calc ((m : ℚ) + 1 / 2) * 2 ^ e < 2 ^ 53 * 2 ^ e := by nlinarith
    _ ≤ 2 ^ 53 * 2 ^ (971 : Int) := by
        gcongr
        · exact one_le_two
        · exact hc.most
    _ = 2 ^ 1024 := by
        rw [zpow_ofNat, ← pow_add]

theorem Canonical.bottom_le (hc : Canonical m e) (hm : 0 < m) :
    2 ^ (-1075 : Int) ≤ ((m : ℚ) - 1 / 2) * 2 ^ e := by
  have hone : (1 : ℚ) ≤ m := by exact_mod_cast hm
  have hunit : (0 : ℚ) < 2 ^ e := by positivity
  calc (2 : ℚ) ^ (-1075 : Int) = 1 / 2 * 2 ^ (-1074 : Int) := by
        rw [show (-1075 : Int) = -1074 - 1 by norm_num, zpow_sub_one₀ two_ne_zero]
        ring
    _ ≤ 1 / 2 * 2 ^ e := by
        gcongr
        · exact one_le_two
        · exact hc.least
    _ ≤ ((m : ℚ) - 1 / 2) * 2 ^ e := by nlinarith

theorem two_pow_le_ten_pow {a b : Nat} (h : a ≤ 3 * b) : (2 : ℚ) ^ a ≤ 10 ^ b :=
  calc (2 : ℚ) ^ a ≤ 2 ^ (3 * b) := pow_le_pow_right₀ one_le_two h
    _ = (2 ^ 3) ^ b := pow_mul 2 3 b
    _ ≤ 10 ^ b := pow_le_pow_left₀ (by norm_num) (by norm_num) b

/-- The powers of ten around a decimal, by the number of its digits. -/
theorem decimal_bounds {digits : Nat} {exponent size : Int} (hdigits : 0 < digits)
    (hsize : size = (Nat.toDigits 10 digits).length + exponent) :
    (10 : ℚ) ^ (size - 1) ≤ digits * 10 ^ exponent ∧ (digits : ℚ) * 10 ^ exponent < 10 ^ size := by
  have hpow : (0 : ℚ) < 10 ^ exponent := by positivity
  constructor
  · obtain ⟨l, hl⟩ := Nat.exists_eq_add_one.mpr (Nat.length_toDigits_pos (b := 10) (n := digits))
    have hle : 10 ^ l ≤ digits := by
      rcases Nat.eq_zero_or_pos l with rfl | hpos
      · exact hdigits
      · exact not_lt.mp fun h => absurd ((Nat.length_toDigits_le_iff (by decide) hpos).mpr h) (by omega)
    rw [hsize, hl, show ((l + 1 : Nat) : Int) + exponent - 1 = l + exponent by push_cast; ring,
      zpow_add₀ (by norm_num), zpow_natCast]
    exact mul_le_mul_of_nonneg_right (by exact_mod_cast hle) hpow.le
  · have hlt : digits < 10 ^ (Nat.toDigits 10 digits).length :=
      (Nat.length_toDigits_le_iff (by decide) Nat.length_toDigits_pos).mp le_rfl
    rw [hsize, zpow_add₀ (by norm_num), zpow_natCast]
    exact mul_lt_mul_of_pos_right (by exact_mod_cast hlt) hpow

/-- The number is what decimals near it are read as. -/
theorem ofDecimal_of_near (negative : Bool) (hc : Canonical m e) (hm : 0 < m) {digits : Nat}
    {exponent : Int} (h : Near m e (digits * 10 ^ exponent)) :
    ofDecimal negative digits exponent = .finite negative m e := by
  have hdigits : 0 < digits := by
    have := h.pos hm
    exact Nat.pos_of_ne_zero fun h0 => by simp [h0] at this
  obtain ⟨size, hsize⟩ : ∃ size : Int, size = (Nat.toDigits 10 digits).length + exponent := ⟨_, rfl⟩
  obtain ⟨hfrom, hupto⟩ := decimal_bounds hdigits hsize
  have hnotlarge : ¬400 < size := by
    intro hlt
    have := calc (2 : ℚ) ^ 1024 ≤ 10 ^ 400 := two_pow_le_ten_pow (by norm_num)
      _ = 10 ^ (400 : Int) := (zpow_natCast 10 400).symm
      _ ≤ 10 ^ (size - 1) := zpow_le_zpow_right₀ (by norm_num) (by omega)
      _ ≤ digits * 10 ^ exponent := hfrom
      _ ≤ ((m : ℚ) + 1 / 2) * 2 ^ e := h.le_half
    exact absurd hc.lt_top (not_lt.mpr this)
  have hnotsmall : ¬size < -400 := by
    intro hlt
    have := calc (digits : ℚ) * 10 ^ exponent < 10 ^ size := hupto
      _ ≤ 10 ^ (-401 : Int) := zpow_le_zpow_right₀ (by norm_num) (by omega)
      _ ≤ 2 ^ (-1075 : Int) := by
          rw [zpow_neg, zpow_neg, zpow_ofNat, zpow_ofNat]
          exact inv_anti₀ (pow_pos two_pos _) (two_pow_le_ten_pow (by norm_num))
      _ ≤ ((m : ℚ) - 1 / 2) * 2 ^ e := hc.bottom_le hm
    exact absurd h.half_le (not_le.mpr this)
  rw [ofDecimal, if_neg hdigits.ne']
  dsimp only
  rw [← hsize, if_neg hnotlarge, if_neg hnotsmall]
  split
  · rename_i he
    refine ofRatio_of_near negative hc hm Nat.one_pos ?_
    obtain ⟨n, rfl⟩ := Int.eq_ofNat_of_zero_le he
    simpa using h
  · rename_i he
    refine ofRatio_of_near negative hc hm (Nat.pow_pos (by decide)) ?_
    obtain ⟨n, hn⟩ := Int.eq_ofNat_of_zero_le (show 0 ≤ -exponent by omega)
    obtain rfl : exponent = -n := by omega
    simpa [div_eq_mul_inv] using h

end Rounding

end Binary64
end TableQuery
