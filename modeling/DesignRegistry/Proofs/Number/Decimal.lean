/-
**Reading a decimal.**

A decimal is decided by its magnitude alone where that is far outside the range of binary numbers.  A
decimal that lies near to a number is never as far outside, so it is rounded, and rounded to that
number.

Main definitions:

* `Decimal.ratio` — the number that a decimal denotes, without its sign.

Main results:

* `Decimal.member_toBinary64` — what is read is a number of 64 bits;
* `Decimal.toBinary64_of_near` — **a decimal is read as the number that it lies near to**.
-/
import DesignRegistry.Proofs.Number.Digits
import DesignRegistry.Proofs.Number.Shortest

set_option relaxedAutoImplicit false
set_option autoImplicit false

namespace DesignRegistry

namespace Binary64

/-- What lies near to a positive number is positive and has no more than 1025 bits on either side of
the point. -/
theorem Near.bounds {negative : Bool} {mantissa : ℕ} {exponent : ℤ} {q : ℚ}
    (hmember : (finite negative mantissa exponent).Member) (hpos : 0 < mantissa)
    (h : Near mantissa exponent q) : (2 : ℚ) ^ (-1075 : ℤ) ≤ q ∧ q ≤ 2 ^ (1024 : ℤ) := by
  obtain ⟨hless, hmin, hmax, -⟩ := hmember
  have hpow : (0 : ℚ) < 2 ^ exponent := zpow_pos two_pos _
  have hhalf := below_le_half mantissa exponent
  have hone : (1 : ℚ) ≤ mantissa := by exact_mod_cast hpos
  have hmost : (mantissa : ℚ) + 1 ≤ 2 ^ 53 := by exact_mod_cast hless
  constructor
  · calc (2 : ℚ) ^ (-1075 : ℤ) = 1 / 2 * 2 ^ minExponent := by
          rw [show (-1075 : ℤ) = -1 + minExponent from rfl, zpow_add₀ (two_ne_zero' ℚ)]
          norm_num
      _ ≤ 1 / 2 * 2 ^ exponent := by
          gcongr
          norm_num
      _ ≤ (mantissa - below mantissa exponent) * 2 ^ exponent := by
          gcongr
          linarith
      _ ≤ q := h.low
  · calc q ≤ (mantissa + 1 / 2) * 2 ^ exponent := h.high
      _ ≤ 2 ^ 53 * 2 ^ exponent := by
          gcongr
          linarith
      _ ≤ 2 ^ 53 * 2 ^ maxExponent := by
          gcongr
          norm_num
      _ = 2 ^ (1024 : ℤ) := by
          rw [show (1024 : ℤ) = 53 + maxExponent from rfl, zpow_add₀ (two_ne_zero' ℚ)]
          norm_num

end Binary64

namespace Decimal

/-- The number that a decimal denotes, without its sign. -/
def ratio (d : Decimal) : ℚ := d.digits * 10 ^ d.exponent

/-- The magnitude of a decimal bounds the number that it denotes. -/
theorem ratio_bounds {d : Decimal} (h : 0 < d.digits) :
    (10 : ℚ) ^ ((natDigits d.digits).length + d.exponent - 1) ≤ d.ratio ∧
      d.ratio < 10 ^ ((natDigits d.digits).length + d.exponent) := by
  have hpow : (0 : ℚ) < 10 ^ d.exponent := zpow_pos (by norm_num) _
  have hlength : 0 < (natDigits d.digits).length := List.length_pos_iff.2 (natDigits_ne_nil _)
  have hlow : (10 : ℚ) ^ ((natDigits d.digits).length - 1) ≤ d.digits := by
    exact_mod_cast ten_pow_le h (Nat.sub_lt hlength one_pos)
  have hhigh : (d.digits : ℚ) < 10 ^ (natDigits d.digits).length := by
    exact_mod_cast lt_ten_pow_length d.digits
  rw [ratio]
  constructor
  · calc (10 : ℚ) ^ ((natDigits d.digits).length + d.exponent - 1)
        = 10 ^ ((natDigits d.digits).length - 1) * 10 ^ d.exponent := by
          rw [← zpow_natCast, ← zpow_add₀ (by norm_num)]
          congr 1
          omega
      _ ≤ d.digits * 10 ^ d.exponent := mul_le_mul_of_nonneg_right hlow hpow.le
  · calc (d.digits : ℚ) * 10 ^ d.exponent
        < 10 ^ (natDigits d.digits).length * 10 ^ d.exponent := mul_lt_mul_of_pos_right hhigh hpow
      _ = 10 ^ ((natDigits d.digits).length + d.exponent) := by
          rw [← zpow_natCast, ← zpow_add₀ (by norm_num)]

/-- What is read is a number of 64 bits. -/
theorem member_toBinary64 (d : Decimal) : d.toBinary64.Member := by
  rw [toBinary64]
  dsimp only
  split
  · exact Binary64.member_zero _
  · split
    · trivial
    · split
      · exact Binary64.member_zero _
      · split
        · exact Binary64.member_ofRatio _ _ (tenTo_pos _)
        · exact Binary64.member_ofRatio _ _ one_pos

/-- A decimal of a magnitude within the range of binary numbers is rounded. -/
theorem toBinary64_of_magnitude {d : Decimal} (h : 0 < d.digits)
    (hlow : -400 ≤ (natDigits d.digits).length + d.exponent)
    (hhigh : (natDigits d.digits).length + d.exponent ≤ 400) :
    ∃ num den : ℕ, 0 < den ∧ (num : ℚ) / den = d.ratio ∧
      d.toBinary64 = Binary64.ofRatio d.negative num den := by
  have hratio := Binary64.ratio_zpow tenTo_cast d.digits d.exponent
  rw [toBinary64, if_neg h.ne']
  dsimp only
  rw [if_neg (by omega), if_neg (by omega)]
  split
  · next hneg =>
      rw [if_pos hneg, if_pos hneg] at hratio
      exact ⟨d.digits, tenTo (-d.exponent).toNat, tenTo_pos _, hratio, rfl⟩
  · next hnonneg =>
      rw [if_neg hnonneg, if_neg hnonneg] at hratio
      exact ⟨d.digits * tenTo d.exponent.toNat, 1, one_pos, hratio, rfl⟩

/-- A decimal is read as the number that it lies near to. -/
theorem toBinary64_of_near {d : Decimal} {mantissa : ℕ} {exponent : ℤ}
    (hmember : (Binary64.finite d.negative mantissa exponent).Member) (hpos : 0 < mantissa)
    (h : Binary64.Near mantissa exponent d.ratio) :
    d.toBinary64 = .finite d.negative mantissa exponent := by
  obtain ⟨hleast, hmost⟩ := h.bounds hmember hpos
  have hdigits : 0 < d.digits := by
    rw [Nat.pos_iff_ne_zero]
    intro hzero
    rw [ratio, hzero, Nat.cast_zero, zero_mul] at hleast
    exact absurd hleast (not_le.2 (zpow_pos two_pos _))
  obtain ⟨hlow, hhigh⟩ := ratio_bounds hdigits
  have hten {a b : ℤ} : (10 : ℚ) ^ a < 10 ^ b ↔ a < b := zpow_lt_zpow_iff_right₀ (by norm_num)
  -- three bits are less than a digit
  have hbits : (2 : ℚ) ^ (1200 : ℤ) < 10 ^ (400 : ℤ) := by
    rw [show (1200 : ℤ) = 3 * (400 : ℕ) from rfl, zpow_mul, zpow_natCast,
      show (400 : ℤ) = (400 : ℕ) from rfl, zpow_natCast]
    exact pow_lt_pow_left₀ (by norm_num) (by norm_num) (by norm_num)
  have hfloor : -400 ≤ (natDigits d.digits).length + d.exponent := by
    have hsmall : (10 : ℚ) ^ (-400 : ℤ) < 2 ^ (-1200 : ℤ) := by
      rw [zpow_neg, zpow_neg, inv_lt_inv₀ (by positivity) (by positivity)]
      exact hbits
    have hless : (2 : ℚ) ^ (-1200 : ℤ) ≤ 2 ^ (-1075 : ℤ) :=
      zpow_le_zpow_right₀ one_le_two (by norm_num)
    exact (hten.1 (((hsmall.trans_le hless).trans_le hleast).trans hhigh)).le
  have hceiling : (natDigits d.digits).length + d.exponent ≤ 400 := by
    have hless : (2 : ℚ) ^ (1024 : ℤ) ≤ 2 ^ (1200 : ℤ) :=
      zpow_le_zpow_right₀ one_le_two (by norm_num)
    have hbound := hten.1 (hlow.trans_lt ((hmost.trans hless).trans_lt hbits))
    omega
  obtain ⟨num, den, hden, hratio, hround⟩ := toBinary64_of_magnitude hdigits hfloor hceiling
  rw [hround]
  exact Binary64.ofRatio_of_near hmember hpos hden (hratio ▸ h)

end Decimal

end DesignRegistry
