/-
**Integers as binary numbers.**

A natural number has 53 significant bits as a binary number, and more of them are rounded.  What it is
rounded to is defined for every natural number, however great: this keeps the order, changes nothing up to
`2 ^ 53`, and moves a number by at most one part in `2 ^ 53` of it.  The binary numbers end before
`2 ^ 1024`; the naturals that are rounded to this power or beyond it are those from `reach` on.

So the comparison of two integers as binary numbers is right unless both have the same binary number, and
integers that have it are close to each other.

Main definitions:

* `Binary64.rounded`, `Binary64.nearest` — what a natural number and an integer are rounded to;
* `Binary64.reach` — the least natural number that is too great for a binary number;
* `Binary64.SameBinary` — two integers are rounded to one binary number.

Main results:

* `Binary64.rounded_mono`, `Binary64.rounded_eq_self`, `Binary64.abs_rounded_sub_le` — what rounding keeps;
* `Binary64.ofInt?_eq_none_iff` — how far the binary numbers reach;
* `Binary64.SameBinary.near`, `Binary64.SameBinary.eq` — integers with one binary number;
* `Binary64.lt_iff_of_ofInt?` — **binary numbers of integers are in the order of the integers, or the same**.
-/
import DesignRegistry.Proofs.Number.Value

set_option relaxedAutoImplicit false
set_option autoImplicit false

namespace DesignRegistry

namespace Binary64

/-! ### Binades -/

/-- The exponent of a natural number tells the powers of two between which it lies. -/
theorem binade {n : ℕ} (hn : 0 < n) :
    (2 : ℚ) ^ (52 + exponentFor n 1) ≤ n ∧ (n : ℚ) < 2 ^ (53 + exponentFor n 1) ∧
      -53 < exponentFor n 1 := by
  obtain ⟨t, hexponent, hlow, hhigh⟩ := exponentFor_spec hn one_pos
  rw [Nat.cast_one, div_one] at hlow hhigh
  have hone : (1 : ℚ) ≤ n := by exact_mod_cast hn
  have hzero : (2 : ℚ) ^ (0 : ℤ) < 2 ^ (53 + t) := by
    rw [zpow_zero]
    exact hone.trans_lt hhigh
  have ht := (zpow_lt_zpow_iff_right₀ one_lt_two).1 hzero
  have heq : exponentFor n 1 = t := by
    rw [hexponent, minExponent]
    omega
  rw [heq]
  exact ⟨hlow, hhigh, by omega⟩

theorem exponentFor_mono {m n : ℕ} (hm : 0 < m) (h : m ≤ n) : exponentFor m 1 ≤ exponentFor n 1 := by
  obtain ⟨hlow, -, -⟩ := binade hm
  obtain ⟨-, hhigh, -⟩ := binade (hm.trans_le h)
  have hcast : (m : ℚ) ≤ n := by exact_mod_cast h
  have hless := (zpow_lt_zpow_iff_right₀ one_lt_two).1 ((hlow.trans hcast).trans_lt hhigh)
  omega

/-- The mantissa of a natural number has 53 bits, or is the next power of two. -/
theorem mantissa_mem {n : ℕ} (hn : 0 < n) :
    2 ^ 52 ≤ roundedFor n 1 (exponentFor n 1) ∧ roundedFor n 1 (exponentFor n 1) ≤ 2 ^ 53 := by
  obtain ⟨hmost, hless⟩ := roundedFor_spec hn one_pos
  obtain ⟨-, -, hexponent⟩ := binade hn
  refine ⟨not_lt.1 fun hsmall => ?_, hmost⟩
  have hmin := hless hsmall
  rw [minExponent] at hmin
  omega

/-- With one exponent, mantissas are in the order of the numbers. -/
theorem roundedFor_mono {m n : ℕ} (h : m ≤ n) (e : ℤ) : roundedFor m 1 e ≤ roundedFor n 1 e := by
  have hsame : (unscale m 1 e).2 = (unscale n 1 e).2 := by
    rw [unscale, unscale]
    split <;> rfl
  have hnum : (unscale m 1 e).1 ≤ (unscale n 1 e).1 := by
    rw [unscale, unscale]
    split
    · exact Nat.mul_le_mul_right _ h
    · exact h
  rw [roundedFor, roundedFor, hsame]
  exact roundHalfEven_mono (unscale_pos n one_pos e) hnum

/-! ### What a natural number is rounded to -/

/-- What a natural number is rounded to, however great it is. -/
def rounded (n : ℕ) : ℚ := (roundedFor n 1 (exponentFor n 1) : ℚ) * 2 ^ exponentFor n 1

theorem rounded_mem {n : ℕ} (hn : 0 < n) :
    (2 : ℚ) ^ (52 + exponentFor n 1) ≤ rounded n ∧ rounded n ≤ 2 ^ (53 + exponentFor n 1) := by
  obtain ⟨hleast, hmost⟩ := mantissa_mem hn
  have hpow : (0 : ℚ) < 2 ^ (exponentFor n 1) := zpow_pos two_pos _
  have hleast' : (2 : ℚ) ^ (52 : ℤ) ≤ roundedFor n 1 (exponentFor n 1) := by
    exact_mod_cast hleast
  have hmost' : (roundedFor n 1 (exponentFor n 1) : ℚ) ≤ 2 ^ (53 : ℤ) := by
    exact_mod_cast hmost
  rw [rounded, zpow_add₀ (two_ne_zero' ℚ), zpow_add₀ (two_ne_zero' ℚ)]
  exact ⟨mul_le_mul_of_nonneg_right hleast' hpow.le, mul_le_mul_of_nonneg_right hmost' hpow.le⟩

/-- Up to the first integer that takes 54 bits nothing is rounded. -/
theorem rounded_eq_self {n : ℕ} (h : n ≤ 2 ^ 53) : rounded n = n := by
  have hexact (a : ℕ) : roundHalfEven a 1 = a := by
    rw [roundHalfEven, Nat.mod_one, if_pos (by decide), Nat.div_one]
  rcases Nat.eq_zero_or_pos n with rfl | hn
  · rw [rounded, show roundedFor 0 1 (exponentFor 0 1) = 0 by decide]
    simp
  · rcases h.lt_or_eq with hlt | rfl
    · have hcast : (n : ℚ) < 2 ^ (53 : ℤ) := by exact_mod_cast hlt
      obtain ⟨hlow, -, -⟩ := binade hn
      have hexponent := (zpow_lt_zpow_iff_right₀ one_lt_two).1 (hlow.trans_lt hcast)
      rw [rounded, roundedFor, unscale]
      split
      · next hneg =>
          have hpow : (2 : ℚ) ^ (-exponentFor n 1).toNat * 2 ^ exponentFor n 1 = 1 := by
            rw [← zpow_natCast, Int.toNat_of_nonneg (by omega), ← zpow_add₀ (two_ne_zero' ℚ), neg_add_cancel, zpow_zero]
          rw [hexact, Nat.cast_mul, twoTo_cast, mul_assoc, hpow, mul_one]
      · next hpos =>
          have hzero : exponentFor n 1 = 0 := by omega
          rw [hzero]
          change ((roundHalfEven n 1 : ℕ) : ℚ) * 2 ^ (0 : ℤ) = n
          rw [hexact, zpow_zero, mul_one]
    · rw [rounded, show exponentFor (2 ^ 53) 1 = 1 by decide +kernel,
        show roundedFor (2 ^ 53) 1 1 = 2 ^ 52 by decide +kernel]
      norm_num

theorem rounded_nonneg (n : ℕ) : 0 ≤ rounded n := by
  rw [rounded]
  positivity

theorem rounded_pos {n : ℕ} (hn : 0 < n) : 0 < rounded n :=
  (zpow_pos two_pos _).trans_le (rounded_mem hn).1

theorem rounded_eq_zero_iff {n : ℕ} : rounded n = 0 ↔ n = 0 := by
  constructor
  · intro h
    by_contra hne
    exact (rounded_pos (Nat.pos_of_ne_zero hne)).ne' h
  · rintro rfl
    rw [rounded_eq_self (Nat.zero_le _), Nat.cast_zero]

/-- Rounding keeps the order. -/
theorem rounded_mono {m n : ℕ} (h : m ≤ n) : rounded m ≤ rounded n := by
  rcases Nat.eq_zero_or_pos m with rfl | hm
  · rw [rounded_eq_zero_iff.2 rfl]
    exact rounded_nonneg n
  · have hn := hm.trans_le h
    rcases (exponentFor_mono hm h).lt_or_eq with hlt | heq
    -- across binades the power of two between them separates the values
    · calc rounded m ≤ 2 ^ (53 + exponentFor m 1) := (rounded_mem hm).2
        _ ≤ 2 ^ (52 + exponentFor n 1) := zpow_le_zpow_right₀ one_le_two (by omega)
        _ ≤ rounded n := (rounded_mem hn).1
    · have hmantissa := roundedFor_mono h (exponentFor n 1)
      rw [rounded, rounded, heq]
      exact mul_le_mul_of_nonneg_right (by exact_mod_cast hmantissa) (zpow_pos two_pos _).le

/-- Rounding moves a natural number by at most one part in `2 ^ 53` of it. -/
theorem abs_rounded_sub_le (n : ℕ) : 2 ^ 53 * |rounded n - n| ≤ n := by
  rcases Nat.eq_zero_or_pos n with rfl | hn
  · rw [rounded_eq_zero_iff.2 rfl]
    simp
  · obtain ⟨hlow, -, -⟩ := binade hn
    have hpow : (0 : ℚ) < 2 ^ (exponentFor n 1) := zpow_pos two_pos _
    have hnear := abs_roundHalfEven_sub_le (unscale n 1 (exponentFor n 1)).1
      (unscale_pos n one_pos (exponentFor n 1))
    rw [unscale_div, Nat.cast_one, div_one] at hnear
    have hscaled : rounded n - n =
        ((roundedFor n 1 (exponentFor n 1) : ℚ) - n / 2 ^ exponentFor n 1) * 2 ^ exponentFor n 1 := by
      rw [rounded, sub_mul, div_mul_cancel₀ _ hpow.ne']
    rw [hscaled, abs_mul, abs_of_pos hpow]
    rw [zpow_add₀ (two_ne_zero' ℚ)] at hlow
    calc 2 ^ 53 * (|(roundedFor n 1 (exponentFor n 1) : ℚ) - n / 2 ^ exponentFor n 1| *
          2 ^ exponentFor n 1)
        ≤ 2 ^ 53 * (1 / 2 * 2 ^ exponentFor n 1) :=
          mul_le_mul_of_nonneg_left (mul_le_mul_of_nonneg_right hnear hpow.le) (by positivity)
      _ = 2 ^ (52 : ℤ) * 2 ^ exponentFor n 1 := by
          norm_num
          ring
      _ ≤ n := hlow

/-! ### How far the binary numbers reach -/

/-- The least natural number that is too great: it lies in the middle between the greatest binary number
and the next power of two, and the tie goes to the latter. -/
def reach : ℕ := 2 ^ 1024 - 2 ^ 970

/-- The numbers that are rounded below the power of two behind the greatest binary number. -/
theorem rounded_lt_iff {n : ℕ} : rounded n < 2 ^ (1024 : ℤ) ↔ n < reach := by
  constructor
  · intro hless
    by_contra hnot
    have hreach : rounded reach = 2 ^ (1024 : ℤ) := by
      rw [rounded, show exponentFor reach 1 = 971 by decide +kernel,
        show roundedFor reach 1 971 = 2 ^ 53 by decide +kernel, Nat.cast_pow, Nat.cast_two, ← zpow_natCast,
        ← zpow_add₀ (two_ne_zero' ℚ)]
      rfl
    have hle := rounded_mono (not_lt.1 hnot)
    rw [hreach] at hle
    exact absurd hless (not_lt.2 hle)
  · intro hless
    have hlast : rounded (reach - 1) < 2 ^ (1024 : ℤ) := by
      rw [rounded, show exponentFor (reach - 1) 1 = 971 by decide +kernel,
        show roundedFor (reach - 1) 1 971 = 2 ^ 53 - 1 by decide +kernel,
        show (1024 : ℤ) = 53 + 971 by norm_num, zpow_add₀ (two_ne_zero' ℚ)]
      exact mul_lt_mul_of_pos_right (by norm_num) (zpow_pos two_pos 971)
    exact (rounded_mono (Nat.le_sub_one_of_lt hless)).trans_lt hlast

/-- A mantissa of 53 bits with an exponent is a binary number or too great, as its value tells. -/
theorem bounded_cases (negative : Bool) {m : ℕ} (e : ℤ) (hleast : 2 ^ 52 ≤ m) (hmost : m < 2 ^ 53) :
    ((2 : ℚ) ^ (1024 : ℤ) ≤ m * 2 ^ e ∧ bounded negative m e = .infinite negative) ∨
      ((m : ℚ) * 2 ^ e < 2 ^ (1024 : ℤ) ∧ bounded negative m e = .finite negative m e) := by
  have hpow : (0 : ℚ) < 2 ^ e := zpow_pos two_pos _
  have hleast' : (2 : ℚ) ^ (52 : ℤ) ≤ m := by exact_mod_cast hleast
  have hmost' : (m : ℚ) < 2 ^ (53 : ℤ) := by exact_mod_cast hmost
  rw [bounded, maxExponent]
  by_cases hbig : e > 971
  · refine .inl ⟨?_, if_pos hbig⟩
    calc (2 : ℚ) ^ (1024 : ℤ) ≤ 2 ^ (52 + e) := zpow_le_zpow_right₀ one_le_two (by omega)
      _ = 2 ^ (52 : ℤ) * 2 ^ e := zpow_add₀ two_ne_zero 52 e
      _ ≤ m * 2 ^ e := mul_le_mul_of_nonneg_right hleast' hpow.le
  · refine .inr ⟨?_, if_neg hbig⟩
    calc (m : ℚ) * 2 ^ e < 2 ^ (53 : ℤ) * 2 ^ e := mul_lt_mul_of_pos_right hmost' hpow
      _ = 2 ^ (53 + e) := (zpow_add₀ two_ne_zero 53 e).symm
      _ ≤ 2 ^ (1024 : ℤ) := zpow_le_zpow_right₀ one_le_two (by omega)

/-- Carried or not, the mantissa of a natural number has 53 bits, and the value is what the number is
rounded to. -/
theorem exists_bounded (negative : Bool) {n : ℕ} (hn : 0 < n) :
    ∃ m e, 2 ^ 52 ≤ m ∧ m < 2 ^ 53 ∧ ofRatio negative n 1 = bounded negative m e
      ∧ (m : ℚ) * 2 ^ e = rounded n := by
  obtain ⟨hleast, hmost⟩ := mantissa_mem hn
  by_cases hcarry : roundedFor n 1 (exponentFor n 1) = 2 ^ 53
  · refine ⟨2 ^ 52, exponentFor n 1 + 1, le_rfl, by decide, ofRatio_of_carry hn hcarry, ?_⟩
    rw [rounded, hcarry, zpow_add_one₀ two_ne_zero]
    norm_num
    ring
  · exact ⟨_, _, hleast, lt_of_le_of_ne hmost hcarry, ofRatio_of_round hn rfl hcarry, rfl⟩

/-- The binary number of a natural number, where there is one, has the value that it is rounded to. -/
theorem ofRatio_natural (negative : Bool) (n : ℕ) :
    (reach ≤ n ∧ ofRatio negative n 1 = .infinite negative) ∨
      (n < reach ∧ ∃ m e, ofRatio negative n 1 = .finite negative m e ∧
        (finite negative m e).Member ∧ (m : ℚ) * 2 ^ e = rounded n) := by
  rw [← not_lt, ← rounded_lt_iff]
  rcases Nat.eq_zero_or_pos n with rfl | hn
  · have hzero : rounded 0 = 0 := rounded_eq_zero_iff.2 rfl
    refine .inr ⟨?_, 0, minExponent, by rw [ofRatio, if_pos rfl, zero], member_zero negative, ?_⟩
    · rw [hzero]
      exact zpow_pos two_pos 1024
    · rw [hzero, Nat.cast_zero, zero_mul]
  · have hmember := member_ofRatio negative n one_pos
    obtain ⟨m, e, hleast, hmost, hbinary, hvalue⟩ := exists_bounded negative hn
    rw [hbinary] at hmember ⊢
    rw [← hvalue]
    rcases bounded_cases negative e hleast hmost with ⟨hbig, h⟩ | ⟨hless, h⟩
    · exact .inl ⟨not_lt.2 hbig, h⟩
    · rw [h] at hmember
      exact .inr ⟨hless, m, e, h, hmember, rfl⟩

/-! ### Integers -/

/-- What an integer is rounded to, however great it is. -/
def nearest (i : ℤ) : ℚ := if i < 0 then -rounded i.natAbs else rounded i.natAbs

theorem nearest_mono {i j : ℤ} (h : i ≤ j) : nearest i ≤ nearest j := by
  rw [nearest, nearest]
  split
  · split
    · exact neg_le_neg (rounded_mono (by omega))
    · exact (neg_nonpos.2 (rounded_nonneg _)).trans (rounded_nonneg _)
  · rw [if_neg (by omega)]
    exact rounded_mono (by omega)

theorem abs_nearest_sub_le (i : ℤ) : 2 ^ 53 * |nearest i - i| ≤ |(i : ℚ)| := by
  have habs := abs_rounded_sub_le i.natAbs
  have hcast : ((i.natAbs : ℕ) : ℚ) = |(i : ℚ)| := by
    rw [← Int.cast_natCast, Int.natCast_natAbs, Int.cast_abs]
  rw [hcast] at habs
  rw [nearest]
  split
  · next hneg =>
      have hneg' : (i : ℚ) ≤ 0 := by exact_mod_cast hneg.le
      rw [show -rounded i.natAbs - (i : ℚ) = -(rounded i.natAbs - |(i : ℚ)|) by
        rw [abs_of_nonpos hneg']
        ring, abs_neg]
      exact habs
  · next hpos =>
      have hpos' : (0 : ℚ) ≤ i := by exact_mod_cast not_lt.1 hpos
      rwa [abs_of_nonneg hpos'] at habs ⊢

theorem nearest_eq_self {i : ℤ} (h : i.natAbs ≤ 2 ^ 53) : nearest i = i := by
  rw [nearest, rounded_eq_self h]
  split
  · next hneg =>
      have habs : ((i.natAbs : ℕ) : ℤ) = -i := by omega
      rw [← Int.cast_natCast, habs, Int.cast_neg, neg_neg]
  · next hpos =>
      have habs : ((i.natAbs : ℕ) : ℤ) = i := by omega
      rw [← Int.cast_natCast, habs]

/-- The binary number of an integer, where there is one, is a member with the value that the integer is
rounded to. -/
theorem ofInt?_cases (i : ℤ) :
    (reach ≤ i.natAbs ∧ ofInt? i = none) ∨
      (i.natAbs < reach ∧ ∃ m e, ofInt? i = some (.finite (i < 0) m e) ∧
        (finite (i < 0) m e).Member ∧ (m : ℚ) * 2 ^ e = rounded i.natAbs) := by
  rcases ofRatio_natural (i < 0) i.natAbs with ⟨hbig, h⟩ | ⟨hless, m, e, h, hmember, hvalue⟩
  · exact .inl ⟨hbig, by rw [ofInt?, h]⟩
  · exact .inr ⟨hless, m, e, by rw [ofInt?, h], hmember, hvalue⟩

theorem ofInt?_eq_none_iff {i : ℤ} : ofInt? i = none ↔ reach ≤ i.natAbs := by
  rcases ofInt?_cases i with ⟨hbig, h⟩ | ⟨hless, m, e, h, -⟩
  · exact iff_of_true h hbig
  · exact iff_of_false (by simp [h]) (not_le.2 hless)

theorem value?_ofInt? {i : ℤ} {x : Binary64} (h : ofInt? i = some x) : x.value? = some (nearest i) := by
  rcases ofInt?_cases i with ⟨-, hnone⟩ | ⟨-, m, e, hsome, -, hvalue⟩
  · exact absurd (h.symm.trans hnone) (by simp)
  · obtain rfl := Option.some.inj (h.symm.trans hsome)
    rw [value?, nearest, ← hvalue]
    by_cases hneg : i < 0
    · simp [hneg, signedMantissa]
    · simp [hneg, signedMantissa]

theorem nearest_neg_iff {i : ℤ} : nearest i < 0 ↔ i < 0 := by
  rw [nearest]
  split
  · next hneg => exact iff_of_true (neg_neg_of_pos (rounded_pos (by omega))) hneg
  · next hpos => exact iff_of_false (not_lt.2 (rounded_nonneg _)) hpos

/-- What an integer is rounded to tells its sign and what its magnitude is rounded to. -/
theorem sign_of_nearest_eq {i j : ℤ} (h : nearest i = nearest j) :
    (i < 0 ↔ j < 0) ∧ rounded i.natAbs = rounded j.natAbs := by
  have hsign : i < 0 ↔ j < 0 := by rw [← nearest_neg_iff, h, nearest_neg_iff]
  refine ⟨hsign, ?_⟩
  rw [nearest, nearest] at h
  by_cases hneg : i < 0
  · rw [if_pos hneg, if_pos (hsign.1 hneg)] at h
    exact neg_injective h
  · rwa [if_neg hneg, if_neg fun hj => hneg (hsign.2 hj)] at h

/-- Integers that are rounded to the same have the same binary number. -/
theorem eq_of_nearest_eq {i j : ℤ} {x y : Binary64} (hx : ofInt? i = some x) (hy : ofInt? j = some y)
    (h : nearest i = nearest j) : x = y := by
  obtain ⟨hsign, hrounded⟩ := sign_of_nearest_eq h
  rcases ofInt?_cases i with ⟨-, hnone⟩ | ⟨-, m, e, hsome, hmember, hvalue⟩
  · exact absurd (hx.symm.trans hnone) (by simp)
  rcases ofInt?_cases j with ⟨-, hnone⟩ | ⟨-, n, f, hsome', hmember', hvalue'⟩
  · exact absurd (hy.symm.trans hnone) (by simp)
  rcases Nat.eq_zero_or_pos i.natAbs with hzero | hpos
  -- a value of zero does not tell the exponent, but only one integer is rounded to it
  · have hzero' : j.natAbs = 0 := by
      rw [← rounded_eq_zero_iff, ← hrounded, rounded_eq_zero_iff]
      exact hzero
    obtain rfl : i = j := by omega
    exact Option.some.inj (hx.symm.trans hy)
  · have hm : 0 < m := by
      rw [Nat.pos_iff_ne_zero]
      rintro rfl
      rw [Nat.cast_zero, zero_mul] at hvalue
      exact (rounded_pos hpos).ne hvalue
    obtain ⟨rfl, rfl⟩ :=
      hmember.unique hmember' (hvalue.trans (hrounded.trans hvalue'.symm)) hm
    rw [hx, Option.some_inj] at hsome
    rw [hy, Option.some_inj] at hsome'
    rw [hsome, hsome', decide_eq_decide.2 hsign]

/-! ### Integers with one binary number -/

/-- Two integers are rounded to one binary number. -/
def SameBinary (i j : ℤ) : Prop := (ofInt? i).isSome = true ∧ ofInt? i = ofInt? j

instance (i j : ℤ) : Decidable (SameBinary i j) := inferInstanceAs (Decidable (_ ∧ _))

theorem SameBinary.nearest_eq {i j : ℤ} (h : SameBinary i j) : nearest i = nearest j := by
  obtain ⟨hsome, heq⟩ := h
  obtain ⟨x, hx⟩ := Option.isSome_iff_exists.1 hsome
  have hi := value?_ofInt? hx
  have hj := value?_ofInt? (heq.symm.trans hx)
  exact Option.some.inj (hi.symm.trans hj)

/-- Integers with one binary number are no more than one part in `2 ^ 53` of both together apart. -/
theorem SameBinary.near {i j : ℤ} (h : SameBinary i j) : 2 ^ 53 * |i - j| ≤ |i| + |j| := by
  have hi := abs_nearest_sub_le i
  have hj := abs_nearest_sub_le j
  have hapart : |(i : ℚ) - j| ≤ |nearest i - i| + |nearest j - j| := by
    calc |(i : ℚ) - j| = |(nearest j - j) - (nearest i - i)| := by
          rw [h.nearest_eq]
          congr 1
          ring
      _ ≤ |nearest j - j| + |nearest i - i| := abs_sub _ _
      _ = |nearest i - i| + |nearest j - j| := add_comm _ _
  have hsum : (2 : ℚ) ^ 53 * |(i : ℚ) - j| ≤ |(i : ℚ)| + |(j : ℚ)| := by linarith
  exact_mod_cast hsum

/-- Up to the first integer that takes 54 bits no two integers have one binary number. -/
theorem SameBinary.eq {i j : ℤ} (h : SameBinary i j) (hi : |i| ≤ 2 ^ 53) (hj : |j| ≤ 2 ^ 53) : i = j := by
  have hsame := h.nearest_eq
  rw [Int.abs_eq_natAbs] at hi hj
  rw [nearest_eq_self (by omega), nearest_eq_self (by omega)] at hsame
  exact_mod_cast hsame

/-- The binary numbers of integers are in the order of the integers, or the same. -/
theorem lt_iff_of_ofInt? {i j : ℤ} {x y : Binary64} (hx : ofInt? i = some x) (hy : ofInt? j = some y) :
    x.lt y = true ↔ i < j ∧ ¬ SameBinary i j := by
  rw [lt_iff_value (value?_ofInt? hx) (value?_ofInt? hy)]
  constructor
  · intro hless
    refine ⟨lt_of_not_ge fun hge => not_le.2 hless (nearest_mono hge), fun hsame => ?_⟩
    exact hless.ne hsame.nearest_eq
  · rintro ⟨hless, hnot⟩
    refine lt_of_le_of_ne (nearest_mono hless.le) fun heq => hnot ⟨by rw [hx]; rfl, ?_⟩
    rw [hx, hy, eq_of_nearest_eq hx hy heq]

end Binary64

end DesignRegistry
