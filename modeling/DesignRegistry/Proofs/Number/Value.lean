/-
**Values of binary numbers.**

A finite binary number is a rational number, and the order of binary numbers is that of their values.  A
member has one mantissa and one exponent, so a value that is not zero tells the member but for its sign.
Rounding a ratio to an integer keeps the order and moves the ratio by at most one half.

Main definitions:

* `Binary64.value?` — the rational number that a finite member is.

Main results:

* `Binary64.roundHalfEven_mono`, `Binary64.abs_roundHalfEven_sub_le` — rounding to an integer;
* `Binary64.value?_ofRatio`, `Binary64.value?_ofRatio_of_lt` — the value of a rounded ratio;
* `Binary64.lt_iff_value` — the order is that of the values;
* `Binary64.Member.unique` — a value has one mantissa and one exponent.
-/
import DesignRegistry.Proofs.Number.Rounding

set_option relaxedAutoImplicit false
set_option autoImplicit false

namespace DesignRegistry

namespace Binary64

/-! ### Rounding to an integer -/

/-- What lies below a midpoint is not rounded up beyond it. -/
theorem roundHalfEven_le {num den m : ℕ} (hden : 0 < den) (h : (num : ℚ) / den < m + 1 / 2) :
    roundHalfEven num den ≤ m := by
  have hlow := (roundHalfEven_nearest num hden).low
  have hless : (roundHalfEven num den : ℚ) < (m + 1 : ℕ) := by
    push_cast
    linarith only [hlow, h]
  exact Nat.lt_succ_iff.1 (Nat.cast_lt.1 hless)

theorem roundHalfEven_mono {a b den : ℕ} (hden : 0 < den) (h : a ≤ b) :
    roundHalfEven a den ≤ roundHalfEven b den :=
  (roundHalfEven_nearest a hden).mono (roundHalfEven_nearest b hden)
    (div_le_div_of_nonneg_right (Nat.cast_le.2 h) (Nat.cast_nonneg den))

/-- Rounding moves a ratio by at most one half. -/
theorem abs_roundHalfEven_sub_le (num : ℕ) {den : ℕ} (hden : 0 < den) :
    |(roundHalfEven num den : ℚ) - num / den| ≤ 1 / 2 := by
  obtain ⟨hlow, hhigh, -⟩ := roundHalfEven_nearest num hden
  exact abs_le.2 ⟨by linarith only [hhigh], by linarith only [hlow]⟩

/-! ### Values -/

/-- The rational number that a finite member is. -/
def value? : Binary64 → Option ℚ
  | .finite negative mantissa exponent => some ((signedMantissa negative mantissa : ℚ) * 2 ^ exponent)
  | _ => none

theorem value?_zero (negative : Bool) : (zero negative).value? = some 0 := by
  rw [zero, value?]
  cases negative <;> simp [signedMantissa]

/-- The value of a rounded ratio below the greatest members, whether its mantissa is carried or not. -/
theorem value?_ofRatio {num den : ℕ} (hnum : 0 < num) (h : exponentFor num den < maxExponent) :
    (ofRatio false num den).value? =
      some ((roundedFor num den (exponentFor num den) : ℚ) * 2 ^ exponentFor num den) := by
  by_cases hcarry : roundedFor num den (exponentFor num den) = 2 ^ 53
  · rw [ofRatio_of_carry hnum hcarry, bounded, if_neg (by omega), value?, hcarry,
      zpow_add_one₀ two_ne_zero]
    norm_num [signedMantissa]
    ring
  · rw [ofRatio_of_round hnum rfl hcarry, bounded, if_neg (by omega), value?]
    simp [signedMantissa]

theorem value?_ofRatio_self {n : ℕ} (hn : 0 < n) : (ofRatio false n n).value? = some 1 := by
  have hmember : (finite false (2 ^ 52) (-52)).Member :=
    ⟨by decide, by decide, by decide, fun h => absurd h (by decide)⟩
  have hnear : Near (2 ^ 52) (-52) ((n : ℚ) / n) := by
    rw [div_self (Nat.cast_ne_zero.2 hn.ne')]
    refine ⟨?_, ?_, fun hodd => absurd hodd (by decide)⟩
    · have hhalf := below_le_half (2 ^ 52) (-52)
      rw [below, if_pos ⟨rfl, by decide⟩]
      norm_num
    · norm_num
  rw [ofRatio_of_near hmember (by decide) hn hnear, value?]
  norm_num [signedMantissa]

/-- A proper ratio is rounded to a number of at most one, and to one only if its terms are so great that
no number lies between it and one. -/
theorem value?_ofRatio_of_lt {num den : ℕ} (hnum : 0 < num) (h : num < den) :
    ∃ q, (ofRatio false num den).value? = some q ∧ 0 ≤ q ∧ q ≤ 1 ∧ (den < 2 ^ 54 → q ≠ 1) := by
  have hden : 0 < den := hnum.trans h
  have hpos : (0 : ℚ) < den := Nat.cast_pos.2 hden
  have hless : (num : ℚ) / den < 1 := (div_lt_one hpos).2 (Nat.cast_lt.2 h)
  obtain ⟨t, hexponent, hlow, -⟩ := exponentFor_spec hnum hden
  have ht : 52 + t < 0 := by simpa using hlow.trans_lt hless
  have hsmall : exponentFor num den ≤ -53 := by
    rw [hexponent, minExponent]
    omega
  have hscale := unscale_div num den (exponentFor num den)
  have hunit : (2 : ℚ) ^ exponentFor num den ≤ 2 ^ (-53 : ℤ) :=
    zpow_le_zpow_right₀ one_le_two hsmall
  have hmantissa : (roundedFor num den (exponentFor num den) : ℚ) ≤ 2 ^ 53 := by
    exact_mod_cast (roundedFor_spec hnum hden).1
  have hunitpos : (0 : ℚ) < 2 ^ (exponentFor num den) := zpow_pos two_pos _
  have hone : (2 : ℚ) ^ 53 * 2 ^ (-53 : ℤ) = 1 := by norm_num
  have hfull : (0 : ℚ) ≤ 2 ^ 53 := pow_nonneg two_pos.le 53
  refine ⟨_, value?_ofRatio hnum (by rw [maxExponent]; omega),
    mul_nonneg (Nat.cast_nonneg _) hunitpos.le, ?_, fun hbound => ?_⟩
  · exact (mul_le_mul hmantissa hunit hunitpos.le hfull).trans hone.le
  · -- a unit less below one, the scaled ratio stays below the last midpoint
    rcases hsmall.lt_or_eq with hlt | heq
    · have hhalf : (2 : ℚ) ^ exponentFor num den ≤ 2 ^ (-54 : ℤ) :=
        zpow_le_zpow_right₀ one_le_two (by omega)
      refine ne_of_lt ((mul_le_mul hmantissa hhalf hunitpos.le hfull).trans_lt ?_)
      norm_num
    · have hgap : (num : ℚ) / den < 1 - 2 ^ (-54 : ℤ) := by
        have hterms : (num : ℚ) + 1 ≤ den := by exact_mod_cast h
        have hbound' : (den : ℚ) < 18014398509481984 := by exact_mod_cast hbound
        rw [div_lt_iff₀ hpos]
        norm_num
        linarith only [hterms, hbound']
      have hround : roundedFor num den (exponentFor num den) ≤ 2 ^ 53 - 1 := by
        refine roundHalfEven_le (unscale_pos num hden _) ?_
        rw [hscale, heq]
        norm_num at hgap ⊢
        linarith only [hgap]
      have hround' : (roundedFor num den (exponentFor num den) : ℚ) ≤ 9007199254740991 := by
        exact_mod_cast hround
      rw [heq] at hround' ⊢
      intro hequal
      norm_num at hequal
      linarith only [hequal, hround']

/-! ### Members by their values -/

/-- The order of finite binary numbers is that of their values. -/
theorem lt_iff_value {x y : Binary64} {p q : ℚ} (hx : x.value? = some p) (hy : y.value? = some q) :
    x.lt y = true ↔ p < q := by
  cases x with
  | finite s m i =>
      cases y with
      | finite t n j =>
          obtain rfl := Option.some.inj hx
          obtain rfl := Option.some.inj hy
          have hpow : (0 : ℚ) < 2 ^ (min i j) := zpow_pos two_pos _
          -- both sides are whole multiples of the smaller unit
          have hscale (a : ℤ) {k : ℤ} (hk : min i j ≤ k) :
              (a : ℚ) * 2 ^ k = ((a * twoTo (k - min i j).toNat : ℤ) : ℚ) * 2 ^ min i j := by
            have hexponent : k = (k - min i j).toNat + min i j := by omega
            rw [Int.cast_mul, Int.cast_natCast, twoTo_cast, mul_assoc, ← zpow_natCast,
              ← zpow_add₀ (two_ne_zero' ℚ), ← hexponent]
          rw [lt, compare?, scaledCompare, hscale _ (min_le_left i j), hscale _ (min_le_right i j),
            mul_lt_mul_iff_left₀ hpow, Int.cast_lt, beq_iff_eq, Option.some_inj]
          exact compare_lt_iff_lt
      | infinite _ | nan => exact absurd hy (by simp [value?])
  | infinite _ | nan => exact absurd hx (by simp [value?])

/-- Of a mantissa and an exponent only one choice gives a value. -/
theorem Member.unique {s t : Bool} {m n : ℕ} {i j : ℤ} (hm : (finite s m i).Member)
    (hn : (finite t n j).Member) (h : (m : ℚ) * 2 ^ i = n * 2 ^ j) (hpos : 0 < m) : m = n ∧ i = j := by
  -- with different exponents the mantissa of the lesser one would have more than 53 bits
  have hnot {a b : ℕ} {k l : ℤ} (ha : a < 2 ^ 53) (hb : 2 ^ 52 ≤ b) (hkl : k < l) :
      (a : ℚ) * 2 ^ k ≠ b * 2 ^ l := by
    have ha' : (a : ℚ) < 2 ^ (53 : ℤ) := by exact_mod_cast ha
    have hb' : (2 : ℚ) ^ (52 : ℤ) ≤ b := by exact_mod_cast hb
    refine ne_of_lt ?_
    calc (a : ℚ) * 2 ^ k < 2 ^ (53 : ℤ) * 2 ^ k := mul_lt_mul_of_pos_right ha' (zpow_pos two_pos k)
      _ = 2 ^ (53 + k) := (zpow_add₀ two_ne_zero 53 k).symm
      _ ≤ 2 ^ (52 + l) := zpow_le_zpow_right₀ one_le_two (by omega)
      _ = 2 ^ (52 : ℤ) * 2 ^ l := zpow_add₀ two_ne_zero 52 l
      _ ≤ b * 2 ^ l := mul_le_mul_of_nonneg_right hb' (zpow_pos two_pos l).le
  obtain ⟨hm₁, hm₂, -, hm₄⟩ := hm
  obtain ⟨hn₁, hn₂, -, hn₄⟩ := hn
  rcases lt_trichotomy i j with hlt | rfl | hgt
  · exact absurd h (hnot hm₁ (by by_contra hless; have := hn₄ (by omega); omega) hlt)
  · have hmn : (m : ℚ) = n := mul_right_cancel₀ (zpow_pos two_pos i).ne' h
    exact ⟨by exact_mod_cast hmn, rfl⟩
  · exact absurd h.symm (hnot hn₁ (by by_contra hless; have := hm₄ (by omega); omega) hgt)

end Binary64

end DesignRegistry
