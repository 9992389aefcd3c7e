/-
**The shortest decimal that reads back.**

A number is written as a decimal that lies between the midpoints to its neighbours.  Such decimals are
looked for on the grids of the powers of ten, from the greatest that is at most the number downwards.
A grid that is finer than the numbers around has a point between the midpoints, and the eighteenth grid
is finer than that.

Main results:

* `Neighbourhood.near_of_holds` — a decimal that is taken for the number lies near to it;
* `Neighbourhood.reached_firstReached` — the first grid is not coarser than the number;
* `exists_shortest?` — **every positive number has a decimal that lies near to it**.
-/
import DesignRegistry.Number.Decimal
import DesignRegistry.Proofs.Number.Rounding

set_option relaxedAutoImplicit false
set_option autoImplicit false

namespace DesignRegistry

namespace Binary64

/-- A natural number times a power of a base, as a ratio: the power stands above or below. -/
theorem ratio_zpow {b : ℚ} {power : ℕ → ℕ} (hpower : ∀ n, (power n : ℚ) = b ^ n)
    (n : ℕ) (k : ℤ) :
    ((if k < 0 then n else n * power k.toNat : ℕ) : ℚ) / (if k < 0 then power (-k).toNat else 1 : ℕ) =
      n * b ^ k := by
  split
  · next hneg =>
      have hpow : b ^ k = (b ^ (-k).toNat)⁻¹ := by
        rw [← zpow_natCast, Int.toNat_of_nonneg (by omega), ← zpow_neg, neg_neg]
      rw [hpower, hpow, div_eq_mul_inv]
  · next hpos =>
      have hpow : b ^ k = b ^ k.toNat := by
        rw [← zpow_natCast, Int.toNat_of_nonneg (by omega)]
      rw [Nat.cast_mul, hpower, hpow, Nat.cast_one, div_one]

namespace Neighbourhood

variable {b : Neighbourhood} {mantissa : ℕ} {exponent : ℤ}

/-! ### Ratios -/

theorem den_of_pos (mantissa : ℕ) (exponent : ℤ) : 0 < (of mantissa exponent).den := by
  rw [of]
  dsimp only
  split
  · exact twoTo_pos _
  · decide

/-- A quarter of the last place of a number. -/
theorem two_zpow_quarter (exponent : ℤ) : (2 : ℚ) ^ (exponent - 2) = 2 ^ exponent / 4 := by
  rw [zpow_sub₀ two_ne_zero]
  norm_num

theorem value_of (mantissa : ℕ) (exponent : ℤ) :
    ((of mantissa exponent).value : ℚ) / (of mantissa exponent).den = mantissa * 2 ^ exponent := by
  refine (ratio_zpow twoTo_cast (4 * mantissa) (exponent - 2)).trans ?_
  rw [two_zpow_quarter]
  push_cast
  ring

theorem upper_of (mantissa : ℕ) (exponent : ℤ) :
    ((of mantissa exponent).upper : ℚ) / (of mantissa exponent).den =
      (mantissa + 1 / 2) * 2 ^ exponent := by
  refine (ratio_zpow twoTo_cast (4 * mantissa + 2) (exponent - 2)).trans ?_
  rw [two_zpow_quarter]
  push_cast
  ring

theorem lower_of (hpos : 0 < mantissa) (exponent : ℤ) :
    ((of mantissa exponent).lower : ℚ) / (of mantissa exponent).den =
      (mantissa - below mantissa exponent) * 2 ^ exponent := by
  refine (ratio_zpow twoTo_cast (4 * mantissa -
    (if mantissa = twoTo 52 ∧ exponent > minExponent then 1 else 2)) (exponent - 2)).trans ?_
  rw [two_zpow_quarter, below, Nat.cast_sub (by split <;> omega)]
  by_cases hnarrow : mantissa = 2 ^ 52 ∧ minExponent < exponent
  · rw [if_pos hnarrow, if_pos (show mantissa = twoTo 52 ∧ exponent > minExponent from hnarrow)]
    push_cast
    ring
  · rw [if_neg hnarrow, if_neg (show ¬ (mantissa = twoTo 52 ∧ exponent > minExponent) from hnarrow)]
    push_cast
    ring

/-! ### What a neighbourhood holds -/

/-- Whether the first of two numbers is less than the second, or as great where that will do. -/
theorem compare_iff {m n : ℕ} {closed : Bool} :
    (compare m n == .lt || (closed && compare m n == .eq)) = true ↔ m < n ∨ closed = true ∧ m = n := by
  rw [Bool.or_eq_true, Bool.and_eq_true, beq_iff_eq, beq_iff_eq, Nat.compare_eq_lt,
    Nat.compare_eq_eq]

/-- A decimal is held if it lies between the midpoints; a midpoint itself is if it rounds to the
number. -/
theorem holds_iff (hden : 0 < b.den) (n : ℕ) (k : ℤ) :
    b.holds n k = true ↔
      ((b.lower : ℚ) / b.den < n * 10 ^ k ∨ b.closed = true ∧ (b.lower : ℚ) / b.den = n * 10 ^ k) ∧
        ((n : ℚ) * 10 ^ k < b.upper / b.den ∨
          b.closed = true ∧ (n : ℚ) * 10 ^ k = b.upper / b.den) := by
  have hratio := ratio_zpow tenTo_cast n k
  have hscale : 0 < (if k < 0 then tenTo (-k).toNat else 1 : ℕ) := by
    split
    · exact tenTo_pos _
    · decide
  rw [holds]
  generalize (if k < 0 then n else n * tenTo k.toNat : ℕ) = point at *
  generalize (if k < 0 then tenTo (-k).toNat else 1 : ℕ) = scale at *
  have hscale' : (0 : ℚ) < scale := Nat.cast_pos.2 hscale
  have hden' : (0 : ℚ) < b.den := Nat.cast_pos.2 hden
  rw [← hratio, Bool.and_eq_true, compare_iff, compare_iff, div_lt_div_iff₀ hden' hscale',
    div_lt_div_iff₀ hscale' hden', div_eq_div_iff hden'.ne' hscale'.ne',
    div_eq_div_iff hscale'.ne' hden'.ne']
  norm_cast

/-- What a number's neighbourhood holds lies near to it. -/
theorem near_of_holds (hpos : 0 < mantissa) {n : ℕ} {k : ℤ}
    (h : (of mantissa exponent).holds n k = true) : Near mantissa exponent (n * 10 ^ k) := by
  rw [holds_iff (den_of_pos mantissa exponent), lower_of hpos, upper_of] at h
  obtain ⟨hlow, hhigh⟩ := h
  refine ⟨?_, ?_, fun hodd => ?_⟩
  · exact hlow.elim le_of_lt fun h => h.2.le
  · exact hhigh.elim le_of_lt fun h => h.2.le
  · have hopen : ¬ (of mantissa exponent).closed = true := by
      rw [of]
      simp [hodd]
    exact ⟨hlow.resolve_right fun h => hopen h.1, hhigh.resolve_right fun h => hopen h.1⟩

/-! ### Grids -/

theorem holds_of_nearest? {n : ℕ} {k : ℤ} (h : b.nearest? k = some n) : b.holds n k = true := by
  rw [nearest?] at h
  dsimp only at h
  split at h
  · next hlow hhigh =>
      split at h
      · exact Option.some.inj h ▸ hlow
      · split at h
        · exact Option.some.inj h ▸ hhigh
        · split at h
          · exact Option.some.inj h ▸ hlow
          · exact Option.some.inj h ▸ hhigh
  · next hlow _ => exact Option.some.inj h ▸ hlow
  · next _ hhigh => exact Option.some.inj h ▸ hhigh
  · exact absurd h (by simp)

theorem nearest?_ne_none {k : ℤ} (h : b.holds (b.onGrid k).1 k = true) : b.nearest? k ≠ none := by
  rw [nearest?]
  dsimp only
  rw [h]
  cases b.holds ((b.onGrid k).1 + 1) k with
  | false => simp
  | true =>
      simp only
      split
      · simp
      · split <;> simp

/-- The greatest point of a grid up to the number. -/
theorem onGrid_spec (hden : 0 < b.den) (k : ℤ) :
    ((b.onGrid k).1 : ℚ) * 10 ^ k ≤ b.value / b.den ∧
      (b.value : ℚ) / b.den < ((b.onGrid k).1 + 1) * 10 ^ k := by
  have hpow : (0 : ℚ) < 10 ^ k := zpow_pos (by norm_num) _
  have hratio := ratio_zpow tenTo_cast b.value (-k)
  rw [← le_div_iff₀ hpow, ← div_lt_iff₀ hpow]
  obtain ⟨num, den, hpos, hgrid, hquotient⟩ : ∃ num den : ℕ, 0 < den ∧ (b.onGrid k).1 = num / den ∧
      (b.value : ℚ) / b.den / 10 ^ k = num / den := by
    refine ⟨if k < 0 then b.value * tenTo (-k).toNat else b.value,
      if k < 0 then b.den else b.den * tenTo k.toNat, ?_, rfl, ?_⟩
    · split
      · exact hden
      · exact Nat.mul_pos hden (tenTo_pos _)
    · split
      · next hneg =>
          rw [if_neg (by omega), if_neg (by omega), Nat.cast_one, div_one, zpow_neg] at hratio
          rw [hratio, div_right_comm, div_eq_mul_inv (b.value : ℚ)]
      · next hnonneg =>
          have hpow' : (10 : ℚ) ^ k = tenTo k.toNat := by
            rw [tenTo_cast, ← zpow_natCast, Int.toNat_of_nonneg (by omega)]
          rw [hpow', Nat.cast_mul, div_mul_eq_div_div]
  rw [hgrid, hquotient, div_add_rest num hpos]
  have hone := rest_lt_one num hpos
  have hnonneg : (0 : ℚ) ≤ ((num % den : ℕ) : ℚ) / den := by positivity
  constructor <;> linarith

theorem reaches_iff (hden : 0 < b.den) (k : ℤ) :
    b.reaches k = true ↔ (10 : ℚ) ^ k ≤ b.value / b.den := by
  have hpow : (0 : ℚ) < 10 ^ k := zpow_pos (by norm_num) _
  obtain ⟨hlow, hhigh⟩ := onGrid_spec hden k
  rw [reaches, decide_eq_true_eq]
  constructor
  · intro hpos
    have hone : (1 : ℚ) ≤ (b.onGrid k).1 := by exact_mod_cast hpos
    nlinarith
  · intro hle
    by_contra hzero
    have hnone : ((b.onGrid k).1 : ℚ) = 0 := by exact_mod_cast Nat.eq_zero_of_not_pos hzero
    rw [hnone] at hhigh
    linarith

/-- Going down from a power of ten ends at one that is at most the number, if the last one tried is. -/
theorem reached_firstReached (hden : 0 < b.den) {tries : ℕ} {k : ℤ}
    (h : (10 : ℚ) ^ (k - tries) ≤ b.value / b.den) :
    (10 : ℚ) ^ b.firstReached k tries ≤ b.value / b.den := by
  induction tries generalizing k with
  | zero => simpa [firstReached] using h
  | succ tries ih =>
      rw [firstReached]
      split
      · next hreaches => exact (reaches_iff hden k).1 hreaches
      · refine ih ?_
        rwa [show k - 1 - (tries : ℤ) = k - (tries + 1 : ℕ) by push_cast; ring]

/-- The grids that are tried start at a power of ten that is at most the number. -/
theorem leadingExponent_le (hvalue : 0 < b.value) (hden : 0 < b.den) :
    (10 : ℚ) ^ b.leadingExponent ≤ b.value / b.den := by
  rw [leadingExponent]
  refine reached_firstReached hden ?_
  -- the guess does not matter: enough powers are tried below it to pass under one over the
  -- denominator
  generalize ((b.value.log2 : ℤ) - b.den.log2) * 30103 / 100000 = guess
  have hden' : (0 : ℚ) < b.den := Nat.cast_pos.2 hden
  have hless : (b.den : ℚ) < 10 ^ (b.den.log2 + 1) := by
    have hpow : b.den < 10 ^ (b.den.log2 + 1) :=
      Nat.lt_log2_self.trans_le (Nat.pow_le_pow_left (by decide) _)
    exact_mod_cast hpow
  have hone : (1 : ℚ) ≤ b.value := by exact_mod_cast hvalue
  calc (10 : ℚ) ^ (guess + 1 - ((guess + b.den.log2 + 2).toNat : ℤ))
      ≤ 10 ^ (-((b.den.log2 + 1 : ℕ) : ℤ)) := by
        refine zpow_le_zpow_right₀ (by norm_num) ?_
        push_cast
        omega
    _ = 1 / 10 ^ (b.den.log2 + 1) := by rw [zpow_neg, zpow_natCast, one_div]
    _ ≤ 1 / b.den := one_div_le_one_div_of_le hden' hless.le
    _ ≤ b.value / b.den := div_le_div_of_nonneg_right hone hden'.le

theorem holds_of_search {n tries : ℕ} {start k : ℤ} (h : b.search start tries = some (n, k)) :
    b.holds n k = true := by
  induction tries generalizing start with
  | zero => exact absurd h (by simp [search])
  | succ tries ih =>
      rw [search] at h
      split at h
      · next hnearest =>
          obtain ⟨rfl, rfl⟩ := Prod.mk.inj (Option.some.inj h)
          exact holds_of_nearest? hnearest
      · exact ih h

/-- A grid with a hit among those that are tried is enough. -/
theorem search_ne_none {tries : ℕ} {start : ℤ} {i : ℕ} (hi : i < tries)
    (h : b.nearest? (start - i) ≠ none) : b.search start tries ≠ none := by
  induction tries generalizing start i with
  | zero => omega
  | succ tries ih =>
      rw [search]
      cases hnearest : b.nearest? start with
      | some n => simp
      | none =>
          cases i with
          | zero => exact absurd hnearest (by simpa using h)
          | succ i =>
              refine ih (i := i) (by omega) ?_
              rwa [show start - 1 - (i : ℤ) = start - (i + 1 : ℕ) by push_cast; ring]

end Neighbourhood

/-- On a grid that is four times as fine as the numbers around, the point below a number lies near
to it. -/
theorem holds_onGrid {mantissa : ℕ} {exponent k : ℤ} (hpos : 0 < mantissa)
    (hfine : (10 : ℚ) ^ k < 2 ^ exponent / 4) :
    (Neighbourhood.of mantissa exponent).holds ((Neighbourhood.of mantissa exponent).onGrid k).1 k =
      true := by
  have hden := Neighbourhood.den_of_pos mantissa exponent
  obtain ⟨hlow, hhigh⟩ := Neighbourhood.onGrid_spec hden k
  rw [Neighbourhood.holds_iff hden, Neighbourhood.lower_of hpos, Neighbourhood.upper_of]
  rw [Neighbourhood.value_of] at hlow hhigh
  have hpow : (0 : ℚ) < 2 ^ exponent := zpow_pos two_pos _
  have hquarter : (1 : ℚ) / 4 ≤ below mantissa exponent := by
    rw [below]
    split <;> norm_num
  refine ⟨.inl ?_, .inl ?_⟩
  · nlinarith
  · nlinarith

/-- Every positive number has a decimal that lies near to it. -/
theorem exists_shortest? {negative : Bool} {mantissa : ℕ} {exponent : ℤ}
    (hmember : (finite negative mantissa exponent).Member) (hpos : 0 < mantissa) :
    ∃ n k, shortest? mantissa exponent = some (n, k) ∧ Near mantissa exponent (n * 10 ^ k) := by
  have hden := Neighbourhood.den_of_pos mantissa exponent
  have hvalue := Neighbourhood.value_of mantissa exponent
  have hpow : (0 : ℚ) < 2 ^ exponent := zpow_pos two_pos _
  have hmantissa : (0 : ℚ) < mantissa := Nat.cast_pos.2 hpos
  have hnumber : 0 < (Neighbourhood.of mantissa exponent).value := by
    have hratio : (0 : ℚ) < (Neighbourhood.of mantissa exponent).value /
        (Neighbourhood.of mantissa exponent).den := by
      rw [hvalue]
      positivity
    exact_mod_cast (div_pos_iff_of_pos_right (Nat.cast_pos.2 hden)).1 hratio
  have hlead := Neighbourhood.leadingExponent_le hnumber hden
  have hne : shortest? mantissa exponent ≠ none := by
    refine Neighbourhood.search_ne_none (i := 17) (by decide)
      (Neighbourhood.nearest?_ne_none (holds_onGrid hpos ?_))
    rw [zpow_sub₀ (by norm_num), div_lt_iff₀ (by positivity)]
    have hless : (mantissa : ℚ) < 2 ^ 53 := by exact_mod_cast hmember.1
    rw [hvalue] at hlead
    -- seventeen places make a grid finer than fifty-five bits
    calc (10 : ℚ) ^ (Neighbourhood.of mantissa exponent).leadingExponent
        ≤ mantissa * 2 ^ exponent := hlead
      _ < 2 ^ 53 * 2 ^ exponent := mul_lt_mul_of_pos_right hless hpow
      _ ≤ 2 ^ exponent / 4 * 10 ^ ((17 : ℕ) : ℤ) := by
        rw [zpow_natCast]
        linarith
  obtain ⟨⟨n, k⟩, hsome⟩ := Option.ne_none_iff_exists'.1 hne
  exact ⟨n, k, hsome, Neighbourhood.near_of_holds hpos (Neighbourhood.holds_of_search hsome)⟩

end Binary64

end DesignRegistry
