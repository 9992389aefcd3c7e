/-
**Rounding to the nearest binary number.**

A ratio is rounded by scaling it until its integer part has 53 bits, and rounding the scaled ratio to
an integer.  Everything that lies between the midpoints to the neighbours of a member rounds to that
member; a midpoint itself does so if the mantissa is even.

Main definitions:

* `Binary64.Nearest` — the integer that a ratio is rounded to, by its distance from the ratio;
* `Binary64.Member` — the numbers that 64 bits hold;
* `Binary64.Near` — the rational numbers that lie between the midpoints around a member.

Main results:

* `Binary64.Nearest.mono`, `Binary64.roundHalfEven_nearest` — rounding keeps the order, so there is one
  nearest integer, and it is the one that is found;
* `exponentFor_spec` — the exponent that gives 53 bits;
* `Binary64.member_ofRatio` — a rounded ratio is a member;
* `Binary64.ofRatio_of_near` — **a ratio rounds to the member that it is near to**.
-/
import DesignRegistry.Number.Binary64
import Mathlib.Algebra.Order.Field.Power
import Mathlib.Data.Rat.Cast.Order
import Mathlib.Tactic.FieldSimp
import Mathlib.Tactic.Linarith
import Mathlib.Tactic.NormNum
import Mathlib.Tactic.Positivity
import Mathlib.Tactic.Ring

set_option relaxedAutoImplicit false
set_option autoImplicit false

namespace DesignRegistry

theorem twoTo_eq (n : ℕ) : twoTo n = 2 ^ n := rfl

theorem twoTo_cast (n : ℕ) : (twoTo n : ℚ) = 2 ^ n := Nat.cast_pow 2 n

theorem tenTo_cast (n : ℕ) : (tenTo n : ℚ) = 10 ^ n := Nat.cast_pow 10 n

namespace Binary64

/-! ### Integers -/

/-- The integer part and the rest of a ratio. -/
theorem div_add_rest (num : ℕ) {den : ℕ} (hden : 0 < den) :
    (num : ℚ) / den = (num / den : ℕ) + ((num % den : ℕ) : ℚ) / den := by
  have hpos : (0 : ℚ) < den := Nat.cast_pos.2 hden
  have hsplit : (num : ℚ) = den * (num / den : ℕ) + (num % den : ℕ) := by
    exact_mod_cast (Nat.div_add_mod num den).symm
  rw [div_eq_iff (ne_of_gt hpos), add_mul, div_mul_cancel₀ _ (ne_of_gt hpos), mul_comm]
  exact hsplit

theorem rest_lt_one (num : ℕ) {den : ℕ} (hden : 0 < den) : ((num % den : ℕ) : ℚ) / den < 1 := by
  rw [div_lt_one (Nat.cast_pos.2 hden)]
  exact_mod_cast Nat.mod_lt num hden

theorem rest_lt_half_iff (rest : ℕ) {den : ℕ} (hden : 0 < den) :
    (rest : ℚ) / den < 1 / 2 ↔ 2 * rest < den := by
  rw [div_lt_div_iff₀ (Nat.cast_pos.2 hden) two_pos, one_mul, mul_comm]
  exact_mod_cast Iff.rfl

theorem half_lt_rest_iff (rest : ℕ) {den : ℕ} (hden : 0 < den) :
    1 / 2 < (rest : ℚ) / den ↔ den < 2 * rest := by
  rw [div_lt_div_iff₀ two_pos (Nat.cast_pos.2 hden), one_mul, mul_comm (rest : ℚ)]
  exact_mod_cast Iff.rfl

/-- An integer that a ratio is rounded to: it is within one half of the ratio, and nearer if it is odd. -/
structure Nearest (x : ℚ) (m : ℕ) : Prop where
  low : (m : ℚ) - 1 / 2 ≤ x
  high : x ≤ m + 1 / 2
  odd : m % 2 = 1 → (m : ℚ) - 1 / 2 < x ∧ x < m + 1 / 2

theorem Nearest.of_lt {x : ℚ} {m : ℕ} (hlow : (m : ℚ) - 1 / 2 < x) (hhigh : x < m + 1 / 2) :
    Nearest x m :=
  ⟨hlow.le, hhigh.le, fun _ => ⟨hlow, hhigh⟩⟩

theorem Nearest.self (m : ℕ) : Nearest m m :=
  .of_lt (by linarith only) (by linarith only)

/-- Rounding keeps the order. -/
theorem Nearest.mono {x y : ℚ} {m n : ℕ} (hm : Nearest x m) (hn : Nearest y n) (h : x ≤ y) :
    m ≤ n := by
  by_contra hlt
  have hgap : (n : ℚ) + 1 ≤ m := by exact_mod_cast not_le.1 hlt
  have hlow := hm.low
  have hhigh := hn.high
  -- both ratios are the midpoint between the two integers, and one of these is odd
  have hequal : (m : ℚ) = (n + 1 : ℕ) := by
    push_cast
    linarith only [hlow, hhigh, h, hgap]
  obtain rfl : m = n + 1 := Nat.cast_injective hequal
  rcases Nat.mod_two_eq_zero_or_one n with heven | hodd
  · have hless := (hm.odd (by omega)).1
    linarith only [hless, hhigh, h, hgap]
  · have hless := (hn.odd hodd).2
    linarith only [hless, hlow, h, hgap]

/-- Rounding finds the nearest integer, ties going to the even one. -/
theorem roundHalfEven_nearest (num : ℕ) {den : ℕ} (hden : 0 < den) :
    Nearest (num / den) (roundHalfEven num den) := by
  have hless := rest_lt_half_iff (num % den) hden
  have hmore := half_lt_rest_iff (num % den) hden
  have hone := rest_lt_one num hden
  have hnonneg : (0 : ℚ) ≤ ((num % den : ℕ) : ℚ) / den := by positivity
  rw [div_add_rest num hden, roundHalfEven]
  generalize num / den = q
  generalize ((num % den : ℕ) : ℚ) / den = f at *
  by_cases hbelow : f < 1 / 2
  · rw [if_pos (hless.1 hbelow)]
    exact .of_lt (by linarith only [hnonneg]) (by linarith only [hbelow])
  · rw [if_neg fun h => hbelow (hless.2 h)]
    by_cases habove : 1 / 2 < f
    · rw [if_pos (hmore.1 habove)]
      refine .of_lt ?_ ?_ <;> push_cast
      · linarith only [habove]
      · linarith only [hone]
    · rw [if_neg fun h => habove (hmore.2 h)]
      -- a tie goes to the even one of the two neighbours
      have htie : f = 1 / 2 := le_antisymm (not_lt.1 habove) (not_lt.1 hbelow)
      split
      · exact ⟨by linarith only [htie], by linarith only [htie], fun hodd => by omega⟩
      · refine ⟨?_, ?_, fun hodd => by omega⟩ <;> push_cast <;> linarith only [htie]

/-- There is one nearest integer. -/
theorem roundHalfEven_eq {num den m : ℕ} (hden : 0 < den) (h : Nearest (num / den) m) :
    roundHalfEven num den = m :=
  le_antisymm ((roundHalfEven_nearest num hden).mono h le_rfl)
    (h.mono (roundHalfEven_nearest num hden) le_rfl)

/-- The nearest integer lies between the integers that the ratio lies between. -/
theorem roundHalfEven_mem {num den low high : ℕ} (hden : 0 < den) (hlow : (low : ℚ) ≤ num / den)
    (hhigh : (num : ℚ) / den < high) :
    low ≤ roundHalfEven num den ∧ roundHalfEven num den ≤ high :=
  ⟨(Nearest.self low).mono (roundHalfEven_nearest num hden) hlow,
    (roundHalfEven_nearest num hden).mono (Nearest.self high) hhigh.le⟩

/-! ### Exponents -/

theorem unscale_pos (num : ℕ) {den : ℕ} (hden : 0 < den) (exponent : ℤ) :
    0 < (unscale num den exponent).2 := by
  rw [unscale]
  split
  · exact hden
  · exact Nat.mul_pos hden (twoTo_pos _)

/-- Scaling divides by a power of two. -/
theorem unscale_div (num den : ℕ) (exponent : ℤ) :
    ((unscale num den exponent).1 : ℚ) / (unscale num den exponent).2 =
      num / den / 2 ^ exponent := by
  rw [unscale]
  split
  · next hneg =>
      have hpow : (2 : ℚ) ^ exponent = (2 ^ (-exponent).toNat)⁻¹ := by
        rw [← zpow_natCast, Int.toNat_of_nonneg (by omega), ← zpow_neg, neg_neg]
      rw [Nat.cast_mul, twoTo_cast, hpow, div_inv_eq_mul, mul_div_right_comm]
  · next hpos =>
      have hpow : (2 : ℚ) ^ exponent = 2 ^ exponent.toNat := by
        rw [← zpow_natCast, Int.toNat_of_nonneg (by omega)]
      rw [Nat.cast_mul, twoTo_cast, hpow, div_mul_eq_div_div]

/-- A ratio lies near the quotient of the powers of two below its terms. -/
theorem ratio_log2 {num den : ℕ} (hnum : 0 < num) (hden : 0 < den) :
    (2 : ℚ) ^ ((num.log2 : ℤ) - den.log2 - 1) < num / den ∧
      (num : ℚ) / den < 2 ^ ((num.log2 : ℤ) - den.log2 + 1) := by
  have hpos : (0 : ℚ) < den := Nat.cast_pos.2 hden
  have hnum₁ : (2 : ℚ) ^ (num.log2 : ℤ) ≤ num := by
    rw [zpow_natCast]
    exact_mod_cast Nat.log2_self_le (by omega)
  have hnum₂ : (num : ℚ) < 2 ^ ((num.log2 : ℤ) + 1) := by
    rw [← Nat.cast_succ, zpow_natCast]
    exact_mod_cast Nat.lt_log2_self
  have hden₁ : (2 : ℚ) ^ (den.log2 : ℤ) ≤ den := by
    rw [zpow_natCast]
    exact_mod_cast Nat.log2_self_le (by omega)
  have hden₂ : (den : ℚ) < 2 ^ ((den.log2 : ℤ) + 1) := by
    rw [← Nat.cast_succ, zpow_natCast]
    exact_mod_cast Nat.lt_log2_self
  constructor
  · rw [lt_div_iff₀ hpos]
    calc (2 : ℚ) ^ ((num.log2 : ℤ) - den.log2 - 1) * den
        < 2 ^ ((num.log2 : ℤ) - den.log2 - 1) * 2 ^ ((den.log2 : ℤ) + 1) :=
          mul_lt_mul_of_pos_left hden₂ (zpow_pos two_pos _)
      _ = 2 ^ (num.log2 : ℤ) := by
          rw [← zpow_add₀ (two_ne_zero' ℚ)]
          congr 1
          omega
      _ ≤ num := hnum₁
  · rw [div_lt_iff₀ hpos]
    calc (num : ℚ) < 2 ^ ((num.log2 : ℤ) + 1) := hnum₂
      _ = 2 ^ ((num.log2 : ℤ) - den.log2 + 1) * 2 ^ (den.log2 : ℤ) := by
          rw [← zpow_add₀ (two_ne_zero' ℚ)]
          congr 1
          omega
      _ ≤ 2 ^ ((num.log2 : ℤ) - den.log2 + 1) * den :=
          mul_le_mul_of_nonneg_left hden₁ (zpow_pos two_pos _).le

/-- The exponent that gives a ratio a mantissa of 53 bits, or the least one. -/
theorem exponentFor_spec {num den : ℕ} (hnum : 0 < num) (hden : 0 < den) :
    ∃ t, exponentFor num den = max minExponent t ∧ (2 : ℚ) ^ (52 + t) ≤ num / den ∧
      (num : ℚ) / den < 2 ^ (53 + t) := by
  obtain ⟨hlow, hhigh⟩ := ratio_log2 hnum hden
  rw [exponentFor]
  generalize hguess : (num.log2 : ℤ) - den.log2 - 52 = guess
  have hscale := unscale_div num den guess
  have hpos : (0 : ℚ) < (unscale num den guess).2 := Nat.cast_pos.2 (unscale_pos num hden guess)
  have hiff : (unscale num den guess).1 < (unscale num den guess).2 * twoTo 52 ↔
      (num : ℚ) / den < 2 ^ (52 + guess) := by
    rw [zpow_add₀ (two_ne_zero' ℚ), ← div_lt_iff₀ (zpow_pos two_pos guess), ← hscale,
      div_lt_iff₀ hpos, mul_comm]
    have hcast : ((twoTo 52 : ℕ) : ℚ) = 2 ^ (52 : ℤ) := twoTo_cast 52
    rw [← hcast]
    exact_mod_cast Iff.rfl
  dsimp only
  by_cases hless : (num : ℚ) / den < 2 ^ (52 + guess)
  · rw [if_pos (hiff.2 hless)]
    refine ⟨guess - 1, rfl, ?_, ?_⟩
    · rw [show 52 + (guess - 1) = (num.log2 : ℤ) - den.log2 - 1 by omega]
      exact hlow.le
    · rw [show 53 + (guess - 1) = 52 + guess by omega]
      exact hless
  · rw [if_neg (fun h => hless (hiff.1 h))]
    refine ⟨guess, rfl, not_lt.1 hless, ?_⟩
    rw [show 53 + guess = (num.log2 : ℤ) - den.log2 + 1 by omega]
    exact hhigh

/-- Between two powers of two the exponent is fixed. -/
theorem exponentFor_eq {num den : ℕ} (hnum : 0 < num) (hden : 0 < den) {e : ℤ}
    (he : minExponent ≤ e) (hlow : (2 : ℚ) ^ (52 + e) ≤ num / den)
    (hhigh : (num : ℚ) / den < 2 ^ (53 + e)) : exponentFor num den = e := by
  obtain ⟨t, hexponent, hlow', hhigh'⟩ := exponentFor_spec hnum hden
  have hless := (zpow_lt_zpow_iff_right₀ one_lt_two).1 (hlow.trans_lt hhigh')
  have hmore := (zpow_lt_zpow_iff_right₀ one_lt_two).1 (hlow'.trans_lt hhigh)
  rw [hexponent]
  omega

/-- Small ratios have the least exponent. -/
theorem exponentFor_min {num den : ℕ} (hnum : 0 < num) (hden : 0 < den)
    (hhigh : (num : ℚ) / den < 2 ^ (53 + minExponent)) : exponentFor num den = minExponent := by
  obtain ⟨t, hexponent, hlow', -⟩ := exponentFor_spec hnum hden
  have hmore := (zpow_lt_zpow_iff_right₀ one_lt_two).1 (hlow'.trans_lt hhigh)
  rw [hexponent]
  omega

/-! ### Members -/

/-- The numbers that 64 bits hold: a mantissa of 53 bits, or fewer with the least exponent. -/
def Member : Binary64 → Prop
  | .finite _ mantissa exponent =>
    mantissa < 2 ^ 53 ∧ minExponent ≤ exponent ∧ exponent ≤ maxExponent ∧
      (mantissa < 2 ^ 52 → exponent = minExponent)
  | _ => True

theorem member_zero (negative : Bool) : (zero negative).Member :=
  ⟨by decide, le_refl _, by decide, fun _ => rfl⟩

/-- A ratio whose mantissa does not round up to the next power of two. -/
theorem ofRatio_of_round {negative : Bool} {num den mantissa : ℕ} (hnum : 0 < num)
    (hround : roundedFor num den (exponentFor num den) = mantissa) (hne : mantissa ≠ 2 ^ 53) :
    ofRatio negative num den = bounded negative mantissa (exponentFor num den) := by
  rw [ofRatio, if_neg hnum.ne', hround, carried, if_neg (twoTo_eq 53 ▸ hne)]

/-- A ratio whose mantissa rounds up to the next power of two. -/
theorem ofRatio_of_carry {negative : Bool} {num den : ℕ} (hnum : 0 < num)
    (hround : roundedFor num den (exponentFor num den) = 2 ^ 53) :
    ofRatio negative num den = bounded negative (2 ^ 52) (exponentFor num den + 1) := by
  rw [ofRatio, if_neg hnum.ne', hround, carried, if_pos (twoTo_eq 53).symm, twoTo_eq]

/-- The mantissa of a ratio has 53 bits, or fewer with the least exponent. -/
theorem roundedFor_spec {num den : ℕ} (hnum : 0 < num) (hden : 0 < den) :
    roundedFor num den (exponentFor num den) ≤ 2 ^ 53 ∧
      (roundedFor num den (exponentFor num den) < 2 ^ 52 →
        exponentFor num den = minExponent) := by
  obtain ⟨t, hexponent, hlow, hhigh⟩ := exponentFor_spec hnum hden
  have hscale := unscale_div num den (exponentFor num den)
  have hdpos := unscale_pos num hden (exponentFor num den)
  have hpow : (0 : ℚ) < 2 ^ (exponentFor num den) := zpow_pos two_pos _
  have hhigh' : ((unscale num den (exponentFor num den)).1 : ℚ) /
      (unscale num den (exponentFor num den)).2 < (2 ^ 53 : ℕ) := by
    rw [hscale, div_lt_iff₀ hpow]
    refine hhigh.trans_le ?_
    rw [zpow_add₀ (two_ne_zero' ℚ)]
    refine mul_le_mul (le_of_eq (by norm_num)) ?_ (zpow_pos two_pos t).le (by positivity)
    exact zpow_le_zpow_right₀ one_le_two (by omega)
  refine ⟨(roundHalfEven_mem hdpos (show ((0 : ℕ) : ℚ) ≤ _ by positivity) hhigh').2,
    fun hless => ?_⟩
  -- with a greater exponent the scaled ratio is at least a power of two, and rounding keeps that
  by_contra hne
  have ht : exponentFor num den = t := by omega
  have hlow' : ((2 ^ 52 : ℕ) : ℚ) ≤ ((unscale num den (exponentFor num den)).1 : ℚ) /
      (unscale num den (exponentFor num den)).2 := by
    rw [hscale, le_div_iff₀ hpow, ht]
    rw [zpow_add₀ (two_ne_zero' ℚ)] at hlow
    exact (le_of_eq (by norm_num)).trans hlow
  exact absurd hless (Nat.not_lt.2 (roundHalfEven_mem hdpos hlow' hhigh').1)

/-- A rounded ratio is a member. -/
theorem member_ofRatio (negative : Bool) (num : ℕ) {den : ℕ} (hden : 0 < den) :
    (ofRatio negative num den).Member := by
  by_cases hzero : num = 0
  · rw [ofRatio, if_pos hzero]
    exact member_zero negative
  · have hnum : 0 < num := Nat.pos_of_ne_zero hzero
    obtain ⟨t, hexponent, -⟩ := exponentFor_spec hnum hden
    obtain ⟨hmost, hless⟩ := roundedFor_spec hnum hden
    generalize hround : roundedFor num den (exponentFor num den) = mantissa at hmost hless
    by_cases hcarry : mantissa = 2 ^ 53
    · rw [ofRatio_of_carry hnum (hround.trans hcarry), bounded]
      split
      · trivial
      · exact ⟨by decide, by omega, by omega, fun h => absurd h (by decide)⟩
    · rw [ofRatio_of_round hnum hround hcarry, bounded]
      split
      · trivial
      · exact ⟨by omega, by omega, by omega, hless⟩

/-! ### Near a member -/

/-- The distance from a member to the midpoint below it, in units of its last place: below a power
of two members are closer together. -/
def below (mantissa : ℕ) (exponent : ℤ) : ℚ :=
  if mantissa = 2 ^ 52 ∧ minExponent < exponent then 1 / 4 else 1 / 2

/-- The rational numbers between the midpoints around a member, which themselves belong to it if its
mantissa is even. -/
structure Near (mantissa : ℕ) (exponent : ℤ) (q : ℚ) : Prop where
  low : (mantissa - below mantissa exponent) * 2 ^ exponent ≤ q
  high : q ≤ (mantissa + 1 / 2) * 2 ^ exponent
  odd : mantissa % 2 = 1 → (mantissa - below mantissa exponent) * 2 ^ exponent < q ∧
    q < (mantissa + 1 / 2) * 2 ^ exponent

theorem below_le_half (mantissa : ℕ) (exponent : ℤ) : below mantissa exponent ≤ 1 / 2 := by
  rw [below]
  split <;> norm_num

/-- Scaled, what is near to a member is rounded to its mantissa. -/
theorem Near.scaled {mantissa : ℕ} {exponent : ℤ} {q : ℚ} (h : Near mantissa exponent q) :
    Nearest (q / 2 ^ exponent) mantissa := by
  have hpow : (0 : ℚ) < 2 ^ exponent := zpow_pos two_pos _
  have hhalf := below_le_half mantissa exponent
  have hlow := (le_div_iff₀ hpow).2 h.low
  refine ⟨by linarith only [hlow, hhalf], (div_le_iff₀ hpow).2 h.high, fun hodd => ?_⟩
  obtain ⟨hlow', hhigh'⟩ := h.odd hodd
  have hlow'' := (lt_div_iff₀ hpow).2 hlow'
  exact ⟨by linarith only [hlow'', hhalf], (div_lt_iff₀ hpow).2 hhigh'⟩

/-- A ratio that is scaled with the member's exponent rounds to the member. -/
theorem ofRatio_of_exponent {negative : Bool} {mantissa : ℕ} {exponent : ℤ}
    (hmember : (finite negative mantissa exponent).Member) {num den : ℕ} (hnum : 0 < num)
    (hden : 0 < den) (h : Near mantissa exponent (num / den))
    (hexponent : exponentFor num den = exponent) :
    ofRatio negative num den = .finite negative mantissa exponent := by
  obtain ⟨hless, -, hmax, -⟩ := hmember
  have hnearest := h.scaled
  rw [← hexponent, ← unscale_div] at hnearest
  have hround := roundHalfEven_eq (unscale_pos num hden _) hnearest
  rw [ofRatio_of_round hnum hround (by omega), hexponent, bounded, if_neg (by omega)]

/-- Only a power of two has ratios below its own binade near to it. -/
theorem Near.mantissa_eq {mantissa : ℕ} {exponent : ℤ} {q : ℚ} (h : Near mantissa exponent q)
    (hfull : 2 ^ 52 ≤ mantissa) (hsmall : q < 2 ^ (52 + exponent)) : mantissa = 2 ^ 52 := by
  have hhalf := below_le_half mantissa exponent
  have hlow := h.low.trans_lt hsmall
  rw [zpow_add₀ (two_ne_zero' ℚ), mul_lt_mul_iff_left₀ (zpow_pos two_pos exponent)] at hlow
  have hlt : (mantissa : ℚ) < 4503599627370497 := by
    norm_num at hlow
    linarith
  have hlt' : mantissa < 4503599627370497 := by exact_mod_cast hlt
  omega

/-- A ratio just below a power of two rounds up to it: its mantissa is carried. -/
theorem ofRatio_of_below {negative : Bool} {exponent : ℤ} (hmin : minExponent < exponent)
    (hmax : exponent ≤ maxExponent) {num den : ℕ} (hnum : 0 < num) (hden : 0 < den)
    (h : Near (2 ^ 52) exponent (num / den)) (hsmall : (num : ℚ) / den < 2 ^ (52 + exponent)) :
    ofRatio negative num den = .finite negative (2 ^ 52) exponent := by
  have hquarter := h.low
  rw [below, if_pos ⟨rfl, hmin⟩] at hquarter
  have hhalf : (2 : ℚ) ^ exponent = 2 ^ (exponent - 1) * 2 := by
    rw [← zpow_add_one₀ two_ne_zero, sub_add_cancel]
  have hpow : (0 : ℚ) < 2 ^ (exponent - 1) := zpow_pos two_pos _
  have hexponent : exponentFor num den = exponent - 1 := by
    refine exponentFor_eq hnum hden (by omega) (le_trans ?_ hquarter) ?_
    · rw [zpow_add₀ (two_ne_zero' ℚ), hhalf]
      norm_num
      linarith
    · rwa [show 53 + (exponent - 1) = 52 + exponent by omega]
  have hscaled : ((2 ^ 53 : ℕ) : ℚ) - 1 / 2 ≤ num / den / 2 ^ (exponent - 1) := by
    rw [le_div_iff₀ hpow]
    refine le_trans (le_of_eq ?_) hquarter
    rw [hhalf]
    norm_num
    ring
  have hscaled' : (num : ℚ) / den / 2 ^ (exponent - 1) ≤ (2 ^ 53 : ℕ) + 1 / 2 := by
    rw [div_le_iff₀ hpow]
    refine hsmall.le.trans ?_
    rw [show 52 + exponent = 53 + (exponent - 1) by omega, zpow_add₀ (two_ne_zero' ℚ)]
    norm_num
    linarith
  rw [← hexponent, ← unscale_div] at hscaled hscaled'
  have hround := roundHalfEven_eq (unscale_pos num hden _)
    ⟨hscaled, hscaled', fun hodd => absurd hodd (by decide)⟩
  rw [ofRatio_of_carry hnum hround, hexponent, sub_add_cancel, bounded, if_neg (by omega)]

/-- A ratio rounds to the member that it is near to. -/
theorem ofRatio_of_near {negative : Bool} {mantissa : ℕ} {exponent : ℤ}
    (hmember : (finite negative mantissa exponent).Member) (hpos : 0 < mantissa) {num den : ℕ}
    (hden : 0 < den) (h : Near mantissa exponent (num / den)) :
    ofRatio negative num den = .finite negative mantissa exponent := by
  obtain ⟨hless, hmin, hmax, hfull⟩ := id hmember
  have hpow : (0 : ℚ) < 2 ^ exponent := zpow_pos two_pos _
  have hmantissa : (1 : ℚ) ≤ mantissa := by exact_mod_cast hpos
  have hmantissa' : (mantissa : ℚ) + 1 ≤ 2 ^ 53 := by exact_mod_cast hless
  have hnum : 0 < num := by
    have hhalf := below_le_half mantissa exponent
    have hlow : (0 : ℚ) < num / den :=
      lt_of_lt_of_le (mul_pos (by linarith) hpow) h.low
    rw [div_pos_iff_of_pos_right (Nat.cast_pos.2 hden)] at hlow
    exact_mod_cast hlow
  have hhigh : (num : ℚ) / den < 2 ^ (53 + exponent) := by
    refine h.high.trans_lt ?_
    rw [zpow_add₀ (two_ne_zero' ℚ)]
    refine mul_lt_mul_of_pos_right ?_ hpow
    norm_num at hmantissa' ⊢
    linarith
  -- the ratio is in the member's binade, or the member has the least exponent, or the ratio lies
  -- below a power of two that is the member
  by_cases hbig : (2 : ℚ) ^ (52 + exponent) ≤ num / den
  · exact ofRatio_of_exponent hmember hnum hden h (exponentFor_eq hnum hden hmin hbig hhigh)
  · rcases eq_or_lt_of_le hmin with heq | hgt
    · rw [← heq] at hhigh
      exact ofRatio_of_exponent hmember hnum hden h ((exponentFor_min hnum hden hhigh).trans heq)
    · have hfull' : 2 ^ 52 ≤ mantissa := by
        by_contra hnot
        have hexponent := hfull (by omega)
        omega
      obtain rfl := h.mantissa_eq hfull' (not_le.1 hbig)
      exact ofRatio_of_below hgt hmax hnum hden h (not_le.1 hbig)

end Binary64

end DesignRegistry
