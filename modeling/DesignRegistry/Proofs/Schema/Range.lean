/-
**Bounds on integers.**

A bound and what it bounds are compared as binary numbers.  Of integers this is right up to `2 ^ 53`.
Beyond, an integer next to a bound may have the binary number of the bound and is then taken to meet it;
and an integer that has no binary number ends the check.

Main definitions:

* `Schema.between` — the schema of the numbers between two integers;
* `Schema.tooSmall`, `Schema.tooGreat` — what is reported of an integer beyond a bound;
* `Schema.InReach` — the integers that have a binary number.

Main results:

* `Schema.validate_between` — the report, from the order of the integers and their binary numbers;
* `Schema.bounds_on_integers` — **bounds are checked up to rounding, and exactly up to `2 ^ 53`**.
-/
import DesignRegistry.Proofs.Number.Integers
import DesignRegistry.Schema.Check

set_option relaxedAutoImplicit false
set_option autoImplicit false

namespace DesignRegistry

namespace Schema

open Json Binary64

/-! ### Bounds on integers -/

/-- The schema of the numbers between two integers. -/
def between (least most : ℤ) : Members := [("minimum", .int least), ("maximum", .int most)]

/-- The violation of an integer below the least one. -/
def tooSmall (n least : ℤ) (path : String) : Violation :=
  ⟨path, "must be >= " ++ (Json.int least).plain, "minimum", some (.int n)⟩

/-- The violation of an integer above the greatest one. -/
def tooGreat (n most : ℤ) (path : String) : Violation :=
  ⟨path, "must be <= " ++ (Json.int most).plain, "maximum", some (.int n)⟩

theorem checkMinimum_between (n least most : ℤ) (path : String) :
    checkMinimum (between least most) path (.int n) = do
      let x ← binaryOf (.int n)
      let low ← binaryOf (.int least)
      return reportIf (x.lt low) (tooSmall n least path) := by
  rfl

theorem checkMaximum_between (n least most : ℤ) (path : String) :
    checkMaximum (between least most) path (.int n) = do
      let x ← binaryOf (.int n)
      let high ← binaryOf (.int most)
      return reportIf (high.lt x) (tooGreat n most path) := by
  rfl

/-- Of a schema with nothing but bounds only the bounds are checked. -/
theorem checkAt_between (root : Json) (fuel : ℕ) (n least most : ℤ) (path : String) :
    checkAt root (fuel + 1) (.int n) (.obj (between least most)) path =
      checkNumber (between least most) path (.int n) := by
  have h : checkAt root (fuel + 1) (.int n) (.obj (between least most)) path = do
      return [] ++ (← checkNumber (between least most) path (.int n)) := by
    rfl
  rw [h]
  cases checkNumber (between least most) path (.int n) <;> rfl

/-- In a report the upper bound comes first, by the names of the keywords. -/
theorem ordered_bounds (below above : Bool) (n least most : ℤ) (path : String) :
    ordered Violation.le (reportIf below (tooSmall n least path) ++ reportIf above (tooGreat n most path)) =
      reportIf above (tooGreat n most path) ++ reportIf below (tooSmall n least path) := by
  have hle : (tooSmall n least path).le (tooGreat n most path) = false := by
    have hkeyword : ("minimum" : String) ≠ "maximum" := by decide
    have hless : decide (("minimum" : String) < "maximum") = false := by decide
    rw [Violation.le, tooSmall, tooGreat, if_neg (not_not.2 rfl), if_pos hkeyword, hless]
  cases below <;> cases above
  · rfl
  · rfl
  · rfl
  · simp [ordered, reportIf, placed, hle]

/-- The integers that have a binary number. -/
def InReach (i : ℤ) : Prop := i.natAbs < reach

instance (i : ℤ) : Decidable (InReach i) := inferInstanceAs (Decidable (_ < _))

theorem binaryOf_of_inReach {i : ℤ} (h : InReach i) :
    ∃ x, ofInt? i = some x ∧ binaryOf (.int i) = .ok x := by
  cases hx : ofInt? i with
  | none => exact absurd h (not_lt.2 (ofInt?_eq_none_iff.1 hx))
  | some x => exact ⟨x, rfl, by rw [binaryOf, hx]⟩

theorem binaryOf_of_not_inReach {i : ℤ} (h : ¬ InReach i) : binaryOf (.int i) = .error .tooLarge := by
  rw [binaryOf, ofInt?_eq_none_iff.2 (not_lt.1 h)]

/-- Both bounds are reported as the binary numbers tell, provided that there are any. -/
theorem validate_between (n least most : ℤ) (path : String) :
    validate (.obj (between least most)) (.obj (between least most)) (.int n) path =
      if InReach n ∧ InReach least ∧ InReach most then
        .ok (reportIf (most < n ∧ ¬ SameBinary most n) (tooGreat n most path)
          ++ reportIf (n < least ∧ ¬ SameBinary n least) (tooSmall n least path))
      else .error .tooLarge := by
  rw [validate, fuelFor, checkAt_between, checkNumber, checkMinimum_between, checkMaximum_between]
  -- the check stops at the first of the three that has no binary number
  by_cases hn : InReach n
  · obtain ⟨x, hx, hbinary⟩ := binaryOf_of_inReach hn
    rw [hbinary]
    by_cases hleast : InReach least
    · obtain ⟨low, hlow, hbinary'⟩ := binaryOf_of_inReach hleast
      rw [hbinary']
      by_cases hmost : InReach most
      · obtain ⟨high, hhigh, hbinary''⟩ := binaryOf_of_inReach hmost
        have hbelow : x.lt low = decide (n < least ∧ ¬ SameBinary n least) :=
          Bool.eq_iff_iff.2 ((lt_iff_of_ofInt? hx hlow).trans decide_eq_true_iff.symm)
        have habove : high.lt x = decide (most < n ∧ ¬ SameBinary most n) :=
          Bool.eq_iff_iff.2 ((lt_iff_of_ofInt? hhigh hx).trans decide_eq_true_iff.symm)
        rw [hbinary'', if_pos ⟨hn, hleast, hmost⟩, ← ordered_bounds, ← hbelow, ← habove]
        rfl
      · rw [binaryOf_of_not_inReach hmost, if_neg fun h => hmost h.2.2]
        rfl
    · rw [binaryOf_of_not_inReach hleast, if_neg fun h => hleast h.2.1]
      rfl
  · rw [binaryOf_of_not_inReach hn, if_neg fun h => hn h.1]
    rfl

/-- **Bounds are checked up to rounding.**  The check of an integer against two bounds stops if one of the
three has no binary number.  Otherwise an integer beyond a bound is reported unless both have one binary
number; then they are no more than one part in `2 ^ 53` of both together apart.  Up to `2 ^ 53` nothing is
lost. -/
theorem bounds_on_integers (n least most : ℤ) (path : String) :
    validate (.obj (between least most)) (.obj (between least most)) (.int n) path =
        (if InReach n ∧ InReach least ∧ InReach most then
          .ok (reportIf (most < n ∧ ¬ SameBinary most n) (tooGreat n most path)
            ++ reportIf (n < least ∧ ¬ SameBinary n least) (tooSmall n least path))
        else .error .tooLarge)
      ∧ (∀ i j, SameBinary i j → 2 ^ 53 * |i - j| ≤ |i| + |j|)
      ∧ (|n| ≤ 2 ^ 53 → |least| ≤ 2 ^ 53 → |most| ≤ 2 ^ 53 →
          validate (.obj (between least most)) (.obj (between least most)) (.int n) path =
            .ok (reportIf (most < n) (tooGreat n most path) ++ reportIf (n < least) (tooSmall n least path))) := by
  have hvalidate := validate_between n least most path
  refine ⟨hvalidate, fun i j h => h.near, fun hn hleast hmost => ?_⟩
  have hreach {i : ℤ} (hi : |i| ≤ 2 ^ 53) : InReach i := by
    rw [Int.abs_eq_natAbs] at hi
    have hbig : 2 ^ 53 < reach := by decide +kernel
    exact lt_of_le_of_lt (by omega) hbig
  have hexact {i j : ℤ} (hi : |i| ≤ 2 ^ 53) (hj : |j| ≤ 2 ^ 53) :
      (i < j ∧ ¬ SameBinary i j) ↔ i < j :=
    and_iff_left_of_imp fun hless hsame => hless.ne (hsame.eq hi hj)
  rw [hvalidate, if_pos ⟨hreach hn, hreach hleast, hreach hmost⟩]
  simp only [hexact hmost hn, hexact hn hleast]

/-- An integer above small bounds, and two great integers that are taken to be one. -/
theorem bounds_on_integers_small :
    validate (.obj (between 0 10)) (.obj (between 0 10)) (.int 12) "$" = .ok [tooGreat 12 10 "$"]
      ∧ SameBinary 9007199254740992 9007199254740993
      ∧ (2 : ℤ) ^ 53 * |9007199254740992 - 9007199254740993| ≤ |9007199254740992| + |9007199254740993| := by
  have hsame : SameBinary 9007199254740992 9007199254740993 := by decide +kernel
  obtain ⟨-, hnear, hexact⟩ := bounds_on_integers 12 0 10 "$"
  exact ⟨hexact (by decide) (by decide) (by decide), hsame, hnear _ _ hsame⟩

/-- An integer below the least one that is not reported, and one between the bounds at which the check
stops. -/
theorem bounds_on_integers_missed :
    (9007199254740992 : ℤ) < 9007199254740993
      ∧ validate (.obj (between 9007199254740993 9007199254740993))
          (.obj (between 9007199254740993 9007199254740993)) (.int 9007199254740992) "$" = .ok []
      ∧ (0 : ℤ) ≤ 10 ^ 400
      ∧ validate (.obj (between 0 (10 ^ 400))) (.obj (between 0 (10 ^ 400))) (.int (10 ^ 400)) "$" =
          .error .tooLarge := by
  refine ⟨by decide, ?_, by positivity, ?_⟩
  · have hsame : SameBinary 9007199254740992 9007199254740993 := by decide +kernel
    rw [validate_between, if_pos (by decide +kernel)]
    simp [reportIf, hsame]
  · rw [validate_between, if_neg (by decide +kernel)]

end Schema

end DesignRegistry
