/-
**Decimal digits.**

The digits of a natural number denote it, and no other number has the same.  What a reader of digits
relies on is stated beside that: all of them are digits, there is at least one, and a zero stands in
front of no other.

Main results:

* `natOfDigits_natDigits` — the digits of a number denote it;
* `natOfDigits_append` — digits in a row;
* `natDigits_eq_zero_cons` — a leading zero stands alone;
* `length_natDigits_natOfDigits` — no digits that denote a number are fewer than its own.
-/
import DesignRegistry.Number.Decimal
import Mathlib.Algebra.Group.Nat.Defs
import Mathlib.Data.List.Induction

set_option relaxedAutoImplicit false
set_option autoImplicit false

namespace DesignRegistry

theorem natOfDigits_eq (cs : List Char) : natOfDigits cs = Nat.ofDigitChars 10 cs 0 := rfl

@[simp] theorem natOfDigits_nil : natOfDigits [] = 0 := rfl

/-- The digits of a number denote it. -/
@[simp] theorem natOfDigits_natDigits (n : Nat) : natOfDigits (natDigits n) = n :=
  Nat.ofDigitChars_ten_toDigits

theorem natDigits_injective {m n : Nat} (h : natDigits m = natDigits n) : m = n := by
  rw [← natOfDigits_natDigits m, h, natOfDigits_natDigits]

/-- Digits in a row. -/
theorem natOfDigits_append (cs ds : List Char) :
    natOfDigits (cs ++ ds) = 10 ^ ds.length * natOfDigits cs + natOfDigits ds := by
  rw [natOfDigits_eq, Nat.ofDigitChars_append, Nat.ofDigitChars_eq_ofDigitChars_zero]
  rfl

theorem natDigits_ne_nil (n : Nat) : natDigits n ≠ [] := Nat.toDigits_ne_nil

theorem isDigit_of_mem_natDigits {n : Nat} {c : Char} (h : c ∈ natDigits n) : c.isDigit = true :=
  Nat.isDigit_of_mem_toDigits (by decide) (by decide) h

theorem all_isDigit_natDigits (n : Nat) : (natDigits n).all Char.isDigit = true :=
  List.all_eq_true.2 fun _ h => isDigit_of_mem_natDigits h

@[simp] theorem natDigits_zero : natDigits 0 = ['0'] := Nat.toDigits_zero 10

/-- A zero in front of other digits is none of a number's digits. -/
theorem natDigits_eq_zero_cons {n : Nat} {cs : List Char} (h : natDigits n = '0' :: cs) :
    cs = [] := by
  induction n using Nat.strongRecOn generalizing cs with
  | ind n ih =>
      rcases Nat.lt_or_ge n 10 with hlt | hge
      · rw [natDigits, Nat.toDigits_of_lt_base hlt] at h
        exact (List.cons.inj h).2.symm
      · have hpos : 0 < n / 10 := Nat.div_pos hge (by decide)
        rw [natDigits, Nat.toDigits_of_base_le (by decide) hge] at h
        -- the number without its last digit has the same leading digit, and is not zero
        cases hd : Nat.toDigits 10 (n / 10) with
        | nil => exact absurd hd Nat.toDigits_ne_nil
        | cons c ds =>
            rw [hd, List.cons_append] at h
            obtain ⟨rfl, rfl⟩ := List.cons.inj h
            have hnil : ds = [] := ih (n / 10) (Nat.div_lt_self (by omega) (by decide)) hd
            subst hnil
            have hzero : n / 10 = 0 := by
              rw [← natOfDigits_natDigits (n / 10), natDigits, hd]
              rfl
            omega

/-! ### How many there are -/

theorem lt_ten_pow_length (n : Nat) : n < 10 ^ (natDigits n).length :=
  (Nat.length_toDigits_le_iff (by decide) Nat.length_toDigits_pos).1 (Nat.le_refl _)

/-- A number has no more digits than it needs. -/
theorem ten_pow_le {n k : Nat} (hn : 0 < n) (h : k < (natDigits n).length) : 10 ^ k ≤ n := by
  cases k with
  | zero => exact hn
  | succ k =>
      rw [← Nat.not_lt]
      intro hless
      have hlength := (Nat.length_toDigits_le_iff (by decide) (Nat.succ_pos k)).2 hless
      exact absurd h (Nat.not_lt.2 hlength)

theorem digitValue_lt_ten {c : Char} (h : c.isDigit = true) : digitValue c < 10 := by
  rw [Char.isDigit, Bool.and_eq_true, decide_eq_true_eq, decide_eq_true_eq] at h
  have hmost : c.toNat ≤ 57 := h.2
  rw [digitValue]
  omega

theorem natOfDigits_concat (cs : List Char) (c : Char) :
    natOfDigits (cs ++ [c]) = 10 * natOfDigits cs + digitValue c := by
  rw [natOfDigits, List.foldl_append]
  rfl

theorem natOfDigits_lt {cs : List Char} (h : ∀ c ∈ cs, c.isDigit = true) :
    natOfDigits cs < 10 ^ cs.length := by
  induction cs using List.reverseRecOn with
  | nil => decide
  | append_singleton cs c ih =>
      rw [List.forall_mem_append, List.forall_mem_singleton] at h
      have hcs := ih h.1
      have hc := digitValue_lt_ten h.2
      rw [natOfDigits_concat, List.length_append, List.length_singleton, Nat.pow_succ]
      omega

/-- No digits that denote a number are fewer than its own. -/
theorem length_natDigits_natOfDigits {cs : List Char} (hne : cs ≠ [])
    (h : ∀ c ∈ cs, c.isDigit = true) : (natDigits (natOfDigits cs)).length ≤ cs.length :=
  (Nat.length_toDigits_le_iff (by decide) (List.length_pos_iff.2 hne)).2 (natOfDigits_lt h)

/-! ### Zeros -/

theorem natOfDigits_zeros (n : Nat) : natOfDigits (List.replicate n '0') = 0 := by
  rw [natOfDigits_eq, Nat.ofDigitChars_replicate_zero, Nat.mul_zero]

/-- Zeros in front do not count. -/
theorem natOfDigits_zeros_append (n : Nat) (cs : List Char) :
    natOfDigits (List.replicate n '0' ++ cs) = natOfDigits cs := by
  rw [natOfDigits_append, natOfDigits_zeros, Nat.mul_zero, Nat.zero_add]

/-- Each zero at the end multiplies by ten. -/
theorem natOfDigits_append_zeros (cs : List Char) (n : Nat) :
    natOfDigits (cs ++ List.replicate n '0') = natOfDigits cs * 10 ^ n := by
  rw [natOfDigits_append, natOfDigits_zeros, List.length_replicate, Nat.add_zero, Nat.mul_comm]

end DesignRegistry
