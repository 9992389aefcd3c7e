/-
**Numbers in fields of one width.**

A field holds the digits of a number with zeros in front.  Digits of one width are in the order of the
numbers they denote, so fields one behind the other are in the order of their numbers, the first of them
first.

Main results:

* `lt_iff_natOfDigits_lt` — digits of one width are ordered as numbers;
* `padded_natOfDigits` — digits are the field of the number they denote;
* `padded_append_lt_iff` — **a field orders texts, and what is behind it only those with one number**.
-/
import DesignRegistry.Proofs.Number.Digits
import DesignRegistry.Proofs.Storage.SnapshotName
import DesignRegistry.Time.Calendar
import Mathlib.Algebra.GroupWithZero.Nat

set_option relaxedAutoImplicit false
set_option autoImplicit false

namespace DesignRegistry

/-! ### Digits of one width -/

theorem digitValue_lt_iff {c d : Char} (hc : c.isDigit = true) (hd : d.isDigit = true) :
    digitValue c < digitValue d ↔ c < d := by
  rw [Char.isDigit, Bool.and_eq_true, decide_eq_true_eq, decide_eq_true_eq] at hc hd
  have hleast : 48 ≤ c.toNat := hc.1
  have hleast' : 48 ≤ d.toNat := hd.1
  have hiff : c < d ↔ c.toNat < d.toNat := Iff.rfl
  rw [digitValue, digitValue, hiff]
  omega

theorem natOfDigits_cons (c : Char) (cs : List Char) :
    natOfDigits (c :: cs) = 10 ^ cs.length * digitValue c + natOfDigits cs := by
  have hsingle : natOfDigits [c] = digitValue c := by simp [natOfDigits]
  have happend := natOfDigits_append [c] cs
  rwa [hsingle, List.singleton_append] at happend

/-- Digits of one width are ordered as the numbers they denote. -/
theorem lt_iff_natOfDigits_lt {a b : List Char} (hlength : a.length = b.length)
    (ha : ∀ c ∈ a, c.isDigit = true) (hb : ∀ c ∈ b, c.isDigit = true) :
    a < b ↔ natOfDigits a < natOfDigits b := by
  induction a generalizing b with
  | nil =>
      obtain rfl := List.eq_nil_of_length_eq_zero hlength.symm
      simp
  | cons c a ih =>
      cases b with
      | nil => exact absurd hlength (by simp)
      | cons d b =>
          rw [List.length_cons, List.length_cons, Nat.add_right_cancel_iff] at hlength
          rw [List.forall_mem_cons] at ha hb
          have hrest := ih hlength ha.2 hb.2
          have hlead := digitValue_lt_iff ha.1 hb.1
          have hlead' := digitValue_lt_iff hb.1 ha.1
          have hless := natOfDigits_lt ha.2
          have hless' := natOfDigits_lt hb.2
          rw [List.cons_lt_cons_iff, natOfDigits_cons, natOfDigits_cons, hlength]
          rw [hlength] at hless
          -- the leading digits decide, unless they are the same
          rcases lt_trichotomy c d with hcd | rfl | hdc
          · have hstep : 10 ^ b.length * (digitValue c + 1) ≤ 10 ^ b.length * digitValue d :=
              Nat.mul_le_mul_left _ (hlead.2 hcd)
            rw [Nat.mul_succ] at hstep
            exact iff_of_true (.inl hcd) (by omega)
          · rw [hrest]
            simp
          · have hstep : 10 ^ b.length * (digitValue d + 1) ≤ 10 ^ b.length * digitValue c :=
              Nat.mul_le_mul_left _ (hlead'.2 hdc)
            rw [Nat.mul_succ] at hstep
            refine iff_of_false ?_ (by omega)
            rintro (hcd | ⟨rfl, -⟩)
            · exact lt_asymm hcd hdc
            · exact lt_irrefl _ hdc

/-- Digits of one width denote different numbers. -/
theorem natOfDigits_inj {a b : List Char} (hlength : a.length = b.length)
    (ha : ∀ c ∈ a, c.isDigit = true) (hb : ∀ c ∈ b, c.isDigit = true)
    (h : natOfDigits a = natOfDigits b) : a = b := by
  rcases lt_trichotomy a b with hlt | heq | hgt
  · exact absurd ((lt_iff_natOfDigits_lt hlength ha hb).1 hlt) (by omega)
  · exact heq
  · exact absurd ((lt_iff_natOfDigits_lt hlength.symm hb ha).1 hgt) (by omega)

/-! ### Fields -/

variable {width m n : ℕ}

theorem isDigit_of_mem_padded {c : Char} (h : c ∈ padded width n) : c.isDigit = true := by
  rcases List.mem_append.1 h with h | h
  · rw [List.eq_of_mem_replicate h]
    decide
  · exact isDigit_of_mem_natDigits h

theorem padded_ne_nil (width n : ℕ) : padded width n ≠ [] :=
  List.append_ne_nil_of_right_ne_nil _ (natDigits_ne_nil n)

theorem length_padded [NeZero width] (h : n < 10 ^ width) : (padded width n).length = width := by
  have hmost : (natDigits n).length ≤ width :=
    (Nat.length_toDigits_le_iff (by decide) (Nat.pos_of_neZero width)).2 h
  rw [padded, List.length_append, List.length_replicate]
  omega

@[simp] theorem natOfDigits_padded (width n : ℕ) : natOfDigits (padded width n) = n := by
  rw [padded, natOfDigits_zeros_append, natOfDigits_natDigits]

/-- Digits are the field of the number they denote. -/
theorem padded_natOfDigits {cs : List Char} (hne : cs ≠ []) (hcs : ∀ c ∈ cs, c.isDigit = true) :
    padded cs.length (natOfDigits cs) = cs := by
  have : NeZero cs.length := ⟨fun hnil => hne (List.eq_nil_of_length_eq_zero hnil)⟩
  exact natOfDigits_inj (length_padded (natOfDigits_lt hcs)) (fun _ hc => isDigit_of_mem_padded hc) hcs
    (natOfDigits_padded _ _)

/-- **A field orders texts**, and what is behind it only those with one number in it. -/
theorem padded_append_lt_iff [NeZero width] (hm : m < 10 ^ width) (hn : n < 10 ^ width)
    (x y : List Char) : padded width m ++ x < padded width n ++ y ↔ m < n ∨ m = n ∧ x < y := by
  have hlength : (padded width m).length = (padded width n).length := by
    rw [length_padded hm, length_padded hn]
  have hsame : padded width m = padded width n ↔ m = n :=
    ⟨fun h => by simpa using congrArg natOfDigits h, fun h => by rw [h]⟩
  rw [append_lt_append_iff hlength, hsame,
    lt_iff_natOfDigits_lt hlength (fun _ hc => isDigit_of_mem_padded hc)
      (fun _ hc => isDigit_of_mem_padded hc), natOfDigits_padded, natOfDigits_padded]

/-- Of texts with a mark behind the first field, a lesser number comes first. -/
theorem marked_field_lt [NeZero width] {mark : Char} (hm : m < 10 ^ width) (hn : n < 10 ^ width)
    {x y : List Char} (h : m < n ∨ m = n ∧ x < y) :
    padded width m ++ mark :: x < padded width n ++ mark :: y := by
  refine (padded_append_lt_iff hm hn _ _).2 (h.imp_right fun ⟨hsame, hrest⟩ => ⟨hsame, ?_⟩)
  exact List.cons_lt_cons_iff.2 (.inr ⟨rfl, hrest⟩)

end DesignRegistry
