/-
**Numbers are read as they were written.**

A number literal has a whole part, and may have a fraction and an exponent.  The reader takes it apart
where it was put together, provided that nothing follows that could belong to it.  The notation of a
binary number has a fraction or an exponent wherever its point lies, and denotes the decimal that lies
near to the number; the notation of an integer has neither.

Main definitions:

* `Json.EndsNumber` — a rest of a text that does not go on with a number;
* `Json.Numeral`, `Json.Numeral.text` — the parts of a number literal, and the literal;
* `Json.Numeral.decimal` — the decimal that a literal denotes;
* `Json.layoutNumeral` — the literal of digits with a point among them;
* `Json.Notation` — the notation of a binary number.

Main results:

* `Json.numberAt_eq` — a literal is taken apart where it was put together;
* `Json.text_layoutNumeral`, `Json.ratio_layoutNumeral` — a layout of digits is a literal that denotes
  them;
* `Json.numberAt_intDigits`, `Json.numberAt_finiteText` — **numbers are read as they were written**.
-/
import DesignRegistry.Json.Printer
import DesignRegistry.Json.Reader
import DesignRegistry.Proofs.Number.Decimal

set_option relaxedAutoImplicit false
set_option autoImplicit false

namespace DesignRegistry

namespace Json

/-- A rest of a text that does not go on with a number. -/
def EndsNumber (rest : List Char) : Prop :=
  ∀ c, rest.head? = some c → c.isDigit = false ∧ c ≠ '.' ∧ c ≠ 'e' ∧ c ≠ 'E'

theorem endsNumber_nil : EndsNumber [] := fun c h => absurd h (by simp)

theorem endsNumber_cons {c : Char} (h : c.isDigit = false ∧ c ≠ '.' ∧ c ≠ 'e' ∧ c ≠ 'E')
    (rest : List Char) : EndsNumber (c :: rest) := by
  intro d hd
  obtain rfl := Option.some.inj hd
  exact h

/-! ### Digits -/

theorem ne_of_isDigit {c d : Char} (hc : c.isDigit = true) (hd : d.isDigit = false) : c ≠ d := by
  rintro rfl
  rw [hc] at hd
  exact absurd hd (by simp)

/-- Digits end where none follows. -/
theorem digits_append {ds rest : List Char} (hds : ∀ c ∈ ds, c.isDigit = true)
    (hrest : ∀ c, rest.head? = some c → c.isDigit = false) :
    (ds ++ rest).takeWhile Char.isDigit = ds ∧ (ds ++ rest).dropWhile Char.isDigit = rest := by
  rw [List.takeWhile_append_of_pos hds, List.dropWhile_append_of_pos hds]
  cases rest with
  | nil => exact ⟨List.append_nil ds, rfl⟩
  | cons c rest =>
      have hc : ¬ c.isDigit = true := by simp [hrest c rfl]
      rw [List.takeWhile_cons_of_neg hc, List.dropWhile_cons_of_neg hc]
      exact ⟨List.append_nil ds, rfl⟩

/-! ### Literals -/

/-- The parts of a number literal without its sign. -/
structure Numeral where
  /-- The digits before the point. -/
  whole : List Char
  /-- The digits behind the point; without them there is no point either. -/
  fraction : List Char
  /-- The exponent, if there is one: whether it is negative, and its digits. -/
  exponent : Option (Bool × List Char)

namespace Numeral

/-- An exponent with its mark and its sign. -/
def exponentText : Option (Bool × List Char) → List Char
  | none => []
  | some (negative, ds) => 'e' :: (if negative then '-' else '+') :: ds

/-- The number that an exponent denotes. -/
def exponentValue : Option (Bool × List Char) → Option Int
  | none => none
  | some (negative, ds) => some (if negative then -(natOfDigits ds : Int) else natOfDigits ds)

/-- A fraction with its point. -/
def fractionText (ds : List Char) : List Char := if ds.isEmpty then [] else '.' :: ds

/-- The literal. -/
def text (n : Numeral) : List Char :=
  n.whole ++ (fractionText n.fraction ++ exponentText n.exponent)

/-- The decimal that a literal denotes. -/
def decimal (n : Numeral) (negative : Bool) : Decimal :=
  ⟨negative, natOfDigits (n.whole ++ n.fraction),
    (exponentValue n.exponent).getD 0 - n.fraction.length⟩

/-- A literal that can be read: its parts are digits, and no zero stands in front of others. -/
structure Proper (n : Numeral) : Prop where
  lead : n.whole = ['0'] ∨ ∃ c ds, n.whole = c :: ds ∧ c ≠ '0'
  whole : ∀ c ∈ n.whole, c.isDigit = true
  fraction : ∀ c ∈ n.fraction, c.isDigit = true
  exponent : ∀ negative ds, n.exponent = some (negative, ds) →
    ds ≠ [] ∧ ∀ c ∈ ds, c.isDigit = true

end Numeral

open Numeral

/-- What follows the digits behind the point, or the point itself. -/
theorem head?_exponentText (exponent : Option (Bool × List Char)) {rest : List Char}
    (hrest : EndsNumber rest) :
    ∀ c, (exponentText exponent ++ rest).head? = some c → c.isDigit = false ∧ c ≠ '.' := by
  intro c hc
  cases exponent with
  | none => exact ⟨(hrest c hc).1, (hrest c hc).2.1⟩
  | some parts =>
      obtain rfl : 'e' = c := Option.some.inj hc
      decide

theorem exponentPart_append {exponent : Option (Bool × List Char)} {rest : List Char}
    (hdigits : ∀ negative ds, exponent = some (negative, ds) →
      ds ≠ [] ∧ ∀ c ∈ ds, c.isDigit = true) (hrest : EndsNumber rest) :
    exponentPart (exponentText exponent ++ rest) = (exponentValue exponent, rest) := by
  cases exponent with
  | none =>
      rw [exponentText, List.nil_append, exponentValue]
      cases rest with
      | nil => rfl
      | cons c rest =>
          obtain ⟨-, -, he, hE⟩ := hrest c rfl
          rw [exponentPart.eq_def]
          exact if_neg (not_or.2 ⟨he, hE⟩)
  | some parts =>
      obtain ⟨negative, ds⟩ := parts
      obtain ⟨hne, hds⟩ := hdigits negative ds rfl
      obtain ⟨htake, hdrop⟩ := digits_append hds fun c hc => (hrest c hc).1
      have hsome : ds.isEmpty = false := by simpa using hne
      cases negative <;> simp [exponentText, exponentValue, exponentPart, htake, hdrop, hsome]

theorem fractionPart_append {fraction rest : List Char}
    (hdigits : ∀ c ∈ fraction, c.isDigit = true)
    (hrest : ∀ c, rest.head? = some c → c.isDigit = false ∧ c ≠ '.') :
    fractionPart (fractionText fraction ++ rest) = (fraction, rest) := by
  cases fraction with
  | nil =>
      rw [fractionText, if_pos (by rfl), List.nil_append]
      cases rest with
      | nil => rfl
      | cons c rest =>
          rw [fractionPart]
          rintro more ⟨rfl, -⟩
          exact (hrest '.' rfl).2 rfl
  | cons d ds =>
      obtain ⟨htake, hdrop⟩ := digits_append hdigits fun c hc => (hrest c hc).1
      rw [fractionText, if_neg (by simp), List.cons_append, fractionPart]
      simp only [htake, hdrop, List.isEmpty_cons, Bool.false_eq_true, if_false]

theorem integerPart?_append {n : Numeral} (h : n.Proper) {rest : List Char}
    (hrest : ∀ c, rest.head? = some c → c.isDigit = false) :
    integerPart? (n.whole ++ rest) = some (n.whole, rest) := by
  rcases h.lead with hzero | ⟨c, ds, hwhole, hc⟩
  · rw [hzero]
    rfl
  · obtain ⟨htake, hdrop⟩ := digits_append h.whole hrest
    have hdigit : c.isDigit = true := h.whole c (hwhole ▸ List.mem_cons_self)
    rw [hwhole, List.cons_append] at htake hdrop ⊢
    rw [integerPart?, if_pos hdigit, htake, hdrop]
    exact hc

/-- The digits before the point of a literal end where the fraction or the exponent begins. -/
theorem integerPart?_text {n : Numeral} (h : n.Proper) {rest : List Char} (hrest : EndsNumber rest) :
    integerPart? (n.text ++ rest) =
      some (n.whole, fractionText n.fraction ++ (exponentText n.exponent ++ rest)) := by
  rw [Numeral.text, List.append_assoc, List.append_assoc]
  refine integerPart?_append h fun c hc => ?_
  cases hds : n.fraction with
  | nil =>
      rw [hds] at hc
      exact (head?_exponentText n.exponent hrest c hc).1
  | cons d ds =>
      rw [hds, fractionText, if_neg (by simp)] at hc
      obtain rfl : '.' = c := Option.some.inj hc
      decide

/-- The sign in front of a literal. -/
def signText (negative : Bool) : List Char := if negative then ['-'] else []

/-- A literal is taken apart where it was put together. -/
theorem numberAt_eq {n : Numeral} (h : n.Proper) (negative : Bool) {rest : List Char}
    (hrest : EndsNumber rest) :
    numberAt (signText negative ++ (n.text ++ rest)) =
      if n.fraction.isEmpty && (exponentValue n.exponent).isNone then
        if maxIntegerDigits < n.whole.length then
          .error ⟨.tooManyDigits n.whole.length, signText negative ++ (n.text ++ rest)⟩
        else
          .ok (.int (if negative then -(natOfDigits n.whole : Int) else natOfDigits n.whole), rest)
      else .ok (.float (n.decimal negative).toBinary64, rest) := by
  have hexponent := exponentPart_append h.exponent hrest
  have hfraction := fractionPart_append h.fraction (head?_exponentText n.exponent hrest)
  have hwhole := integerPart?_text h hrest
  -- a literal starts with a digit, so the sign in front is the only one
  have hunsigned : ∀ more, n.text ++ rest ≠ '-' :: more := by
    intro more heq
    rw [heq] at hwhole
    simp [integerPart?] at hwhole
  rw [numberAt.eq_def]
  cases negative with
  | true =>
      simp only [signText, if_true, List.singleton_append, hwhole, hfraction, hexponent]
      rfl
  | false =>
      simp only [signText, Bool.false_eq_true, if_false, List.nil_append, hwhole, hfraction, hexponent]
      rfl

/-! ### Integers -/

/-- The digits of a natural number as a literal. -/
def natNumeral (n : ℕ) : Numeral := ⟨natDigits n, [], none⟩

theorem proper_natNumeral (n : ℕ) : (natNumeral n).Proper where
  lead := by
    cases hdigits : natDigits n with
    | nil => exact absurd hdigits (natDigits_ne_nil n)
    | cons c ds =>
        by_cases hc : c = '0'
        · subst hc
          obtain rfl := natDigits_eq_zero_cons hdigits
          exact .inl hdigits
        · exact .inr ⟨c, ds, hdigits, hc⟩
  whole := fun _ hc => isDigit_of_mem_natDigits hc
  fraction := fun _ hc => absurd hc List.not_mem_nil
  exponent := fun _ _ h => absurd h (by simp [natNumeral])

theorem text_natNumeral (n : ℕ) : (natNumeral n).text = natDigits n := List.append_nil _

/-- An integer is its sign and its digits. -/
theorem intDigits_eq (n : Int) : intDigits n = signText (decide (n < 0)) ++ natDigits n.natAbs := by
  rw [intDigits]
  by_cases h : n < 0 <;> simp [h, signText]

/-- An integer is read as it was written, if it has no more digits than are read. -/
theorem numberAt_intDigits {n : Int} (h : (natDigits n.natAbs).length ≤ maxIntegerDigits)
    {rest : List Char} (hrest : EndsNumber rest) :
    numberAt (intDigits n ++ rest) = .ok (.int n, rest) := by
  have hread := numberAt_eq (proper_natNumeral n.natAbs) (decide (n < 0)) hrest
  rw [text_natNumeral, ← List.append_assoc, ← intDigits_eq] at hread
  have hsigned : (if decide (n < 0) = true then -(n.natAbs : Int) else n.natAbs) = n := by
    by_cases hn : n < 0
    · rw [if_pos (decide_eq_true hn)]
      omega
    · rw [if_neg (by simpa using hn)]
      omega
  rw [hread, if_pos (by rfl),
    if_neg (show ¬ maxIntegerDigits < (natNumeral n.natAbs).whole.length from Nat.not_lt.2 h),
    natNumeral, natOfDigits_natDigits, hsigned]

/-! ### Layouts of digits -/

/-- The literal of the digits of a number behind a point that stands `point` places to the right of
the first of them. -/
def layoutNumeral (ds : List Char) (point : Int) : Numeral :=
  if point - 1 < -4 ∨ 16 ≤ point - 1 then
    let power := natDigits (point - 1).natAbs
    ⟨ds.take 1, ds.drop 1,
      some (decide (point - 1 < 0), if power.length < 2 then '0' :: power else power)⟩
  else if point ≤ 0 then ⟨['0'], List.replicate (-point).toNat '0' ++ ds, none⟩
  else if ds.length ≤ point.toNat then
    ⟨ds ++ List.replicate (point.toNat - ds.length) '0', ['0'], none⟩
  else ⟨ds.take point.toNat, ds.drop point.toNat, none⟩

/-- Digits that do not start with a zero. -/
structure Leading (ds : List Char) : Prop where
  lead : ∃ c cs, ds = c :: cs ∧ c ≠ '0'
  digits : ∀ c ∈ ds, c.isDigit = true

variable {ds : List Char} {point : Int}

theorem Leading.length_pos (h : Leading ds) : 0 < ds.length := by
  obtain ⟨c, cs, rfl, -⟩ := h.lead
  exact Nat.succ_pos _

/-- Some of the digits in front of others start as they do. -/
theorem Leading.take (h : Leading ds) {n : ℕ} (hn : 0 < n) :
    ∃ c cs, ds.take n = c :: cs ∧ c ≠ '0' := by
  obtain ⟨c, cs, rfl, hc⟩ := h.lead
  obtain ⟨m, rfl⟩ := Nat.exists_eq_succ_of_ne_zero hn.ne'
  exact ⟨c, cs.take m, rfl, hc⟩

theorem isDigit_of_mem_replicate {n : ℕ} : ∀ c ∈ List.replicate n '0', c.isDigit = true := by
  intro c hc
  rw [List.eq_of_mem_replicate hc]
  decide

/-- The digits of an exponent, of which there are two at least. -/
theorem natOfDigits_power (n : ℕ) :
    natOfDigits (if (natDigits n).length < 2 then '0' :: natDigits n else natDigits n) = n := by
  split
  · exact (natOfDigits_zeros_append 1 (natDigits n)).trans (natOfDigits_natDigits n)
  · exact natOfDigits_natDigits n

theorem proper_layoutNumeral (h : Leading ds) (point : Int) : (layoutNumeral ds point).Proper := by
  rw [layoutNumeral]
  split
  · refine ⟨.inr (h.take one_pos), fun c hc => h.digits c (List.mem_of_mem_take hc),
      fun c hc => h.digits c (List.mem_of_mem_drop hc), fun negative es hes => ?_⟩
    obtain ⟨-, rfl⟩ := Prod.mk.inj (Option.some.inj hes)
    split
    · refine ⟨List.cons_ne_nil _ _, fun c hc => ?_⟩
      rcases List.mem_cons.1 hc with rfl | hc
      · decide
      · exact isDigit_of_mem_natDigits hc
    · exact ⟨natDigits_ne_nil _, fun c hc => isDigit_of_mem_natDigits hc⟩
  · split
    · refine ⟨.inl rfl, isDigit_of_mem_replicate (n := 1), ?_, by simp⟩
      exact List.forall_mem_append.2 ⟨isDigit_of_mem_replicate, h.digits⟩
    · split
      · refine ⟨.inr ?_, ?_, isDigit_of_mem_replicate (n := 1), by simp⟩
        · obtain ⟨c, cs, rfl, hc⟩ := h.lead
          exact ⟨c, _, rfl, hc⟩
        · exact List.forall_mem_append.2 ⟨h.digits, isDigit_of_mem_replicate⟩
      · refine ⟨.inr (h.take (by omega)), fun c hc => h.digits c (List.mem_of_mem_take hc),
          fun c hc => h.digits c (List.mem_of_mem_drop hc), by simp⟩

/-- A layout has a fraction or an exponent. -/
theorem layoutNumeral_not_integer (ds : List Char) (point : Int) (hne : ds ≠ []) :
    ((layoutNumeral ds point).fraction.isEmpty &&
      (exponentValue (layoutNumeral ds point).exponent).isNone) = false := by
  rw [layoutNumeral]
  split
  · simp [exponentValue]
  · split
    · simp [hne]
    · split
      · simp
      · next hlength => simp [exponentValue]; omega

/-- A layout is a literal. -/
theorem text_layoutNumeral (hne : ds ≠ []) (point : Int) :
    Binary64.layout ds point = (layoutNumeral ds point).text := by
  rw [Binary64.layout, layoutNumeral]
  dsimp only
  split
  · rw [Numeral.text, fractionText, exponentText]
    by_cases hneg : point - 1 < 0 <;> simp [hneg]
  · split
    · simp [Numeral.text, fractionText, exponentText, hne]
    · split
      · simp [Numeral.text, fractionText, exponentText]
      · next hlength => simp [Numeral.text, fractionText, exponentText, hlength]

/-- A layout denotes the digits with the point at its place. -/
theorem ratio_layoutNumeral (hlength : 0 < ds.length) (point : Int) (negative : Bool) :
    ((layoutNumeral ds point).decimal negative).ratio =
      natOfDigits ds * 10 ^ (point - ds.length) := by
  -- one case for each layout: with an exponent, zeros in front, zeros behind, and a point within
  rw [layoutNumeral]
  split
  · rw [decimal, Decimal.ratio, exponentValue, natOfDigits_power, List.take_append_drop,
      List.length_drop]
    dsimp only
    rw [Option.getD_some]
    congr 2
    by_cases hneg : point - 1 < 0
    · rw [if_pos (decide_eq_true hneg)]
      omega
    · rw [if_neg (by simpa using hneg)]
      omega
  · split
    · rw [decimal, Decimal.ratio, exponentValue]
      dsimp only
      rw [List.singleton_append, show '0' :: (List.replicate (-point).toNat '0' ++ ds) =
        List.replicate ((-point).toNat + 1) '0' ++ ds from rfl, natOfDigits_zeros_append,
        List.length_append, List.length_replicate, Option.getD_none]
      congr 2
      omega
    · split
      · rw [decimal, Decimal.ratio, exponentValue]
        dsimp only
        rw [List.append_assoc, ← List.replicate_succ', natOfDigits_append_zeros, Option.getD_none,
          Nat.cast_mul, Nat.cast_pow, mul_assoc, ← zpow_natCast, Nat.cast_ofNat,
          ← zpow_add₀ (by norm_num)]
        congr 2
        simp only [List.length_singleton]
        omega
      · rw [decimal, Decimal.ratio, exponentValue]
        dsimp only
        rw [List.take_append_drop, List.length_drop, Option.getD_none]
        congr 2
        omega

/-! ### Binary numbers -/

/-- Digits are those that are kept and the zeros that are dropped. -/
theorem dropTrailingZeros_append (ds : List Char) :
    (Binary64.dropTrailingZeros ds).1 ++ List.replicate (Binary64.dropTrailingZeros ds).2 '0' = ds := by
  rw [Binary64.dropTrailingZeros]
  dsimp only
  have hsplit := List.takeWhile_append_dropWhile (p := (· == '0')) (l := ds.reverse)
  have hzeros : ds.reverse.takeWhile (· == '0') =
      List.replicate (ds.length - (ds.reverse.dropWhile (· == '0')).length) '0' := by
    refine List.eq_replicate_iff.2 ⟨?_, fun c hc => ?_⟩
    · have hlength := congrArg List.length hsplit
      rw [List.length_append, List.length_reverse] at hlength
      omega
    · exact beq_iff_eq.1 (List.all_eq_true.1 List.all_takeWhile c hc)
  refine List.reverse_injective ?_
  rw [List.reverse_append, List.reverse_replicate, List.reverse_reverse, ← hzeros]
  exact hsplit

/-- The digits of a positive number without the zeros at their end. -/
theorem leading_dropTrailingZeros {n : ℕ} (hn : 0 < n) :
    Leading (Binary64.dropTrailingZeros (natDigits n)).1 := by
  have hsplit := dropTrailingZeros_append (natDigits n)
  have hdigits : ∀ c ∈ (Binary64.dropTrailingZeros (natDigits n)).1, c.isDigit = true := by
    intro c hc
    refine isDigit_of_mem_natDigits (n := n) ?_
    rw [← hsplit]
    exact List.mem_append_left _ hc
  refine ⟨?_, hdigits⟩
  cases hkept : (Binary64.dropTrailingZeros (natDigits n)).1 with
  | nil =>
      rw [hkept, List.nil_append] at hsplit
      have hvalue := natOfDigits_natDigits n
      rw [← hsplit, natOfDigits_zeros] at hvalue
      omega
  | cons c cs =>
      refine ⟨c, cs, rfl, ?_⟩
      rintro rfl
      rw [hkept, List.cons_append] at hsplit
      have hnil := natDigits_eq_zero_cons hsplit.symm
      have hvalue := natOfDigits_natDigits n
      rw [← hsplit, hnil] at hvalue
      have hzero : natOfDigits ['0'] = 0 := rfl
      omega

/-- The notation of a positive number denotes the decimal that was found for it. -/
theorem ratio_finiteText {n : ℕ} (hn : 0 < n) (k : Int) (negative : Bool) :
    ((layoutNumeral (Binary64.dropTrailingZeros (natDigits n)).1
      ((natDigits n).length + k)).decimal negative).ratio = n * 10 ^ k := by
  have hleading := leading_dropTrailingZeros hn
  have hsplit := dropTrailingZeros_append (natDigits n)
  have hvalue := congrArg natOfDigits hsplit
  rw [natOfDigits_append_zeros, natOfDigits_natDigits] at hvalue
  have hlength := congrArg List.length hsplit
  rw [List.length_append, List.length_replicate] at hlength
  have hcast : (n : ℚ) = natOfDigits (Binary64.dropTrailingZeros (natDigits n)).1 *
      10 ^ (Binary64.dropTrailingZeros (natDigits n)).2 := by exact_mod_cast hvalue.symm
  rw [ratio_layoutNumeral hleading.length_pos, hcast, mul_assoc, ← zpow_natCast,
    ← zpow_add₀ (by norm_num)]
  congr 2
  omega

/-- The notation of a number: a sign, and a literal with a fraction or an exponent that is read as the
number. -/
structure Notation (negative : Bool) (mantissa : ℕ) (exponent : ℤ) (n : Numeral) : Prop where
  proper : n.Proper
  text : Binary64.finiteText negative mantissa exponent = signText negative ++ n.text
  not_integer : (n.fraction.isEmpty && (exponentValue n.exponent).isNone) = false
  value : (n.decimal negative).toBinary64 = .finite negative mantissa exponent

theorem notation_zero (negative : Bool) :
    Notation negative 0 Binary64.minExponent ⟨['0'], ['0'], none⟩ :=
  ⟨⟨.inl rfl, List.all_eq_true.1 (by decide), List.all_eq_true.1 (by decide), by simp⟩,
    rfl, rfl, rfl⟩

theorem notation_of_pos {negative : Bool} {mantissa : ℕ} {exponent : ℤ}
    (hmember : (Binary64.finite negative mantissa exponent).Member) (hpos : 0 < mantissa) :
    ∃ n, Notation negative mantissa exponent n := by
  obtain ⟨n, k, hshortest, hnear⟩ := Binary64.exists_shortest? hmember hpos
  -- what is near to a positive number is positive, so there are digits to lay out
  have hn : 0 < n := by
    rw [Nat.pos_iff_ne_zero]
    rintro rfl
    have hleast := (hnear.bounds hmember hpos).1
    rw [Nat.cast_zero, zero_mul] at hleast
    exact absurd hleast (not_le.2 (zpow_pos two_pos _))
  have hleading := leading_dropTrailingZeros hn
  have hne := List.ne_nil_of_length_pos hleading.length_pos
  refine ⟨layoutNumeral (Binary64.dropTrailingZeros (natDigits n)).1 ((natDigits n).length + k),
    proper_layoutNumeral hleading _, ?_, layoutNumeral_not_integer _ _ hne, ?_⟩
  · obtain ⟨m, rfl⟩ := Nat.exists_eq_succ_of_ne_zero hpos.ne'
    rw [← text_layoutNumeral hne, Binary64.finiteText.eq_def, hshortest]
    rfl
  · rw [← ratio_finiteText hn k negative] at hnear
    exact Decimal.toBinary64_of_near (d := (layoutNumeral _ _).decimal negative) hmember hpos hnear

theorem exists_notation {negative : Bool} {mantissa : ℕ} {exponent : ℤ}
    (hmember : (Binary64.finite negative mantissa exponent).Member) :
    ∃ n, Notation negative mantissa exponent n := by
  rcases Nat.eq_zero_or_pos mantissa with rfl | hpos
  · obtain rfl : exponent = Binary64.minExponent := hmember.2.2.2 (by decide)
    exact ⟨_, notation_zero negative⟩
  · exact notation_of_pos hmember hpos

/-- A finite number is read as it was written. -/
theorem numberAt_finiteText {negative : Bool} {mantissa : ℕ} {exponent : ℤ}
    (hmember : (Binary64.finite negative mantissa exponent).Member) {rest : List Char}
    (hrest : EndsNumber rest) :
    numberAt (Binary64.finiteText negative mantissa exponent ++ rest) =
      .ok (.float (.finite negative mantissa exponent), rest) := by
  obtain ⟨n, hn⟩ := exists_notation hmember
  rw [hn.text, List.append_assoc, numberAt_eq hn.proper negative hrest, hn.not_integer, hn.value]
  exact if_neg (by decide)

end Json

end DesignRegistry
