/-
**Bytes are read as the text they were made of.**

The first byte of a character tells how many there are; the others all continue it, and the two bytes in
front never look like a longer form than needed, like half of a pair or like what lies beyond the last
code point.  So bytes that were made of characters give these characters, and the reader replaces
nothing.  Only a line feed is stored as the byte of a line feed.

Main results:

* `sequenceAt_utf8EncodeChar` — the bytes of a character are taken for this character;
* `lossyChars_utf8Bytes` — **bytes are read as the text they were made of**;
* `lineFeed_notMem_utf8EncodeChar` — no other character holds the byte of a line feed.
-/
import DesignRegistry.Text.Encoded
import Mathlib.Data.List.TakeWhile
import Mathlib.Tactic.Common

set_option relaxedAutoImplicit false
set_option autoImplicit false

namespace DesignRegistry

theorem utf8Bytes_cons (c : Char) (s : List Char) :
    utf8Bytes (c :: s) = String.utf8EncodeChar c ++ utf8Bytes s := List.flatMap_cons

theorem utf8Bytes_append (s t : List Char) : utf8Bytes (s ++ t) = utf8Bytes s ++ utf8Bytes t :=
  List.flatMap_append

/-! ### One character -/

theorem isContinuation_iff {byte : ℕ} : isContinuation byte = true ↔ 0x80 ≤ byte ∧ byte < 0xC0 := by
  rw [isContinuation, Bool.and_eq_true, decide_eq_true_iff, decide_eq_true_iff]

theorem fitsSecond_iff {lead byte : ℕ} : fitsSecond lead byte = true ↔
    (0x80 ≤ byte ∧ byte < 0xC0) ∧ ¬ (lead = 0xE0 ∧ byte < 0xA0) ∧ ¬ (lead = 0xED ∧ 0xA0 ≤ byte) ∧
      ¬ (lead = 0xF0 ∧ byte < 0x90) ∧ ¬ (lead = 0xF4 ∧ 0x90 ≤ byte) := by
  rw [fitsSecond, Bool.and_eq_true, Bool.and_eq_true, Bool.and_eq_true, Bool.and_eq_true,
    isContinuation_iff]
  simp only [Bool.not_eq_true', Bool.and_eq_false_iff, beq_eq_false_iff_ne, decide_eq_false_iff_not,
    not_and_or, and_assoc]

/-- What stands in front of bytes is a character, if the first byte tells their number, the second one
fits, and the others continue it. -/
theorem sequenceAt_of_fits {lead : UInt8} {more : List UInt8} {c : Char}
    (hwidth : sequenceLength? lead.toNat = some (more.length + 1))
    (hsecond : ∀ b ∈ more.head?, fitsSecond lead.toNat b.toNat = true)
    (hmore : ∀ b ∈ more.tail, isContinuation b.toNat = true)
    (hchar : charOfSequence lead.toNat more = c) (rest : List UInt8) :
    sequenceAt lead (more ++ rest) = .char c (more.length + 1) := by
  have hfound : continuations lead.toNat more.length (more ++ rest) = more := by
    cases more with
    | nil => cases rest <;> rfl
    | cons b more =>
        have htail : more.takeWhile (fun b => isContinuation b.toNat) = more :=
          List.takeWhile_eq_self_iff.2 hmore
        rw [List.length_cons, List.cons_append, continuations, if_pos (hsecond b rfl),
          List.take_left, htail]
  rw [sequenceAt, hwidth]
  dsimp only
  rw [Nat.add_sub_cancel, hfound, if_pos rfl, hchar]

/-- The bytes of a character are taken for this character. -/
theorem sequenceAt_utf8EncodeChar (c : Char) : ∃ lead more,
    String.utf8EncodeChar c = lead :: more ∧
      ∀ rest, sequenceAt lead (more ++ rest) = .char c (more.length + 1) := by
  have hrange : c.val.toNat < 0xD800 ∨ 0xDFFF < c.val.toNat ∧ c.val.toNat < 0x110000 := c.valid
  have hchar : ∀ n, n = c.val.toNat → Char.ofNat n = c := by
    rintro n rfl
    exact Char.ofNat_toNat c
  have hbyte : ∀ n < 256, (UInt8.ofNat n).toNat = n := fun _ => UInt8.toNat_ofNat_of_lt'
  rw [String.utf8EncodeChar]
  generalize c.val.toNat = v at hrange hchar
  split_ifs with h1 h2 h3
  · refine ⟨_, _, rfl, sequenceAt_of_fits ?_ (by simp) (by simp) ?_⟩
    · rw [hbyte _ (by omega), sequenceLength?, if_pos (by omega)]
      rfl
    · rw [hbyte _ (by omega)]
      exact hchar v rfl
  · refine ⟨_, _, rfl, sequenceAt_of_fits ?_ ?_ (by simp) ?_⟩
    · rw [hbyte _ (by omega), sequenceLength?, if_neg (by omega), if_neg (by omega),
        if_pos (by omega)]
      rfl
    · rintro b ⟨⟩
      rw [hbyte _ (by omega), hbyte _ (by omega)]
      exact fitsSecond_iff.2 (by omega)
    · rw [hbyte _ (by omega)]
      refine hchar _ ?_
      simp only [List.length_cons, List.length_nil, List.foldl_cons, List.foldl_nil]
      rw [hbyte _ (by omega)]
      omega
  · refine ⟨_, _, rfl, sequenceAt_of_fits ?_ ?_ ?_ ?_⟩
    · rw [hbyte _ (by omega), sequenceLength?, if_neg (by omega), if_neg (by omega),
        if_neg (by omega), if_pos (by omega)]
      rfl
    · rintro b ⟨⟩
      rw [hbyte _ (by omega), hbyte _ (by omega)]
      exact fitsSecond_iff.2 (by omega)
    · rw [List.tail_cons, List.forall_mem_singleton, hbyte _ (by omega)]
      exact isContinuation_iff.2 (by omega)
    · rw [hbyte _ (by omega)]
      refine hchar _ ?_
      simp only [List.length_cons, List.length_nil, List.foldl_cons, List.foldl_nil]
      rw [hbyte _ (by omega), hbyte _ (by omega)]
      omega
  · refine ⟨_, _, rfl, sequenceAt_of_fits ?_ ?_ ?_ ?_⟩
    · rw [hbyte _ (by omega), sequenceLength?, if_neg (by omega), if_neg (by omega),
        if_neg (by omega), if_neg (by omega), if_pos (by omega)]
      rfl
    · rintro b ⟨⟩
      rw [hbyte _ (by omega), hbyte _ (by omega)]
      exact fitsSecond_iff.2 (by omega)
    · rw [List.tail_cons, List.forall_mem_cons, List.forall_mem_singleton,
        hbyte _ (by omega), hbyte _ (by omega)]
      exact ⟨isContinuation_iff.2 (by omega), isContinuation_iff.2 (by omega)⟩
    · rw [hbyte _ (by omega)]
      refine hchar _ ?_
      simp only [List.length_cons, List.length_nil, List.foldl_cons, List.foldl_nil]
      rw [hbyte _ (by omega), hbyte _ (by omega),
        hbyte _ (by omega)]
      omega

/-! ### Texts -/

/-- The bytes that still belong to the last character are passed over. -/
theorem lossyChars_skip (more rest : List UInt8) :
    lossyChars more.length (more ++ rest) = lossyChars 0 rest := by
  induction more with
  | nil => rfl
  | cons b more ih => exact ih

/-- The bytes of a character are read as this character. -/
theorem lossyChars_utf8EncodeChar (c : Char) (rest : List UInt8) :
    lossyChars 0 (String.utf8EncodeChar c ++ rest) = c :: lossyChars 0 rest := by
  obtain ⟨lead, more, hbytes, hsequence⟩ := sequenceAt_utf8EncodeChar c
  rw [hbytes, List.cons_append, lossyChars, hsequence]
  exact congrArg (c :: ·) (lossyChars_skip more rest)

/-- Bytes are read as the text they were made of. -/
theorem lossyChars_utf8Bytes (s : List Char) : lossyChars 0 (utf8Bytes s) = s := by
  induction s with
  | nil => rfl
  | cons c s ih => rw [utf8Bytes_cons, lossyChars_utf8EncodeChar, ih]

/-- Only a line feed is stored as the byte of a line feed. -/
theorem lineFeed_notMem_utf8EncodeChar {c : Char} (h : c ≠ '\n') :
    (0x0A : UInt8) ∉ String.utf8EncodeChar c := by
  have hvalue : c.val.toNat ≠ 10 := fun hc => h (Char.ext (UInt32.toNat_inj.1 hc))
  have hbyte : ∀ n < 256, n ≠ 10 → (0x0A : UInt8) ≠ UInt8.ofNat n := by
    intro n hn hne heq
    have heq' := congrArg UInt8.toNat heq
    rw [UInt8.toNat_ofNat_of_lt' hn] at heq'
    exact hne heq'.symm
  rw [String.utf8EncodeChar]
  generalize c.val.toNat = v at hvalue
  split_ifs
  all_goals
    simp only [List.mem_cons, List.not_mem_nil, or_false, not_or]
    repeat' constructor
    all_goals exact hbyte _ (by omega) (by omega)

end DesignRegistry
