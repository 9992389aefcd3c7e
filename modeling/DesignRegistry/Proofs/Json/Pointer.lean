/-
**Pointers read back.**

A pointer that is written from tokens is read as these tokens: the slash in front of each token is
the only one, since those inside are escaped, and an escape ends where it is read.

Main results:

* `Json.unescapeToken_escapeToken` — an escaped token is read as the token;
* `Json.Pointer.read_text` — **a pointer is read as the tokens it was written from**;
* `Json.arrayIndex?_natText` — the token of an index is read as the index.
-/
import DesignRegistry.Json.Pointer
import DesignRegistry.Proofs.Number.Digits
import DesignRegistry.Proofs.Text.Pieces

set_option relaxedAutoImplicit false
set_option autoImplicit false

namespace DesignRegistry

namespace Json

/-! ### Escapes -/

/-- A character inside a reference. -/
def tokenChar (c : Char) : List Char :=
  if c = '~' then ['~', '0'] else if c = '/' then ['~', '1'] else [c]

theorem toList_escapeToken (s : String) : (escapeToken s).toList = s.toList.flatMap tokenChar :=
  String.toList_ofList

@[simp] theorem tokenChar_tilde : tokenChar '~' = ['~', '0'] := rfl

@[simp] theorem tokenChar_slash : tokenChar '/' = ['~', '1'] := rfl

theorem tokenChar_of_ne {c : Char} (ht : c ≠ '~') (hs : c ≠ '/') : tokenChar c = [c] := by
  rw [tokenChar, if_neg ht, if_neg hs]

theorem slash_notMem_tokenChar (c : Char) : '/' ∉ tokenChar c := by
  by_cases ht : c = '~'
  · rw [ht]; decide
  · by_cases hs : c = '/'
    · rw [hs]; decide
    · rw [tokenChar_of_ne ht hs, List.mem_singleton]
      exact fun h => hs h.symm

theorem slash_notMem_escapeToken (s : String) : '/' ∉ (escapeToken s).toList := by
  rw [toList_escapeToken, List.mem_flatMap]
  rintro ⟨c, -, hc⟩
  exact slash_notMem_tokenChar c hc

/-- A character that does not start the part is passed over. -/
theorem replaceAll_cons_of_ne {p c : Char} (h : p ≠ c) (ps new cs : List Char) :
    replaceAll (p :: ps) new (c :: cs) = c :: replaceAll (p :: ps) new cs := by
  rw [replaceAll, replaceFrom, if_neg (by simp [startsWith, afterFront?, h])]
  rfl

theorem replaceAll_pair_self (p q : Char) (new cs : List Char) :
    replaceAll [p, q] new (p :: q :: cs) = new ++ replaceAll [p, q] new cs := by
  rw [replaceAll, replaceFrom, if_pos (by simp [startsWith, afterFront?])]
  rfl

theorem replaceAll_pair_of_ne {p q d : Char} (h : q ≠ d) (new cs : List Char) :
    replaceAll [p, q] new (p :: d :: cs) = p :: replaceAll [p, q] new (d :: cs) := by
  rw [replaceAll, replaceFrom, if_neg (by simp [startsWith, afterFront?, h])]
  rfl

/-- Reading `~1` first leaves the escaped tildes. -/
theorem replaceAll_slash (s : List Char) :
    replaceAll ['~', '1'] ['/'] (s.flatMap tokenChar) =
      s.flatMap fun c => if c = '~' then ['~', '0'] else [c] := by
  induction s with
  | nil => rfl
  | cons c s ih =>
      rw [List.flatMap_cons, List.flatMap_cons]
      by_cases ht : c = '~'
      · subst ht
        rw [tokenChar_tilde, if_pos rfl, List.cons_append, List.cons_append, List.nil_append,
          replaceAll_pair_of_ne (by decide), replaceAll_cons_of_ne (by decide), ih]
        rfl
      · rw [if_neg ht]
        by_cases hs : c = '/'
        · subst hs
          rw [tokenChar_slash, List.cons_append, List.cons_append, List.nil_append,
            replaceAll_pair_self, ih]
        · rw [tokenChar_of_ne ht hs, List.singleton_append,
            replaceAll_cons_of_ne (Ne.symm ht), ih]
          rfl

/-- Reading `~0` then gives the tildes back. -/
theorem replaceAll_tilde (s : List Char) :
    replaceAll ['~', '0'] ['~'] (s.flatMap fun c => if c = '~' then ['~', '0'] else [c]) = s := by
  induction s with
  | nil => rfl
  | cons c s ih =>
      rw [List.flatMap_cons]
      by_cases ht : c = '~'
      · subst ht
        rw [if_pos rfl, List.cons_append, List.cons_append, List.nil_append,
          replaceAll_pair_self, ih]
        rfl
      · rw [if_neg ht, List.singleton_append, replaceAll_cons_of_ne (Ne.symm ht), ih]

/-- An escaped token is read as the token. -/
@[simp] theorem unescapeToken_escapeToken (s : String) :
    unescapeToken (escapeToken s).toList = s := by
  rw [unescapeToken, toList_escapeToken, replaceAll_slash, replaceAll_tilde, String.ofList_toList]

theorem invalidEscape?_cons_of_ne {c : Char} (h : c ≠ '~') (cs : List Char) :
    invalidEscape? (c :: cs) = invalidEscape? cs := by
  cases cs with
  | nil => simp [invalidEscape?, h]
  | cons d cs => rw [invalidEscape?, if_neg h]

theorem invalidEscape?_tokenChar (c : Char) (cs : List Char) :
    invalidEscape? (tokenChar c ++ cs) = invalidEscape? cs := by
  by_cases ht : c = '~'
  · subst ht
    rw [tokenChar_tilde, List.cons_append, List.cons_append, List.nil_append, invalidEscape?,
      if_pos rfl, if_pos (.inl rfl), invalidEscape?_cons_of_ne (by decide)]
  · by_cases hs : c = '/'
    · subst hs
      rw [tokenChar_slash, List.cons_append, List.cons_append, List.nil_append, invalidEscape?,
        if_pos rfl, if_pos (.inr rfl), invalidEscape?_cons_of_ne (by decide)]
    · rw [tokenChar_of_ne ht hs, List.singleton_append, invalidEscape?_cons_of_ne ht]

theorem invalidEscape?_escapeToken (s cs : List Char) :
    invalidEscape? (s.flatMap tokenChar ++ cs) = invalidEscape? cs := by
  induction s with
  | nil => rfl
  | cons c s ih => rw [List.flatMap_cons, List.append_assoc, invalidEscape?_tokenChar, ih]

/-! ### Pointers -/

namespace Pointer

theorem toList_text (tokens : List String) :
    (text tokens).toList = tokens.flatMap fun t => '/' :: (escapeToken t).toList :=
  String.toList_ofList

theorem invalidEscape?_text (tokens : List String) : invalidEscape? (text tokens).toList = none := by
  rw [toList_text]
  induction tokens with
  | nil => rfl
  | cons t tokens ih =>
      rw [List.flatMap_cons, List.cons_append, invalidEscape?_cons_of_ne (by decide),
        toList_escapeToken, invalidEscape?_escapeToken, ih]

/-- **A pointer is read as the tokens it was written from.** -/
@[simp] theorem read_text (tokens : List String) : read (text tokens) = .ok tokens := by
  have hpieces := pieces_flatMap '/' (fun t => (escapeToken t).toList) [] tokens
    List.not_mem_nil fun t _ => slash_notMem_escapeToken t
  rw [List.nil_append] at hpieces
  rw [read, invalidEscape?_text, toList_text, hpieces]
  simp [Function.comp_def]

end Pointer

/-! ### Indexes -/

/-- The token of an index is read as the index. -/
@[simp] theorem arrayIndex?_natText (n : Nat) : arrayIndex? (natText n) = some n := by
  have hdigits : (natText n).toList = natDigits n := String.toList_ofList
  rw [arrayIndex?, hdigits]
  split
  · next h => exact absurd h (natDigits_ne_nil n)
  · next h =>
      rw [← natDigits_zero] at h
      rw [natDigits_injective h]
  · next hne h => exact (hne (natDigits_eq_zero_cons h)).elim
  · rw [if_pos (all_isDigit_natDigits n), natOfDigits_natDigits]

/-- Digits at the end of a text, behind a character that is none, are told from what stands before. -/
theorem natDigits_behind {front front' : List Char} {c d : Char} {m n : Nat} (hc : c.isDigit = false)
    (hd : d.isDigit = false) (h : front ++ c :: natDigits m = front' ++ d :: natDigits n) :
    front = front' ∧ c = d ∧ m = n := by
  have hdigits : ∀ n, ∀ x ∈ (natDigits n).reverse, x.isDigit = true := fun n x hx =>
    isDigit_of_mem_natDigits (List.mem_reverse.1 hx)
  have hreversed := congrArg List.reverse h
  simp only [List.reverse_append, List.reverse_cons, List.append_assoc, List.singleton_append]
    at hreversed
  obtain ⟨hnumber, hmark, hfront⟩ := run_unique (hdigits m) hc (hdigits n) hd hreversed
  exact ⟨List.reverse_inj.1 hfront, hmark, natDigits_injective (List.reverse_inj.1 hnumber)⟩

theorem natText_injective {m n : Nat} (h : natText m = natText n) : m = n :=
  Option.some.inj (by rw [← arrayIndex?_natText m, h, arrayIndex?_natText])

/-- The token of an index is not the one for the place after the last item. -/
theorem natText_ne_dash (n : Nat) : natText n ≠ "-" := by
  intro h
  have hdigits : natDigits n = ['-'] := by
    have := congrArg String.toList h
    rwa [natText, String.toList_ofList] at this
  have hdash : '-' ∈ natDigits n := by rw [hdigits]; exact List.mem_singleton_self _
  exact absurd (isDigit_of_mem_natDigits hdash) (by decide)

end Json

end DesignRegistry
