/-
**References written from steps.**

A schema refers to a part of itself by a text: a hash sign, and behind a slash each of the steps that
lead to the part, a key with its escapes or the digits of an index.  The text is cut at its slashes, and
these are the ones that were written, since escaped keys have none.  A token is told apart only by the
value it is met at: digits are an index at an array and a key at an object.

Main definitions:

* `Json.reference` — the reference that is written from steps.

Main results:

* `integerOfText?_natText` — the digits of a number are read as the number, though signs, blanks and
  underscores would be read as well;
* `Json.resolveTokens_append` — tokens are followed one after the other;
* `Json.resolve_written` — **a reference names what its steps lead to, or the key that is missing there**.
-/
import DesignRegistry.Proofs.Json.Pointer

set_option relaxedAutoImplicit false
set_option autoImplicit false

namespace DesignRegistry

/-! ### Integers in free text -/

theorem plainChar_of_isDigit {c : Char} (h : c.isDigit = true) : plainChar c = c := by
  rw [Char.isDigit, Bool.and_eq_true, decide_eq_true_eq, decide_eq_true_eq] at h
  have hmost : c.toNat ≤ 57 := h.2
  rw [plainChar, if_pos (by omega)]

theorem isPadding_of_isDigit {c : Char} (h : c.isDigit = true) : isPadding c = false := by
  rw [Char.isDigit, Bool.and_eq_true, decide_eq_true_eq, decide_eq_true_eq] at h
  have hleast : 48 ≤ c.toNat := h.1
  have hspace : c ≠ ' ' := by
    rintro rfl
    exact absurd hleast (by decide)
  rw [isPadding, Bool.or_eq_false_iff, Bool.and_eq_false_iff, decide_eq_false_iff_not,
    decide_eq_false_iff_not]
  exact ⟨by simpa using hspace, .inr (by omega)⟩

theorem trimPadding_of_digits {cs : List Char} (h : ∀ c ∈ cs, c.isDigit = true) :
    trimPadding cs = cs := by
  have hstays : ∀ ds : List Char, (∀ d ∈ ds, d.isDigit = true) → ds.dropWhile isPadding = ds := by
    intro ds hds
    cases ds with
    | nil => rfl
    | cons d ds =>
        exact List.dropWhile_cons_of_neg (by simp [isPadding_of_isDigit (hds d List.mem_cons_self)])
  rw [trimPadding, hstays cs h, hstays _ fun d hd => h d (List.mem_reverse.1 hd), List.reverse_reverse]

theorem signPart_of_digits {cs : List Char} (h : ∀ c ∈ cs, c.isDigit = true) :
    signPart cs = (false, cs) := by
  unfold signPart
  split
  · exact absurd (h '+' List.mem_cons_self) (by decide)
  · exact absurd (h '-' List.mem_cons_self) (by decide)
  · rfl

theorem dropUnderscores?_of_digits {cs : List Char} (h : ∀ c ∈ cs, c.isDigit = true) (previous : Bool) :
    dropUnderscores? previous cs = some cs := by
  induction cs generalizing previous with
  | nil => rfl
  | cons c cs ih =>
      rw [List.forall_mem_cons] at h
      unfold dropUnderscores?
      split
      · next heq => exact absurd heq (List.cons_ne_nil c cs)
      · next heq =>
          obtain ⟨rfl, rfl⟩ := List.cons.inj heq
          exact absurd h.1 (by decide)
      · next heq =>
          obtain ⟨rfl, rfl⟩ := List.cons.inj heq
          exact absurd h.1 (by decide)
      · next heq =>
          obtain ⟨rfl, rfl⟩ := List.cons.inj heq
          rw [ih h.2]
          rfl

/-- The digits of a number, as free text, denote it. -/
theorem integerOfText?_natText (n : ℕ) : integerOfText? (natText n) = some (n : ℤ) := by
  have hdigits : ∀ c ∈ natDigits n, c.isDigit = true := fun _ h => isDigit_of_mem_natDigits h
  have htext : (natText n).toList = natDigits n := String.toList_ofList
  have hplain : (natDigits n).map plainChar = natDigits n :=
    (List.map_congr_left fun c hc => plainChar_of_isDigit (hdigits c hc)).trans (List.map_id _)
  rw [integerOfText?, htext, hplain, trimPadding_of_digits hdigits, signPart_of_digits hdigits]
  simpa [dropUnderscores?_of_digits hdigits] using And.intro (natDigits_ne_nil n) hdigits

namespace Json

/-! ### References that are written from steps -/

/-- The reference that is written from the steps to a value. -/
def reference (steps : List PathStep) : String := "#" ++ Pointer.text (steps.map PathStep.token)

/-- The token of a step inside a reference. -/
def writtenToken (s : PathStep) : List Char := (escapeToken s.token).toList

theorem toList_reference (steps : List PathStep) :
    (reference steps).toList = '#' :: steps.flatMap fun s => '/' :: writtenToken s := by
  rw [reference, String.toList_append, Pointer.toList_text, List.flatMap_map]
  rfl

/-- A reference is cut into the tokens that it was written from. -/
theorem resolve_reference (root : Json) (steps : List PathStep) :
    resolve root (reference steps) = resolveTokens (steps.map writtenToken) root := by
  rw [resolve, toList_reference]
  cases steps with
  | nil => rfl
  | cons s steps =>
      have hpieces := pieces_flatMap '/' writtenToken (writtenToken s) steps
        (slash_notMem_escapeToken s.token) fun t _ => slash_notMem_escapeToken t.token
      rw [List.flatMap_cons, List.cons_append, List.map_cons, ← hpieces]
      rfl

theorem itemAt?_natCast (xs : List Json) (i : ℕ) : itemAt? xs i = xs[i]? := by
  rw [itemAt?, if_pos (Int.natCast_nonneg i), Int.toNat_natCast]

/-- A written token leads where its step leads. -/
theorem resolveToken_writtenToken {s : PathStep} {v w : Json} (h : v.child? s = some w) :
    resolveToken (writtenToken s) v = .ok w := by
  cases s with
  | key name =>
      cases v with
      | obj ms =>
          rw [child?] at h
          rw [writtenToken, PathStep.token, resolveToken, unescapeToken_escapeToken]
          simp only [h]
      | null | bool _ | int _ | float _ | str _ | arr _ => simp [child?] at h
  | index i =>
      cases v with
      | arr xs =>
          rw [child?] at h
          rw [writtenToken, PathStep.token, resolveToken, unescapeToken_escapeToken]
          simp only [integerOfText?_natText, itemAt?_natCast, h]
      | null | bool _ | int _ | float _ | str _ | obj _ => simp [child?] at h

/-- What stands behind the tokens of steps is resolved from where the steps lead. -/
theorem resolveTokens_append {steps : List PathStep} {v w : Json} (h : walk? steps v = some w)
    (more : List (List Char)) :
    resolveTokens (steps.map writtenToken ++ more) v = resolveTokens more w := by
  induction steps generalizing v with
  | nil =>
      obtain rfl := Option.some.inj h
      rfl
  | cons s steps ih =>
      rw [walk?, Option.bind_eq_some_iff] at h
      obtain ⟨u, hchild, hwalk⟩ := h
      rw [List.map_cons, List.cons_append, resolveTokens, resolveToken_writtenToken hchild]
      exact ih hwalk

/-- **A reference that is written from steps names what the steps lead to.**  Where they lead to an
object that lacks the key of the next step, this key is what is reported, whatever follows. -/
theorem resolve_written (root : Json) :
    (∀ steps v, walk? steps root = some v → resolve root (reference steps) = .ok v)
      ∧ ∀ steps ms key more, walk? steps root = some (.obj ms) → Members.get? key ms = none →
          resolve root (reference (steps ++ .key key :: more)) = .error (.missingKey key) := by
  constructor
  · intro steps v hwalk
    have hend := resolveTokens_append hwalk []
    rw [List.append_nil] at hend
    rw [resolve_reference, hend, resolveTokens]
  · intro steps ms key more hwalk hkey
    have hlacks : resolveToken (writtenToken (.key key)) (.obj ms) = .error (.missingKey key) := by
      rw [writtenToken, PathStep.token, resolveToken, unescapeToken_escapeToken]
      simp only [hkey]
    rw [resolve_reference, List.map_append, resolveTokens_append hwalk, List.map_cons, resolveTokens,
      hlacks]

/-- A key that looks like an escape, an index and the empty key; and a key that is missing under them. -/
theorem resolve_written_escapes :
    ∃ root steps v ms, walk? steps root = some v ∧ walk? (steps.take 2) root = some (.obj ms)
      ∧ Members.get? "~0" ms = none
      ∧ reference steps = "#/~01~1/1/"
      ∧ resolve root "#/~01~1/1/" = .ok v
      ∧ resolve root "#/~01~1/1/~00/x" = .error (.missingKey "~0") := by
  let root : Json := .obj [("~1/", .arr [.null, .obj [("", .int 7)]])]
  let steps : List PathStep := [.key "~1/", .index 1, .key ""]
  have hwalk : walk? steps root = some (.int 7) := rfl
  have hobject : walk? (steps.take 2) root = some (.obj [("", .int 7)]) := rfl
  have hlacks : Members.get? "~0" [("", Json.int 7)] = none := by decide
  refine ⟨root, steps, .int 7, _, hwalk, hobject, hlacks, by decide, ?_, ?_⟩
  · exact (resolve_written root).1 steps (.int 7) hwalk
  · exact (resolve_written root).2 (steps.take 2) _ "~0" [.key "x"] hobject hlacks

end Json

end DesignRegistry
