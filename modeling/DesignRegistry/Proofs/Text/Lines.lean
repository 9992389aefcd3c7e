/-
**Lines and places in them.**

A text is its lines with a line feed between each two, so a place in the text is a place in one of its
lines, given by the lines before it and the characters since the last line feed.  A place at the end of a
line is not the start of the next one: the line feed lies between them.  That is why every place lies in
exactly one line.

Main definitions:

* `sinceLineFeed` — the characters of a text behind its last line feed;
* `charsBefore` — the number of characters before a line, line feeds included.

Main results:

* `exists_eq_append_sinceLineFeed` — what stands before these characters is nothing or ends with a line
  feed;
* `place_in_line` — the line of a place, and the place in it;
* `charsBefore_add_inj` — two places at the same distance from the start of a text are one.
-/
import DesignRegistry.Proofs.Text.Pieces
import Mathlib.Algebra.BigOperators.Group.List.Basic
import Mathlib.Algebra.GroupWithZero.Nat
import Mathlib.Data.List.DropRight
import Mathlib.Data.List.TakeWhile

set_option relaxedAutoImplicit false
set_option autoImplicit false

namespace DesignRegistry

/-! ### Behind the last line feed -/

/-- The characters of a text behind its last line feed, which are all of it if there is none. -/
def sinceLineFeed (s : List Char) : List Char := s.rtakeWhile (· != '\n')

theorem lineFeed_notMem_sinceLineFeed (s : List Char) : '\n' ∉ sinceLineFeed s := fun h =>
  absurd (List.mem_rtakeWhile_imp h) (by decide)

theorem sinceLineFeed_concat (s : List Char) (c : Char) :
    sinceLineFeed (s ++ [c]) = if c = '\n' then [] else sinceLineFeed s ++ [c] := by
  by_cases hc : c = '\n'
  · rw [if_pos hc, sinceLineFeed, List.rtakeWhile_concat_neg]
    simp [hc]
  · rw [if_neg hc, sinceLineFeed, List.rtakeWhile_concat_pos, sinceLineFeed]
    simpa using hc

/-- What stands before the characters behind the last line feed is nothing or ends with it. -/
theorem exists_eq_append_sinceLineFeed (s : List Char) :
    ∃ head, s = head ++ sinceLineFeed s ∧ (head = [] ∨ ∃ front, head = front ++ ['\n']) := by
  refine ⟨s.rdropWhile (· != '\n'), List.rdropWhile_append_rtakeWhile.symm, ?_⟩
  by_cases hnil : s.rdropWhile (· != '\n') = []
  · exact .inl hnil
  · have hlast := List.rdropWhile_last_not (· != '\n') s hnil
    rw [Bool.not_eq_true, bne_eq_false_iff_eq] at hlast
    have hfront := List.dropLast_concat_getLast hnil
    rw [hlast] at hfront
    exact .inr ⟨_, hfront.symm⟩

/-! ### Lines -/

/-- A text has one piece more than marks. -/
theorem length_pieces (mark : Char) (s : List Char) :
    (pieces mark s).length = s.count mark + 1 := by
  induction s with
  | nil => rfl
  | cons c s ih =>
      by_cases hc : c = mark
      · rw [hc, pieces_cons_self, List.length_cons, ih, List.count_cons_self]
      · obtain ⟨p, ps, hp, hcons⟩ := pieces_cons_of_ne hc s
        rw [hcons, List.length_cons, List.count_cons_of_ne hc, ← ih, hp, List.length_cons]

/-- The first piece goes up to the first mark. -/
theorem getElem?_zero_pieces (mark : Char) (s : List Char) :
    (pieces mark s)[0]? = some (s.takeWhile (· != mark)) := by
  induction s with
  | nil => rfl
  | cons c s ih =>
      by_cases hc : c = mark
      · rw [hc, pieces_cons_self, List.takeWhile_cons_of_neg (by simp)]
        rfl
      · obtain ⟨p, ps, hp, hcons⟩ := pieces_cons_of_ne hc s
        rw [hp, List.getElem?_cons_zero] at ih
        rw [hcons, List.takeWhile_cons_of_pos (by simp [hc]), ← Option.some.inj ih]
        rfl

/-- The pieces of a text, a mark added to each, have one character more than the text. -/
theorem sum_length_pieces (mark : Char) (s : List Char) :
    ((pieces mark s).map fun p => p.length + 1).sum = s.length + 1 := by
  induction s with
  | nil => rfl
  | cons c s ih =>
      by_cases hc : c = mark
      · rw [hc, pieces_cons_self, List.map_cons, List.sum_cons, ih, List.length_nil,
          List.length_cons]
        omega
      · obtain ⟨p, ps, hp, hcons⟩ := pieces_cons_of_ne hc s
        rw [hp, List.map_cons, List.sum_cons] at ih
        rw [hcons, List.map_cons, List.sum_cons, List.length_cons, List.length_cons]
        omega

/-! ### Places -/

/-- The number of characters before the `i`-th line, a line feed behind each of the lines there. -/
def charsBefore (lines : List String) (i : ℕ) : ℕ := ((lines.take i).map (·.length + 1)).sum

theorem charsBefore_succ {lines : List String} {i : ℕ} {line : String} (h : lines[i]? = some line) :
    charsBefore lines (i + 1) = charsBefore lines i + (line.length + 1) := by
  rw [charsBefore, List.take_add_one, h, Option.toList_some, List.map_append, List.sum_append,
    List.map_singleton, List.sum_singleton, charsBefore]

theorem charsBefore_le_of_le (lines : List String) {i i' : ℕ} (h : i ≤ i') :
    charsBefore lines i ≤ charsBefore lines i' := by
  induction h with
  | refl => exact Nat.le_refl _
  | @step i' h ih =>
      cases hline : lines[i']? with
      | none =>
          have hlength := List.getElem?_eq_none_iff.1 hline
          have hall : lines.take (i' + 1) = lines.take i' := by
            rw [List.take_of_length_le hlength, List.take_of_length_le (by omega)]
          rwa [charsBefore, charsBefore, hall, ← charsBefore]
      | some line => rw [charsBefore_succ hline]; omega

/-- A place in a line comes before all later lines. -/
theorem charsBefore_add_lt {lines : List String} {i i' j : ℕ} {line : String}
    (hline : lines[i]? = some line) (hj : j ≤ line.length) (h : i < i') :
    charsBefore lines i + j < charsBefore lines i' := by
  have hle := charsBefore_le_of_le lines (Nat.succ_le_of_lt h)
  rw [Nat.succ_eq_add_one, charsBefore_succ hline] at hle
  omega

/-- Two places at the same distance from the start of a text are one. -/
theorem charsBefore_add_inj {lines : List String} {i i' j j' : ℕ} {line line' : String}
    (hline : lines[i]? = some line) (hj : j ≤ line.length)
    (hline' : lines[i']? = some line') (hj' : j' ≤ line'.length)
    (h : charsBefore lines i + j = charsBefore lines i' + j') : i = i' ∧ j = j' := by
  rcases Nat.lt_trichotomy i i' with hlt | rfl | hlt
  · have := charsBefore_add_lt hline hj hlt
    omega
  · exact ⟨rfl, Nat.add_left_cancel h⟩
  · have := charsBefore_add_lt hline' hj' hlt
    omega

/-- A line that begins behind a text, given by what stands behind the last line feed before a place and
what follows. -/
theorem line_behind {head since : List Char} (hhead : head = [] ∨ ∃ front, head = front ++ ['\n'])
    (hsince : '\n' ∉ since) (back : List Char) :
    (linesOf (String.ofList (head ++ since ++ back)))[head.count '\n']? =
        some (String.ofList (since ++ back.takeWhile (· != '\n'))) ∧
      charsBefore (linesOf (String.ofList (head ++ since ++ back))) (head.count '\n') =
        head.length := by
  have htaken : (since ++ back).takeWhile (· != '\n') = since ++ back.takeWhile (· != '\n') :=
    List.takeWhile_append_of_pos fun c hc => by
      rw [bne_iff_ne]
      rintro rfl
      exact hsince hc
  have hline := getElem?_zero_pieces '\n' (since ++ back)
  rw [htaken] at hline
  rw [linesOf, piecesOf, String.toList_ofList, List.getElem?_map, charsBefore, List.append_assoc]
  rcases hhead with rfl | ⟨front, rfl⟩
  · rw [List.nil_append, List.count_nil, hline]
    exact ⟨rfl, rfl⟩
  · have hcount : (front ++ ['\n']).count '\n' = (pieces '\n' front).length := by
      rw [List.count_append, length_pieces]
      rfl
    rw [List.append_assoc, List.singleton_append, pieces_append, hcount,
      List.getElem?_append_right (Nat.le_refl _), Nat.sub_self, hline, List.map_append,
      List.take_left' (List.length_map _), List.map_map]
    refine ⟨rfl, ?_⟩
    simp only [Function.comp_def, String.length_ofList]
    rw [sum_length_pieces, List.length_append, List.length_singleton]

/-- The line of a place and the place in it: before the line stand as many lines as there are line feeds
before the place, and in the line what stands behind the last of them. -/
theorem place_in_line (front back : List Char) :
    (linesOf (String.ofList (front ++ back)))[front.count '\n']? =
        some (String.ofList (sinceLineFeed front ++ back.takeWhile (· != '\n'))) ∧
      front.length =
        charsBefore (linesOf (String.ofList (front ++ back))) (front.count '\n') +
          (sinceLineFeed front).length := by
  obtain ⟨head, hfront, hhead⟩ := exists_eq_append_sinceLineFeed front
  have hsince := lineFeed_notMem_sinceLineFeed front
  generalize sinceLineFeed front = since at hfront hsince ⊢
  subst hfront
  obtain ⟨hline, hbefore⟩ := line_behind hhead hsince back
  have hcount : (head ++ since).count '\n' = head.count '\n' := by
    rw [List.count_append, List.count_eq_zero.2 hsince, Nat.add_zero]
  rw [hcount, hline, hbefore, List.length_append]
  exact ⟨rfl, rfl⟩

end DesignRegistry
