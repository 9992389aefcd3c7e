/-
**Positions in scripts.**

A part of a script is placed in bytes, as the line feeds before it and the bytes since the last of them,
and a report places it in lines and characters.  The table of line starts tells where the line begins; the
bytes from there to the part are those of the characters there, so they are read as these characters.
The rules that search the lines of a script count characters in a line at once.  Both count the same: one
place in the text has one position, whichever way it was found.

Main definitions:

* `Script.placeAfter` — the place in bytes after so many characters.

Main results:

* `Script.advanceBy_take` — it is where one comes by reading these characters one after the other;
* `Script.getElem?_lineStarts` — the table of line starts tells the bytes before a line;
* `Script.positionOf_placeAfter` — the position of the place after so many characters;
* `place_of_mem_occurrences` — where a search through a line has found something;
* `Script.positions_agree` — **positions of parts are those that a search through the lines gives**.
-/
import DesignRegistry.Contract.ElementUse
import DesignRegistry.Contract.TokenUse
import DesignRegistry.Proofs.Text.Decoding
import DesignRegistry.Proofs.Text.Lines

set_option relaxedAutoImplicit false
set_option autoImplicit false

namespace DesignRegistry

/-! ### What a search through a line finds -/

section Search

variable {α : Type} {find : List Char → Option (α × ℕ)} {a : α}

/-- What is found behind the first character is found in the whole text. -/
theorem place_of_tail {place column : ℕ} {c : Char} {cs : List Char}
    (h : ∃ j n, column = place + 1 + j ∧ j < cs.length ∧ find (cs.drop j) = some (a, n)) :
    ∃ j n, column = place + j ∧ j < (c :: cs).length ∧ find ((c :: cs).drop j) = some (a, n) := by
  obtain ⟨j, n, hcolumn, hj, hfind⟩ := h
  exact ⟨j + 1, n, by omega, Nat.succ_lt_succ hj, hfind⟩

theorem place_of_mem_occurrencesFrom {skip place column : ℕ} {s : List Char}
    (h : (column, a) ∈ occurrencesFrom find skip place s) :
    ∃ j n, column = place + j ∧ j < s.length ∧ find (s.drop j) = some (a, n) := by
  fun_induction occurrencesFrom find skip place s with
  | case1 => exact absurd h List.not_mem_nil
  | case2 skip place c cs ih => exact place_of_tail (ih h)
  | case3 place c cs found n hfound ih =>
      rcases List.mem_cons.1 h with h | h
      · obtain ⟨rfl, rfl⟩ := Prod.mk.inj h
        exact ⟨0, n, rfl, Nat.succ_pos _, hfound⟩
      · exact place_of_tail (ih h)
  | case4 place c cs hnone ih => exact place_of_tail (ih h)

/-- What is found in a line stands where its column says. -/
theorem place_of_mem_occurrences {column : ℕ} {line : String} (h : (column, a) ∈ occurrences find line) :
    ∃ j n, column = j + 1 ∧ j < line.length ∧ find (line.toList.drop j) = some (a, n) := by
  obtain ⟨j, n, hcolumn, hj, hfind⟩ := place_of_mem_occurrencesFrom h
  exact ⟨j, n, by omega, by rwa [← String.length_toList], hfind⟩

end Search

namespace Rule

/-- A rule that searches the lines of a script reports a line and a column in it. -/
theorem place_of_mem_lineDiagnostics {registry : Json} {s : Script.Source} {d : Diagnostic}
    (h : d ∈ tokenDiagnostics registry s ++ patternDiagnostics s) :
    ∃ i line j, s.lines[i]? = some line ∧ j < line.length ∧ d.position = ⟨i + 1, j + 1⟩ := by
  -- what a finder recognises in a line, and the diagnostic that is placed there
  have hplaced : ∀ {α : Type} {find : List Char → Option (α × ℕ)} {i : ℕ} {line : String}
      {found : ℕ × α}, (line, i) ∈ s.lines.zipIdx → found ∈ occurrences find line →
      d.position = ⟨i + 1, found.1⟩ →
      ∃ i line j, s.lines[i]? = some line ∧ j < line.length ∧ d.position = ⟨i + 1, j + 1⟩ := by
    intro α find i line found hline hfound hd
    obtain ⟨j, n, hcolumn, hj, -⟩ := place_of_mem_occurrences hfound
    exact ⟨i, line, j, List.mem_zipIdx_iff_getElem?.1 hline, hj, by rw [hd, hcolumn]⟩
  rcases List.mem_append.1 h with h | h
  · obtain ⟨⟨line, i⟩, hline, hd⟩ := List.mem_flatMap.1 h
    rcases List.mem_append.1 hd with hd | hd
    · obtain ⟨find, -, hd⟩ := List.mem_flatMap.1 hd
      obtain ⟨found, hfound, hd⟩ := List.mem_filterMap.1 hd
      obtain ⟨token, -, rfl⟩ := Option.map_eq_some_iff.1 hd
      exact hplaced hline hfound rfl
    · obtain ⟨found, hfound, hd⟩ := List.mem_filterMap.1 hd
      rw [Token.referenceError?] at hd
      split at hd
      · exact absurd hd (by simp)
      · obtain rfl := Option.some.inj hd
        exact hplaced hline hfound rfl
  · obtain ⟨⟨line, i⟩, hline, hd⟩ := List.mem_flatMap.1 h
    obtain ⟨found, hfound, rfl⟩ := List.mem_map.1 hd
    exact hplaced hline (List.mem_filter.1 hfound).1 rfl

end Rule

namespace Script

/-! ### Places in bytes -/

/-- The place in bytes after so many characters: the bytes of these characters, the line feeds among
them, and the bytes of those behind the last line feed. -/
def placeAfter (source : List Char) (k : ℕ) : Point :=
  ⟨(utf8Bytes (source.take k)).length, (source.take k).count '\n',
    (utf8Bytes (sinceLineFeed (source.take k))).length⟩

/-- The place after so many characters is where one comes by reading them one after the other. -/
theorem advanceBy_take (source : List Char) (k : ℕ) :
    Point.origin.advanceBy (source.take k) = placeAfter source k := by
  rw [placeAfter]
  generalize source.take k = front
  induction front using List.reverseRecOn with
  | nil => rfl
  | append_singleton front c ih =>
      have hbytes : (utf8Bytes [c]).length = c.utf8Size := by
        rw [utf8Bytes_cons, List.length_append, String.length_utf8EncodeChar]
        rfl
      have hstep : Point.origin.advanceBy (front ++ [c]) = (Point.origin.advanceBy front).advance c :=
        List.foldl_concat ..
      rw [hstep, ih, Point.advance, utf8Bytes_append, List.length_append, hbytes, List.count_append,
        sinceLineFeed_concat]
      by_cases hc : c = '\n'
      · rw [if_pos hc, if_pos hc, hc]
        rfl
      · rw [if_neg hc, if_neg hc, utf8Bytes_append, List.length_append, hbytes, List.count_singleton,
          if_neg (by simpa using hc)]
        rfl

/-! ### The table of line starts -/

/-- The places behind line feeds in bytes of which the first has so many others before it. -/
def lineFeedEnds (n : ℕ) (bytes : List UInt8) : List ℕ :=
  (bytes.zipIdx n).filterMap fun b => if b.1 = 0x0A then some (b.2 + 1) else none

theorem lineFeedEnds_append (n : ℕ) (bytes more : List UInt8) :
    lineFeedEnds n (bytes ++ more) = lineFeedEnds n bytes ++ lineFeedEnds (n + bytes.length) more := by
  rw [lineFeedEnds, List.zipIdx_append, List.filterMap_append]
  rfl

/-- Bytes without a line feed give no line start. -/
theorem lineFeedEnds_of_notMem {bytes : List UInt8} (h : (0x0A : UInt8) ∉ bytes) (n : ℕ) :
    lineFeedEnds n bytes = [] := by
  rw [lineFeedEnds, List.filterMap_eq_nil_iff]
  rintro ⟨b, i⟩ hb
  have hmem := List.fst_mem_of_mem_zipIdx hb
  refine if_neg fun hfeed => h ?_
  rwa [← hfeed]

/-- The bytes of a text hold as many line feeds as the text. -/
theorem length_lineFeedEnds (n : ℕ) (s : List Char) :
    (lineFeedEnds n (utf8Bytes s)).length = s.count '\n' := by
  induction s generalizing n with
  | nil => rfl
  | cons c s ih =>
      rw [utf8Bytes_cons, lineFeedEnds_append, List.length_append, ih]
      by_cases hc : c = '\n'
      · subst hc
        rw [List.count_cons_self, Nat.add_comm]
        rfl
      · rw [lineFeedEnds_of_notMem (lineFeed_notMem_utf8EncodeChar hc), List.count_cons_of_ne hc,
          List.length_nil, Nat.zero_add]

/-- The table of line starts tells the bytes before a line. -/
theorem getElem?_lineStarts {head : List Char} (h : head = [] ∨ ∃ front, head = front ++ ['\n'])
    (rest : List Char) :
    (lineStarts (utf8Bytes (head ++ rest)))[head.count '\n']? = some (utf8Bytes head).length := by
  rw [lineStarts, ← lineFeedEnds]
  rcases h with rfl | ⟨front, rfl⟩
  · rfl
  · have hcount : (front ++ ['\n']).count '\n' = (lineFeedEnds 0 (utf8Bytes front)).length + 1 := by
      rw [length_lineFeedEnds, List.count_append]
      rfl
    rw [hcount, List.getElem?_cons_succ, List.append_assoc, List.singleton_append, utf8Bytes_append,
      lineFeedEnds_append, List.getElem?_append_right (Nat.le_refl _), Nat.sub_self, utf8Bytes_cons,
      lineFeedEnds_append, Nat.zero_add, utf8Bytes_append, List.length_append]
    rfl

/-! ### Positions -/

/-- The position of the place after so many characters: the lines up to it, and the characters behind
the last line feed. -/
theorem positionOf_placeAfter (source : List Char) (k : ℕ) :
    positionOf source (placeAfter source k) =
      ⟨(source.take k).count '\n' + 1, (sinceLineFeed (source.take k)).length + 1⟩ := by
  obtain ⟨head, hfront, hhead⟩ := exists_eq_append_sinceLineFeed (source.take k)
  have hsource : source = source.take k ++ source.drop k := (List.take_append_drop k source).symm
  have hsince := lineFeed_notMem_sinceLineFeed (source.take k)
  rw [placeAfter]
  generalize source.take k = front at *
  generalize sinceLineFeed front = since at *
  subst hfront
  have hcount : (head ++ since).count '\n' = head.count '\n' := by
    rw [List.count_append, List.count_eq_zero.2 hsince, Nat.add_zero]
  rw [hsource, List.append_assoc, positionOf]
  dsimp only
  rw [hcount, getElem?_lineStarts hhead, Option.getD_some, utf8Bytes_append, List.drop_left,
    utf8Bytes_append, List.take_left, lossyChars_utf8Bytes]

/-- **Positions of parts are those that a search through the lines gives.**  A part that begins after `k`
characters is placed in the line after as many line feeds as there are before it, and in the column
after the characters since the last of them.  This is a place in a line of the script, with so many
characters before it as the lines before and the place in the line tell; and no other place in a line has
this position.  So the part and what a rule that searches the lines reports have the same position exactly
if they begin after the same characters. -/
theorem positions_agree (s : Source) (k : ℕ) (hk : k ≤ s.text.toList.length) (t : Tree)
    (ht : t.start = placeAfter s.text.toList k) :
    positionOf s.text.toList t.start =
        ⟨1 + (s.text.toList.take k).count '\n', 1 + (sinceLineFeed (s.text.toList.take k)).length⟩ ∧
      (∃ i line j, s.lines[i]? = some line ∧ j ≤ line.length ∧ k = charsBefore s.lines i + j ∧
        positionOf s.text.toList t.start = ⟨i + 1, j + 1⟩) ∧
      (∀ i line j, s.lines[i]? = some line → j ≤ line.length →
        (positionOf s.text.toList t.start = ⟨i + 1, j + 1⟩ ↔ k = charsBefore s.lines i + j)) ∧
      ∀ (registry : Json), ∀ d ∈ Rule.tokenDiagnostics registry s ++ Rule.patternDiagnostics s,
        ∃ i line j, s.lines[i]? = some line ∧ j < line.length ∧ d.position = ⟨i + 1, j + 1⟩ ∧
          (positionOf s.text.toList t.start = d.position ↔ k = charsBefore s.lines i + j) := by
  have hposition := positionOf_placeAfter s.text.toList k
  rw [← ht] at hposition
  obtain ⟨hline, hplace⟩ := place_in_line (s.text.toList.take k) (s.text.toList.drop k)
  rw [List.take_append_drop, String.ofList_toList, ← Source.lines] at hline hplace
  rw [List.length_take, Nat.min_eq_left hk] at hplace
  have hin : (sinceLineFeed (s.text.toList.take k)).length ≤
      (String.ofList (sinceLineFeed (s.text.toList.take k) ++
        (s.text.toList.drop k).takeWhile (· != '\n'))).length := by
    rw [String.length_ofList, List.length_append]
    exact Nat.le_add_right _ _
  have hagree : ∀ i line j, s.lines[i]? = some line → j ≤ line.length →
      (positionOf s.text.toList t.start = ⟨i + 1, j + 1⟩ ↔ k = charsBefore s.lines i + j) := by
    intro i line j hi hj
    rw [hposition, Position.mk.injEq, Nat.add_right_cancel_iff, Nat.add_right_cancel_iff]
    constructor
    · rintro ⟨rfl, rfl⟩
      exact hplace
    · intro hk'
      exact charsBefore_add_inj hline hin hi hj (hplace.symm.trans hk')
  refine ⟨?_, ⟨_, _, _, hline, hin, hplace, hposition⟩, hagree, fun registry d hd => ?_⟩
  · rw [hposition, Nat.add_comm 1, Nat.add_comm 1]
  · obtain ⟨i, line, j, hi, hj, hd⟩ := Rule.place_of_mem_lineDiagnostics hd
    exact ⟨i, line, j, hi, hj, hd, by rw [hd]; exact hagree i line j hi (Nat.le_of_lt hj)⟩

/-- After a letter of two bytes, a line feed, a sign of four bytes and a letter, the second line has its
third column. -/
theorem positions_agree_after_sign :
    4 ≤ "é\n😀x16px".toList.length ∧
      (Tree.make .plain ⟨8, 1, 5⟩ 12 []).start = placeAfter "é\n😀x16px".toList 4 ∧
      positionOf "é\n😀x16px".toList ⟨8, 1, 5⟩ = ⟨2, 3⟩ :=
  ⟨by decide, by decide,
    (positions_agree ⟨"a.js", "é\n😀x16px", false, []⟩ 4 (by decide) (Tree.make .plain ⟨8, 1, 5⟩ 12 [])
      (by decide)).1⟩

end Script

end DesignRegistry
