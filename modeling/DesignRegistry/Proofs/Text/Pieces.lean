/-
**Texts cut at a mark, and texts in texts.**

A text without the mark is one piece, and a mark ends a piece: parts that do not contain the mark
come back from a text in which a mark stands before each of them, or between each two.  A run of characters
of one kind ends at the first one of another kind.  To stand in front of a text, or anywhere in it, is what
it is for lists of characters.
-/
import DesignRegistry.Proofs.Prelude
import DesignRegistry.Text.Pieces
import Mathlib.Tactic.Common

set_option relaxedAutoImplicit false
set_option autoImplicit false

namespace DesignRegistry

variable {mark : Char}

theorem pieces_cons_self (cs : List Char) : pieces mark (mark :: cs) = [] :: pieces mark cs := by
  rw [pieces, if_pos rfl]

theorem pieces_cons_of_ne {c : Char} (h : c ≠ mark) (cs : List Char) :
    ∃ p ps, pieces mark cs = p :: ps ∧ pieces mark (c :: cs) = (c :: p) :: ps := by
  cases hp : pieces mark cs with
  | nil => exact absurd hp (pieces_ne_nil mark cs)
  | cons p ps =>
      refine ⟨p, ps, rfl, ?_⟩
      rw [pieces, if_neg h, hp]

/-- A mark ends a piece. -/
theorem pieces_append_mark {part : List Char} (h : mark ∉ part) (cs : List Char) :
    pieces mark (part ++ mark :: cs) = part :: pieces mark cs := by
  induction part with
  | nil => exact pieces_cons_self cs
  | cons c part ih =>
      rw [List.mem_cons, not_or] at h
      obtain ⟨p, ps, hp, hc⟩ := pieces_cons_of_ne (Ne.symm h.1) (part ++ mark :: cs)
      rw [ih h.2] at hp
      obtain ⟨rfl, rfl⟩ := List.cons.inj hp
      exact hc

/-- The pieces of a text before a mark and of the text behind it. -/
theorem pieces_append (cs ds : List Char) :
    pieces mark (cs ++ mark :: ds) = pieces mark cs ++ pieces mark ds := by
  induction cs with
  | nil => exact pieces_cons_self ds
  | cons c cs ih =>
      rw [List.cons_append]
      by_cases hc : c = mark
      · rw [hc, pieces_cons_self, pieces_cons_self, ih, List.cons_append]
      · obtain ⟨p, ps, hp, hcons⟩ := pieces_cons_of_ne hc cs
        obtain ⟨q, qs, hq, hcons'⟩ := pieces_cons_of_ne hc (cs ++ mark :: ds)
        rw [ih, hp, List.cons_append] at hq
        obtain ⟨rfl, rfl⟩ := List.cons.inj hq
        rw [hcons, hcons', List.cons_append]

/-- A text without the mark is one piece. -/
theorem pieces_of_not_mem {part : List Char} (h : mark ∉ part) : pieces mark part = [part] := by
  induction part with
  | nil => rfl
  | cons c part ih =>
      rw [List.mem_cons, not_or] at h
      obtain ⟨p, ps, hp, hc⟩ := pieces_cons_of_ne (Ne.symm h.1) part
      rw [ih h.2] at hp
      obtain ⟨rfl, rfl⟩ := List.cons.inj hp
      exact hc

/-- Parts with a mark before each of them. -/
theorem pieces_flatMap (mark : Char) {α : Type} (part : α → List Char) (front : List Char) (xs : List α)
    (hfront : mark ∉ front) (hpart : ∀ x ∈ xs, mark ∉ part x) :
    pieces mark (front ++ xs.flatMap fun x => mark :: part x) = front :: xs.map part := by
  induction xs generalizing front with
  | nil => rw [List.flatMap_nil, List.append_nil, pieces_of_not_mem hfront, List.map_nil]
  | cons x xs ih =>
      rw [List.forall_mem_cons] at hpart
      rw [List.flatMap_cons, List.cons_append, pieces_append_mark hfront,
        ih (part x) hpart.1 hpart.2, List.map_cons]

/-- Parts with a mark between each two. -/
theorem pieces_joinChars {parts : List (List Char)} (hne : parts ≠ [])
    (h : ∀ part ∈ parts, mark ∉ part) : pieces mark (joinChars [mark] parts) = parts := by
  induction parts with
  | nil => exact absurd rfl hne
  | cons part parts ih =>
      rw [List.forall_mem_cons] at h
      cases parts with
      | nil => exact pieces_of_not_mem h.1
      | cons next parts =>
          rw [joinChars, List.append_assoc, List.singleton_append, pieces_append_mark h.1,
            ih (List.cons_ne_nil _ _) h.2]

/-- The pieces of a text, with the mark between them again, are the text. -/
theorem joinChars_pieces (mark : Char) (s : List Char) : joinChars [mark] (pieces mark s) = s := by
  induction s with
  | nil => rfl
  | cons c s ih =>
      by_cases hc : c = mark
      · subst hc
        obtain ⟨p, ps, hp⟩ := List.exists_cons_of_ne_nil (pieces_ne_nil c s)
        rw [pieces_cons_self, hp, joinChars, ← hp, ih]
        rfl
      · obtain ⟨p, ps, hp, hcons⟩ := pieces_cons_of_ne hc s
        rw [hp] at ih
        rw [hcons, ← ih]
        cases ps <;> rfl

/-- What stands in a joined text stands in the separator or in a part. -/
theorem mem_of_mem_joinChars {separator : List Char} {parts : List (List Char)} {c : Char}
    (h : c ∈ joinChars separator parts) : c ∈ separator ∨ ∃ part ∈ parts, c ∈ part := by
  induction parts with
  | nil => exact absurd h List.not_mem_nil
  | cons part parts ih =>
      cases parts with
      | nil => exact .inr ⟨part, List.mem_cons_self, h⟩
      | cons next parts =>
          rw [joinChars, List.mem_append, List.mem_append] at h
          rcases h with (h | h) | h
          · exact .inr ⟨part, List.mem_cons_self, h⟩
          · exact .inl h
          · rcases ih h with hseparator | ⟨p, hp, hc⟩
            · exact .inl hseparator
            · exact .inr ⟨p, List.mem_cons_of_mem part hp, hc⟩

/-- Before the last part stand the others, a separator behind each of them. -/
theorem joinChars_concat (separator : List Char) (parts : List (List Char)) (last : List Char) :
    joinChars separator (parts ++ [last]) = (parts.flatMap fun part => part ++ separator) ++ last := by
  induction parts with
  | nil => rfl
  | cons part parts ih =>
      obtain ⟨next, rest, hrest⟩ := List.exists_cons_of_ne_nil
        (show parts ++ [last] ≠ [] by simp)
      rw [List.cons_append, hrest, joinChars, ← hrest, ih, List.flatMap_cons]
      simp only [List.append_assoc]

/-- Parts in a row are joined with one more separator between them. -/
theorem joinChars_append (separator : List Char) {parts others : List (List Char)} (hparts : parts ≠ [])
    (hothers : others ≠ []) :
    joinChars separator (parts ++ others) =
      joinChars separator parts ++ separator ++ joinChars separator others := by
  induction parts with
  | nil => exact absurd rfl hparts
  | cons part parts ih =>
      cases parts with
      | nil =>
          obtain ⟨other, others, rfl⟩ := List.exists_cons_of_ne_nil hothers
          rfl
      | cons next parts =>
          have hnext := ih (List.cons_ne_nil next parts)
          rw [List.cons_append, List.cons_append, joinChars, ← List.cons_append, hnext, joinChars]
          simp only [List.append_assoc]

/-- The first two of some texts can be joined before the others. -/
theorem joined_append_cons (separator first second : String) (parts : List String) :
    joined separator ((first ++ separator ++ second) :: parts) =
      joined separator (first :: second :: parts) := by
  rw [joined, joined]
  cases parts <;> simp [joinChars]

/-- Texts with a mark between each two. -/
theorem piecesOf_joined {parts : List String} (hne : parts ≠ [])
    (h : ∀ part ∈ parts, mark ∉ part.toList) :
    piecesOf mark (joined (String.ofList [mark]) parts) = parts := by
  have hparts : ∀ part ∈ parts.map String.toList, mark ∉ part := by
    simpa using h
  rw [piecesOf, joined, String.toList_ofList, String.toList_ofList,
    pieces_joinChars (by simpa using hne) hparts, List.map_map]
  simp

/-- A text between two characters that are no blanks has no blanks around it. -/
theorem trimBlanks_of_ends {a b : Char} (ha : isBlank a = false) (hb : isBlank b = false)
    (cs : List Char) : trimBlanks (a :: (cs ++ [b])) = a :: (cs ++ [b]) := by
  have hfront : (a :: (cs ++ [b])).dropWhile isBlank = a :: (cs ++ [b]) :=
    List.dropWhile_cons_of_neg (by simp [ha])
  have hback : (a :: (cs ++ [b])).reverse = b :: (a :: cs).reverse := by
    rw [← List.cons_append, List.reverse_append, List.reverse_singleton, List.singleton_append]
  rw [trimBlanks, hfront, hback, List.dropWhile_cons_of_neg (by simp [hb]), ← hback,
    List.reverse_reverse]

/-- No piece holds the mark. -/
theorem notMem_of_mem_pieces {s part : List Char} (h : part ∈ pieces mark s) : mark ∉ part := by
  induction s generalizing part with
  | nil =>
      obtain rfl := List.mem_singleton.1 h
      exact List.not_mem_nil
  | cons c s ih =>
      by_cases hc : c = mark
      · subst hc
        rw [pieces_cons_self] at h
        rcases List.mem_cons.1 h with rfl | h
        · exact List.not_mem_nil
        · exact ih h
      · obtain ⟨p, ps, hp, hcons⟩ := pieces_cons_of_ne hc s
        rw [hcons] at h
        rcases List.mem_cons.1 h with rfl | h
        · intro hmem
          rcases List.mem_cons.1 hmem with hmark | hmem
          · exact hc hmark.symm
          · exact ih (hp ▸ List.mem_cons_self) hmem
        · exact ih (hp ▸ List.mem_cons_of_mem p h)

/-- The pieces of a text hold no character more often than the text. -/
theorem count_le_of_mem_pieces {mark : Char} {s part : List Char} (h : part ∈ pieces mark s) (c : Char) :
    part.count c ≤ s.count c := by
  induction s generalizing part with
  | nil =>
      obtain rfl := List.mem_singleton.1 h
      exact Nat.le_refl _
  | cons d s ih =>
      by_cases hd : d = mark
      · rw [hd, pieces_cons_self, List.mem_cons] at h
        rcases h with rfl | h
        · exact Nat.zero_le _
        · exact Nat.le_trans (ih h) List.count_le_count_cons
      · obtain ⟨p, ps, hp, hcons⟩ := pieces_cons_of_ne hd s
        rw [hcons, List.mem_cons] at h
        rcases h with rfl | h
        · have hle := ih (hp ▸ List.mem_cons_self : p ∈ pieces mark s)
          rw [List.count_cons, List.count_cons]
          omega
        · exact Nat.le_trans (ih (hp ▸ List.mem_cons_of_mem p h)) List.count_le_count_cons

/-- A part without the mark stands between two marks, one being put in front of the text, exactly if it
is a piece of the text other than the last. -/
theorem between_marks_iff {mark : Char} {part s : List Char} (h : mark ∉ part) :
    mark :: part ++ [mark] <:+: mark :: s ↔ part ∈ (pieces mark s).dropLast := by
  constructor
  · rintro ⟨front, back, hs⟩
    cases front with
    | nil =>
        obtain rfl : part ++ mark :: back = s := by simpa using hs
        rw [pieces_append_mark h, List.dropLast_cons_of_ne_nil (pieces_ne_nil mark back)]
        exact List.mem_cons_self
    | cons c front =>
        obtain ⟨-, rfl⟩ : c = mark ∧ front ++ mark :: (part ++ mark :: back) = s := by simpa using hs
        rw [pieces_append, pieces_append_mark h, List.dropLast_append_of_ne_nil (List.cons_ne_nil _ _),
          List.dropLast_cons_of_ne_nil (pieces_ne_nil mark back)]
        exact List.mem_append_right _ List.mem_cons_self
  · intro hmem
    obtain ⟨before, after, hafter, hpieces⟩ := exists_of_mem_dropLast hmem
    have hs := joinChars_pieces mark s
    have hpart := joinChars_append [mark] (List.cons_ne_nil part []) hafter
    rw [List.singleton_append, joinChars] at hpart
    rw [hpieces] at hs
    cases before with
    | nil =>
        rw [List.nil_append, hpart] at hs
        exact ⟨[], joinChars [mark] after, by rw [← hs]; simp⟩
    | cons first before =>
        rw [joinChars_append [mark] (List.cons_ne_nil _ _) (List.cons_ne_nil part after), hpart] at hs
        exact ⟨mark :: joinChars [mark] (first :: before), joinChars [mark] after, by rw [← hs]; simp⟩

/-! ### Runs of characters -/

section Runs

variable {test : Char → Bool} {run : List Char} {c : Char}

/-- A run is what is taken up to the character that stops it. -/
theorem takeWhile_run (hrun : ∀ d ∈ run, test d = true) (hc : test c = false) (rest : List Char) :
    (run ++ c :: rest).takeWhile test = run := by
  rw [List.takeWhile_append_of_pos hrun, List.takeWhile_cons_of_neg (by simp [hc]), List.append_nil]

/-- Behind a run stands the character that stops it. -/
theorem dropWhile_run (hrun : ∀ d ∈ run, test d = true) (hc : test c = false) (rest : List Char) :
    (run ++ c :: rest).dropWhile test = c :: rest := by
  rw [List.dropWhile_append_of_pos hrun, List.dropWhile_cons_of_neg (by simp [hc])]

/-- A text has one run in front. -/
theorem run_unique {other rest rest' : List Char} {d : Char} (hrun : ∀ x ∈ run, test x = true)
    (hc : test c = false) (hother : ∀ x ∈ other, test x = true) (hd : test d = false)
    (h : run ++ c :: rest = other ++ d :: rest') : run = other ∧ c = d ∧ rest = rest' := by
  have hfront := takeWhile_run hrun hc rest
  rw [h, takeWhile_run hother hd] at hfront
  subst hfront
  obtain ⟨hmark, hrest⟩ := List.cons.inj (List.append_cancel_left h)
  exact ⟨rfl, hmark, hrest⟩

end Runs

/-! ### Search -/

theorem startsWith_iff {front s : List Char} : startsWith front s = true ↔ front <+: s := by
  induction front generalizing s with
  | nil => simp [startsWith, afterFront?]
  | cons p front ih =>
      cases s with
      | nil => simp [startsWith, afterFront?]
      | cons c s =>
          rw [List.cons_prefix_cons, ← ih, startsWith, startsWith, afterFront?]
          by_cases hpc : p = c <;> simp [hpc]

theorem occursIn_iff {part s : List Char} : occursIn part s = true ↔ part <:+: s := by
  induction s with
  | nil => simp [occursIn]
  | cons c s ih => rw [occursIn, Bool.or_eq_true, startsWith_iff, ih, List.infix_cons_iff]

theorem afterFront?_append (front s : List Char) : afterFront? front (front ++ s) = some s := by
  induction front with
  | nil => rfl
  | cons p front ih => rw [List.cons_append, afterFront?, if_pos rfl, ih]

theorem eq_append_of_afterFront? {front s t : List Char} (h : afterFront? front s = some t) :
    s = front ++ t := by
  have hprefix : front <+: s := startsWith_iff.1 (by rw [startsWith, h]; rfl)
  obtain ⟨more, rfl⟩ := hprefix
  rw [afterFront?_append] at h
  rw [Option.some.inj h]

theorem afterFront?_eq_none {front s : List Char} (h : ¬ front <+: s) : afterFront? front s = none := by
  rw [← startsWith_iff, startsWith, Option.isSome_iff_ne_none] at h
  exact not_not.1 h

/-- A text is cut at the first occurrence of a part. -/
theorem cutAt?_of_first {part before : List Char}
    (h : ∀ i < before.length, ¬ part <+: (before ++ part).drop i) (after : List Char) :
    cutAt? part (before ++ (part ++ after)) = some (before, after) := by
  induction before with
  | nil =>
      have hfront := afterFront?_append part after
      rw [List.nil_append]
      cases hs : part ++ after with
      | nil =>
          obtain ⟨rfl, rfl⟩ := List.append_eq_nil_iff.1 hs
          rfl
      | cons c cs =>
          rw [hs] at hfront
          rw [cutAt?, hfront]
  | cons b before ih =>
      have hless : part.length ≤ ((b :: before) ++ part).length := by
        rw [List.length_append]
        omega
      have hwhole : (b :: before) ++ part <+: b :: (before ++ (part ++ after)) := ⟨after, by simp⟩
      have hnot : ¬ part <+: b :: (before ++ (part ++ after)) := fun hprefix =>
        h 0 (by simp) (List.prefix_of_prefix_length_le hprefix hwhole hless)
      rw [List.cons_append, cutAt?, afterFront?_eq_none hnot, ih fun i hi => h (i + 1) (by simpa using hi)]
      rfl

/-- A part is found where it stands if its first character does not stand before it. -/
theorem cutAt?_append {c : Char} {before : List Char} (part : List Char) (hpart : part.head? = some c)
    (h : c ∉ before) (after : List Char) :
    cutAt? part (before ++ (part ++ after)) = some (before, after) := by
  obtain ⟨part, rfl⟩ := List.head?_eq_some_iff.1 hpart
  refine cutAt?_of_first (fun i hi hprefix => ?_) after
  obtain ⟨more, hmore⟩ := hprefix
  rw [List.drop_append_of_le_length (Nat.le_of_lt hi), List.drop_eq_getElem_cons hi] at hmore
  exact h ((List.cons.inj hmore).1 ▸ List.getElem_mem hi)

/-- A character that a text does not hold does not cut it. -/
theorem cutAt?_eq_none {c : Char} {s : List Char} (h : c ∉ s) : cutAt? [c] s = none := by
  induction s with
  | nil => rfl
  | cons d s ih =>
      rw [List.mem_cons, not_or] at h
      have hfront : ¬ [c] <+: d :: s := fun hprefix => h.1 (List.cons_prefix_cons.1 hprefix).1
      rw [cutAt?, afterFront?_eq_none hfront, ih h.2]
      rfl

end DesignRegistry
