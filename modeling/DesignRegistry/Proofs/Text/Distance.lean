/-
**The distance of texts is the least number of edits.**

An edit inserts a character, deletes one or replaces one.  By plain recursion on both texts there are as
many edits as it says, and no chain of edits is shorter, for one edit changes the distance to any text by
at most one.  The distance is computed row by row along the longer text, and a row holds what the recursion
gives for every beginning of the shorter one; since edits can be read backwards and taken back, it does not
matter at which end the recursion starts and which text is the longer.  So the distance is a metric, and
the part of the longer text that no edit touches is all of it only for equal texts.

Main definitions:

* `CharEdit`, `CharEdits` — one edit, and a number of them one after the other;
* `plainDistance` — the recursion on both texts;
* `Similarity.ratio` — the part that is kept, as a fraction.

Main results:

* `edits_plainDistance`, `CharEdits.plainDistance_le` — **there is a chain of as many edits as the recursion
  says, and none is shorter**;
* `rowBehind_eq`, `lastRow_eq` — one row, and all of them;
* `distance_eq_plainDistance` — **the rows give what the recursion gives**;
* `distance_comm`, `distance_eq_zero_iff`, `distance_triangle`, `distance_le_max` — the laws of a metric;
* `similarity_toBinary64` — what rounding leaves of the fraction;
* `distance_metric` — **the distance is the least number of edits, and a metric**.
-/
import DesignRegistry.Proofs.Number.Value
import DesignRegistry.Text.Distance
import Mathlib.Order.Bounds.Basic

set_option relaxedAutoImplicit false
set_option autoImplicit false

namespace DesignRegistry

/-! ### Edits -/

/-- One edit: a character is inserted, deleted or replaced. -/
inductive CharEdit : List Char → List Char → Prop
  | insert (front back : List Char) (c : Char) : CharEdit (front ++ back) (front ++ c :: back)
  | delete (front back : List Char) (c : Char) : CharEdit (front ++ c :: back) (front ++ back)
  | replace (front back : List Char) (c d : Char) : CharEdit (front ++ c :: back) (front ++ d :: back)

/-- A number of edits, one after the other. -/
inductive CharEdits : ℕ → List Char → List Char → Prop
  | none (s : List Char) : CharEdits 0 s s
  | next {n : ℕ} {s t u : List Char} : CharEdit s t → CharEdits n t u → CharEdits (n + 1) s u

/-- An edit can be taken back. -/
theorem CharEdit.symm {s t : List Char} (h : CharEdit s t) : CharEdit t s := by
  cases h with
  | insert front back c => exact .delete front back c
  | delete front back c => exact .insert front back c
  | replace front back c d => exact .replace front back d c

/-- An edit behind another character. -/
theorem CharEdit.cons {s t : List Char} (h : CharEdit s t) (c : Char) : CharEdit (c :: s) (c :: t) := by
  cases h with
  | insert front back d => exact .insert (c :: front) back d
  | delete front back d => exact .delete (c :: front) back d
  | replace front back d e => exact .replace (c :: front) back d e

namespace CharEdits

variable {m n : ℕ} {s t u : List Char}

theorem single (h : CharEdit s t) : CharEdits 1 s t := .next h (.none t)

theorem trans (h : CharEdits m s t) (h' : CharEdits n t u) : CharEdits (m + n) s u := by
  induction h with
  | none s => rwa [Nat.zero_add]
  | next hedit _ ih =>
      rw [Nat.add_right_comm]
      exact .next hedit (ih h')

theorem symm (h : CharEdits n s t) : CharEdits n t s := by
  induction h with
  | none s => exact .none s
  | next hedit _ ih => exact ih.trans (single hedit.symm)

theorem cons (h : CharEdits n s t) (c : Char) : CharEdits n (c :: s) (c :: t) := by
  induction h with
  | none s => exact .none (c :: s)
  | next hedit _ ih => exact .next (hedit.cons c) ih

/-- Only equal texts need no edit. -/
theorem zero_iff : CharEdits 0 s t ↔ s = t := by
  constructor
  · rintro ⟨⟩
    rfl
  · rintro rfl
    exact .none s

end CharEdits

/-! ### The plain recursion -/

/-- The distance by recursion on both texts: their first characters are made equal, or one of the two is
dropped. -/
def plainDistance : List Char → List Char → ℕ
  | [], t => t.length
  | _ :: s, [] => s.length + 1
  | c :: s, d :: t =>
      min (plainDistance s t + if c = d then 0 else 1)
        (min (plainDistance s (d :: t) + 1) (plainDistance (c :: s) t + 1))
termination_by s t => s.length + t.length

@[simp] theorem plainDistance_nil_left (t : List Char) : plainDistance [] t = t.length := by
  rw [plainDistance]

@[simp] theorem plainDistance_nil_right (s : List Char) : plainDistance s [] = s.length := by
  cases s with
  | nil => rw [plainDistance_nil_left]
  | cons c s => rw [plainDistance, List.length_cons]

theorem plainDistance_cons_cons (c d : Char) (s t : List Char) :
    plainDistance (c :: s) (d :: t) =
      min (plainDistance s t + if c = d then 0 else 1)
        (min (plainDistance s (d :: t) + 1) (plainDistance (c :: s) t + 1)) := by
  rw [plainDistance]

/-! ### As many edits as the recursion says -/

theorem edits_nil_left (t : List Char) : CharEdits t.length [] t := by
  induction t with
  | nil => exact .none []
  | cons d t ih => exact .next (.insert [] [] d) (ih.cons d)

/-- Two texts are as many edits apart as the recursion says. -/
theorem edits_plainDistance (s t : List Char) : CharEdits (plainDistance s t) s t := by
  induction s, t using plainDistance.induct with
  | case1 t => exact plainDistance_nil_left t ▸ edits_nil_left t
  | case2 c s => exact plainDistance_nil_right (c :: s) ▸ (edits_nil_left (c :: s)).symm
  | case3 c s d t hreplaced hdeleted hinserted =>
      have hfirst : CharEdits (plainDistance s t + if c = d then 0 else 1) (c :: s) (d :: t) := by
        by_cases hcd : c = d
        · rw [if_pos hcd, hcd]
          exact hreplaced.cons d
        · rw [if_neg hcd]
          exact (hreplaced.cons c).trans (.single (.replace [] t c d))
      rw [plainDistance_cons_cons]
      rcases min_choice (plainDistance s t + if c = d then 0 else 1)
        (min (plainDistance s (d :: t) + 1) (plainDistance (c :: s) t + 1)) with h | h
      · rwa [h]
      · rw [h]
        rcases min_choice (plainDistance s (d :: t) + 1) (plainDistance (c :: s) t + 1) with h | h
        · rw [h]
          exact .next (.delete [] s c) hdeleted
        · rw [h]
          exact hinserted.trans (.single (.insert [] t d))

/-! ### No shorter chain of edits -/

/-- A character in front makes the distance greater by one at most. -/
theorem plainDistance_cons_le (c : Char) (s u : List Char) :
    plainDistance (c :: s) u ≤ plainDistance s u + 1 := by
  cases u with
  | nil => simp
  | cons d u =>
      rw [plainDistance_cons_cons]
      omega

/-- A character less in front makes the distance greater by one at most. -/
theorem plainDistance_le_cons (c : Char) (s u : List Char) :
    plainDistance s u ≤ plainDistance (c :: s) u + 1 := by
  have hinsert (d : Char) (u : List Char) : plainDistance s (d :: u) ≤ plainDistance s u + 1 := by
    cases s with
    | nil => simp
    | cons e s =>
        rw [plainDistance_cons_cons]
        omega
  induction u with
  | nil => simp only [plainDistance_nil_right, List.length_cons]; omega
  | cons d u ih =>
      have hstep := hinsert d u
      rw [plainDistance_cons_cons]
      omega

/-- Another character in front changes the distance by one at most. -/
theorem plainDistance_replace_le (c d : Char) (s u : List Char) :
    plainDistance (c :: s) u ≤ plainDistance (d :: s) u + 1 := by
  induction u with
  | nil => simp
  | cons e u ih =>
      rw [plainDistance_cons_cons, plainDistance_cons_cons]
      split_ifs <;> omega

/-- What holds behind equal characters holds with them: the recursion is monotone. -/
theorem plainDistance_append_le {s t : List Char}
    (h : ∀ u, plainDistance s u ≤ plainDistance t u + 1) (front u : List Char) :
    plainDistance (front ++ s) u ≤ plainDistance (front ++ t) u + 1 := by
  induction front generalizing u with
  | nil => exact h u
  | cons c front ih =>
      induction u with
      | nil =>
          have hlength := h []
          simp only [plainDistance_nil_right] at hlength
          simp only [plainDistance_nil_right, List.length_append, List.length_cons, List.cons_append]
          omega
      | cons d u ihu =>
          have hreplaced := ih u
          have hdeleted := ih (d :: u)
          simp only [List.cons_append] at ihu ⊢
          rw [plainDistance_cons_cons, plainDistance_cons_cons]
          omega

/-- One edit changes the distance to any text by at most one. -/
theorem CharEdit.plainDistance_le {s t : List Char} (h : CharEdit s t) (u : List Char) :
    plainDistance s u ≤ plainDistance t u + 1 := by
  cases h with
  | insert front back c => exact plainDistance_append_le (plainDistance_le_cons c back) front u
  | delete front back c => exact plainDistance_append_le (plainDistance_cons_le c back) front u
  | replace front back c d =>
      exact plainDistance_append_le (plainDistance_replace_le c d back) front u

theorem plainDistance_self (s : List Char) : plainDistance s s = 0 := by
  induction s with
  | nil => rw [plainDistance_nil_left, List.length_nil]
  | cons c s ih => rw [plainDistance_cons_cons, ih, if_pos rfl, Nat.zero_min]

/-- No chain of edits is shorter than the recursion says. -/
theorem CharEdits.plainDistance_le {n : ℕ} {s t : List Char} (h : CharEdits n s t) :
    plainDistance s t ≤ n := by
  induction h with
  | none s => exact (plainDistance_self s).le
  | next hedit _ ih => exact (hedit.plainDistance_le _).trans (Nat.succ_le_succ ih)

/-- The least number of edits that turn one text into another is what the recursion gives. -/
theorem isLeast_plainDistance (s t : List Char) : IsLeast {n | CharEdits n s t} (plainDistance s t) :=
  ⟨edits_plainDistance s t, fun _ h => h.plainDistance_le⟩

theorem plainDistance_comm (s t : List Char) : plainDistance s t = plainDistance t s :=
  le_antisymm (edits_plainDistance t s).symm.plainDistance_le
    (edits_plainDistance s t).symm.plainDistance_le

/-! ### Row by row -/

/-- An edit of texts that are read backwards. -/
theorem CharEdit.reverse {s t : List Char} (h : CharEdit s t) : CharEdit s.reverse t.reverse := by
  cases h with
  | insert front back c => simpa using CharEdit.insert back.reverse front.reverse c
  | delete front back c => simpa using CharEdit.delete back.reverse front.reverse c
  | replace front back c d => simpa using CharEdit.replace back.reverse front.reverse c d

theorem CharEdits.reverse {n : ℕ} {s t : List Char} (h : CharEdits n s t) :
    CharEdits n s.reverse t.reverse := by
  induction h with
  | none s => exact .none s.reverse
  | next hedit _ ih => exact .next hedit.reverse ih

theorem plainDistance_reverse (s t : List Char) :
    plainDistance s.reverse t.reverse = plainDistance s t := by
  refine le_antisymm (edits_plainDistance s t).reverse.plainDistance_le ?_
  have hback := (edits_plainDistance s.reverse t.reverse).reverse.plainDistance_le
  rwa [List.reverse_reverse, List.reverse_reverse] at hback

/-- The recursion can as well be on the last characters, for nothing is nearer read backwards. -/
theorem plainDistance_concat (s t : List Char) (c d : Char) :
    plainDistance (s ++ [c]) (t ++ [d]) =
      min (plainDistance s t + if c = d then 0 else 1)
        (min (plainDistance s (t ++ [d]) + 1) (plainDistance (s ++ [c]) t + 1)) := by
  rw [← plainDistance_reverse (s ++ [c]), ← plainDistance_reverse s t,
    ← plainDistance_reverse s (t ++ [d]), ← plainDistance_reverse (s ++ [c]) t]
  simp only [List.reverse_append, List.reverse_singleton, List.singleton_append]
  exact plainDistance_cons_cons c d s.reverse t.reverse

/-- The beginnings of a text start with the empty one. -/
theorem inits_eq_cons (t : List Char) : t.inits = [] :: t.inits.tail := by
  cases t <;> rfl

/-- The numbers of a row are the distances of what was read to the beginnings of the shorter text.  By
induction on what follows the beginning `front`, to which the number on the left belongs. -/
theorem rowBehind_eq (c : Char) (s front back : List Char) :
    rowBehind c (plainDistance (s ++ [c]) front) back
        (back.inits.map fun b => plainDistance s (front ++ b)) =
      back.inits.tail.map fun b => plainDistance (s ++ [c]) (front ++ b) := by
  induction back generalizing front with
  | nil => simp [rowBehind]
  | cons d back ih =>
      have hshift : ∀ s : List Char, ((back.inits.map (d :: ·)).map fun b =>
          plainDistance s (front ++ b)) = back.inits.map fun b => plainDistance s (front ++ [d] ++ b) := by
        intro s
        simp [Function.comp_def]
      have hnext : min (min (plainDistance s front + if c = d then 0 else 1)
          (plainDistance (s ++ [c]) front + 1)) (plainDistance s (front ++ [d]) + 1) =
            plainDistance (s ++ [c]) (front ++ [d]) := by
        rw [plainDistance_concat, min_assoc, min_comm (plainDistance (s ++ [c]) front + 1)]
      have hrow (s : List Char) : (back.inits.map fun b => plainDistance s (front ++ [d] ++ b)) =
          plainDistance s (front ++ [d]) ::
            back.inits.tail.map fun b => plainDistance s (front ++ [d] ++ b) := by
        rw [inits_eq_cons back, List.map_cons, List.append_nil, List.tail_cons]
      rw [List.inits_cons, List.map_cons, List.append_nil, List.tail_cons, hshift, hshift]
      rw [hrow s, rowBehind, ← hrow s, hrow (s ++ [c])]
      simp only [hnext, ih]

/-- After a part of the longer text, the row holds its distances to the beginnings of the shorter one; by
induction on what is still to be read. -/
theorem lastRow_eq (s rest t : List Char) :
    lastRow t (s.length + 1) (t.inits.map (plainDistance s)) rest =
      t.inits.map (plainDistance (s ++ rest)) := by
  induction rest generalizing s with
  | nil => rw [lastRow, List.append_nil]
  | cons c rest ih =>
      have hleft : plainDistance (s ++ [c]) [] = s.length + 1 := by simp
      have hrow := rowBehind_eq c s [] t
      simp only [List.nil_append, hleft] at hrow
      have hread := ih (s ++ [c])
      rw [List.length_append, List.length_singleton, inits_eq_cons t, List.map_cons, hleft,
        List.append_assoc, List.singleton_append] at hread
      rw [lastRow, hrow, hread, ← inits_eq_cons t]

/-- The first row counts the characters of the beginnings. -/
theorem range_eq_inits (t : List Char) :
    List.range (t.length + 1) = t.inits.map (plainDistance []) := by
  refine List.ext_getElem (by simp) fun i _ hi => ?_
  have hlength : i < t.length + 1 := by simpa using hi
  rw [List.getElem_range, List.getElem_map, plainDistance_nil_left, List.getElem_inits,
    List.length_take]
  omega

/-- The last number of the last row is the distance, as the last beginning of a text is the text. -/
theorem rowDistance_eq (longer shorter : List Char) :
    rowDistance longer shorter = plainDistance longer shorter := by
  have hrow := lastRow_eq [] longer shorter
  rw [List.length_nil, Nat.zero_add, List.nil_append] at hrow
  have hlast : shorter.inits[shorter.length]? = some shorter := by
    rw [List.getElem?_eq_getElem (by simp), List.getElem_inits, List.take_length]
  rw [rowDistance, range_eq_inits, hrow, List.getLastD_eq_getLast?, List.getLast?_eq_getElem?,
    List.getElem?_map, List.length_map, List.length_inits, Nat.add_sub_cancel, hlast]
  rfl

/-- **The rows give what the recursion on both texts gives**, whichever text is read along. -/
theorem distance_eq_plainDistance (s t : List Char) : distance s t = plainDistance s t := by
  rw [distance]
  split
  · rw [rowDistance_eq, plainDistance_comm]
  · rw [rowDistance_eq]

/-! ### The distance as a metric -/

/-- The distance is the least number of edits that turn one text into the other. -/
theorem isLeast_distance (s t : List Char) : IsLeast {n | CharEdits n s t} (distance s t) := by
  rw [distance_eq_plainDistance]
  exact isLeast_plainDistance s t

theorem edits_distance (s t : List Char) : CharEdits (distance s t) s t := (isLeast_distance s t).1

theorem CharEdits.distance_le {n : ℕ} {s t : List Char} (h : CharEdits n s t) : distance s t ≤ n :=
  (isLeast_distance s t).2 h

theorem distance_comm (s t : List Char) : distance s t = distance t s :=
  le_antisymm (edits_distance t s).symm.distance_le (edits_distance s t).symm.distance_le

theorem distance_eq_zero_iff {s t : List Char} : distance s t = 0 ↔ s = t := by
  rw [← CharEdits.zero_iff]
  exact ⟨fun h => h ▸ edits_distance s t, fun h => Nat.le_zero.1 h.distance_le⟩

theorem distance_triangle (s t u : List Char) : distance s u ≤ distance s t + distance t u :=
  ((edits_distance s t).trans (edits_distance t u)).distance_le

/-- The characters of the longer text are edits enough. -/
theorem distance_le_max (s t : List Char) : distance s t ≤ max s.length t.length := by
  rw [distance_eq_plainDistance]
  induction s generalizing t with
  | nil => simp
  | cons c s ih =>
      cases t with
      | nil => simp
      | cons d t =>
          have hrest := ih t
          rw [plainDistance_cons_cons, List.length_cons, List.length_cons]
          split_ifs <;> omega

/-! ### Similarity -/

namespace Similarity

/-- How alike texts are, as a fraction. -/
def ratio (a : Similarity) : ℚ := a.kept / a.length

end Similarity

theorem similarity_length_pos (s t : List Char) : 0 < (similarity s t).length := by
  rw [similarity]
  split
  · exact Nat.one_pos
  · next h => exact Nat.pos_of_ne_zero h

theorem similarity_kept_le (s t : List Char) : (similarity s t).kept ≤ (similarity s t).length := by
  rw [similarity]
  split
  · exact le_refl 1
  · exact Nat.sub_le _ _

theorem similarity_kept_eq_iff {s t : List Char} :
    (similarity s t).kept = (similarity s t).length ↔ s = t := by
  have hmost := distance_le_max s t
  rw [similarity, ← distance_eq_zero_iff]
  split
  · next h => exact iff_of_true rfl (by omega)
  · next h =>
      dsimp only
      omega

/-- As a binary number similarity lies between zero and one too.  It is one for equal texts, and for no
others unless a text is so long that a single edit is lost in rounding. -/
theorem similarity_toBinary64 (s t : List Char) :
    ∃ q, (similarity s t).toBinary64.value? = some q ∧ 0 ≤ q ∧ q ≤ 1 ∧ (s = t → q = 1) ∧
      (max s.length t.length < 2 ^ 54 → q = 1 → s = t) := by
  have hpos := similarity_length_pos s t
  rw [Similarity.toBinary64]
  rcases (similarity_kept_le s t).eq_or_lt with heq | hlt
  · rw [heq]
    exact ⟨1, Binary64.value?_ofRatio_self hpos, zero_le_one, le_rfl, fun _ => rfl,
      fun _ _ => similarity_kept_eq_iff.1 heq⟩
  · have hne : s ≠ t := fun h => hlt.ne (similarity_kept_eq_iff.2 h)
    rcases Nat.eq_zero_or_pos (similarity s t).kept with hzero | hkept
    · rw [hzero, Binary64.ofRatio, if_pos rfl]
      exact ⟨0, Binary64.value?_zero false, le_rfl, zero_le_one, fun h => absurd h hne,
        fun _ h => absurd h zero_ne_one⟩
    · obtain ⟨q, hvalue, hlow, hhigh, hone⟩ := Binary64.value?_ofRatio_of_lt hkept hlt
      refine ⟨q, hvalue, hlow, hhigh, fun h => absurd h hne, fun hlength h => absurd h (hone ?_)⟩
      rw [similarity]
      split
      · norm_num
      · exact hlength

/-! ### What the distance says -/

/-- The distance of two texts is the least number of characters to insert, delete or replace that turns
one into the other, and what the plain recursion gives.  So it is a metric, bounded by the longer text;
and how alike two texts are is a fraction between zero and one, which is one for equal texts only.  The
fraction as a binary number lies between zero and one too, and below the lengths at which a single edit
is lost in rounding it is one for equal texts only. -/
theorem distance_metric (s t u : List Char) :
    IsLeast {n | CharEdits n s t} (distance s t) ∧ distance s t = plainDistance s t ∧
      distance s t = distance t s ∧ (distance s t = 0 ↔ s = t) ∧
      distance s u ≤ distance s t + distance t u ∧ distance s t ≤ max s.length t.length ∧
      0 ≤ (similarity s t).ratio ∧ (similarity s t).ratio ≤ 1 ∧
      ((similarity s t).ratio = 1 ↔ s = t) ∧
      ∃ q, (similarity s t).toBinary64.value? = some q ∧ 0 ≤ q ∧ q ≤ 1 ∧ (s = t → q = 1) ∧
        (max s.length t.length < 2 ^ 54 → q = 1 → s = t) := by
  have hpos : (0 : ℚ) < (similarity s t).length := Nat.cast_pos.2 (similarity_length_pos s t)
  have hkept : ((similarity s t).kept : ℚ) ≤ (similarity s t).length :=
    Nat.cast_le.2 (similarity_kept_le s t)
  refine ⟨isLeast_distance s t, distance_eq_plainDistance s t, distance_comm s t,
    distance_eq_zero_iff, distance_triangle s t u, distance_le_max s t, ?_, ?_, ?_,
    similarity_toBinary64 s t⟩
  · exact div_nonneg (Nat.cast_nonneg _) hpos.le
  · exact (div_le_one hpos).2 hkept
  · rw [Similarity.ratio, div_eq_one_iff_eq hpos.ne', Nat.cast_inj]
    exact similarity_kept_eq_iff

end DesignRegistry
