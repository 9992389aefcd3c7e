/-
**The best candidates.**

The candidates that are close to a text are put in order, the most alike first, and the first three are
returned.  The order is stable: of the candidates that are equally alike each stands where it was
declared.  There is only one such order, and it is told by the candidates that are close; so candidates
that are not close can come and go anywhere.

Main definitions:

* `StablyRanked` — a list in stable order, the greatest key first;
* `alike` — how alike two texts are, as a fraction.

Main results:

* `StablyRanked.unique` — there is only one stable order;
* `stablyRanked_mergeSort` — **sorting gives it**;
* `closestMatches_best` — **the candidates returned are the first three in it**.
-/
import DesignRegistry.Proofs.Text.Distance
import Mathlib.Data.List.Basic

set_option relaxedAutoImplicit false
set_option autoImplicit false

namespace DesignRegistry

/-! ### Stable orders -/

section Ranked

variable {α : Type}

/-- `ys` is the stable order of `xs`, the greatest key first: the same items in order of their keys, and
those of one key as they stand in `xs`. -/
structure StablyRanked (key : α → ℚ) (xs ys : List α) : Prop where
  perm : ys.Perm xs
  sorted : ys.Pairwise fun a b => key b ≤ key a
  stable : ∀ q, (ys.filter fun a => decide (key a = q)) = xs.filter fun a => decide (key a = q)

/-- Two lists in order with the same items of each key are equal. -/
theorem eq_of_filter_key {key : α → ℚ} {ys zs : List α}
    (hys : ys.Pairwise fun a b => key b ≤ key a) (hzs : zs.Pairwise fun a b => key b ≤ key a)
    (h : ∀ q, (ys.filter fun a => decide (key a = q)) = zs.filter fun a => decide (key a = q)) :
    ys = zs := by
  -- an item of one list is in the other, among those of its key
  have hmem {us vs : List α}
      (h : ∀ q, (us.filter fun a => decide (key a = q)) = vs.filter fun a => decide (key a = q))
      {a : α} (ha : a ∈ us) : a ∈ vs := by
    have hin : a ∈ us.filter fun b => decide (key b = key a) := List.mem_filter.2 ⟨ha, by simp⟩
    rw [h] at hin
    exact (List.mem_filter.1 hin).1
  induction ys generalizing zs with
  | nil =>
      cases zs with
      | nil => rfl
      | cons z zs => exact absurd (hmem (fun q => (h q).symm) List.mem_cons_self) List.not_mem_nil
  | cons y ys ih =>
      cases zs with
      | nil => exact absurd (hmem h List.mem_cons_self) List.not_mem_nil
      | cons z zs =>
          obtain ⟨hy, hyrest⟩ := List.pairwise_cons.1 hys
          obtain ⟨hz, hzrest⟩ := List.pairwise_cons.1 hzs
          have hzy : key z ≤ key y := by
            rcases List.mem_cons.1 (hmem (fun q => (h q).symm) (List.mem_cons_self (a := z))) with
              rfl | hin
            · exact le_rfl
            · exact hy z hin
          have hyz : key y ≤ key z := by
            rcases List.mem_cons.1 (hmem h (List.mem_cons_self (a := y))) with rfl | hin
            · exact le_rfl
            · exact hz y hin
          have hkey : key z = key y := le_antisymm hzy hyz
          -- both heads are the first items of the greatest key
          have hfirst := h (key y)
          rw [List.filter_cons_of_pos (by simp), List.filter_cons_of_pos (by simpa using hkey)]
            at hfirst
          obtain rfl := (List.cons.inj hfirst).1
          refine congrArg (y :: ·) (ih hyrest hzrest fun q => ?_)
          have hq := h q
          by_cases hk : key y = q
          · rw [List.filter_cons_of_pos (by simpa using hk), List.filter_cons_of_pos
              (by simpa using hk)] at hq
            exact (List.cons.inj hq).2
          · rwa [List.filter_cons_of_neg (by simpa using hk), List.filter_cons_of_neg
              (by simpa using hk)] at hq

/-- There is only one stable order. -/
theorem StablyRanked.unique {key : α → ℚ} {xs ys zs : List α} (hys : StablyRanked key xs ys)
    (hzs : StablyRanked key xs zs) : ys = zs :=
  eq_of_filter_key hys.sorted hzs.sorted fun q => (hys.stable q).trans (hzs.stable q).symm

/-- Sorting by a comparison of keys gives the stable order. -/
theorem stablyRanked_mergeSort {key : α → ℚ} {le : α → α → Bool}
    (hle : ∀ a b, le a b = true ↔ key b ≤ key a) (xs : List α) :
    StablyRanked key xs (xs.mergeSort le) := by
  have htrans (a b c : α) (hab : le a b = true) (hbc : le b c = true) : le a c = true :=
    (hle a c).2 (((hle b c).1 hbc).trans ((hle a b).1 hab))
  have htotal (a b : α) : (le a b || le b a) = true := by
    rw [Bool.or_eq_true, hle, hle]
    exact le_total (key b) (key a)
  have hperm := List.mergeSort_perm xs le
  refine ⟨hperm, ?_, fun q => ?_⟩
  · exact (List.pairwise_mergeSort htrans htotal xs).imp fun h => (hle _ _).1 h
  · -- the items of one key are in order, so sorting keeps them as they stand
    have hsorted : (xs.filter fun a => decide (key a = q)).Pairwise fun a b => le a b = true := by
      refine List.pairwise_of_forall_mem_list fun a ha b hb => (hle a b).2 ?_
      have hkeya : key a = q := by simpa using (List.mem_filter.1 ha).2
      have hkeyb : key b = q := by simpa using (List.mem_filter.1 hb).2
      rw [hkeya, hkeyb]
    have hsub := (List.sublist_mergeSort htrans htotal hsorted List.filter_sublist).filter
      fun a => decide (key a = q)
    rw [List.filter_filter, List.filter_congr fun a _ => Bool.and_self _] at hsub
    exact (hsub.eq_of_length (hperm.filter _).length_eq.symm).symm

end Ranked

/-! ### How alike texts are -/

/-- How alike two texts are, as a fraction. -/
def alike (value candidate : String) : ℚ := (similarity value.toList candidate.toList).ratio

namespace Similarity

variable {a b : Similarity}

theorem atLeast_iff (ha : 0 < a.length) (hb : 0 < b.length) :
    a.atLeast b = true ↔ b.ratio ≤ a.ratio := by
  rw [atLeast, decide_eq_true_eq, ratio, ratio,
    div_le_div_iff₀ (Nat.cast_pos.2 hb) (Nat.cast_pos.2 ha)]
  exact_mod_cast Iff.rfl

/-- Texts are close if their similarity is above three tenths. -/
theorem isClose_iff (ha : 0 < a.length) : a.isClose = true ↔ 3 / 10 < a.ratio := by
  rw [isClose, decide_eq_true_eq, ratio, div_lt_div_iff₀ (by norm_num) (Nat.cast_pos.2 ha),
    mul_comm (a.kept : ℚ)]
  exact_mod_cast Iff.rfl

end Similarity

/-- The ranking sorts the candidates that are accepted. -/
theorem rankedMatches_eq (accepted : Similarity → Bool) (value : String)
    (candidates : List String) :
    rankedMatches accepted value candidates =
      (candidates.filter fun c => accepted (similarity value.toList c.toList)).mergeSort
        fun a b => (similarity value.toList a.toList).atLeast (similarity value.toList b.toList) := by
  rw [rankedMatches, List.filter_map, List.map_mergeSort (s := fun a b =>
    (similarity value.toList a.toList).atLeast (similarity value.toList b.toList)), List.map_map]
  · rw [show (Prod.snd ∘ fun c : String => (similarity value.toList c.toList, c)) = id from rfl,
      List.map_id]
    rfl
  · intro a ha b hb
    obtain ⟨c, -, rfl⟩ := List.mem_map.1 ha
    obtain ⟨d, -, rfl⟩ := List.mem_map.1 hb
    rfl

/-- The candidates that are close to a text. -/
def closeTo (value : String) (candidates : List String) : List String :=
  candidates.filter fun c => decide (3 / 10 < alike value c)

theorem mem_closeTo {value c : String} {candidates : List String} :
    c ∈ closeTo value candidates ↔ c ∈ candidates ∧ 3 / 10 < alike value c := by
  rw [closeTo, List.mem_filter, decide_eq_true_eq]

/-- Candidates that are close are ranked in stable order. -/
theorem stablyRanked_rankedMatches (value : String) (candidates : List String) :
    StablyRanked (alike value) (closeTo value candidates)
      (rankedMatches Similarity.isClose value candidates) := by
  have hclose : (candidates.filter fun c =>
      (similarity value.toList c.toList).isClose) = closeTo value candidates :=
    List.filter_congr fun c _ => by
      rw [← Bool.coe_iff_coe, decide_eq_true_eq]
      exact Similarity.isClose_iff (similarity_length_pos _ _)
  rw [rankedMatches_eq, hclose]
  refine stablyRanked_mergeSort (fun a b => ?_) _
  exact Similarity.atLeast_iff (similarity_length_pos _ _) (similarity_length_pos _ _)

theorem closestMatches_eq_take (value : String) (candidates : List String) :
    closestMatches value candidates =
      (rankedMatches Similarity.isClose value candidates).take 3 := by
  rw [closestMatches, upTo, if_neg (by decide)]
  rfl

/-- Candidates that are not close are no part of the ranking. -/
theorem rankedMatches_congr {value : String} {candidates others : List String}
    (h : closeTo value others = closeTo value candidates) :
    rankedMatches Similarity.isClose value others =
      rankedMatches Similarity.isClose value candidates :=
  (h ▸ stablyRanked_rankedMatches value others).unique (stablyRanked_rankedMatches value candidates)

/-- What is returned for a text are the first three candidates, or all if they are fewer, in the stable
order of those whose similarity is above three tenths, the most alike first.  That order is the only one.
So what is returned are candidates, none that is close and left out is more alike than one of them, and
candidates that are not close can be added anywhere. -/
theorem closestMatches_best (value : String) (candidates : List String) :
    ∃ ranked, StablyRanked (alike value) (closeTo value candidates) ranked ∧
      (∀ other, StablyRanked (alike value) (closeTo value candidates) other → other = ranked) ∧
      closestMatches value candidates = ranked.take 3 ∧
      (∀ c ∈ closestMatches value candidates, c ∈ candidates ∧ 3 / 10 < alike value c ∧
        ∀ omitted ∈ ranked.drop 3, alike value omitted ≤ alike value c) ∧
      ∀ others, closeTo value others = closeTo value candidates →
        closestMatches value others = closestMatches value candidates := by
  have hranked := stablyRanked_rankedMatches value candidates
  have htake := closestMatches_eq_take value candidates
  refine ⟨_, hranked, fun other hother => hother.unique hranked, htake, fun c hc => ?_,
    fun others h => ?_⟩
  · rw [htake] at hc
    obtain ⟨hmem, hclose⟩ :=
      mem_closeTo.1 (hranked.perm.mem_iff.1 (List.mem_of_mem_take hc))
    refine ⟨hmem, hclose, fun omitted homitted => ?_⟩
    -- the ranking is what is returned and then what is left out
    have hsorted := hranked.sorted
    rw [← List.take_append_drop 3 (rankedMatches Similarity.isClose value candidates),
      List.pairwise_append] at hsorted
    exact hsorted.2.2 c hc omitted homitted
  · rw [htake, closestMatches_eq_take, rankedMatches_congr h]

end DesignRegistry
