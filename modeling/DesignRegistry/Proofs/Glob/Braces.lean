/-
**Brace expansion: how it ends, and what it lists.**

A pattern is opened at its first brace, an alternative is put in the place of the group, and the
result is opened again from its start.  So an alternative meets the text behind its group, and a
brace in one can close with a brace in the other; what carries every proof is that no round makes an
opening brace, and the group that is replaced had one.

The rounds that `expandBraces` is given are therefore always enough: it satisfies the recursion
without a bound, and this recursion ends.  What it returns cannot be opened any more.  Of a pattern in
which texts and plain groups alternate it returns the product: the choices of one position in each
group are listed in lexicographic order, and each gives one text.

Main definitions:

* `Glob.braced`, `Glob.HoldsGroup` — a text in braces, and an opening brace with a closing brace
  somewhere behind it;
* `Glob.Expansion` — the recursion, as a relation between a pattern and the texts;
* `Glob.PlainGroup`, `Glob.written`, `Glob.choices`, `Glob.chosen` — plain groups with the texts behind
  them, the pattern they are written as, and what a choice of positions stands for.

Main results:

* `Glob.expandBraces_group` — one round, whatever the text behind the group holds;
* `Glob.induction_groups` — induction over the rounds;
* `Glob.expandBraces_product` — **expansion ends, opens all groups, and lists the product**.
-/
import DesignRegistry.Glob.Pattern
import DesignRegistry.Proofs.Text.Pieces
import Mathlib.Data.List.Forall2
import Mathlib.Data.List.GetD
import Mathlib.Data.List.Lex

set_option relaxedAutoImplicit false
set_option autoImplicit false

namespace DesignRegistry

namespace Glob

/-! ### The first group -/

/-- A text in braces. -/
def braced (body : String) : String := "\x7b" ++ body ++ "\x7d"

@[simp] theorem toList_braced (body : String) :
    (braced body).toList = '{' :: (body.toList ++ ['}']) := by
  simp [braced]

/-- An opening brace with a closing brace somewhere behind it. -/
def HoldsGroup (pattern : String) : Prop :=
  ∃ head body tail : String, pattern = head ++ braced body ++ tail

/-- A pattern that holds a group holds a first one: nothing opens before it, and the next closing
brace ends it. -/
theorem HoldsGroup.first {pattern : String} (h : HoldsGroup pattern) :
    ∃ head body tail : String, '{' ∉ head.toList ∧ '}' ∉ body.toList
      ∧ pattern = head ++ braced body ++ tail := by
  obtain ⟨a, b, c, rfl⟩ := h
  obtain ⟨head, rest, hopen, hhead⟩ :=
    List.eq_append_cons_of_mem (show '{' ∈ a.toList ++ ['{'] by simp)
  have hclose : '}' ∈ rest ++ (b.toList ++ '}' :: c.toList) := by simp
  obtain ⟨body, tail, hbody, hnot⟩ := List.eq_append_cons_of_mem hclose
  refine ⟨String.ofList head, String.ofList body, String.ofList tail, by simpa, by simpa,
    String.toList_inj.1 ?_⟩
  calc
    (a ++ braced b ++ c).toList = a.toList ++ ['{'] ++ (b.toList ++ '}' :: c.toList) := by simp
    _ = head ++ '{' :: (rest ++ (b.toList ++ '}' :: c.toList)) := by
      rw [hopen, List.append_assoc, List.cons_append]
    _ = _ := by simp [hbody]

theorem firstGroup?_append {head body : List Char} (hhead : '{' ∉ head) (hbody : '}' ∉ body)
    (tail : List Char) :
    firstGroup? (head ++ '{' :: (body ++ '}' :: tail)) = some (head, body, tail) := by
  have hopen := cutAt?_append ['{'] rfl hhead (body ++ '}' :: tail)
  have hclose := cutAt?_append ['}'] rfl hbody tail
  rw [List.singleton_append] at hopen hclose
  simp only [firstGroup?, hopen, hclose, Option.bind_eq_bind, Option.bind_some]
  rfl

theorem firstGroup?_eq_none {pattern : String} (h : ¬ HoldsGroup pattern) :
    firstGroup? pattern.toList = none := by
  by_cases hopen : '{' ∈ pattern.toList
  · obtain ⟨head, rest, hpattern, hhead⟩ := List.eq_append_cons_of_mem hopen
    have hrest : '}' ∉ rest := by
      intro hmem
      obtain ⟨body, tail, rfl⟩ := List.append_of_mem hmem
      refine h ⟨String.ofList head, String.ofList body, String.ofList tail, String.toList_inj.1 ?_⟩
      simp [hpattern]
    have hcut := cutAt?_append ['{'] rfl hhead rest
    rw [List.singleton_append] at hcut
    simp only [firstGroup?, hpattern, hcut, cutAt?_eq_none hrest, Option.bind_eq_bind,
      Option.bind_some, Option.bind_none]
  · rw [firstGroup?, cutAt?_eq_none hopen]
    rfl

/-! ### The rounds -/

/-- An alternative in the place of its group: an opening brace is gone, and none has come. -/
theorem count_replaced {body alternative : List Char} (h : alternative ∈ pieces ',' body)
    (head tail : List Char) :
    (head ++ alternative ++ tail).count '{' < (head ++ '{' :: (body ++ '}' :: tail)).count '{' := by
  have hle := count_le_of_mem_pieces h '{'
  simp only [List.count_append, List.count_cons, beq_self_eq_true, if_true]
  omega

theorem expandRounds_of_none {s : List Char} (h : firstGroup? s = none) (rounds : ℕ) :
    expandRounds rounds s = [s] := by
  cases rounds with
  | zero => rfl
  | succ rounds => rw [expandRounds, h]

theorem expandRounds_group (rounds : ℕ) {head body : List Char} (hhead : '{' ∉ head)
    (hbody : '}' ∉ body) (tail : List Char) :
    expandRounds (rounds + 1) (head ++ '{' :: (body ++ '}' :: tail)) =
      (pieces ',' body).flatMap fun alternative =>
        expandRounds rounds (head ++ alternative ++ tail) := by
  rw [expandRounds, firstGroup?_append hhead hbody]

/-- Rounds that are enough for the opening braces all give the same. -/
theorem expandRounds_congr {m n : ℕ} {s : List Char} (hm : s.count '{' ≤ m) (hn : s.count '{' ≤ n) :
    expandRounds m s = expandRounds n s := by
  induction m generalizing n s with
  | zero =>
      have hopen : '{' ∉ s := List.count_eq_zero.1 (Nat.le_zero.1 hm)
      have hnone : firstGroup? s = none := by
        rw [firstGroup?, cutAt?_eq_none hopen]
        rfl
      rw [expandRounds_of_none hnone, expandRounds_of_none hnone]
  | succ m ih =>
      by_cases h : HoldsGroup (String.ofList s)
      · obtain ⟨head, body, tail, hhead, hbody, hs⟩ := h.first
        obtain rfl : s = head.toList ++ '{' :: (body.toList ++ '}' :: tail.toList) := by
          simpa using congrArg String.toList hs
        obtain ⟨n, rfl⟩ : ∃ k, n = k + 1 := Nat.exists_eq_succ_of_ne_zero fun hzero => by
          simp [hzero] at hn
        rw [expandRounds_group m hhead hbody, expandRounds_group n hhead hbody]
        refine List.flatMap_congr fun alternative halternative => ?_
        have hless := count_replaced halternative head.toList tail.toList
        exact ih (by omega) (by omega)
      · have hnone := firstGroup?_eq_none h
        rw [String.toList_ofList] at hnone
        rw [expandRounds_of_none hnone, expandRounds_of_none hnone]

/-- A pattern without a group stands for itself. -/
theorem expandBraces_of_not_holdsGroup {pattern : String} (h : ¬ HoldsGroup pattern) :
    expandBraces pattern = [pattern] := by
  rw [expandBraces, expandRounds_of_none (firstGroup?_eq_none h), List.map_singleton,
    String.ofList_toList]

/-- One round, whatever the text behind the group holds. -/
theorem expandBraces_group {head body : String} (hhead : '{' ∉ head.toList)
    (hbody : '}' ∉ body.toList) (tail : String) :
    expandBraces (head ++ braced body ++ tail) =
      (piecesOf ',' body).flatMap fun alternative => expandBraces (head ++ alternative ++ tail) := by
  have hpattern : (head ++ braced body ++ tail).toList =
      head.toList ++ '{' :: (body.toList ++ '}' :: tail.toList) := by
    simp
  rw [expandBraces, hpattern, expandRounds_congr le_rfl (Nat.le_succ _),
    expandRounds_group _ hhead hbody, List.map_flatMap, piecesOf, List.flatMap_map]
  refine List.flatMap_congr fun alternative halternative => ?_
  have hreplaced : (head ++ String.ofList alternative ++ tail).toList =
      head.toList ++ alternative ++ tail.toList := by
    simp
  rw [expandBraces, hreplaced,
    expandRounds_congr (count_replaced halternative head.toList tail.toList).le le_rfl]

/-- The brace in an alternative closes with the brace behind the group. -/
example : expandBraces "{a{b,c}d}" = ["abd", "cd\x7d"] := by decide

/-- Induction over the rounds: what holds of the patterns without a group, and of a pattern if it
holds with each alternative in the place of the first group, holds of every pattern. -/
theorem induction_groups {motive : String → Prop}
    (plain : ∀ pattern, ¬ HoldsGroup pattern → motive pattern)
    (group : ∀ head body tail : String, '{' ∉ head.toList → '}' ∉ body.toList →
      (∀ alternative ∈ piecesOf ',' body, motive (head ++ alternative ++ tail)) →
      motive (head ++ braced body ++ tail))
    (pattern : String) : motive pattern := by
  -- The measure is the number of opening braces.
  induction hcount : pattern.toList.count '{' using Nat.strong_induction_on generalizing pattern with
  | _ count ih =>
      subst hcount
      by_cases h : HoldsGroup pattern
      · obtain ⟨head, body, tail, hhead, hbody, rfl⟩ := h.first
        refine group head body tail hhead hbody fun alternative halternative => ih _ ?_ _ rfl
        obtain ⟨part, hpart, rfl⟩ := List.mem_map.1 halternative
        simpa using count_replaced hpart head.toList tail.toList
      · exact plain pattern h

/-! ### The recursion -/

/-- The recursion without a bound: a pattern without a group stands for itself; where there is one, each
alternative takes the place of the first, and what comes of it is listed in the order of the alternatives.
The recursion ends on a pattern if it has a derivation. -/
inductive Expansion : String → List String → Prop where
  | plain {pattern : String} (h : ¬ HoldsGroup pattern) : Expansion pattern [pattern]
  | group {head body tail : String} {texts : String → List String} (hhead : '{' ∉ head.toList)
      (hbody : '}' ∉ body.toList)
      (h : ∀ alternative ∈ piecesOf ',' body,
        Expansion (head ++ alternative ++ tail) (texts alternative)) :
      Expansion (head ++ braced body ++ tail) ((piecesOf ',' body).flatMap texts)

/-- The recursion ends on every pattern, and it gives one list. -/
theorem expansion_iff {pattern : String} {texts : List String} :
    Expansion pattern texts ↔ texts = expandBraces pattern := by
  constructor
  · intro h
    induction h with
    | plain h => exact (expandBraces_of_not_holdsGroup h).symm
    | group hhead hbody _ ih => rw [expandBraces_group hhead hbody, List.flatMap_congr ih]
  · rintro rfl
    induction pattern using induction_groups with
    | plain pattern h =>
        rw [expandBraces_of_not_holdsGroup h]
        exact .plain h
    | group head body tail hhead hbody ih =>
        rw [expandBraces_group hhead hbody]
        exact .group hhead hbody ih

/-- What is returned cannot be opened any more. -/
theorem not_holdsGroup_of_mem {pattern text : String} (h : text ∈ expandBraces pattern) :
    ¬ HoldsGroup text := by
  induction pattern using induction_groups with
  | plain pattern hpattern =>
      rw [expandBraces_of_not_holdsGroup hpattern, List.mem_singleton] at h
      rwa [h]
  | group head body tail hhead hbody ih =>
      rw [expandBraces_group hhead hbody] at h
      obtain ⟨alternative, halternative, htext⟩ := List.mem_flatMap.1 h
      exact ih alternative halternative htext

/-! ### Plain groups -/

/-- A plain group, and the text between it and the next one. -/
structure PlainGroup where
  /-- What the group holds between commas. -/
  alternatives : List String
  /-- What stands behind the group; it may hold closing braces and commas. -/
  literal : String
  /-- There is an alternative, which may be the empty text. -/
  nonempty : alternatives ≠ []
  /-- Alternatives hold no brace and no comma. -/
  plain : ∀ alternative ∈ alternatives,
    '{' ∉ alternative.toList ∧ '}' ∉ alternative.toList ∧ ',' ∉ alternative.toList
  /-- Nothing opens before the next group. -/
  unopened : '{' ∉ literal.toList

/-- A text and the groups behind it, as they are written. -/
def written (first : String) : List PlainGroup → String
  | [] => first
  | g :: groups => first ++ braced (joined "," g.alternatives) ++ written g.literal groups

/-- The choices of one position in each group, the position in the first group changing last. -/
def choices : List PlainGroup → List (List ℕ)
  | [] => [[]]
  | g :: groups =>
    (List.range g.alternatives.length).flatMap fun i => (choices groups).map fun c => i :: c

/-- The text with the alternative at the chosen position in the place of each group. -/
def chosen (first : String) : List PlainGroup → List ℕ → String
  | g :: groups, i :: c => first ++ g.alternatives.getD i "" ++ chosen g.literal groups c
  | _, _ => first

theorem written_append (front first : String) (groups : List PlainGroup) :
    front ++ written first groups = written (front ++ first) groups := by
  cases groups <;> simp [written, String.append_assoc]

theorem chosen_append (front first : String) (groups : List PlainGroup) (c : List ℕ) :
    front ++ chosen first groups c = chosen (front ++ first) groups c := by
  cases groups <;> cases c <;> simp [chosen, String.append_assoc]

/-- A choice has a position for each group, which the group has an alternative for. -/
theorem mem_choices_iff {groups : List PlainGroup} {c : List ℕ} :
    c ∈ choices groups ↔ List.Forall₂ (fun i g => i < g.alternatives.length) c groups := by
  induction groups generalizing c with
  | nil => rw [choices, List.mem_singleton, List.forall₂_nil_right_iff]
  | cons g groups ih =>
      rw [choices, List.mem_flatMap, List.forall₂_cons_right_iff]
      constructor
      · rintro ⟨i, hi, hc⟩
        obtain ⟨rest, hrest, rfl⟩ := List.mem_map.1 hc
        exact ⟨i, rest, List.mem_range.1 hi, ih.1 hrest, rfl⟩
      · rintro ⟨i, c, hi, hc, rfl⟩
        exact ⟨i, List.mem_range.2 hi, List.mem_map.2 ⟨c, ih.2 hc, rfl⟩⟩

/-- The choices are in lexicographic order, and no choice is made twice. -/
theorem pairwise_choices (groups : List PlainGroup) : (choices groups).Pairwise (· < ·) := by
  induction groups with
  | nil => exact List.pairwise_singleton _ _
  | cons g groups ih =>
      rw [choices, List.pairwise_flatMap]
      constructor
      · intro i _
        rw [List.pairwise_map]
        exact ih.imp fun h => List.cons_lt_cons_self.2 h
      · refine List.pairwise_lt_range.imp fun {i j} hij c hc d hd => ?_
        obtain ⟨c, -, rfl⟩ := List.mem_map.1 hc
        obtain ⟨d, -, rfl⟩ := List.mem_map.1 hd
        exact List.Lex.rel hij

/-- The alternatives of a group come back from what is written between its braces. -/
theorem PlainGroup.piecesOf_joined (g : PlainGroup) :
    piecesOf ',' (joined "," g.alternatives) = g.alternatives :=
  DesignRegistry.piecesOf_joined g.nonempty fun alternative h => (g.plain alternative h).2.2

/-- Nothing closes between the braces of a group. -/
theorem PlainGroup.notMem_joined (g : PlainGroup) : '}' ∉ (joined "," g.alternatives).toList := by
  rw [joined, String.toList_ofList]
  intro h
  rcases mem_of_mem_joinChars h with hcomma | ⟨part, hpart, hclose⟩
  · simp at hcomma
  · obtain ⟨alternative, halternative, rfl⟩ := List.mem_map.1 hpart
    exact (g.plain alternative halternative).2.1 hclose

/-- A list is read off its positions. -/
theorem flatMap_range_getD (alternatives : List String) (f : String → List String) :
    alternatives.flatMap f =
      (List.range alternatives.length).flatMap fun i => f (alternatives.getD i "") := by
  have hrange : alternatives = (List.range alternatives.length).map fun i => alternatives.getD i "" := by
    refine List.ext_getElem (by simp) fun i hi _ => ?_
    rw [List.getElem_map, List.getElem_range, List.getD_eq_getElem _ _ hi]
  calc
    alternatives.flatMap f
        = ((List.range alternatives.length).map fun i => alternatives.getD i "").flatMap f := by
          rw [← hrange]
    _ = _ := by rw [List.flatMap_map]

/-- Texts and plain groups in turn: one text for each choice. -/
theorem expandBraces_written {first : String} (hfirst : '{' ∉ first.toList) (groups : List PlainGroup) :
    expandBraces (written first groups) = (choices groups).map (chosen first groups) := by
  induction groups generalizing first with
  | nil =>
      refine expandBraces_of_not_holdsGroup ?_
      rintro ⟨head, body, tail, h⟩
      rw [written] at h
      simp [h] at hfirst
  | cons g groups ih =>
      rw [written, expandBraces_group hfirst g.notMem_joined, g.piecesOf_joined, flatMap_range_getD,
        choices, List.map_flatMap]
      refine List.flatMap_congr fun i hi => ?_
      have hget : g.alternatives.getD i "" ∈ g.alternatives := by
        rw [List.getD_eq_getElem _ _ (List.mem_range.1 hi)]
        exact List.getElem_mem _
      -- What now stands before the next group is a text in which nothing opens.
      have hnext : '{' ∉ (first ++ g.alternatives.getD i "" ++ g.literal).toList := by
        simp only [String.toList_append, List.mem_append, not_or]
        exact ⟨⟨hfirst, (g.plain _ hget).1⟩, g.unopened⟩
      rw [written_append, ih hnext, List.map_map]
      refine List.map_congr_left fun c _ => ?_
      rw [Function.comp_apply, chosen, chosen_append]

/-- **Expansion ends, opens all groups, and lists the product.**  The recursion without a bound ends on
every pattern, since it has a derivation there, and what it gives is the list that is returned.  No text
of the list has an opening brace with a closing brace behind it.  Where texts in which nothing opens and
plain groups alternate, the list has one text for each choice of a position in each group, in the
lexicographic order of the choices. -/
theorem expandBraces_product :
    (∀ pattern texts, Expansion pattern texts ↔ texts = expandBraces pattern)
      ∧ (∀ pattern, ∀ text ∈ expandBraces pattern, ¬ HoldsGroup text)
      ∧ ∀ (first : String) (groups : List PlainGroup), '{' ∉ first.toList →
          (∀ c, c ∈ choices groups ↔ List.Forall₂ (fun i g => i < g.alternatives.length) c groups)
            ∧ (choices groups).Pairwise (· < ·)
            ∧ expandBraces (written first groups) = (choices groups).map (chosen first groups) :=
  ⟨fun _ _ => expansion_iff, fun _ _ => not_holdsGroup_of_mem, fun _ groups hfirst =>
    ⟨fun _ => mem_choices_iff, pairwise_choices groups, expandBraces_written hfirst groups⟩⟩

/-- Repeated alternatives are repeated in the list, and an alternative can be empty. -/
theorem expandBraces_product_repeated :
    '{' ∉ "src/".toList
      ∧ expandBraces "src/{ui,ui}/*.{ts,}" = ["src/ui/*.ts", "src/ui/*.", "src/ui/*.ts", "src/ui/*."]
      ∧ ¬ HoldsGroup "src/ui/*." :=
  have hfirst : '{' ∉ "src/".toList := by decide
  have hwritten : expandBraces "src/{ui,ui}/*.{ts,}" =
      ["src/ui/*.ts", "src/ui/*.", "src/ui/*.ts", "src/ui/*."] :=
    (expandBraces_product.2.2 "src/"
      [⟨["ui", "ui"], "/*.", by decide, by decide, by decide⟩,
        ⟨["ts", ""], "", by decide, by decide, by decide⟩] hfirst).2.2
  have hmem : "src/ui/*." ∈ expandBraces "src/{ui,ui}/*.{ts,}" := by simp [hwritten]
  ⟨hfirst, hwritten, expandBraces_product.2.1 _ _ hmem⟩

end Glob

end DesignRegistry
