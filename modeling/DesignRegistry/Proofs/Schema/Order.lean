/-
**The order of reports.**

Keys, patterns and violations are put in order by insertion.  Nothing is lost by it, and violations come
out ordered by path, keyword and message.

Main definitions:

* `Schema.Violation.key` — what violations are ordered by.

Main results:

* `Schema.mem_ordered`, `Schema.ordered_eq_nil_iff` — what is in a list in order;
* `Schema.inOrder_eq_of_perm` — texts have one order;
* `Schema.pairwise_ordered_key` — **violations in order**.
-/
import DesignRegistry.Schema.Check
import Mathlib.Data.List.Sort
import Mathlib.Data.Prod.Lex
import Mathlib.Data.String.Basic

set_option relaxedAutoImplicit false
set_option autoImplicit false

namespace DesignRegistry

namespace Schema

section Ordered

variable {α : Type} (le : α → α → Bool)

theorem placed_eq_orderedInsert (x : α) (ys : List α) :
    placed le x ys = ys.orderedInsert (fun a b => le a b = true) x := by
  induction ys with
  | nil => rfl
  | cons y ys ih => rw [placed, List.orderedInsert_cons, ih]

theorem ordered_eq_insertionSort (xs : List α) :
    ordered le xs = xs.insertionSort fun a b => le a b = true := by
  induction xs with
  | nil => rfl
  | cons x xs ih =>
      rw [List.insertionSort_cons, ← ih, ← placed_eq_orderedInsert]
      rfl

variable {le}

theorem mem_ordered {x : α} {xs : List α} : x ∈ ordered le xs ↔ x ∈ xs := by
  rw [ordered_eq_insertionSort]
  exact List.mem_insertionSort _

theorem ordered_eq_nil_iff {xs : List α} : ordered le xs = [] ↔ xs = [] := by
  rw [← List.length_eq_zero_iff, ordered_eq_insertionSort, List.length_insertionSort,
    List.length_eq_zero_iff]

end Ordered

theorem mem_inOrder {key : String} {keys : List String} : key ∈ inOrder keys ↔ key ∈ keys :=
  mem_ordered

/-- Texts have one order, in whichever order they come. -/
theorem inOrder_eq_of_perm {keys others : List String} (h : keys.Perm others) :
    inOrder keys = inOrder others := by
  have hsorted : ∀ texts : List String, (inOrder texts).Pairwise (· ≤ ·) := by
    intro texts
    rw [inOrder, ordered_eq_insertionSort]
    simp only [decide_eq_true_eq]
    exact List.pairwise_insertionSort _ texts
  have hperm : ∀ texts : List String, (inOrder texts).Perm texts := by
    intro texts
    rw [inOrder, ordered_eq_insertionSort]
    exact List.perm_insertionSort _ texts
  exact List.Perm.eq_of_pairwise' (hsorted keys) (hsorted others)
    ((hperm keys).trans (h.trans (hperm others).symm))

/-- What violations are ordered by: the path, the keyword and the message. -/
def Violation.key (x : Violation) : Lex (String × Lex (String × String)) :=
  toLex (x.path, toLex (x.keyword, x.message))

theorem Violation.le_iff (x y : Violation) : x.le y = true ↔ x.key ≤ y.key := by
  rw [Violation.le, Violation.key, Violation.key, Prod.Lex.toLex_le_toLex, Prod.Lex.toLex_le_toLex]
  split
  · next hpath => simp [hpath]
  · next hpath =>
      rw [not_not] at hpath
      split
      · next hkeyword => simp [hpath, hkeyword]
      · next hkeyword =>
          rw [not_not] at hkeyword
          simp [hpath, hkeyword]

/-- **Violations in order** follow each other by path, keyword and message. -/
theorem pairwise_ordered_key (found : List Violation) :
    (ordered Violation.le found).Pairwise fun x y => x.key ≤ y.key := by
  rw [ordered_eq_insertionSort]
  simp only [Violation.le_iff]
  have htotal : Std.Total fun x y : Violation => x.key ≤ y.key := ⟨fun x y => le_total x.key y.key⟩
  have htrans : IsTrans Violation fun x y => x.key ≤ y.key := ⟨fun _ _ _ hxy hyz => hxy.trans hyz⟩
  exact List.pairwise_insertionSort _ found

end Schema

end DesignRegistry
