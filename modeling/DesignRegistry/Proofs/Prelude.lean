/-
**Results and lists.**

What the development needs of computations that may fail and of lists, and what no definition of the library
enters into: where a result comes from, what is left of a list, and where it is cut.

Main results:

* `exists_of_bind_eq_ok` — a result of a sequence comes from results of its parts;
* `eraseDups_concat`, `nodup_eraseDups` — a list without its repetitions;
* `exists_cut`, `exists_cut_front` — a list that is cut at two places;
* `filter_notMem_drop` — the front of a list is the list without its back;
* `append_lt_append_iff` — texts with fronts of one length are in order.
-/
import Mathlib.Data.List.Basic
import Mathlib.Data.List.Infix
import Mathlib.Data.List.Nodup

set_option relaxedAutoImplicit false
set_option autoImplicit false

namespace DesignRegistry

/-! ### Computations that may fail -/

section Results

variable {ε α β : Type}

/-- A sequence that gives a result does so from a result of its first part. -/
theorem exists_of_bind_eq_ok {x : Except ε α} {next : α → Except ε β} {b : β}
    (h : (x >>= next) = .ok b) : ∃ a, x = .ok a ∧ next a = .ok b := by
  cases x with
  | error e => exact absurd h (by simp [bind, Except.bind])
  | ok a => exact ⟨a, rfl, h⟩

theorem exists_of_map_eq_ok {x : Except ε α} {f : α → β} {b : β} (h : x.map f = .ok b) :
    ∃ a, x = .ok a ∧ f a = b := by
  cases x with
  | error e => exact absurd h (by simp [Except.map])
  | ok a => exact ⟨a, rfl, Except.ok.inj h⟩

/-- A result is there if there is something to see. -/
theorem exists_ok_of_isSome {r : Except ε α} (h : r.toOption.isSome = true) : ∃ a, r = .ok a := by
  cases r with
  | error e => exact absurd h (by simp [Except.toOption])
  | ok a => exact ⟨a, rfl⟩

/-- A result is known by what is seen of it. -/
theorem exists_ok_of_seen {r : Except ε α} {see : α → β} {b : β}
    (h : r.toOption.map see = some b) : ∃ a, r = .ok a ∧ see a = b := by
  cases r with
  | error e => exact absurd h (by simp [Except.toOption])
  | ok a => exact ⟨a, rfl, Option.some.inj h⟩

end Results

section Lists

variable {α β γ : Type}

/-! ### Items -/

/-- What is found of one of a list's members. -/
theorem exists_mem_filterMap {xs : List α} {f : α → Option β} {P : β → Prop} :
    (∃ y ∈ xs.filterMap f, P y) ↔ ∃ x ∈ xs, ∃ y, f x = some y ∧ P y := by
  simp only [List.mem_filterMap]
  constructor
  · rintro ⟨y, ⟨x, hx, hy⟩, h⟩
    exact ⟨x, hx, y, hy, h⟩
  · rintro ⟨x, hx, y, hy, h⟩
    exact ⟨y, ⟨x, hx, hy⟩, h⟩

theorem exists_mem_flatMap {xs : List α} {f : α → List β} {P : β → Prop} :
    (∃ y ∈ xs.flatMap f, P y) ↔ ∃ x ∈ xs, ∃ y ∈ f x, P y := by
  simp only [List.mem_flatMap]
  constructor
  · rintro ⟨y, ⟨x, hx, hy⟩, h⟩
    exact ⟨x, hx, y, hy, h⟩
  · rintro ⟨x, hx, y, hy, h⟩
    exact ⟨y, ⟨x, hx, hy⟩, h⟩

/-- Items that are all read give what they are read as. -/
theorem mapM_map_eq_some {f : α → β} {g : β → Option γ} {k : α → γ} {xs : List α}
    (h : ∀ x ∈ xs, g (f x) = some (k x)) : (xs.map f).mapM g = some (xs.map k) := by
  induction xs with
  | nil => rfl
  | cons x xs ih =>
      rw [List.forall_mem_cons] at h
      rw [List.map_cons, List.mapM_cons, h.1, ih h.2]
      rfl

/-- What stands under a key that no other has is found. -/
theorem lookup_of_mem [BEq α] [LawfulBEq α] {pairs : List (α × β)}
    (h : (pairs.map Prod.fst).Nodup) {x : α × β} (hx : x ∈ pairs) :
    pairs.lookup x.1 = some x.2 := by
  obtain ⟨before, after, rfl⟩ := List.append_of_mem hx
  refine List.lookup_eq_some_iff.2 ⟨before, after, rfl, fun y hy => ?_⟩
  rw [List.map_append, List.map_cons, List.nodup_append] at h
  exact bne_iff_ne.2 (Ne.symm (h.2.2 _ (List.mem_map_of_mem hy) _ List.mem_cons_self))

/-! ### Repetitions -/

/-- A list without its repetitions has none. -/
theorem nodup_eraseDups [BEq α] [LawfulBEq α] : ∀ xs : List α, xs.eraseDups.Nodup
  | [] => List.nodup_nil
  | x :: xs => by
      rw [List.eraseDups_cons, List.nodup_cons]
      refine ⟨fun hx => ?_, nodup_eraseDups (xs.filter fun y => !y == x)⟩
      simpa using (List.mem_filter.1 (List.mem_eraseDups.1 hx)).2
termination_by xs => xs.length
decreasing_by exact Nat.lt_succ_of_le (List.length_filter_le _ _)

/-- One more item is a repetition, or it comes last. -/
theorem eraseDups_concat [BEq α] [LawfulBEq α] (xs : List α) (x : α) :
    (xs ++ [x]).eraseDups = if xs.contains x then xs.eraseDups else xs.eraseDups ++ [x] := by
  rw [List.eraseDups_append, List.removeAll]
  by_cases hx : x ∈ xs
  · simp [hx]
  · simp [hx, List.eraseDups_cons]

theorem contains_eraseDups [BEq α] [LawfulBEq α] (xs : List α) (x : α) :
    xs.eraseDups.contains x = xs.contains x := by
  rw [Bool.eq_iff_iff, List.contains_iff_mem, List.contains_iff_mem, List.mem_eraseDups]

/-! ### Fronts and backs -/

/-- Where a list is cut at two places, the second cut lies in what the first has in front. -/
theorem exists_cut_front {l l₂ r r₂ : List α} (h : l ++ r = l₂ ++ r₂) (hle : l₂.length ≤ l.length) :
    ∃ t, l = l₂ ++ t ∧ r₂ = t ++ r := by
  obtain ⟨t, rfl⟩ := List.prefix_of_prefix_length_le (h ▸ List.prefix_append l₂ r₂)
    (List.prefix_append l r) hle
  rw [List.append_assoc] at h
  exact ⟨t, rfl, (List.append_cancel_left h).symm⟩

/-- Where a list is cut at an item and again behind it, the second cut lies in what follows the
first. -/
theorem exists_cut {l l₂ r r₂ : List α} {x : α} (h : l ++ x :: r = l₂ ++ r₂)
    (hlt : l.length < l₂.length) : ∃ t, l₂ = l ++ x :: t ∧ r = t ++ r₂ := by
  have hitem : l₂ ++ r₂ = l ++ [x] ++ r := by rw [← h, List.append_assoc, List.singleton_append]
  obtain ⟨t, rfl, rfl⟩ := exists_cut_front hitem (by rwa [List.length_append])
  exact ⟨t, by rw [List.append_assoc, List.singleton_append], rfl⟩

/-- What is not the last of some items has others behind it. -/
theorem exists_of_mem_dropLast {x : α} {xs : List α} (h : x ∈ xs.dropLast) :
    ∃ before after, after ≠ [] ∧ xs = before ++ x :: after := by
  have hne : xs ≠ [] := by
    rintro rfl
    exact List.not_mem_nil h
  obtain ⟨before, after, hsplit⟩ := List.append_of_mem h
  refine ⟨before, after ++ [xs.getLast hne], by simp, ?_⟩
  rw [← List.cons_append, ← List.append_assoc, ← hsplit, List.dropLast_concat_getLast]

theorem insertIdx_front (front : List α) (v : α) (back : List α) :
    (front ++ back).insertIdx front.length v = front ++ v :: back := by
  induction front with
  | nil => exact List.insertIdx_zero
  | cons u front ih =>
      rw [List.cons_append, List.length_cons, List.insertIdx_succ_cons, ih, List.cons_append]

/-- Without what is told like those behind the first ones, the first ones are left. -/
theorem filter_notMem_drop [BEq β] [LawfulBEq β] {f : α → β} {xs : List α}
    (h : (xs.map f).Nodup) (n : ℕ) :
    xs.filter (fun x => !((xs.drop n).map f).contains (f x)) = xs.take n := by
  rw [← List.take_append_drop n xs, List.map_append, List.nodup_append] at h
  obtain ⟨-, -, hapart⟩ := h
  conv_lhs => rw [← List.take_append_drop n xs]
  rw [List.filter_append, List.take_append_drop]
  have hfront : (xs.take n).filter (fun x => !((xs.drop n).map f).contains (f x)) = xs.take n := by
    refine List.filter_eq_self.2 fun x hx => ?_
    rw [Bool.not_eq_true', ← Bool.not_eq_true, List.contains_iff_mem]
    exact fun hmem => hapart _ (List.mem_map_of_mem hx) _ hmem rfl
  have hback : (xs.drop n).filter (fun x => !((xs.drop n).map f).contains (f x)) = [] := by
    refine List.filter_eq_nil_iff.2 fun x hx => ?_
    rw [Bool.not_eq_true', Bool.not_eq_false, List.contains_iff_mem]
    exact List.mem_map_of_mem hx
  rw [hfront, hback, List.append_nil]

/-- Behind the fewer of two counts of items stands what is in front of the one and behind the other, and
what is behind the one. -/
theorem drop_min (j k : ℕ) (xs : List α) :
    xs.drop (min j k) = (xs.take k).drop j ++ xs.drop k := by
  rcases Nat.le_total j k with hjk | hkj
  · have hrest : xs.drop k = (xs.drop j).drop (k - j) := by
      rw [List.drop_drop, Nat.add_sub_cancel' hjk]
    rw [Nat.min_eq_left hjk, List.drop_take, hrest, List.take_append_drop]
  · have hnone : (xs.take k).drop j = [] :=
      List.drop_eq_nil_of_le ((List.length_take_le k xs).trans hkj)
    rw [Nat.min_eq_right hkj, hnone, List.nil_append]

end Lists

/-! ### Texts -/

/-- What is said of all characters of a text is decided on the text, not on all characters there are. -/
instance (priority := high) decidableForallMem {p : Char → Prop} [DecidablePred p] (s : List Char) :
    Decidable (∀ c ∈ s, p c) :=
  List.decidableBAll p s

/-- What is behind texts of one length decides only if they are the same. -/
theorem append_lt_append_iff {a b : List Char} (hlength : a.length = b.length) (x y : List Char) :
    a ++ x < b ++ y ↔ a < b ∨ a = b ∧ x < y := by
  induction a generalizing b with
  | nil =>
      obtain rfl := List.eq_nil_of_length_eq_zero hlength.symm
      simp
  | cons c a ih =>
      cases b with
      | nil => exact absurd hlength (by simp)
      | cons d b =>
          rw [List.cons_append, List.cons_append, List.cons_lt_cons_iff, List.cons_lt_cons_iff,
            ih (Nat.succ.inj hlength), List.cons.injEq, and_or_left, or_assoc, and_assoc]

end DesignRegistry
