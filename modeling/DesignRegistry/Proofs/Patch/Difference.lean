/-
**The plain difference is correct.**

The edits that `edits` lists turn the first document into the second.  The proof follows the
recursion: the keys of an object are changed one after the other, the items of an array pairwise from
the front, and what one array has more of is taken out, or put in, in front of the tail that both
share.

The second result is about where the edits are made.  A place is a source, where only the first
document has a value, a target, where only the second has one, or a leaf, where both have one and at
most one of them holds others.  On the way to any of them both documents have containers of one
kind, which is what keeps sources and targets from ever standing in one array.

Main definitions:

* `Edit.Turns`, `Steps` — what an edit, and a list of them, does to what documents hold;
* `Role`, `Slot` — the places at which two documents differ;
* `Edit.Fits` — an edit that is made at places of the right roles.

Main results:

* `steps_edits` — **the plain difference turns the first document into the second**;
* `fits_edits` — its edits are made where the documents differ;
* `edits_eq_nil` — documents that hold the same differ by nothing.
-/
import DesignRegistry.Proofs.Patch.Change

set_option relaxedAutoImplicit false
set_option autoImplicit false

namespace DesignRegistry

open Json (PathStep)

/-! ### What edits do -/

/-- The first of two documents becomes the second by an edit. -/
def Edit.Turns : Edit → Option Content → Option Content → Prop
  | .add p v => Inside (Enters v.content) p
  | .remove p v => Inside (Leaves v.content) p
  | .replace p v => Inside (Becomes v.content) p
  | .move s t => fun a b => ∃ v m, Inside (Leaves v) s a m ∧ Inside (Enters v) t m b

/-- The first of two documents becomes the second by edits one after the other. -/
def Steps : List Edit → Option Content → Option Content → Prop
  | [], a, b => a = b
  | e :: es, a, b => ∃ m, e.Turns a m ∧ Steps es m b

theorem steps_append {es fs : List Edit} {a b : Option Content} :
    Steps (es ++ fs) a b ↔ ∃ m, Steps es a m ∧ Steps fs m b := by
  induction es generalizing a with
  | nil => simp [Steps]
  | cons e es ih =>
      simp only [List.cons_append, Steps, ih]
      constructor
      · rintro ⟨m, he, n, hes, hfs⟩
        exact ⟨n, ⟨m, he, hes⟩, hfs⟩
      · rintro ⟨n, ⟨m, he, hes⟩, hfs⟩
        exact ⟨m, he, n, hes, hfs⟩

theorem steps_singleton {e : Edit} {a b : Option Content} : Steps [e] a b ↔ e.Turns a b := by
  simp [Steps]

/-- A change that changes nothing at a place changes nothing around it. -/
theorem Inside.eq {R : Change} (hR : ∀ o o', R o o' → o = o') {p : Place} {a b : Option Content}
    (h : Inside R p a b) : a = b := by
  induction p generalizing a b with
  | nil => exact hR a b h
  | cons s p ih =>
      cases s with
      | key k =>
          obtain ⟨f, g, rfl, rfl, hin, hrest⟩ := h
          have hfg : f = g := by
            funext l
            by_cases hl : l = k
            · rw [hl]
              exact ih hin
            · exact (hrest l hl).symm
          rw [hfg]
      | index i =>
          obtain ⟨l, m, m', r, rfl, rfl, -, hin⟩ := h
          rw [ih hin]

theorem Inside.split_swaps {u w : Content} (v : Content) {p : Place} {a b : Option Content}
    (h : Inside (Swaps u w) p a b) :
    ∃ m, Inside (Swaps u v) p a m ∧ Inside (Swaps v w) p m b :=
  h.split fun _ _ hswap => ⟨some v, ⟨hswap.1, rfl⟩, rfl, hswap.2⟩

/-- A change of one key of an object. -/
theorem Inside.at_key {R : Change} {f g : String → Option Content} {k : String}
    (hR : R (f k) (g k)) (hrest : ∀ l, l ≠ k → g l = f l) {p : Place} {a b : Option Content}
    (h : Inside (Swaps (.obj f) (.obj g)) p a b) : Inside R (p ++ [PathStep.key k]) a b :=
  inside_append.2 <| h.mono fun _ _ hswap => ⟨f, g, hswap.1, hswap.2, hR, hrest⟩

/-- A change of one item of an array. -/
theorem Inside.at_index {R : Change} {l r : List Content} {m n : Option Content} (hR : R m n)
    {p : Place} {a b : Option Content}
    (h : Inside (Swaps (.arr (l ++ m.toList ++ r)) (.arr (l ++ n.toList ++ r))) p a b) :
    Inside R (p ++ [PathStep.index l.length]) a b :=
  inside_append.2 <| h.mono fun _ _ hswap => ⟨l, m, n, r, hswap.1, hswap.2, rfl, hR⟩

/-! ### Following the difference -/

/-- Induction along the plain difference: objects by their members, arrays by the items that are
compared pairwise. -/
theorem edits_induction {motive : Place → Json → Json → Prop}
    (obj : ∀ place xs ys, (∀ m ∈ xs, ∀ y, motive (place ++ [PathStep.key m.1]) m.2 y) →
      motive place (.obj xs) (.obj ys))
    (arr : ∀ place xs ys, (∀ i x y, i < pairedCount xs ys → xs[i]? = some x → ys[i]? = some y →
      motive (place ++ [PathStep.index i]) x y) → motive place (.arr xs) (.arr ys))
    (leaf : ∀ place x y, (∀ xs ys, x = .obj xs → y = .obj ys → False) →
      (∀ xs ys, x = .arr xs → y = .arr ys → False) → motive place x y)
    (place : Place) (x y : Json) : motive place x y := by
  refine edits.induct motive
    (fun place i paired xs ys => ∀ j x y, j < paired → xs[j]? = some x → ys[j]? = some y →
      motive (place ++ [PathStep.index (i + j)]) x y)
    (fun place xs _ => ∀ m ∈ xs, ∀ y, motive (place ++ [PathStep.key m.1]) m.2 y)
    obj ?_ ?_ ?_ ?_ ?_ ?_ ?_ ?_ place x y
  case refine_1 =>
    intro place xs ys ih
    exact arr place xs ys fun i x y hi hx hy => by simpa using ih i x y hi hx hy
  case refine_2 => exact fun place x y hobj harr _ => leaf place x y hobj harr
  case refine_3 => exact fun place x y hobj harr _ => leaf place x y hobj harr
  case refine_4 => exact fun place i x xs y ys j x y hj => absurd hj (Nat.not_lt_zero j)
  case refine_5 =>
    intro place i paired x xs y ys _ ihx ihxs j x' y' hj hx' hy'
    cases j with
    | zero =>
        obtain rfl := Option.some.inj hx'
        obtain rfl := Option.some.inj hy'
        exact ihx
    | succ j =>
        have hplace : i + (j + 1) = i + 1 + j := by omega
        rw [hplace]
        exact ihxs j x' y' (by omega) (by simpa using hx') (by simpa using hy')
  case refine_6 =>
    intro xs place i paired ys hnil j x y _ hx hy
    cases xs with
    | nil => simp at hx
    | cons x' xs =>
        cases ys with
        | nil => simp at hy
        | cons y' ys => exact (hnil _ _ _ _ rfl rfl).elim
  case refine_7 => exact fun place ys m hm => absurd hm List.not_mem_nil
  case refine_8 =>
    intro place k x rest ys ihx ihrest m hm y
    rcases List.mem_cons.1 hm with rfl | hm
    · exact ihx y
    · exact ihrest m hm y

theorem edits_leaf {place : Place} {x y : Json}
    (hobj : ∀ xs ys, x = .obj xs → y = .obj ys → False)
    (harr : ∀ xs ys, x = .arr xs → y = .arr ys → False) :
    edits place x y = if x.same y then [] else [.replace place y] :=
  edits.eq_3 place x y hobj harr

theorem memberEdits_eq (place : Place) (xs ys : Json.Members) :
    memberEdits place xs ys = xs.flatMap fun m =>
      match Json.Members.get? m.1 ys with
      | some y => edits (place ++ [PathStep.key m.1]) m.2 y
      | none => [] := by
  induction xs with
  | nil => rfl
  | cons m xs ih =>
      obtain ⟨k, x⟩ := m
      exact congrArg (_ ++ ·) ih

/-! ### Common tails -/

/-- Lists share their leading items, as many as are counted. -/
theorem take_commonFront (xs ys : List Json) {n : ℕ} (h : n ≤ commonFront xs ys) :
    xs.take n = ys.take n := by
  induction n generalizing xs ys with
  | zero => rfl
  | succ n ih =>
      match xs, ys, h with
      | x :: xs, y :: ys, h =>
          rw [commonFront] at h
          split at h
          · next hsame =>
              rw [(Json.same_iff x y).1 hsame, List.take_succ_cons, List.take_succ_cons,
                ih xs ys (by omega)]
          · omega
      | [], _, h => simp [commonFront] at h
      | _ :: _, [], h => simp [commonFront] at h

/-- Behind the items that are compared pairwise stands, in the shorter list, the tail that both
share. -/
theorem drop_pairedCount (xs ys : List Json) :
    xs.drop (pairedCount xs ys + (xs.length - ys.length)) =
      ys.drop (pairedCount xs ys + (ys.length - xs.length)) := by
  obtain ⟨n, hn, hx, hy⟩ : ∃ n, n ≤ commonFront xs.reverse ys.reverse ∧
      pairedCount xs ys + (xs.length - ys.length) = xs.length - n ∧
      pairedCount xs ys + (ys.length - xs.length) = ys.length - n := by
    simp only [pairedCount]
    refine ⟨min (commonFront xs.reverse ys.reverse)
      (min xs.length ys.length - commonFront xs ys), ?_, ?_, ?_⟩ <;> omega
  have htake := take_commonFront _ _ hn
  rw [List.take_reverse, List.take_reverse, List.reverse_inj] at htake
  rw [hx, hy, htake]

theorem pairedCount_le (xs ys : List Json) :
    pairedCount xs ys ≤ xs.length ∧ pairedCount xs ys ≤ ys.length := by
  simp only [pairedCount]
  omega

/-! ### The difference of objects -/

/-- The keys of an object are changed one after the other: each part of a list of edits changes one
key, and no key is changed twice. -/
theorem steps_members {α : Type} (key : α → String) (part : α → List Edit) {place : Place}
    (ms : List α) {f g : String → Option Content} (hnodup : (ms.map key).Nodup)
    (hrest : ∀ k, k ∉ ms.map key → g k = f k)
    (hpart : ∀ m ∈ ms, ∀ a b,
      Inside (fun o o' => o = f (key m) ∧ o' = g (key m)) (place ++ [PathStep.key (key m)]) a b →
        Steps (part m) a b)
    {a b : Option Content} (h : Inside (Swaps (.obj f) (.obj g)) place a b) :
    Steps (ms.flatMap part) a b := by
  -- the object that the first part leads to differs from the first object at one key only
  induction ms generalizing f a with
  | nil =>
      obtain rfl : g = f := funext fun k => hrest k List.not_mem_nil
      exact h.eq fun _ _ hswap => hswap.1.trans hswap.2.symm
  | cons m ms ih =>
      rw [List.map_cons, List.nodup_cons] at hnodup
      obtain ⟨c, hac, hcb⟩ := h.split_swaps (.obj (Function.update f (key m) (g (key m))))
      rw [List.flatMap_cons, steps_append]
      refine ⟨c, hpart m List.mem_cons_self a c ?_, ih hnodup.2 ?_ ?_ hcb⟩
      · exact hac.at_key ⟨rfl, Function.update_self ..⟩ fun l hl => Function.update_of_ne hl _ _
      · intro k hk
        by_cases hkm : k = key m
        · rw [hkm, Function.update_self]
        · rw [Function.update_of_ne hkm]
          exact hrest k (by simp [hkm, hk])
      · intro m' hm' a b h'
        have hne : key m' ≠ key m := fun heq => hnodup.1 (heq ▸ List.mem_map_of_mem hm')
        rw [Function.update_of_ne hne] at h'
        exact hpart m' (List.mem_cons_of_mem _ hm') a b h'

theorem removals_eq (place : Place) (xs ys : Json.Members) :
    removals place xs ys = (xs.filter fun m => !Json.Members.has m.1 ys).flatMap fun m =>
      [.remove (place ++ [PathStep.key m.1]) m.2] :=
  List.map_eq_flatMap

theorem additions_eq (place : Place) (xs ys : Json.Members) :
    additions place xs ys = (ys.filter fun m => !Json.Members.has m.1 xs).flatMap fun m =>
      [.add (place ++ [PathStep.key m.1]) m.2] :=
  List.map_eq_flatMap

/-- The keys of the members that another object lacks. -/
theorem mem_keys_filter {xs ys : Json.Members} {k : String} :
    k ∈ (xs.filter fun m => !Json.Members.has m.1 ys).map Prod.fst ↔
      k ∈ Json.Members.keys xs ∧ k ∉ Json.Members.keys ys := by
  simp only [Json.Members.keys, List.mem_map, List.mem_filter, Bool.not_eq_true']
  constructor
  · rintro ⟨m, ⟨hm, hhas⟩, rfl⟩
    refine ⟨⟨m, hm, rfl⟩, fun hk => ?_⟩
    rw [Json.Members.has_iff.2 (List.mem_map.2 hk)] at hhas
    exact absurd hhas (by simp)
  · rintro ⟨⟨m, hm, rfl⟩, hk⟩
    refine ⟨m, ⟨hm, ?_⟩, rfl⟩
    rw [← Bool.not_eq_true, Json.Members.has_iff]
    exact fun hin => hk (List.mem_map.1 hin)

theorem nodup_keys_filter {xs : Json.Members} (hx : (Json.Members.keys xs).Nodup)
    (pick : String × Json → Bool) : ((xs.filter pick).map Prod.fst).Nodup :=
  (List.filter_sublist.map Prod.fst).nodup hx

/-- The difference of two objects, given that of the members both have. -/
theorem steps_obj {place : Place} {xs ys : Json.Members} (hx : (Json.Members.keys xs).Nodup)
    (hy : (Json.Members.keys ys).Nodup)
    (hmem : ∀ m ∈ xs, ∀ y, Json.Members.get? m.1 ys = some y → ∀ a b,
      Inside (Swaps m.2.content y.content) (place ++ [PathStep.key m.1]) a b →
        Steps (edits (place ++ [PathStep.key m.1]) m.2 y) a b)
    {a b : Option Content}
    (h : Inside (Swaps (Json.obj xs).content (Json.obj ys).content) place a b) :
    Steps (edits place (.obj xs) (.obj ys)) a b := by
  classical
  rw [Json.content_obj, Json.content_obj] at h
  -- first the keys that only the one has go, then those come that only the other has
  let f₁ : String → Option Content := fun k =>
    if k ∈ Json.Members.keys ys then (Json.Members.get? k xs).map Json.content else none
  let f₂ : String → Option Content := fun k =>
    if k ∈ Json.Members.keys xs then f₁ k else (Json.Members.get? k ys).map Json.content
  obtain ⟨d, had, hdb⟩ := h.split_swaps (.obj f₂)
  obtain ⟨c, hac, hcd⟩ := had.split_swaps (.obj f₁)
  rw [edits, steps_append]
  refine ⟨d, steps_append.2 ⟨c, ?_, ?_⟩, ?_⟩
  · rw [removals_eq]
    refine steps_members Prod.fst _ _ (nodup_keys_filter hx _) ?_ ?_ hac
    · intro k hk
      rw [mem_keys_filter, not_and, not_not] at hk
      by_cases hky : k ∈ Json.Members.keys ys
      · exact if_pos hky
      · rw [Json.Members.get?_eq_none_iff.2 fun hkx => hky (hk hkx)]
        exact if_neg hky
    · intro m hm a b hin
      have hkeys := mem_keys_filter.1 (List.mem_map_of_mem hm)
      rw [steps_singleton]
      refine hin.mono ?_
      rintro o o' ⟨rfl, rfl⟩
      refine ⟨?_, if_neg hkeys.2⟩
      rw [Json.Members.get?_of_mem hx (List.mem_of_mem_filter hm), Option.map_some]
  · rw [additions_eq]
    refine steps_members Prod.fst _ _ (nodup_keys_filter hy _) ?_ ?_ hcd
    · intro k hk
      rw [mem_keys_filter, not_and, not_not] at hk
      by_cases hkx : k ∈ Json.Members.keys xs
      · exact if_pos hkx
      · have hky : k ∉ Json.Members.keys ys := fun hky => hkx (hk hky)
        rw [show f₂ k = _ from if_neg hkx, Json.Members.get?_eq_none_iff.2 hky]
        exact (if_neg hky).symm
    · intro m hm a b hin
      have hkeys := mem_keys_filter.1 (List.mem_map_of_mem hm)
      rw [steps_singleton]
      refine hin.mono ?_
      rintro o o' ⟨rfl, rfl⟩
      constructor
      · rw [show f₁ m.1 = _ from if_pos hkeys.1, Json.Members.get?_eq_none_iff.2 hkeys.2]
        rfl
      · rw [show f₂ m.1 = _ from if_neg hkeys.2,
          Json.Members.get?_of_mem hy (List.mem_of_mem_filter hm), Option.map_some]
  · rw [memberEdits_eq]
    refine steps_members Prod.fst _ _ hx ?_ ?_ hdb
    · intro k hk
      exact (if_neg hk).symm
    · intro m hm a b hin
      have hkx : m.1 ∈ Json.Members.keys xs := List.mem_map_of_mem hm
      have hget := Json.Members.get?_of_mem hx hm
      have hf₂ : f₂ m.1 = f₁ m.1 := if_pos hkx
      cases hgy : Json.Members.get? m.1 ys with
      | none =>
          rw [hf₂, show f₁ m.1 = _ from if_neg (Json.Members.get?_eq_none_iff.1 hgy), hgy] at hin
          exact hin.eq fun o o' ho => ho.1.trans ho.2.symm
      | some y =>
          have hky : m.1 ∈ Json.Members.keys ys := by rw [Json.Members.mem_keys_iff, hgy]; rfl
          rw [hf₂, show f₁ m.1 = _ from if_pos hky, hgy, hget] at hin
          exact hmem m hm y hgy a b hin

/-! ### The difference of arrays -/

theorem steps_itemRemovals {place : Place} (front back : List Content) (vs : List Json)
    {a b : Option Content}
    (h : Inside (Swaps (.arr (front ++ vs.map Json.content ++ back)) (.arr (front ++ back)))
      place a b) :
    Steps (itemRemovals place front.length vs) a b := by
  induction vs generalizing a with
  | nil =>
      refine h.eq fun _ _ hswap => ?_
      rw [hswap.1, hswap.2, List.map_nil, List.append_nil]
  | cons v vs ih =>
      obtain ⟨c, hac, hcb⟩ := h.split_swaps (.arr (front ++ vs.map Json.content ++ back))
      refine ⟨c, ?_, ih hcb⟩
      refine Inside.at_index (l := front) (r := vs.map Json.content ++ back)
        (m := some v.content) (n := none) ⟨rfl, rfl⟩ ?_
      simpa using hac

theorem steps_itemAdditions {place : Place} (front back : List Content) (vs : List Json)
    {a b : Option Content}
    (h : Inside (Swaps (.arr (front ++ back)) (.arr (front ++ vs.map Json.content ++ back)))
      place a b) :
    Steps (itemAdditions place front.length vs) a b := by
  induction vs generalizing a front with
  | nil =>
      refine h.eq fun _ _ hswap => ?_
      rw [hswap.1, hswap.2, List.map_nil, List.append_nil]
  | cons v vs ih =>
      obtain ⟨c, hac, hcb⟩ := h.split_swaps (.arr (front ++ [v.content] ++ back))
      refine ⟨c, ?_, ?_⟩
      · refine Inside.at_index (l := front) (r := back) (m := none) (n := some v.content)
          ⟨rfl, rfl⟩ ?_
        simpa using hac
      · have hlen : front.length + 1 = (front ++ [v.content]).length := by simp
        rw [hlen]
        refine ih (front ++ [v.content]) ?_
        simpa using hcb

/-- Items are compared pairwise, what stands around them stays. -/
theorem steps_itemEdits {place : Place} (paired : ℕ) (front back : List Content)
    (xs ys : List Json) (hx : paired ≤ xs.length) (hy : paired ≤ ys.length)
    (hitem : ∀ j x y, j < paired → xs[j]? = some x → ys[j]? = some y → ∀ a b,
      Inside (Swaps x.content y.content) (place ++ [PathStep.index (front.length + j)]) a b →
        Steps (edits (place ++ [PathStep.index (front.length + j)]) x y) a b)
    {a b : Option Content}
    (h : Inside (Swaps (.arr (front ++ (xs.take paired).map Json.content ++ back))
      (.arr (front ++ (ys.take paired).map Json.content ++ back))) place a b) :
    Steps (itemEdits place front.length paired xs ys) a b := by
  -- an item that is done goes to the front, so that positions are counted on
  induction paired generalizing front xs ys a with
  | zero =>
      have hnil : itemEdits place front.length 0 xs ys = [] := by
        cases xs <;> cases ys <;> simp [itemEdits]
      rw [hnil]
      refine h.eq fun _ _ hswap => ?_
      rw [hswap.1, hswap.2, List.take_zero, List.take_zero]
  | succ paired ih =>
      match xs, ys, hx, hy with
      | x :: xs, y :: ys, hx, hy =>
          rw [itemEdits, if_neg (Nat.succ_ne_zero paired), steps_append]
          obtain ⟨c, hac, hcb⟩ := h.split_swaps
            (.arr (front ++ [y.content] ++ (xs.take paired).map Json.content ++ back))
          refine ⟨c, ?_, ?_⟩
          · refine hitem 0 x y (Nat.succ_pos paired) rfl rfl a c ?_
            refine Inside.at_index (l := front) (r := (xs.take paired).map Json.content ++ back)
              (m := some x.content) (n := some y.content) ⟨rfl, rfl⟩ ?_
            simpa using hac
          · have hlen : front.length + 1 = (front ++ [y.content]).length := by simp
            rw [hlen, Nat.add_sub_cancel]
            refine ih (front ++ [y.content]) xs ys (by simpa using hx) (by simpa using hy) ?_ ?_
            · intro j x' y' hj hx' hy' a b hin
              have hplace : (front ++ [y.content]).length + j = front.length + (j + 1) := by
                rw [← hlen]; omega
              rw [hplace] at hin ⊢
              exact hitem (j + 1) x' y' (by omega) (by simpa using hx') (by simpa using hy') a b hin
            · simpa using hcb

/-- The difference of two arrays, given that of the items that are compared pairwise. -/
theorem steps_arr {place : Place} {xs ys : List Json}
    (hitem : ∀ i x y, i < pairedCount xs ys → xs[i]? = some x → ys[i]? = some y → ∀ a b,
      Inside (Swaps x.content y.content) (place ++ [PathStep.index i]) a b →
        Steps (edits (place ++ [PathStep.index i]) x y) a b)
    {a b : Option Content}
    (h : Inside (Swaps (Json.arr xs).content (Json.arr ys).content) place a b) :
    Steps (edits place (.arr xs) (.arr ys)) a b := by
  obtain ⟨hx, hy⟩ := pairedCount_le xs ys
  have htail := drop_pairedCount xs ys
  rw [Json.content_arr, Json.content_arr] at h
  -- in between stands the second array's paired items with the rest of the first
  obtain ⟨c, hac, hcb⟩ := h.split_swaps (.arr
    ((ys.take (pairedCount xs ys)).map Json.content ++
      (xs.drop (pairedCount xs ys)).map Json.content))
  rw [edits, steps_append]
  refine ⟨c, ?_, ?_⟩
  · refine steps_itemEdits (pairedCount xs ys) [] ((xs.drop (pairedCount xs ys)).map Json.content)
      xs ys hx hy ?_ ?_
    · simpa using hitem
    · simpa [← List.map_append] using hac
  · have hlen : ((ys.take (pairedCount xs ys)).map Json.content).length = pairedCount xs ys := by
      rw [List.length_map, List.length_take, Nat.min_eq_left hy]
    have hys : ys.map Json.content = (ys.take (pairedCount xs ys)).map Json.content ++
        (ys.drop (pairedCount xs ys)).map Json.content := by
      rw [← List.map_append, List.take_append_drop]
    rw [hys] at hcb
    rw [surplus]
    split
    · next hle =>
        rw [Nat.sub_eq_zero_of_le hle, Nat.add_zero, ← List.drop_drop] at htail
        have hsplit := List.take_append_drop (xs.length - ys.length) (xs.drop (pairedCount xs ys))
        rw [htail] at hsplit
        rw [← hsplit, List.map_append, ← List.append_assoc] at hcb
        have hsteps := steps_itemRemovals _ _ _ hcb
        rwa [hlen] at hsteps
    · next hlt =>
        rw [Nat.sub_eq_zero_of_le (Nat.le_of_not_le hlt), Nat.add_zero, ← List.drop_drop] at htail
        have hsplit := List.take_append_drop (ys.length - xs.length) (ys.drop (pairedCount xs ys))
        rw [← htail] at hsplit
        rw [← hsplit, List.map_append, ← List.append_assoc] at hcb
        have hsteps := steps_itemAdditions _ _ _ hcb
        rwa [hlen] at hsteps

/-! ### The plain difference -/

/-- **The plain difference turns the first document into the second**, wherever they stand. -/
theorem steps_edits (place : Place) (x y : Json) (hx : x.UniqueKeys) (hy : y.UniqueKeys)
    {a b : Option Content} (h : Inside (Swaps x.content y.content) place a b) :
    Steps (edits place x y) a b := by
  revert a b
  refine edits_induction (motive := fun place x y => x.UniqueKeys → y.UniqueKeys →
    ∀ {a b : Option Content}, Inside (Swaps x.content y.content) place a b →
      Steps (edits place x y) a b) ?_ ?_ ?_ place x y hx hy
  · intro place xs ys ih hx hy a b h
    refine steps_obj (Json.uniqueKeys_obj.1 hx).1 (Json.uniqueKeys_obj.1 hy).1 ?_ h
    intro m hm y hget a b hin
    exact ih m hm y ((Json.uniqueKeys_obj.1 hx).2 m hm) (hy.get? hget) hin
  · intro place xs ys ih hx hy a b h
    refine steps_arr ?_ h
    intro i x y hi hgx hgy a b hin
    exact ih i x y hi hgx hgy (hx.getElem? hgx) (hy.getElem? hgy) hin
  · intro place x y hobj harr _ _ a b h
    rw [edits_leaf hobj harr]
    split
    · next hsame =>
        obtain rfl := (Json.same_iff x y).1 hsame
        exact h.eq fun _ _ hswap => hswap.1.trans hswap.2.symm
    · exact steps_singleton.2 (h.mono fun o o' hswap => ⟨by rw [hswap.1]; rfl, hswap.2⟩)

theorem itemEdits_eq_nil (place : Place) (paired : ℕ) (xs ys : List Json) (i : ℕ)
    (h : ∀ j x y, j < paired → xs[j]? = some x → ys[j]? = some y →
      edits (place ++ [PathStep.index (i + j)]) x y = []) : itemEdits place i paired xs ys = [] := by
  induction xs generalizing i paired ys with
  | nil => rfl
  | cons x xs ih =>
      cases ys with
      | nil => rfl
      | cons y ys =>
          rw [itemEdits]
          split
          · rfl
          · next hpos =>
              have hfirst : edits (place ++ [PathStep.index i]) x y = [] := h 0 x y (by omega) rfl rfl
              rw [hfirst, List.nil_append]
              refine ih (paired - 1) ys (i + 1) fun j x' y' hj hx' hy' => ?_
              have hplace : i + 1 + j = i + (j + 1) := by omega
              rw [hplace]
              exact h (j + 1) x' y' (by omega) (by simpa using hx') (by simpa using hy')

/-- Documents that hold the same differ by nothing. -/
theorem edits_eq_nil (place : Place) (x y : Json) (hx : x.UniqueKeys) (hy : y.UniqueKeys)
    (h : x.content = y.content) : edits place x y = [] := by
  refine edits_induction (motive := fun place x y => x.UniqueKeys → y.UniqueKeys →
    x.content = y.content → edits place x y = []) ?_ ?_ ?_ place x y hx hy h
  · intro place xs ys ih hx hy h
    rw [Json.content_obj, Json.content_obj, Content.obj.injEq, funext_iff] at h
    -- objects with the same content have the same keys, so no member is removed or added
    have hkeys : ∀ k, k ∈ Json.Members.keys xs ↔ k ∈ Json.Members.keys ys := by
      intro k
      rw [Json.Members.mem_keys_iff, Json.Members.mem_keys_iff,
        ← Option.isSome_map (f := Json.content), h k, Option.isSome_map]
    have hremovals : removals place xs ys = [] := by
      refine List.map_eq_nil_iff.2 (List.filter_eq_nil_iff.2 fun m hm => ?_)
      simp [Json.Members.has_iff.2 ((hkeys m.1).1 (List.mem_map_of_mem hm))]
    have hadditions : additions place xs ys = [] := by
      refine List.map_eq_nil_iff.2 (List.filter_eq_nil_iff.2 fun m hm => ?_)
      simp [Json.Members.has_iff.2 ((hkeys m.1).2 (List.mem_map_of_mem hm))]
    rw [edits, hremovals, hadditions, memberEdits_eq, List.nil_append, List.nil_append,
      List.flatMap_eq_nil_iff]
    intro m hm
    have hcontent := h m.1
    rw [Json.Members.get?_of_mem (Json.uniqueKeys_obj.1 hx).1 hm] at hcontent
    cases hgy : Json.Members.get? m.1 ys with
    | none => rfl
    | some y =>
        rw [hgy] at hcontent
        exact ih m hm y ((Json.uniqueKeys_obj.1 hx).2 m hm) (hy.get? hgy)
          (Option.some.inj hcontent)
  · intro place xs ys ih hx hy h
    rw [Json.content_arr, Json.content_arr, Content.arr.injEq] at h
    have hlen : xs.length = ys.length := by simpa using congrArg List.length h
    have hsurplus : surplus place (pairedCount xs ys) xs ys = [] := by
      rw [surplus, if_pos (Nat.le_of_eq hlen.symm), hlen, Nat.sub_self]
      rfl
    rw [edits, hsurplus, List.append_nil]
    refine itemEdits_eq_nil place _ xs ys 0 fun j x y hj hgx hgy => ?_
    rw [Nat.zero_add]
    refine ih j x y hj hgx hgy (hx.getElem? hgx) (hy.getElem? hgy) ?_
    have hget := congrArg (·[j]?) h
    simpa [hgx, hgy] using hget
  · intro place x y hobj harr _ _ h
    obtain rfl := Json.eq_of_content_eq h hobj harr
    rw [edits_leaf hobj harr, Json.same_self, if_pos rfl]

/-! ### Where documents differ -/

/-- What is to be done at a place at which two documents differ. -/
inductive Role where
  /-- Only the first document has a value there. -/
  | source
  /-- Only the second document has a value there. -/
  | target
  /-- Both have values there, at most one of which holds others. -/
  | leaf

/-- The places at which two documents differ, by what is to be done there.  All steps on the way
lead into values of which both are objects or both arrays. -/
inductive Slot : Json → Json → Role → Place → Prop
  | gone {xs ys : Json.Members} {k : String} : k ∈ Json.Members.keys xs →
      k ∉ Json.Members.keys ys → Slot (.obj xs) (.obj ys) .source [.key k]
  | fresh {xs ys : Json.Members} {k : String} : k ∉ Json.Members.keys xs →
      k ∈ Json.Members.keys ys → Slot (.obj xs) (.obj ys) .target [.key k]
  | surplus {xs ys : List Json} {i : ℕ} : ys.length ≤ xs.length → pairedCount xs ys ≤ i →
      Slot (.arr xs) (.arr ys) .source [.index i]
  | shortage {xs ys : List Json} {i : ℕ} : xs.length < ys.length → pairedCount xs ys ≤ i →
      Slot (.arr xs) (.arr ys) .target [.index i]
  | leaf {x y : Json} : (∀ xs ys, x = .obj xs → y = .obj ys → False) →
      (∀ xs ys, x = .arr xs → y = .arr ys → False) → Slot x y .leaf []
  | member {xs ys : Json.Members} {k : String} {x y : Json} {r : Role} {p : Place} :
      Json.Members.get? k xs = some x → Json.Members.get? k ys = some y → Slot x y r p →
        Slot (.obj xs) (.obj ys) r (.key k :: p)
  | item {xs ys : List Json} {i : ℕ} {x y : Json} {r : Role} {p : Place} :
      i < pairedCount xs ys → xs[i]? = some x → ys[i]? = some y → Slot x y r p →
        Slot (.arr xs) (.arr ys) r (.index i :: p)

/-- An edit that is made at places of the right roles, with values that have no key twice. -/
def Edit.Fits (slot : Role → Place → Prop) : Edit → Prop
  | .add p v => slot .target p ∧ v.UniqueKeys
  | .remove p _ => slot .source p
  | .replace p v => slot .leaf p ∧ v.UniqueKeys
  | .move s t => slot .source s ∧ slot .target t

theorem Edit.Fits.mono {slot slot' : Role → Place → Prop} (h : ∀ r p, slot r p → slot' r p)
    {e : Edit} (he : e.Fits slot) : e.Fits slot' := by
  cases e with
  | add p v => exact ⟨h _ _ he.1, he.2⟩
  | remove p v => exact h _ _ he
  | replace p v => exact ⟨h _ _ he.1, he.2⟩
  | move s t => exact ⟨h _ _ he.1, h _ _ he.2⟩

/-- The slots of two documents that stand at a place. -/
def SlotBelow (place : Place) (x y : Json) (r : Role) (p : Place) : Prop :=
  ∃ q, p = place ++ q ∧ Slot x y r q

theorem mem_itemRemovals {place : Place} {i : ℕ} {vs : List Json} {e : Edit}
    (h : e ∈ itemRemovals place i vs) : ∃ v, e = .remove (place ++ [PathStep.index i]) v := by
  obtain ⟨v, -, rfl⟩ := List.mem_map.1 h
  exact ⟨v, rfl⟩

theorem mem_itemAdditions {place : Place} {i : ℕ} {vs : List Json} {e : Edit}
    (h : e ∈ itemAdditions place i vs) :
    ∃ j v, i ≤ j ∧ v ∈ vs ∧ e = .add (place ++ [PathStep.index j]) v := by
  induction vs generalizing i with
  | nil => exact absurd h List.not_mem_nil
  | cons v vs ih =>
      rcases List.mem_cons.1 h with rfl | h
      · exact ⟨i, v, Nat.le_refl i, List.mem_cons_self, rfl⟩
      · obtain ⟨j, w, hij, hw, rfl⟩ := ih h
        exact ⟨j, w, by omega, List.mem_cons_of_mem _ hw, rfl⟩

theorem mem_itemEdits {place : Place} {i paired : ℕ} {xs ys : List Json} {e : Edit}
    (h : e ∈ itemEdits place i paired xs ys) : ∃ j x y, j < paired ∧ xs[j]? = some x ∧
      ys[j]? = some y ∧ e ∈ edits (place ++ [PathStep.index (i + j)]) x y := by
  induction xs generalizing i paired ys with
  | nil => simp [itemEdits] at h
  | cons x xs ih =>
      cases ys with
      | nil => simp [itemEdits] at h
      | cons y ys =>
          rw [itemEdits] at h
          split at h
          · exact absurd h List.not_mem_nil
          · rcases List.mem_append.1 h with h | h
            · exact ⟨0, x, y, by omega, rfl, rfl, h⟩
            · obtain ⟨j, x', y', hj, hx', hy', he⟩ := ih h
              have hplace : i + 1 + j = i + (j + 1) := by omega
              exact ⟨j + 1, x', y', by omega, by simpa using hx', by simpa using hy', hplace ▸ he⟩

/-- The edits of a difference are made where the documents differ. -/
theorem fits_edits (place : Place) (x y : Json) (hx : x.UniqueKeys)
    (hy : y.UniqueKeys) :
    ∀ e ∈ edits place x y, e.Fits (SlotBelow place x y) := by
  refine edits_induction (motive := fun place x y => x.UniqueKeys → y.UniqueKeys →
    ∀ e ∈ edits place x y, e.Fits (SlotBelow place x y)) ?_ ?_ ?_ place x y hx hy
  · intro place xs ys ih hx hy e he
    rw [edits, List.mem_append, List.mem_append] at he
    rcases he with (he | he) | he
    · obtain ⟨m, hm, rfl⟩ := List.mem_map.1 he
      have hkeys := mem_keys_filter.1 (List.mem_map_of_mem hm)
      exact ⟨_, rfl, .gone hkeys.1 hkeys.2⟩
    · obtain ⟨m, hm, rfl⟩ := List.mem_map.1 he
      have hkeys := mem_keys_filter.1 (List.mem_map_of_mem hm)
      exact ⟨⟨_, rfl, .fresh hkeys.2 hkeys.1⟩,
        (Json.uniqueKeys_obj.1 hy).2 m (List.mem_of_mem_filter hm)⟩
    · rw [memberEdits_eq] at he
      obtain ⟨m, hm, he⟩ := List.mem_flatMap.1 he
      cases hgy : Json.Members.get? m.1 ys with
      | none =>
          rw [hgy] at he
          exact absurd he List.not_mem_nil
      | some y =>
          rw [hgy] at he
          have hgx := Json.Members.get?_of_mem (Json.uniqueKeys_obj.1 hx).1 hm
          refine (ih m hm y (hx.get? hgx) (hy.get? hgy) e he).mono ?_
          rintro r p ⟨q, rfl, hq⟩
          exact ⟨.key m.1 :: q, by simp, .member hgx hgy hq⟩
  · intro place xs ys ih hx hy e he
    rw [edits, List.mem_append] at he
    rcases he with he | he
    · obtain ⟨i, x, y, hi, hgx, hgy, he⟩ := mem_itemEdits he
      rw [Nat.zero_add] at he
      refine (ih i x y hi hgx hgy (hx.getElem? hgx) (hy.getElem? hgy) e he).mono ?_
      rintro r p ⟨q, rfl, hq⟩
      exact ⟨.index i :: q, by simp, .item hi hgx hgy hq⟩
    · rw [surplus] at he
      split at he
      · next hle =>
          obtain ⟨v, rfl⟩ := mem_itemRemovals he
          exact ⟨_, rfl, .surplus hle (Nat.le_refl _)⟩
      · next hlt =>
          obtain ⟨j, v, hj, hv, rfl⟩ := mem_itemAdditions he
          have hmem : v ∈ ys := List.mem_of_mem_drop (List.mem_of_mem_take hv)
          exact ⟨⟨_, rfl, .shortage (Nat.lt_of_not_le hlt) hj⟩, Json.uniqueKeys_arr.1 hy v hmem⟩
  · intro place x y hobj harr _ hy e he
    rw [edits_leaf hobj harr] at he
    split at he
    · exact absurd he List.not_mem_nil
    · obtain rfl := List.mem_singleton.1 he
      exact ⟨⟨[], by simp, .leaf hobj harr⟩, hy⟩

end DesignRegistry
