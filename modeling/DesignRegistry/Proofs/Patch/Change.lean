/-
**Changes inside a document.**

An edit of a document changes what stands at one place and leaves the rest alone.  `Inside R p`
relates two documents of which the second is the first with a change `R` made at the place `p`; since
a place may be empty before a change or after it, a change relates what stands at a place, if
anything does.  An item that is put into an array or taken out of it moves the items behind it, which
`Inside` expresses by the parts of the array around the item.

Two edits commute if neither moves the place of the other.  `Apart` says when this is so, and
`Apart.diamond` is the commutation.  Two additions in one array do move each other; how is
`Beside.swap`.

Main definitions:

* `Change`, `Inside` — changes of what stands at a place, and of a document around it;
* `Enters`, `Leaves`, `Becomes`, `Swaps` — the changes that edits make;
* `Apart`, `Beside` — places that do not move each other, and places in one container.

Main results:

* `inside_append`, `Inside.split` — changes inside a part, and changes made in two steps;
* `Apart.diamond` — **changes at places apart commute**;
* `Beside.swap` — **two additions in one container commute, with the places shifted**.
-/
import DesignRegistry.Patch.Difference
import DesignRegistry.Proofs.Json.Content
import DesignRegistry.Proofs.Json.Pointer

set_option relaxedAutoImplicit false
set_option autoImplicit false

namespace DesignRegistry

/-! ### Changes -/

/-- A change of what stands at a place, if anything does. -/
abbrev Change := Option Content → Option Content → Prop

/-- The change `R` at a place inside what stands somewhere. -/
def Inside (R : Change) : Place → Change
  | [], o, o' => R o o'
  | .key k :: p, o, o' => ∃ f g, o = some (.obj f) ∧ o' = some (.obj g) ∧
      Inside R p (f k) (g k) ∧ ∀ l, l ≠ k → g l = f l
  | .index i :: p, o, o' => ∃ l m m' r, o = some (.arr (l ++ Option.toList m ++ r)) ∧
      o' = some (.arr (l ++ Option.toList m' ++ r)) ∧ l.length = i ∧ Inside R p m m'

/-- A value is put in at an empty place. -/
def Enters (v : Content) : Change := fun o o' => o = none ∧ o' = some v

/-- A value is taken out. -/
def Leaves (v : Content) : Change := fun o o' => o = some v ∧ o' = none

/-- What stands at a place becomes another value. -/
def Becomes (v : Content) : Change := fun o o' => o.isSome ∧ o' = some v

/-- One value takes the place of another. -/
def Swaps (u v : Content) : Change := fun o o' => o = some u ∧ o' = some v

/-- A change that leaves no place empty and fills none that is. -/
def Stays (R : Change) : Prop := ∀ o o', R o o' → o.isSome ∧ o'.isSome

theorem stays_becomes (v : Content) : Stays (Becomes v) := by
  rintro o o' ⟨ho, rfl⟩
  exact ⟨ho, rfl⟩

theorem not_stays_enters (v : Content) : ¬ Stays (Enters v) := by
  intro h
  have := (h none (some v) ⟨rfl, rfl⟩).1
  simp at this

/-- Below a place, a change finds a value and leaves one. -/
theorem Inside.isSome {R : Change} {p : Place} {o o' : Option Content} (h : Inside R p o o')
    (hp : p ≠ []) : o.isSome ∧ o'.isSome := by
  match p, hp, h with
  | .key _ :: _, _, ⟨f, g, ho, ho', _⟩ => simp [ho, ho']
  | .index _ :: _, _, ⟨l, m, m', r, ho, ho', _⟩ => simp [ho, ho']

/-- A change that is made at two places in a row is made inside the part at the first. -/
theorem inside_append {R : Change} {p q : Place} {o o' : Option Content} :
    Inside R (p ++ q) o o' ↔ Inside (Inside R q) p o o' := by
  induction p generalizing o o' with
  | nil => rfl
  | cons s p ih => cases s <;> simp only [List.cons_append, Inside, ih]

theorem Inside.mono {R S : Change} {p : Place} (hRS : ∀ o o', R o o' → S o o')
    {o o' : Option Content} (h : Inside R p o o') : Inside S p o o' := by
  induction p generalizing o o' with
  | nil => exact hRS o o' h
  | cons s p ih =>
      cases s with
      | key k =>
          obtain ⟨f, g, ho, ho', hin, hrest⟩ := h
          exact ⟨f, g, ho, ho', ih hin, hrest⟩
      | index i =>
          obtain ⟨l, m, m', r, ho, ho', hl, hin⟩ := h
          exact ⟨l, m, m', r, ho, ho', hl, ih hin⟩

/-- A change read backwards. -/
theorem inside_flip {R : Change} {p : Place} {o o' : Option Content} :
    Inside (flip R) p o o' ↔ Inside R p o' o := by
  induction p generalizing o o' with
  | nil => rfl
  | cons s p ih =>
      cases s with
      | key k =>
          constructor
          · rintro ⟨f, g, ho, ho', hin, hrest⟩
            exact ⟨g, f, ho', ho, ih.1 hin, fun l hl => (hrest l hl).symm⟩
          · rintro ⟨f, g, ho, ho', hin, hrest⟩
            exact ⟨g, f, ho', ho, ih.2 hin, fun l hl => (hrest l hl).symm⟩
      | index i =>
          constructor
          · rintro ⟨l, m, m', r, ho, ho', hl, hin⟩
            exact ⟨l, m', m, r, ho', ho, hl, ih.1 hin⟩
          · rintro ⟨l, m, m', r, ho, ho', hl, hin⟩
            exact ⟨l, m', m, r, ho', ho, hl, ih.2 hin⟩

theorem inside_leaves {v : Content} {p : Place} {o o' : Option Content} :
    Inside (Leaves v) p o o' ↔ Inside (Enters v) p o' o := by
  have hflip : flip (Enters v) = Leaves v := by
    funext a b
    exact propext and_comm
  rw [← hflip, inside_flip]

/-- A change that is made in two steps at a place is made in two steps around it. -/
theorem Inside.split {R S T : Change} (hT : ∀ o o', T o o' → ∃ m, R o m ∧ S m o') {p : Place}
    {o o' : Option Content} (h : Inside T p o o') : ∃ m, Inside R p o m ∧ Inside S p m o' := by
  induction p generalizing o o' with
  | nil => exact hT o o' h
  | cons s p ih =>
      cases s with
      | key k =>
          -- in between stands the object with the value of the middle under the key
          obtain ⟨f, g, ho, ho', hin, hrest⟩ := h
          obtain ⟨m, hR, hS⟩ := ih hin
          refine ⟨some (.obj (Function.update f k m)),
            ⟨f, Function.update f k m, ho, rfl, ?_, fun l hl => Function.update_of_ne hl _ _⟩,
            ⟨Function.update f k m, g, rfl, ho', ?_, fun l hl => ?_⟩⟩
          · rwa [Function.update_self]
          · rwa [Function.update_self]
          · rw [Function.update_of_ne hl, hrest l hl]
      | index i =>
          obtain ⟨l, m, m', r, ho, ho', hl, hin⟩ := h
          obtain ⟨n, hR, hS⟩ := ih hin
          exact ⟨some (.arr (l ++ n.toList ++ r)), ⟨l, m, n, r, ho, rfl, hl, hR⟩,
            ⟨l, n, m', r, rfl, ho', hl, hS⟩⟩

/-! ### Places apart -/

/-- Neither of two changes moves the place of the other: the places part at different keys, or at
different items of an array, of which the one in front stays. -/
inductive Apart (R S : Change) : Place → Place → Prop
  | key {k l : String} {p q : Place} : k ≠ l → Apart R S (.key k :: p) (.key l :: q)
  | front {i j : ℕ} {p q : Place} : i < j → (p = [] → Stays R) →
      Apart R S (.index i :: p) (.index j :: q)
  | back {i j : ℕ} {p q : Place} : j < i → (q = [] → Stays S) →
      Apart R S (.index i :: p) (.index j :: q)
  | step {s : Json.PathStep} {p q : Place} : Apart R S p q → Apart R S (s :: p) (s :: q)

theorem Apart.ne_nil {R S : Change} {p q : Place} (h : Apart R S p q) : p ≠ [] ∧ q ≠ [] := by
  cases h <;> simp

theorem Apart.symm {R S : Change} {p q : Place} (h : Apart R S p q) : Apart S R q p := by
  induction h with
  | key hne => exact .key hne.symm
  | front hlt hp => exact .back hlt hp
  | back hlt hq => exact .front hlt hq
  | step _ ih => exact .step ih

/-- Of two places apart, neither leads through the other, also as pointers. -/
theorem Apart.not_prefix {R S : Change} {p q : Place} (h : Apart R S p q) :
    ¬ p.map Json.PathStep.token <+: q.map Json.PathStep.token := by
  induction h with
  | key hne => exact fun hpre => hne (List.cons_prefix_cons.1 hpre).1
  | front hlt _ =>
      exact fun hpre => Nat.ne_of_lt hlt (Json.natText_injective (List.cons_prefix_cons.1 hpre).1)
  | back hlt _ =>
      exact fun hpre => Nat.ne_of_gt hlt (Json.natText_injective (List.cons_prefix_cons.1 hpre).1)
  | step _ ih => exact fun hpre => ih (List.cons_prefix_cons.1 hpre).2

/-- Below an item, or at one that stays, a change finds a value and leaves one. -/
theorem Inside.isSome_of_stays {R : Change} {p : Place} {o o' : Option Content}
    (h : Inside R p o o') (hp : p = [] → Stays R) : o.isSome ∧ o'.isSome := by
  cases p with
  | nil => exact hp rfl o o' h
  | cons s p => exact h.isSome (by simp)

/-- Changes of two items of an array commute if the one in front stays. -/
theorem Inside.diamond_front {R S : Change} {i j : ℕ} {p q : Place} (hlt : i < j)
    (hp : p = [] → Stays R) {a b c : Option Content} (hR : Inside R (.index i :: p) a b)
    (hS : Inside S (.index j :: q) a c) :
    ∃ d, Inside S (.index j :: q) b d ∧ Inside R (.index i :: p) c d := by
  obtain ⟨l, m, m', r, rfl, rfl, rfl, hin⟩ := hR
  obtain ⟨l₂, n, n', r₂, heq, rfl, rfl, hin₂⟩ := hS
  obtain ⟨hm, hm'⟩ := hin.isSome_of_stays hp
  obtain ⟨x, rfl⟩ := Option.isSome_iff_exists.1 hm
  obtain ⟨x', rfl⟩ := Option.isSome_iff_exists.1 hm'
  have hlist : l ++ x :: r = l₂ ++ (n.toList ++ r₂) := by simpa using heq
  obtain ⟨t, rfl, rfl⟩ := exists_cut hlist hlt
  refine ⟨some (.arr (l ++ x' :: t ++ n'.toList ++ r₂)),
    ⟨l ++ x' :: t, n, n', r₂, by simp, rfl, by simp, hin₂⟩,
    ⟨l, some x, some x', t ++ n'.toList ++ r₂, by simp, by simp, rfl, hin⟩⟩

/-- **Changes at places apart commute.** -/
theorem Apart.diamond {R S : Change} {p q : Place} (h : Apart R S p q) {a b c : Option Content}
    (hR : Inside R p a b) (hS : Inside S q a c) : ∃ d, Inside S q b d ∧ Inside R p c d := by
  induction h generalizing a b c with
  | @key k l p q hne =>
      obtain ⟨f, g, rfl, rfl, hin, hrest⟩ := hR
      obtain ⟨f', g', heq, rfl, hin', hrest'⟩ := hS
      obtain rfl := Content.obj.inj (Option.some.inj heq)
      -- each change finds under its key what was there, since the other one is made under another
      -- key
      refine ⟨some (.obj (Function.update g l (g' l))), ⟨g, _, rfl, rfl, ?_, fun x hx =>
        Function.update_of_ne hx _ _⟩, ⟨g', _, rfl, rfl, ?_, fun x hx => ?_⟩⟩
      · rwa [Function.update_self, hrest l hne.symm]
      · rwa [Function.update_of_ne hne, hrest' k hne]
      · by_cases hxl : x = l
        · rw [hxl, Function.update_self]
        · rw [Function.update_of_ne hxl, hrest x hx, hrest' x hxl]
  | front hlt hp => exact Inside.diamond_front hlt hp hR hS
  | back hlt hq =>
      obtain ⟨d, hRd, hSd⟩ := Inside.diamond_front hlt hq hS hR
      exact ⟨d, hSd, hRd⟩
  | @step s p q hpq ih =>
      cases s with
      | key k =>
          obtain ⟨f, g, rfl, rfl, hin, hrest⟩ := hR
          obtain ⟨f', g', heq, rfl, hin', hrest'⟩ := hS
          obtain rfl := Content.obj.inj (Option.some.inj heq)
          obtain ⟨d, hSd, hRd⟩ := ih hin hin'
          refine ⟨some (.obj (Function.update g k d)), ⟨g, _, rfl, rfl, ?_, fun x hx =>
            Function.update_of_ne hx _ _⟩, ⟨g', _, rfl, rfl, ?_, fun x hx => ?_⟩⟩
          · rwa [Function.update_self]
          · rwa [Function.update_self]
          · rw [Function.update_of_ne hx, hrest x hx, hrest' x hx]
      | index i =>
          obtain ⟨l, m, m', r, rfl, rfl, rfl, hin⟩ := hR
          obtain ⟨l₂, n, n', r₂, heq, rfl, hlen, hin'⟩ := hS
          -- both changes are made inside the same item, since something stands there
          obtain ⟨x, rfl⟩ := Option.isSome_iff_exists.1 (hin.isSome hpq.ne_nil.1).1
          obtain ⟨y, rfl⟩ := Option.isSome_iff_exists.1 (hin'.isSome hpq.ne_nil.2).1
          have hlist : l ++ x :: r = l₂ ++ y :: r₂ := by simpa using heq
          obtain ⟨rfl, htail⟩ := List.append_inj hlist hlen.symm
          obtain ⟨rfl, rfl⟩ := List.cons.inj htail
          obtain ⟨d, hSd, hRd⟩ := ih hin hin'
          exact ⟨some (.arr (l ++ d.toList ++ r)), ⟨l, m', d, r, rfl, rfl, rfl, hSd⟩,
            ⟨l, n', d, r, rfl, rfl, rfl, hRd⟩⟩

/-- Changes at places apart that are made one after the other may be made in the other order. -/
theorem Apart.swap {R S : Change} {p q : Place} (h : Apart (flip R) S p q)
    {a b c : Option Content} (hR : Inside R p a b) (hS : Inside S q b c) :
    ∃ d, Inside S q a d ∧ Inside R p d c := by
  obtain ⟨d, hSd, hRd⟩ := h.diamond (inside_flip.2 hR) hS
  exact ⟨d, hSd, inside_flip.1 hRd⟩

/-! ### Shifts -/

/-- What the changes of an index have in common: an index in front of the item stays, and one that
is not in front of a bound, as the item is not, does not come to stand in front of it. -/
structure IsShift (change : ℕ → Bool → ℕ → ℕ) : Prop where
  front : ∀ k atEnd m, m < k → change k atEnd m = m
  bound : ∀ n k atEnd m, n ≤ k → n ≤ m → n ≤ change k atEnd m

theorem isShift_addition : IsShift fun k _ m => if k ≤ m then m + 1 else m where
  front := by intro k _ m h; rw [if_neg (by omega)]
  bound := by intro n k _ m hk hm; split <;> omega

theorem isShift_removal : IsShift fun k _ m => if k < m then m - 1 else m where
  front := by intro k _ m h; rw [if_neg (by omega)]
  bound := by intro n k _ m hk hm; split <;> omega

theorem isShift_additionBeside :
    IsShift fun k atEnd m => if k < m ∨ (m = k ∧ !atEnd) then m + 1 else m where
  front := by intro k _ m h; rw [if_neg (by omega)]
  bound := by intro n k _ m hk hm; split <;> omega

/-- Below a step that two places share, the one is beside the other as their rests are. -/
theorem besideItem_step (change : ℕ → Bool → ℕ → ℕ) (s : Json.PathStep) {p : Place} (q : Place)
    (hp : p ≠ []) : besideItem change (s :: p) (s :: q) = s :: besideItem change p q := by
  cases p with
  | nil => exact absurd rfl hp
  | cons t p => cases s <;> simp [besideItem]

theorem afterAddition_step (s : Json.PathStep) {p : Place} (q : Place) (hp : p ≠ []) :
    afterAddition (s :: p) (s :: q) = s :: afterAddition p q :=
  besideItem_step _ s q hp

theorem afterRemoval_step (s : Json.PathStep) {p : Place} (q : Place) (hp : p ≠ []) :
    afterRemoval (s :: p) (s :: q) = s :: afterRemoval p q :=
  besideItem_step _ s q hp

theorem afterAddition_index (k m : ℕ) (rest : Place) :
    afterAddition [.index k] (.index m :: rest) =
      .index (if k ≤ m then m + 1 else m) :: rest := rfl

theorem afterRemoval_index (k m : ℕ) (rest : Place) :
    afterRemoval [.index k] (.index m :: rest) =
      .index (if k < m then m - 1 else m) :: rest := rfl

theorem besideItem_key (change : ℕ → Bool → ℕ → ℕ) (k l : String) (p q : Place) (h : k ≠ l) :
    besideItem change (.key k :: p) (.key l :: q) = .key l :: q := by
  simp [besideItem, h]

theorem besideItem_index_of_ne (change : ℕ → Bool → ℕ → ℕ) (i j : ℕ) {p : Place} (q : Place)
    (hp : p ≠ []) (h : i ≠ j) :
    besideItem change (.index i :: p) (.index j :: q) = .index j :: q := by
  cases p with
  | nil => exact absurd rfl hp
  | cons t p => simp [besideItem, h]

/-- A place apart is not moved. -/
theorem Apart.besideItem {R S : Change} {p q : Place} (h : Apart R S p q) (hR : ¬ Stays R)
    {change : ℕ → Bool → ℕ → ℕ} (hc : IsShift change) : besideItem change p q = q := by
  induction h with
  | key hne => exact besideItem_key _ _ _ _ _ hne
  | @front i j p q hlt hp =>
      exact besideItem_index_of_ne _ _ _ _ (fun hnil => hR (hp hnil)) (Nat.ne_of_lt hlt)
  | @back i j p q hlt _ =>
      cases p with
      | nil => simp [DesignRegistry.besideItem, hc.front _ _ _ hlt]
      | cons s p => exact besideItem_index_of_ne _ _ _ _ (by simp) (Nat.ne_of_gt hlt)
  | step hpq ih => rw [besideItem_step _ _ _ hpq.ne_nil.1, ih]

/-! ### Places in one container -/

/-- Two places of one container. -/
inductive Beside : Place → Place → Prop
  | keys (k l : String) : Beside [.key k] [.key l]
  | items (i j : ℕ) : Beside [.index i] [.index j]
  | step {p q : Place} (s : Json.PathStep) : Beside p q → Beside (s :: p) (s :: q)

theorem Beside.ne_nil {p q : Place} (h : Beside p q) : p ≠ [] ∧ q ≠ [] := by
  cases h <;> simp

/-- **Two additions in one container commute, with the places shifted.** -/
theorem Beside.swap {p q : Place} (h : Beside p q) {v w : Content} {a b c : Option Content}
    (hv : Inside (Enters v) p a b) (hw : Inside (Enters w) q b c) :
    ∃ d, Inside (Enters w) (afterRemoval p q) a d ∧ Inside (Enters v) (afterAddition q p) d c := by
  induction h generalizing a b c with
  | keys k l =>
      obtain ⟨f, g, rfl, rfl, ⟨hnone, hsome⟩, hrest⟩ := hv
      obtain ⟨f', g', heq, rfl, ⟨hnone', hsome'⟩, hrest'⟩ := hw
      obtain rfl := Content.obj.inj (Option.some.inj heq)
      have hne : k ≠ l := by
        rintro rfl
        rw [hsome] at hnone'
        exact absurd hnone' (by simp)
      rw [afterRemoval, afterAddition, besideItem_key _ _ _ _ _ hne,
        besideItem_key _ _ _ _ _ hne.symm]
      exact (Apart.key (R := flip (Enters v)) (S := Enters w) (p := []) (q := []) hne).swap
        ⟨f, g, rfl, rfl, ⟨hnone, hsome⟩, hrest⟩ ⟨g, g', rfl, rfl, ⟨hnone', hsome'⟩, hrest'⟩
  | items i j =>
      obtain ⟨l, m, m', r, rfl, rfl, rfl, rfl, rfl⟩ := hv
      obtain ⟨l₂, n, n', r₂, heq, rfl, rfl, rfl, rfl⟩ := hw
      have hlist : l ++ v :: r = l₂ ++ r₂ := by simpa using heq
      rw [afterRemoval_index, afterAddition_index]
      by_cases hlt : l.length < l₂.length
      · obtain ⟨t, rfl, rfl⟩ := exists_cut hlist hlt
        refine ⟨some (.arr (l ++ t ++ w :: r₂)),
          ⟨l ++ t, none, some w, r₂, by simp, by simp, by simp, rfl, rfl⟩,
          ⟨l, none, some v, t ++ w :: r₂, by simp, by simp, ?_, rfl, rfl⟩⟩
        rw [List.length_append, List.length_cons, if_neg (by omega)]
      · obtain ⟨t, rfl, rfl⟩ := exists_cut_front hlist (Nat.le_of_not_lt hlt)
        refine ⟨some (.arr (l₂ ++ w :: t ++ r)),
          ⟨l₂, none, some w, t ++ r, by simp, by simp, ?_, rfl, rfl⟩,
          ⟨l₂ ++ w :: t, none, some v, r, by simp, by simp, ?_, rfl, rfl⟩⟩
        · split <;> omega
        · rw [List.length_append, List.length_cons, List.length_append, if_pos (by omega)]
          omega
  | @step p q s hpq ih =>
      rw [afterRemoval_step _ _ hpq.ne_nil.1, afterAddition_step _ _ hpq.ne_nil.2]
      cases s with
      | key k =>
          obtain ⟨f, g, rfl, rfl, hin, hrest⟩ := hv
          obtain ⟨f', g', heq, rfl, hin', hrest'⟩ := hw
          obtain rfl := Content.obj.inj (Option.some.inj heq)
          obtain ⟨d, hwd, hvd⟩ := ih hin hin'
          refine ⟨some (.obj (Function.update f k d)), ⟨f, _, rfl, rfl, ?_, fun x hx =>
            Function.update_of_ne hx _ _⟩, ⟨_, g', rfl, rfl, ?_, fun x hx => ?_⟩⟩
          · rwa [Function.update_self]
          · rwa [Function.update_self]
          · rw [Function.update_of_ne hx, hrest' x hx, hrest x hx]
      | index i =>
          obtain ⟨l, m, m', r, rfl, rfl, rfl, hin⟩ := hv
          obtain ⟨l₂, n, n', r₂, heq, rfl, hlen, hin'⟩ := hw
          obtain ⟨x, rfl⟩ := Option.isSome_iff_exists.1 (hin.isSome hpq.ne_nil.1).2
          obtain ⟨y, rfl⟩ := Option.isSome_iff_exists.1 (hin'.isSome hpq.ne_nil.2).1
          have hlist : l ++ x :: r = l₂ ++ y :: r₂ := by simpa using heq
          obtain ⟨rfl, htail⟩ := List.append_inj hlist hlen.symm
          obtain ⟨rfl, rfl⟩ := List.cons.inj htail
          obtain ⟨d, hwd, hvd⟩ := ih hin hin'
          exact ⟨some (.arr (l ++ d.toList ++ r)), ⟨l, m, d, r, rfl, rfl, rfl, hwd⟩,
            ⟨l, d, n', r, rfl, rfl, rfl, hvd⟩⟩

/-- An addition leaves a place beside it a place beside it. -/
theorem Beside.afterAddition {p q : Place} (h : Beside p q) : Beside p (afterAddition p q) := by
  induction h with
  | keys k l =>
      have hkey : DesignRegistry.afterAddition [.key k] [.key l] = [.key l] := by
        by_cases hkl : k = l <;> simp [DesignRegistry.afterAddition, besideItem, hkl]
      rw [hkey]
      exact .keys k l
  | items i j => exact .items i _
  | step s hpq ih =>
      rw [afterAddition_step _ _ hpq.ne_nil.1]
      exact .step s ih

/-- Where a place is after a removal does not depend on whether the removal was shifted by it. -/
theorem Beside.afterRemoval_afterAddition {p q : Place} (h : Beside p q) :
    afterRemoval (DesignRegistry.afterAddition p q) p = afterRemoval q p := by
  induction h with
  | keys k l =>
      by_cases hkl : k = l <;> simp [DesignRegistry.afterAddition, besideItem, hkl]
  | items i j =>
      simp only [DesignRegistry.afterAddition, afterRemoval, besideItem]
      congr 2
      split_ifs <;> omega
  | step s hpq ih =>
      rw [afterAddition_step _ _ hpq.ne_nil.1, afterRemoval_step _ _ hpq.afterAddition.ne_nil.2,
        afterRemoval_step _ _ hpq.ne_nil.2, ih]

end DesignRegistry
