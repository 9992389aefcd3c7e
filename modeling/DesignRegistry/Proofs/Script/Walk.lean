/-
**The walk through a syntax tree.**

The nodes of a script are taken from its tree with a stack of places that are still to be visited, and
so is the first fault.  Part and place are not the same: a part that is written twice lies at two places.
What tells places apart is the address, which leads down to one child after the other.  In the order of
their addresses, the parts of a tree come in reading order, each before those inside it and those before
the parts on its right.  The walk comes by every address once, in this order.

Main definitions:

* `Script.Place.at?` — the place at an address;
* `Script.addresses` — the addresses in a tree.

Main results:

* `Script.mem_addresses_iff`, `Script.pairwise_addresses` — the addresses are listed without omission, in
  their order;
* `Script.map_at?_addresses` — what lies at them are the places of the tree;
* `Script.Tree.firstFaultOn_eq_find?` — the search for a fault finds the first one in reach;
* `Script.walk_in_reading_order` — **the walk comes by every part once, in reading order**.
-/
import DesignRegistry.Proofs.Script.Places
import Mathlib.Data.List.Lex
import Mathlib.Order.Basic

set_option relaxedAutoImplicit false
set_option autoImplicit false

namespace DesignRegistry

namespace Script

/-! ### Addresses -/

/-- The place at an address: each step down tells how many parts lie before the one that is entered. -/
def Place.at? (p : Place) : List ℕ → Option Place
  | [] => some p
  | i :: address => p.inside[i]?.bind fun c => c.at? address

mutual

/-- The addresses in a tree, that of the whole tree first. -/
def addresses : Tree → List (List ℕ)
  | .node _ _ _ _ _ _ cs => [] :: addressesFrom 0 cs

/-- The addresses in several trees of which the first is the `i`-th part inside another. -/
def addressesFrom (i : ℕ) : List Tree → List (List ℕ)
  | [] => []
  | t :: ts => (addresses t).map (i :: ·) ++ addressesFrom (i + 1) ts

end

theorem addresses_eq (t : Tree) : addresses t = [] :: addressesFrom 0 t.children := by
  cases t with
  | node k r s e m f cs => rw [addresses, Tree.children]

theorem mem_addressesFrom_iff {i : ℕ} {ts : List Tree} {a : List ℕ} :
    a ∈ addressesFrom i ts ↔
      ∃ j c rest, a = (i + j) :: rest ∧ ts[j]? = some c ∧ rest ∈ addresses c := by
  induction ts generalizing i with
  | nil => simp [addressesFrom]
  | cons t ts ih =>
      rw [addressesFrom, List.mem_append, List.mem_map, ih]
      constructor
      · rintro (⟨rest, hrest, rfl⟩ | ⟨j, c, rest, rfl, hc, hrest⟩)
        · exact ⟨0, t, rest, rfl, rfl, hrest⟩
        · exact ⟨j + 1, c, rest, by rw [Nat.add_right_comm, Nat.add_assoc], hc, hrest⟩
      · rintro ⟨j, c, rest, rfl, hc, hrest⟩
        cases j with
        | zero =>
            obtain rfl := Option.some.inj hc
            exact .inl ⟨rest, hrest, rfl⟩
        | succ j => exact .inr ⟨j, c, rest, by rw [Nat.add_right_comm, Nat.add_assoc], hc, hrest⟩

/-- The addresses in a tree are those at which something lies. -/
theorem mem_addresses_iff {p : Place} {a : List ℕ} :
    a ∈ addresses p.part ↔ ∃ q, p.at? a = some q := by
  induction a generalizing p with
  | nil => simp [addresses_eq, Place.at?]
  | cons i rest ih =>
      rw [addresses_eq, List.mem_cons, mem_addressesFrom_iff, Place.at?, Place.inside,
        List.getElem?_map]
      constructor
      · rintro (h | ⟨j, c, rest', h, hc, hrest⟩)
        · exact absurd h (List.cons_ne_nil i rest)
        · obtain ⟨rfl, rfl⟩ := List.cons.inj h
          obtain ⟨q, hq⟩ := (ih (p := ⟨p.part :: p.around, c⟩)).1 hrest
          refine ⟨q, ?_⟩
          rw [Nat.zero_add, hc, Option.map_some, Option.bind_some, hq]
      · rintro ⟨q, hq⟩
        obtain ⟨c', hc', hq⟩ := Option.bind_eq_some_iff.1 hq
        obtain ⟨c, hc, rfl⟩ := Option.map_eq_some_iff.1 hc'
        exact .inr ⟨i, c, rest, by rw [Nat.zero_add], hc, ih.2 ⟨q, hq⟩⟩

/-! ### Order -/

/-- What lies in trees further to the right has greater addresses. -/
theorem pairwise_addressesFrom {ts : List Tree} (i : ℕ)
    (h : ∀ t ∈ ts, (addresses t).Pairwise (· < ·)) :
    (addressesFrom i ts).Pairwise (· < ·) := by
  induction ts generalizing i with
  | nil => exact .nil
  | cons t ts ih =>
      obtain ⟨ht, hts⟩ := List.forall_mem_cons.1 h
      rw [addressesFrom, List.pairwise_append]
      refine ⟨?_, ih (i + 1) hts, ?_⟩
      · rw [List.pairwise_map]
        exact ht.imp fun hlt => List.cons_lt_cons_iff.2 (.inr ⟨rfl, hlt⟩)
      · intro a ha b hb
        obtain ⟨rest, -, rfl⟩ := List.mem_map.1 ha
        obtain ⟨j, c, rest', rfl, -, -⟩ := mem_addressesFrom_iff.1 hb
        exact List.cons_lt_cons_iff.2 (.inl (by omega))

/-- The addresses in a tree are listed in their order: that of a part comes before those inside it, and
those come before what lies on the right. -/
theorem pairwise_addresses (t : Tree) : (addresses t).Pairwise (· < ·) := by
  induction t using Tree.induction with
  | step t ih =>
      rw [addresses_eq, List.pairwise_cons]
      refine ⟨fun a ha => ?_, pairwise_addressesFrom 0 ih⟩
      obtain ⟨j, c, rest, rfl, -, -⟩ := mem_addressesFrom_iff.1 ha
      exact List.nil_lt_cons _ _

/-! ### What lies at the addresses -/

/-- What lies at the addresses of the parts inside a place, apart from those in front. -/
theorem map_at?_addressesFrom {p : Place} {ts : List Tree} (front : List Place)
    (hinside : p.inside = front ++ ts.map fun c => ⟨p.part :: p.around, c⟩)
    (h : ∀ t ∈ ts, ∀ around, (addresses t).map (Place.at? ⟨around, t⟩) =
      (placesIn around t).map some) :
    (addressesFrom front.length ts).map p.at? =
      (placesInList (p.part :: p.around) ts).map some := by
  induction ts generalizing front with
  | nil => rfl
  | cons t ts ih =>
      obtain ⟨ht, hts⟩ := List.forall_mem_cons.1 h
      have hfirst : p.inside[front.length]? = some ⟨p.part :: p.around, t⟩ := by
        rw [hinside, List.map_cons, List.getElem?_append_right (Nat.le_refl _), Nat.sub_self]
        rfl
      have hstep : p.at? ∘ (front.length :: ·) = Place.at? ⟨p.part :: p.around, t⟩ := by
        funext a
        rw [Function.comp_apply, Place.at?, hfirst, Option.bind_some]
      have hrest := ih (front ++ [⟨p.part :: p.around, t⟩])
        (by rw [hinside, List.map_cons, List.append_assoc, List.singleton_append]) hts
      rw [List.length_append, List.length_singleton] at hrest
      rw [addressesFrom, placesInList, List.map_append, List.map_map, List.map_append, hstep,
        ht, hrest]

/-- What lies at the addresses of a tree are its places in reading order. -/
theorem map_at?_addresses (around : List Tree) (t : Tree) :
    (addresses t).map (Place.at? ⟨around, t⟩) = (placesIn around t).map some := by
  induction t using Tree.induction generalizing around with
  | step t ih =>
      have hplace : (⟨around, t⟩ : Place).inside = [] ++ t.children.map fun c => ⟨t :: around, c⟩ := rfl
      have hinside := map_at?_addressesFrom [] hplace fun c hc around => ih c hc around
      rw [addresses_eq, placesIn_eq, ← placesInList_eq, List.map_cons, List.map_cons]
      exact congrArg₂ List.cons rfl hinside

/-! ### Faults -/

/-- Whether a place can be reached through flawed parts. -/
def Place.inReach (p : Place) : Bool := p.around.all Tree.flawed

/-- Whether a search for faults stops at a place. -/
def Place.stops (p : Place) : Bool := p.part.isFault && p.inReach

/-- The places of a tree lie inside what contains the tree. -/
theorem placesIn_eq_map (around : List Tree) (t : Tree) :
    placesIn around t = (placesIn [] t).map fun p => ⟨p.around ++ around, p.part⟩ := by
  induction t using Tree.induction generalizing around with
  | step t ih =>
      rw [placesIn_eq, placesIn_eq [] t, List.map_cons, List.map_flatMap]
      refine congrArg₂ List.cons rfl (List.flatMap_congr fun c hc => ?_)
      rw [ih c hc (t :: around), ih c hc [t], List.map_map]
      simp only [Function.comp_def, List.append_assoc, List.singleton_append]

/-- Inside a part that is flawed, a search stops where it would stop without the part. -/
theorem find?_stops_of_flawed {t : Tree} (h : t.flawed = true) (ts : List Tree) :
    ((ts.flatMap (placesIn [t])).find? Place.stops).map Place.part =
      ((ts.flatMap (placesIn [])).find? Place.stops).map Place.part := by
  have hinside : ts.flatMap (placesIn [t]) =
      (ts.flatMap (placesIn [])).map fun p => ⟨p.around ++ [t], p.part⟩ := by
    rw [List.map_flatMap]
    exact List.flatMap_congr fun c _ => placesIn_eq_map [t] c
  have hstops : Place.stops ∘ (fun p => ⟨p.around ++ [t], p.part⟩) = Place.stops := by
    funext p
    simp [Place.stops, Place.inReach, h]
  rw [hinside, List.find?_map, hstops, Option.map_map]
  rfl

/-- Inside a part that is not flawed, no search stops. -/
theorem find?_stops_of_not_flawed {t : Tree} (h : t.flawed = false) (ts : List Tree) :
    (ts.flatMap (placesIn [t])).find? Place.stops = none := by
  rw [List.find?_eq_none]
  intro p hp
  obtain ⟨c, -, hp⟩ := List.mem_flatMap.1 hp
  obtain ⟨inner, -, haround⟩ := mem_placesIn_iff.1 hp
  simp [Place.stops, Place.inReach, haround, h]

/-- The search for a fault finds the first one in reach, in the order of the stack. -/
theorem Tree.firstFaultOn_eq_find? (stack : List Tree) :
    firstFaultOn stack = ((stack.flatMap (placesIn [])).find? Place.stops).map Place.part := by
  fun_induction firstFaultOn stack with
  | case1 => rfl
  | case2 t stack hfault =>
      have hstops : Place.stops ⟨[], t⟩ = true := by simp [Place.stops, Place.inReach, hfault]
      rw [List.flatMap_cons, placesIn_eq, List.cons_append, List.find?_cons_of_pos hstops]
      rfl
  | case3 t stack hfault hflawed ih =>
      have hgoes : ¬ Place.stops ⟨[], t⟩ = true := by simp [Place.stops, hfault]
      rw [ih, pushAll_reverse, List.flatMap_append, List.flatMap_cons, placesIn_eq, List.cons_append,
        List.find?_cons_of_neg hgoes, List.find?_append, List.find?_append, Option.map_or,
        Option.map_or, find?_stops_of_flawed hflawed]
  | case4 t stack hfault hflawed ih =>
      have hgoes : ¬ Place.stops ⟨[], t⟩ = true := by simp [Place.stops, hfault]
      rw [ih, List.flatMap_cons, placesIn_eq, List.cons_append, List.find?_cons_of_neg hgoes,
        List.find?_append, find?_stops_of_not_flawed (Bool.eq_false_iff.2 hflawed), Option.none_or]

/-! ### The walk -/

/-- **The walk comes by every part once, in reading order.**  The addresses of a tree are listed in
their order, so none twice, and none at which something lies is left out; the places at them are the
places of the tree by recursion.  Whatever is done at a place is done at these places one after the
other, so the nodes of a tree are those that its places give in a row.  The fault that is reported is the
first of these places that is a fault and has flawed parts around it only; without such a place there is
none. -/
theorem walk_in_reading_order (source : List Char) (root : Tree) :
    (addresses root).Pairwise (· < ·) ∧
      (∀ a, a ∈ addresses root ↔ ∃ p, Place.at? ⟨[], root⟩ a = some p) ∧
      (addresses root).map (Place.at? ⟨[], root⟩) = (places root).map some ∧
      (∀ (σ : Type) (act : σ → Place → σ) (state : σ),
        visitAll act state [⟨[], root⟩] = (places root).foldl act state) ∧
      lower source root =
        ((places root).flatMap fun p => (nodeOf source p.around p.part).toList) ∧
      root.firstError? = ((places root).find? fun p =>
        p.part.isFault && p.around.all Tree.flawed).map Place.part := by
  refine ⟨pairwise_addresses root, fun a => mem_addresses_iff (p := ⟨[], root⟩),
    map_at?_addresses [] root, fun σ act state => visitAll_eq_foldl_places act state root, ?_, ?_⟩
  · rw [lower_eq_filterMap, List.filterMap_eq_flatMap_toList]
    rfl
  · rw [Tree.firstError?, Tree.firstFaultOn_eq_find?, List.flatMap_singleton]
    rfl

end Script

end DesignRegistry
