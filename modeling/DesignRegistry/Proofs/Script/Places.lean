/-
**Places in a syntax tree.**

A part of a script is judged by what stands around it.  A place is a part with the parts that contain it,
the nearest first; the same part may lie at several places.  Listed in reading order, the places of a tree
give the nodes of the script one by one, so a script has the nodes of its places, and no others.

Main definitions:

* `Script.Lies` — a part lies in a tree, with given parts around it;
* `Script.places` — the places of a tree in reading order.

Main results:

* `Script.Tree.induction` — induction over the parts of a tree;
* `Script.mem_places_iff` — the list of places holds the parts that lie in the tree;
* `Script.visitAll_eq_foldl_places` — **the walk with a stack comes by the places in reading order**;
* `Script.lower_eq_filterMap`, `Script.mem_lower_iff` — **the nodes of a script are those of its places**.
-/
import DesignRegistry.Script.Node
import Mathlib.Data.List.Basic

set_option relaxedAutoImplicit false
set_option autoImplicit false

namespace DesignRegistry

namespace Script

/-- What holds of each part for which it holds of the parts inside holds of all. -/
theorem Tree.induction {motive : Tree → Prop}
    (step : ∀ t : Tree, (∀ c ∈ t.children, motive c) → motive t) (t : Tree) : motive t :=
  match t with
  | .node k r s e m f cs => step (.node k r s e m f cs) fun c (hc : c ∈ cs) =>
      have := List.sizeOf_lt_of_mem hc
      Tree.induction step c

/-! ### Where parts lie -/

/-- A part lies in a tree; the parts that contain it are listed from the nearest to the whole tree. -/
inductive Lies (root : Tree) : List Tree → Tree → Prop
  | root : Lies root [] root
  | child {around : List Tree} {t c : Tree} :
      Lies root around t → c ∈ t.children → Lies root (t :: around) c

/-- What lies in a part of a tree lies in the tree. -/
theorem Lies.inside {root c t : Tree} {inner : List Tree} (hc : c ∈ root.children)
    (h : Lies c inner t) : Lies root (inner ++ [root]) t := by
  induction h with
  | root => exact .child .root hc
  | child _ hmem ih => exact .child ih hmem

/-- The first step into a tree. -/
theorem lies_iff {root t : Tree} {around : List Tree} :
    Lies root around t ↔ (around = [] ∧ t = root) ∨
      ∃ c ∈ root.children, ∃ inner, Lies c inner t ∧ around = inner ++ [root] := by
  constructor
  · intro h
    induction h with
    | root => exact .inl ⟨rfl, rfl⟩
    | @child around t d _ hmem ih =>
        right
        rcases ih with ⟨rfl, rfl⟩ | ⟨c, hc, inner, hinner, rfl⟩
        · exact ⟨d, hmem, [], .root, rfl⟩
        · exact ⟨c, hc, t :: inner, .child hinner hmem, rfl⟩
  · rintro (⟨rfl, rfl⟩ | ⟨c, hc, inner, hinner, rfl⟩)
    · exact .root
    · exact hinner.inside hc

/-! ### The places of a tree -/

mutual

/-- The places of a tree in reading order, where `around` contains the tree. -/
def placesIn (around : List Tree) : Tree → List Place
  | t@(.node _ _ _ _ _ _ cs) => ⟨around, t⟩ :: placesInList (t :: around) cs

/-- The places of several trees in reading order. -/
def placesInList (around : List Tree) : List Tree → List Place
  | [] => []
  | t :: ts => placesIn around t ++ placesInList around ts

end

/-- The places of a tree in reading order. -/
def places (root : Tree) : List Place := placesIn [] root

theorem placesInList_eq (around : List Tree) (ts : List Tree) :
    placesInList around ts = ts.flatMap (placesIn around) := by
  induction ts with
  | nil => rfl
  | cons t ts ih => rw [placesInList, ih, List.flatMap_cons]

theorem placesIn_eq (around : List Tree) (t : Tree) :
    placesIn around t = ⟨around, t⟩ :: t.children.flatMap (placesIn (t :: around)) := by
  cases t with
  | node k r s e m f cs => rw [placesIn, placesInList_eq, Tree.children]

/-- The places of a tree inside others are those where something lies in the tree. -/
theorem mem_placesIn_iff {before : List Tree} {root : Tree} {p : Place} :
    p ∈ placesIn before root ↔ ∃ inner, Lies root inner p.part ∧ p.around = inner ++ before := by
  induction root using Tree.induction generalizing before with
  | step root ih =>
      rw [placesIn_eq, List.mem_cons, List.mem_flatMap]
      constructor
      · rintro (rfl | ⟨c, hc, hp⟩)
        · exact ⟨[], .root, rfl⟩
        · obtain ⟨inner, hinner, haround⟩ := (ih c hc).1 hp
          exact ⟨inner ++ [root], hinner.inside hc, by simp [haround]⟩
      · rintro ⟨inner, hinner, haround⟩
        rcases lies_iff.1 hinner with ⟨rfl, hpart⟩ | ⟨c, hc, deeper, hdeeper, rfl⟩
        · left
          cases p with
          | mk around part => rw [show around = before from haround, show part = root from hpart]
        · exact .inr ⟨c, hc, (ih c hc).2 ⟨deeper, hdeeper, by simp [haround]⟩⟩

theorem mem_places_iff {root : Tree} {p : Place} : p ∈ places root ↔ Lies root p.around p.part := by
  rw [places, mem_placesIn_iff]
  constructor
  · rintro ⟨inner, hinner, haround⟩
    rwa [haround, List.append_nil]
  · intro h
    exact ⟨p.around, h, (List.append_nil p.around).symm⟩

/-! ### The nodes of a tree -/

/-- The stack holds the places that are still to be visited, each before those inside it. -/
theorem visitAll_eq_foldl {σ : Type} (act : σ → Place → σ) (state : σ) (stack : List Place) :
    visitAll act state stack =
      (stack.flatMap fun p => placesIn p.around p.part).foldl act state := by
  fun_induction visitAll act state stack with
  | case1 state => rfl
  | case2 state p stack ih =>
      rw [ih, pushAll_reverse, List.flatMap_append, Place.inside, List.flatMap_map, List.flatMap_cons,
        placesIn_eq, List.cons_append, List.foldl_cons]

/-- The walk through a tree comes by its places in reading order. -/
theorem visitAll_eq_foldl_places {σ : Type} (act : σ → Place → σ) (state : σ) (root : Tree) :
    visitAll act state [⟨[], root⟩] = (places root).foldl act state := by
  rw [visitAll_eq_foldl, List.flatMap_singleton, places]

/-- The nodes of a tree come from its places in reading order. -/
theorem lower_eq_filterMap (source : List Char) (root : Tree) :
    lower source root = (places root).filterMap (Place.node? source) := by
  rw [lower, visitAll_eq_foldl_places, List.filterMap_eq_flatMap_toList, List.flatMap_eq_foldl]

/-- A script has the nodes that the parts of its tree give. -/
theorem mem_lower_iff {source : List Char} {root : Tree} {n : Node} :
    n ∈ lower source root ↔ ∃ around t, Lies root around t ∧ nodeOf source around t = some n := by
  rw [lower_eq_filterMap, List.mem_filterMap]
  constructor
  · rintro ⟨p, hp, hnode⟩
    exact ⟨p.around, p.part, mem_places_iff.1 hp, hnode⟩
  · rintro ⟨around, t, hlies, hnode⟩
    exact ⟨⟨around, t⟩, mem_places_iff.2 hlies, hnode⟩

end Script

end DesignRegistry
