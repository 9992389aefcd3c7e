/-
**Elements in calls of `map`.**

An element is marked as an item of a list when, going outwards from it, a call of `map` is met before
another element.  What the mark stands for is the outermost element that the callback returns.  The two
differ: only elements with a closing tag end the walk, and the walk does not ask by which part of the call
it gets there.  So elements are marked as well inside an attribute of a self-closing element, and in the
list that `map` is called on; apart from these, the mark is what it stands for.

Main definitions:

* `Script.IsElement`, `Script.IsMapCall` — elements of either form, and calls of `map`;
* `Script.Meets` — going outwards, a part is met behind others;
* `Script.MapResult` — an element is the outermost one in the arguments of a call of `map`;
* `Script.Overmarked` — the walk passes a self-closing element, or comes from what is called;
* `Script.MarksAgree` — the marks in a tree are what they stand for.

Main results:

* `Script.isMapItem_cons`, `Script.isMapItem_iff` — one step of the walk, and how the walk ends;
* `Script.mapResult_cons` — one step outwards, which decides what the mark stands for;
* `Script.element_isMapItem_iff` — **which elements of a script are marked**;
* `Script.element_isMapItem_overmarked` — two elements that are marked and are not meant.
-/
import DesignRegistry.Proofs.Script.Places

set_option relaxedAutoImplicit false
set_option autoImplicit false

namespace DesignRegistry

namespace Script

variable {source : List Char} {around between : List Tree} {call p t : Tree}

/-! ### Going outwards -/

/-- An element, with a closing tag or closing itself. -/
def IsElement (t : Tree) : Prop := t.kind = .element ∨ t.kind = .selfClosingElement

instance : DecidablePred IsElement := fun _ => inferInstanceAs (Decidable (_ ∨ _))

/-- A call of a member named `map`. -/
def IsMapCall (source : List Char) (t : Tree) : Prop :=
  t.kind = .call ∧ memberCallee? source t = some "map"

instance : DecidablePred (IsMapCall source) := fun _ => inferInstanceAs (Decidable (_ ∧ _))

/-- Going outwards, a part is met behind those between. -/
def Meets (around between : List Tree) (outer : Tree) : Prop := between ++ [outer] <+: around

theorem not_meets_nil : ¬ Meets [] between call := by
  rintro ⟨rest, h⟩
  simp at h

/-- What is met is the nearest part, or it is met from there. -/
theorem meets_cons_iff : Meets (p :: around) between call ↔
    (between = [] ∧ call = p) ∨ ∃ more, between = p :: more ∧ Meets around more call := by
  cases between with
  | nil => simp [Meets, List.cons_prefix_cons]
  | cons first more =>
      rw [Meets, List.cons_append, List.cons_prefix_cons]
      constructor
      · rintro ⟨rfl, hmore⟩
        exact .inr ⟨more, rfl, hmore⟩
      · rintro (⟨hnil, -⟩ | ⟨_, heq, hmore⟩)
        · exact absurd hnil (List.cons_ne_nil first more)
        · obtain ⟨rfl, rfl⟩ := List.cons.inj heq
          exact ⟨rfl, hmore⟩

/-! ### The walk -/

/-- One step outwards: the nearest part is the call, or it is no element with a closing tag and the walk
goes on from there. -/
theorem isMapItem_cons : isMapItem source (p :: around) = true ↔
    IsMapCall source p ∨ (p.kind ≠ .element ∧ isMapItem source around = true) := by
  have htest : (decide (p.kind = .call) && memberCallee? source p == some "map") = true ↔
      IsMapCall source p := by
    simp [IsMapCall]
  rw [isMapItem]
  by_cases helement : p.kind = .element
  · have hcall : ¬ IsMapCall source p := by
      rintro ⟨hkind, -⟩
      rw [helement] at hkind
      exact absurd hkind (by decide)
    rw [if_pos helement]
    exact iff_of_false Bool.false_ne_true (by simp [helement, hcall])
  · rw [if_neg helement]
    by_cases hcall : IsMapCall source p
    · rw [if_pos (htest.2 hcall)]
      exact iff_of_true rfl (.inl hcall)
    · rw [if_neg fun h => hcall (htest.1 h)]
      constructor
      · intro h
        exact .inr ⟨helement, h⟩
      · rintro (h | ⟨-, h⟩)
        · exact absurd h hcall
        · exact h

/-- The walk finds a call of `map` behind parts that are no elements with a closing tag. -/
theorem isMapItem_iff : isMapItem source around = true ↔
    ∃ between call, Meets around between call ∧ IsMapCall source call ∧
      ∀ q ∈ between, q.kind ≠ .element := by
  induction around with
  | nil =>
      constructor
      · intro h
        exact absurd h Bool.false_ne_true
      · rintro ⟨between, call, hmeets, -⟩
        exact absurd hmeets not_meets_nil
  | cons p around ih =>
      rw [isMapItem_cons, ih]
      constructor
      · rintro (hmap | ⟨helement, between, call, hmeets, hmap, hnone⟩)
        · exact ⟨[], p, meets_cons_iff.2 (.inl ⟨rfl, rfl⟩), hmap, by simp⟩
        · refine ⟨p :: between, call, meets_cons_iff.2 (.inr ⟨between, rfl, hmeets⟩), hmap, ?_⟩
          exact List.forall_mem_cons.2 ⟨helement, hnone⟩
      · rintro ⟨between, call, hmeets, hmap, hnone⟩
        rcases meets_cons_iff.1 hmeets with ⟨rfl, rfl⟩ | ⟨more, rfl, hmore⟩
        · exact .inl hmap
        · obtain ⟨helement, hnone⟩ := List.forall_mem_cons.1 hnone
          exact .inr ⟨helement, more, call, hmore, hmap, hnone⟩

/-! ### What the mark stands for -/

/-- A part lies in a call but not in what is called: of the parts around it the one directly in the call
has another role. -/
def InArguments (t : Tree) (between : List Tree) : Prop :=
  (between.getLastD t).role ≠ some .callee

/-- A part is what the callback of a call of `map` gives: it lies in the arguments, and no element of
either form lies between. -/
def MapResult (source : List Char) (around : List Tree) (t : Tree) : Prop :=
  ∃ between call, Meets around between call ∧ IsMapCall source call ∧ InArguments t between ∧
    ∀ q ∈ between, ¬ IsElement q

theorem not_mapResult_nil : ¬ MapResult source [] t := by
  rintro ⟨between, call, hmeets, -⟩
  exact not_meets_nil hmeets

/-- One step outwards: the nearest part is the call, or it is no element and is itself such a result. -/
theorem mapResult_cons : MapResult source (p :: around) t ↔
    (IsMapCall source p ∧ t.role ≠ some .callee) ∨ (¬ IsElement p ∧ MapResult source around p) := by
  constructor
  · rintro ⟨between, call, hmeets, hmap, hinside, hnone⟩
    rcases meets_cons_iff.1 hmeets with ⟨rfl, rfl⟩ | ⟨more, rfl, hmore⟩
    · exact .inl ⟨hmap, hinside⟩
    · obtain ⟨helement, hnone⟩ := List.forall_mem_cons.1 hnone
      rw [InArguments, List.getLastD_cons] at hinside
      exact .inr ⟨helement, more, call, hmore, hmap, hinside, hnone⟩
  · rintro (⟨hmap, hrole⟩ | ⟨helement, between, call, hmeets, hmap, hinside, hnone⟩)
    · exact ⟨[], p, meets_cons_iff.2 (.inl ⟨rfl, rfl⟩), hmap, hrole, by simp⟩
    · refine ⟨p :: between, call, meets_cons_iff.2 (.inr ⟨between, rfl, hmeets⟩), hmap, ?_, ?_⟩
      · rw [InArguments, List.getLastD_cons]
        exact hinside
      · exact List.forall_mem_cons.2 ⟨helement, hnone⟩

instance decidableMapResult : ∀ (around : List Tree) (t : Tree), Decidable (MapResult source around t)
  | [], _ => isFalse not_mapResult_nil
  | p :: around, _ =>
      have := decidableMapResult around p
      decidable_of_iff _ mapResult_cons.symm

/-- The walk finds a call of `map` that it should not find: it has passed a self-closing element, or it
comes from what is called. -/
def Overmarked (source : List Char) (around : List Tree) (t : Tree) : Prop :=
  ∃ between call, Meets around between call ∧ IsMapCall source call ∧
    (∀ q ∈ between, q.kind ≠ .element) ∧
    (¬ InArguments t between ∨ ∃ q ∈ between, q.kind = .selfClosingElement)

/-- The walk marks what is meant, and what lies beyond in one of the two ways. -/
theorem isMapItem_iff_mapResult_or :
    isMapItem source around = true ↔ MapResult source around t ∨ Overmarked source around t := by
  rw [isMapItem_iff]
  constructor
  · rintro ⟨between, call, hmeets, hmap, hnone⟩
    by_cases hslip : ¬ InArguments t between ∨ ∃ q ∈ between, q.kind = .selfClosingElement
    · exact .inr ⟨between, call, hmeets, hmap, hnone, hslip⟩
    · rw [not_or, not_not, not_exists] at hslip
      obtain ⟨hinside, hclosing⟩ := hslip
      refine .inl ⟨between, call, hmeets, hmap, hinside, fun q hq helement => ?_⟩
      rcases helement with hpaired | hself
      · exact hnone q hq hpaired
      · exact hclosing q ⟨hq, hself⟩
  · rintro (⟨between, call, hmeets, hmap, -, hnone⟩ | ⟨between, call, hmeets, hmap, hnone, -⟩)
    · exact ⟨between, call, hmeets, hmap, fun q hq hkind => hnone q hq (.inl hkind)⟩
    · exact ⟨between, call, hmeets, hmap, hnone⟩

/-! ### Marked elements -/

/-- The elements of a tree that are marked are the outermost ones in the arguments of a call of `map`. -/
def MarksAgree (source : List Char) (root : Tree) : Prop :=
  ∀ around t, Lies root around t → IsElement t →
    (isMapItem source around = true ↔ MapResult source around t)

/-- Whether the marks agree is decided place by place. -/
instance decidableMarksAgree (root : Tree) : Decidable (MarksAgree source root) :=
  decidable_of_iff (∀ p ∈ places root, IsElement p.part →
      (isMapItem source p.around = true ↔ MapResult source p.around p.part)) <| by
    constructor
    · intro h around t hlies
      exact h ⟨around, t⟩ (mem_places_iff.2 hlies)
    · intro h p hp
      exact h p.around p.part (mem_places_iff.1 hp)

theorem nodeOf_of_isElement (h : IsElement t) :
    nodeOf source around t = (elementOf source around t).map .element := by
  rw [nodeOf]
  rcases h with h | h <;> rw [h]

theorem isMapItem_of_elementOf {e : Element} (h : elementOf source around t = some e) :
    e.isMapItem = isMapItem source around := by
  rw [elementOf] at h
  split at h
  all_goals
    simp only [Option.bind_eq_bind, Option.bind_eq_some_iff] at h
    obtain ⟨opening, -, name, -, he⟩ := h
    obtain rfl := Option.some.inj he
    rfl

/-- **Which elements are marked.**  An element of a tree is a node of the script, if it has a name, with
the mark that its place gives.  It is marked exactly if a call of `map` is met before an element with a
closing tag; that is, if it is the outermost element in the arguments of the call, or else the walk has
passed a self-closing element or comes from what is called. -/
theorem element_isMapItem_iff (source : List Char) {root : Tree} (hlies : Lies root around t)
    (helement : IsElement t) :
    (∀ e, elementOf source around t = some e →
        .element e ∈ lower source root ∧ e.isMapItem = isMapItem source around)
      ∧ (isMapItem source around = true ↔ ∃ between call, Meets around between call ∧
          IsMapCall source call ∧ ∀ q ∈ between, q.kind ≠ .element)
      ∧ (isMapItem source around = true ↔ MapResult source around t ∨ Overmarked source around t) := by
  refine ⟨fun e he => ⟨mem_lower_iff.2 ⟨around, t, hlies, ?_⟩, isMapItem_of_elementOf he⟩,
    isMapItem_iff, isMapItem_iff_mapResult_or⟩
  rw [nodeOf_of_isElement helement, he]
  rfl

/-- The item of a list, which holds another element. -/
theorem element_isMapItem_iff_list :
    ∃ around t, Lies (parse .plain "xs.map(x => <li><b/></li>)") around t ∧ IsElement t
      ∧ isMapItem "xs.map(x => <li><b/></li>)".toList around = true
      ∧ (MapResult "xs.map(x => <li><b/></li>)".toList around t
        ∨ Overmarked "xs.map(x => <li><b/></li>)".toList around t) := by
  have hplace : ∃ p ∈ places (parse .plain "xs.map(x => <li><b/></li>)"), IsElement p.part
      ∧ isMapItem "xs.map(x => <li><b/></li>)".toList p.around = true := by
    decide +kernel
  obtain ⟨p, hp, helement, hmarked⟩ := hplace
  have hlies := mem_places_iff.1 hp
  obtain ⟨-, -, hmeant⟩ := element_isMapItem_iff "xs.map(x => <li><b/></li>)".toList hlies helement
  exact ⟨p.around, p.part, hlies, helement, hmarked, hmeant.1 hmarked⟩

/-- In an attribute of the element that the callback gives, and in the list that `map` is called on,
elements are marked that are not meant. -/
theorem element_isMapItem_overmarked :
    (parse .plain "xs.map(x => <Foo icon={<Bar/>} />)").flawed = false
      ∧ ¬ MarksAgree "xs.map(x => <Foo icon={<Bar/>} />)".toList
          (parse .plain "xs.map(x => <Foo icon={<Bar/>} />)")
      ∧ (parse .plain "[<A/>].map(f)").flawed = false
      ∧ ¬ MarksAgree "[<A/>].map(f)".toList (parse .plain "[<A/>].map(f)") :=
  ⟨by decide +kernel, by decide +kernel, by decide +kernel, by decide +kernel⟩

end Script

end DesignRegistry
