/-
**The bound of checks.**

A check that ends somewhere ends at the same place with the same report when it may go deeper.  What is
to be shown is that the depth a validation goes to is enough.

For a value and a path, consider the schemas whose check ends within a number of steps.  Once all
checks of the parts of the value that ever end have ended, these schemas determine which checks end
with one step more.  So if a step adds no schema, no later step does, and as there are no more schemas
to be added than stand in the documents, the growth is over after as many steps.  With each level of
the value it starts again.

Main definitions:

* `Schema.Follows` — a computation gives what another one gives;
* `Schema.schemaPool` — the schemas that a check can meet.

Main results:

* `Schema.follows_checkNode` — a check follows another one if what lies below does;
* `Schema.follows_checkAt_bound` — **a check that ends does so within the bound**;
* `Schema.validate_correct` — **a validation decides whether a value satisfies a schema**.
-/
import DesignRegistry.Proofs.Schema.Correct
import DesignRegistry.Proofs.Schema.Total
import Mathlib.Data.Finset.Card

set_option relaxedAutoImplicit false
set_option autoImplicit false

namespace DesignRegistry

namespace Schema

open Json

/-! ### Computations that follow others -/

/-- A computation gives what another one gives, unless that one is stopped. -/
def Follows {α : Type} (x y : Except Fault α) : Prop := ∀ a, x = .ok a → y = .ok a

theorem follows_refl {α : Type} (x : Except Fault α) : Follows x x := fun _ h => h

theorem Follows.trans {α : Type} {x y z : Except Fault α} (h : Follows x y) (h' : Follows y z) :
    Follows x z := fun a ha => h' a (h a ha)

theorem Follows.bind {α β : Type} {x y : Except Fault α} {f g : α → Except Fault β}
    (h : Follows x y) (hnext : ∀ a, Follows (f a) (g a)) : Follows (x >>= f) (y >>= g) := by
  intro b hb
  obtain ⟨a, ha, hb⟩ := exists_of_bind_eq_ok hb
  rw [h a ha]
  exact hnext a b hb

theorem Follows.map {α β : Type} {x y : Except Fault α} (f : α → β) (h : Follows x y) :
    Follows (x.map f) (y.map f) := by
  intro b hb
  cases x with
  | error e => exact absurd hb (by simp [Except.map])
  | ok a =>
      rw [h a rfl]
      exact hb

theorem follows_gather {α : Type} {f g : α → Outcome} {xs : List α}
    (h : ∀ x ∈ xs, Follows (f x) (g x)) : Follows (gather f xs) (gather g xs) := by
  induction xs with
  | nil => exact follows_refl _
  | cons x xs ih =>
      rw [List.forall_mem_cons] at h
      intro found hfound
      rw [gather] at hfound
      split at hfound
      · exact absurd hfound (by simp)
      · next first hfirst =>
          split at hfound
          · exact absurd hfound (by simp)
          · next more hmore =>
              obtain rfl := Except.ok.inj hfound
              simp only [gather, h.1 first hfirst, ih h.2 more hmore]

theorem follows_gatherFrom {f g : ℕ → Json → Outcome} {xs : List Json}
    (h : ∀ i, ∀ x ∈ xs, Follows (f i x) (g i x)) (i : ℕ) :
    Follows (gatherFrom f i xs) (gatherFrom g i xs) := by
  rw [gatherFrom_eq, gatherFrom_eq]
  exact follows_gather fun x hx => h x.2 x.1 (List.fst_mem_of_mem_zipIdx hx)

/-! ### One schema -/

section OneSchema

variable {f g : Checker} {schema : Members} {v : Json} {path : String}

theorem follows_satisfies {s : Json} (h : Follows (f v s path) (g v s path)) :
    Follows (satisfies f v path s) (satisfies g v path s) := h.map _

theorem follows_satisfiesSome {schemas : List Json}
    (h : ∀ s ∈ schemas, Follows (f v s path) (g v s path)) :
    Follows (satisfiesSome f v path schemas) (satisfiesSome g v path schemas) := by
  induction schemas with
  | nil => exact follows_refl _
  | cons s schemas ih =>
      rw [List.forall_mem_cons] at h
      intro b hb
      rw [satisfiesSome] at hb ⊢
      cases hs : satisfies f v path s with
      | error e =>
          rw [hs] at hb
          exact absurd hb (by simp)
      | ok first =>
          rw [hs] at hb
          rw [follows_satisfies h.1 first hs]
          cases first with
          | true => exact hb
          | false => exact ih h.2 b hb

theorem follows_countSatisfied {schemas : List Json}
    (h : ∀ s ∈ schemas, Follows (f v s path) (g v s path)) :
    Follows (countSatisfied f v path schemas) (countSatisfied g v path schemas) := by
  induction schemas with
  | nil => exact follows_refl _
  | cons s schemas ih =>
      rw [List.forall_mem_cons] at h
      exact (follows_satisfies h.1).bind fun _ => (ih h.2).bind fun _ => follows_refl _

/-- The keywords that combine schemas follow if the schemas that are next do. -/
theorem follows_combinations (h : ∀ s ∈ sameParts schema, Follows (f v s path) (g v s path)) :
    Follows (checkAllOf f schema v path) (checkAllOf g schema v path) ∧
      Follows (checkAnyOf f schema v path) (checkAnyOf g schema v path) ∧
      Follows (checkOneOf f schema v path) (checkOneOf g schema v path) ∧
      Follows (checkCondition f schema v path) (checkCondition g schema v path) := by
  -- each keyword asks only the schemas in its own part of the list
  simp only [sameParts, List.forall_mem_append] at h
  obtain ⟨⟨⟨hall, hany⟩, hone⟩, hcondition⟩ := h
  refine ⟨?_, ?_, ?_, ?_⟩
  · rw [checkAllOf, checkAllOf]
    rw [listedSchemas] at hall
    split
    · next schemas hget =>
        rw [hget] at hall
        exact follows_gather hall
    · exact follows_refl _
  · rw [checkAnyOf, checkAnyOf]
    rw [listedSchemas] at hany
    split
    · next s schemas hget =>
        rw [hget] at hany
        exact (follows_satisfiesSome hany).bind fun _ => follows_refl _
    · exact follows_refl _
  · rw [checkOneOf, checkOneOf]
    rw [listedSchemas] at hone
    split
    · next schemas hget =>
        rw [hget] at hone
        exact (follows_countSatisfied hone).bind fun _ => follows_refl _
    · exact follows_refl _
  · rw [checkCondition, checkCondition]
    rw [conditionSchemas] at hcondition
    split
    · next condition hget =>
        rw [hget] at hcondition
        simp only [List.forall_mem_cons, List.forall_mem_append, Option.mem_toList] at hcondition
        refine (follows_satisfies hcondition.1).bind fun b => ?_
        cases b with
        | true =>
            simp only [if_true]
            split
            · next s hs => exact hcondition.2.1 s hs
            · exact follows_refl _
        | false =>
            simp only [Bool.false_eq_true, if_false]
            split
            · next s hs => exact hcondition.2.2 s hs
            · exact follows_refl _
    · exact follows_refl _

theorem follows_checkPatterns {ms : Members} (keys : List String) {patterns : List (String × Json)}
    (h : ∀ m ∈ patterns, ∀ w ∈ ms.map Prod.snd, ∀ path, Follows (f w m.2 path) (g w m.2 path)) :
    Follows (checkPatterns f path ms keys patterns) (checkPatterns g path ms keys patterns) := by
  induction patterns with
  | nil => exact follows_refl _
  | cons m patterns ih =>
      rw [List.forall_mem_cons] at h
      refine (follows_refl _).bind fun covered => Follows.bind (follows_gather fun k _ => ?_)
        fun _ => (ih h.2).bind fun _ => follows_refl _
      split
      · next w hget => exact h.1 w (List.mem_map_of_mem (Members.mem_of_get? hget)) _
      · exact follows_refl _

/-- The keywords for objects follow if the schemas for the members do. -/
theorem follows_checkObject (ms : Members)
    (h : ∀ s ∈ belowParts schema, ∀ w ∈ ms.map Prod.snd, ∀ path,
      Follows (f w s path) (g w s path)) :
    Follows (checkObject f schema path ms) (checkObject g schema path ms) := by
  simp only [belowParts, List.forall_mem_append] at h
  obtain ⟨⟨⟨hproperties, hpatterns⟩, hadditional⟩, -⟩ := h
  refine (follows_refl _).bind fun _ => Follows.bind ?_ fun _ => ?_
  · refine follows_gather fun k _ => ?_
    split
    · next w s hw hs =>
        exact hproperties s (List.mem_map_of_mem (Members.mem_of_get? hs)) w
          (List.mem_map_of_mem (Members.mem_of_get? hw)) _
    · exact follows_refl _
  refine Follows.bind (follows_checkPatterns _ ?_) fun _ => ?_
  · exact fun m hm => hpatterns m.2 (List.mem_map_of_mem (mem_ordered.1 hm))
  refine Follows.bind ?_ fun _ => follows_refl _
  rw [checkAdditional, checkAdditional]
  split
  · exact follows_refl _
  · next s hs =>
      refine follows_gather fun k _ => ?_
      split
      · next w hw =>
          exact hadditional _ (by rw [hs]; exact List.mem_singleton_self _) w
            (List.mem_map_of_mem (Members.mem_of_get? hw)) _
      · exact follows_refl _
  · exact follows_refl _

/-- The keywords for arrays follow if the schema for the items does. -/
theorem follows_checkArray (xs : List Json)
    (h : ∀ s ∈ belowParts schema, ∀ w ∈ xs, ∀ path, Follows (f w s path) (g w s path)) :
    Follows (checkArray f schema path xs) (checkArray g schema path xs) := by
  simp only [belowParts, List.forall_mem_append] at h
  have hitems := h.2
  refine (follows_refl _).bind fun _ => (follows_refl _).bind fun _ => Follows.bind ?_
    fun _ => follows_refl _
  rw [checkItems, checkItems]
  split
  · next s hs =>
      rw [hs] at hitems
      exact follows_gatherFrom (fun i x hx => hitems _ (List.mem_singleton_self _) x hx _) 0
  · next b hs =>
      rw [hs] at hitems
      exact follows_gatherFrom (fun i x hx => hitems _ (List.mem_singleton_self _) x hx _) 0
  · exact follows_refl _

/-- The keywords of a schema follow if those of the schemas that are next do. -/
theorem follows_checkKeywords (hsame : ∀ s ∈ sameParts schema, Follows (f v s path) (g v s path))
    (hbelow : ∀ s ∈ belowParts schema, ∀ w ∈ valueParts v, ∀ path,
      Follows (f w s path) (g w s path)) :
    Follows (checkKeywords f schema v path) (checkKeywords g schema v path) := by
  obtain ⟨hall, hany, hone, hcondition⟩ := follows_combinations hsame
  refine hall.bind fun _ => hany.bind fun _ => hone.bind fun _ => hcondition.bind fun _ => ?_
  have hkind : Follows (checkByKind f schema v path) (checkByKind g schema v path) := by
    cases v with
    | obj ms => exact follows_checkObject ms hbelow
    | arr xs => exact follows_checkArray xs hbelow
    | null | bool _ | int _ | float _ | str _ => exact follows_refl _
  split
  · exact follows_refl _
  · exact hkind.bind fun _ => follows_refl _

end OneSchema

/-! ### Schemas that a check can meet -/

/-- The schemas that a check can meet: they stand in the schema, or in the root. -/
def schemaPool (root schema : Json) : List Json := nodes root ++ nodes schema

mutual

theorem length_nodes : ∀ v : Json, (nodes v).length = nodeCount v
  | .arr xs => by rw [nodes, nodeCount, List.length_cons, length_nodesOfItems]
  | .obj ms => by rw [nodes, nodeCount, List.length_cons, length_nodesOfMembers]
  | .null | .bool _ | .int _ | .float _ | .str _ => rfl

theorem length_nodesOfItems : ∀ xs : List Json, (nodesOfItems xs).length = nodeCountItems xs
  | [] => rfl
  | x :: xs => by
      rw [nodesOfItems, nodeCountItems, List.length_append, length_nodes, length_nodesOfItems]

theorem length_nodesOfMembers : ∀ ms : List (String × Json),
    (nodesOfMembers ms).length = nodeCountMembers ms
  | [] => rfl
  | (k, v) :: ms => by
      rw [nodesOfMembers, nodeCountMembers, List.length_append, length_nodes,
        length_nodesOfMembers]

end

theorem length_schemaPool (root schema : Json) :
    (schemaPool root schema).length = nodeCount root + nodeCount schema := by
  rw [schemaPool, List.length_append, length_nodes, length_nodes]

/-- What stands in a schema of the pool is in the pool. -/
theorem nodes_subset_schemaPool {root schema s : Json} (h : s ∈ schemaPool root schema) :
    nodes s ⊆ schemaPool root schema := by
  rcases List.mem_append.1 h with h | h
  · exact List.Subset.trans (nodes_subset h) (List.subset_append_left _ _)
  · exact List.Subset.trans (nodes_subset h) (List.subset_append_right _ _)

/-- What a reference names is in the pool. -/
theorem mem_schemaPool_of_resolve {root schema target : Json} {r : String}
    (h : root.resolve r = .ok target) : target ∈ schemaPool root schema :=
  List.mem_append_left _ (mem_nodes_of_resolve h)

/-- A check follows another one if what lies below does: for the same value and path, and for the parts
of the value. -/
theorem follows_checkNode {f g : Checker} {root schema v s : Json} {path : String}
    (hs : s ∈ schemaPool root schema)
    (hsame : ∀ t ∈ schemaPool root schema, Follows (f v t path) (g v t path))
    (hbelow : ∀ t ∈ schemaPool root schema, ∀ w ∈ valueParts v, ∀ path,
      Follows (f w t path) (g w t path)) :
    Follows (checkNode f root v s path) (checkNode g root v s path) := by
  cases s with
  | bool b => cases b <;> exact follows_refl _
  | obj ms =>
      rw [checkNode, checkNode]
      cases Members.get? "$ref" ms with
      | some reference =>
          cases reference with
          | str r =>
              simp only [checkReference]
              cases htarget : root.resolve r with
              | error e => exact follows_refl _
              | ok target => exact hsame target (mem_schemaPool_of_resolve htarget)
          | null | bool _ | int _ | float _ | arr _ | obj _ => exact follows_refl _
      | none =>
          have hnodes := nodes_subset_schemaPool hs
          exact follows_checkKeywords (fun t ht => hsame t (hnodes (mem_nodes_of_sameParts ht)))
            fun t ht => hbelow t (hnodes (mem_nodes_of_belowParts ht))
  | null | int _ | float _ | str _ | arr _ => exact follows_refl _

/-! ### Depth -/

/-- A check that may go one step deeper follows. -/
theorem follows_checkAt_succ (root : Json) (fuel : ℕ) (v s : Json) (path : String) :
    Follows (checkAt root fuel v s path) (checkAt root (fuel + 1) v s path) := by
  induction fuel generalizing v s path with
  | zero => exact fun found h => absurd h (by simp [checkAt])
  | succ fuel ih =>
      have hs : s ∈ schemaPool root s := List.mem_append_right _ (mem_nodes_self s)
      exact follows_checkNode hs (fun t _ => ih v t path) fun t _ w _ path => ih w t path

theorem follows_checkAt_of_le {root : Json} {fuel more : ℕ} (h : fuel ≤ more) (v s : Json)
    (path : String) : Follows (checkAt root fuel v s path) (checkAt root more v s path) := by
  induction more, h using Nat.le_induction with
  | base => exact follows_refl _
  | succ more _ ih => exact ih.trans (follows_checkAt_succ root more v s path)

/-- Where two depths both give a report, they give the same one. -/
theorem checkAt_unique {root v s : Json} {fuel more : ℕ} {path : String} {found : List Violation}
    (h : checkAt root fuel v s path = .ok found) (hends : Ends (checkAt root more v s path)) :
    checkAt root more v s path = .ok found := by
  obtain ⟨found', h'⟩ := hends
  rcases Nat.le_total fuel more with hle | hle
  · exact follows_checkAt_of_le hle v s path found h
  · rw [h', ← h]
    exact (follows_checkAt_of_le hle v s path found' h').symm

/-! ### The bound -/

open Classical in
/-- The schemas of the pool whose check ends within a number of steps. -/
noncomputable def endingSchemas (root schema v : Json) (path : String) (fuel : ℕ) : Finset Json :=
  (schemaPool root schema).toFinset.filter fun s => Ends (checkAt root fuel v s path)

section Bound

variable {root schema v : Json} {path : String}

open Classical in
theorem mem_endingSchemas {fuel : ℕ} {s : Json} : s ∈ endingSchemas root schema v path fuel ↔
    s ∈ schemaPool root schema ∧ Ends (checkAt root fuel v s path) := by
  rw [endingSchemas, Finset.mem_filter, List.mem_toFinset]

theorem endingSchemas_mono : Monotone (endingSchemas root schema v path) := by
  intro fuel more hle s hs
  obtain ⟨hpool, found, hfound⟩ := mem_endingSchemas.1 hs
  exact mem_endingSchemas.2 ⟨hpool, found, follows_checkAt_of_le hle v s path found hfound⟩

theorem card_endingSchemas_le (fuel : ℕ) :
    (endingSchemas root schema v path fuel).card ≤ nodeCount root + nodeCount schema := by
  classical
  rw [← length_schemaPool]
  exact (Finset.card_le_card (Finset.filter_subset _ _)).trans (List.toFinset_card_le _)

/-- Once the checks of the parts have ended that ever do, the schemas whose checks end determine the ones
whose checks end with a step more: if there are no new ones, there will be none. -/
theorem endingSchemas_stable {fuel : ℕ}
    (hbelow : ∀ t ∈ schemaPool root schema, ∀ w ∈ valueParts v, ∀ more path,
      Follows (checkAt root more w t path) (checkAt root fuel w t path))
    (h : endingSchemas root schema v path fuel = endingSchemas root schema v path (fuel + 1)) :
    endingSchemas root schema v path (fuel + 1) = endingSchemas root schema v path (fuel + 2) := by
  refine Finset.Subset.antisymm (endingSchemas_mono (Nat.le_succ _)) fun s hs => ?_
  obtain ⟨hpool, found, hfound⟩ := mem_endingSchemas.1 hs
  refine mem_endingSchemas.2 ⟨hpool, found, ?_⟩
  refine follows_checkNode hpool (fun t ht first hfirst => ?_) (fun t ht w hw path => ?_) found hfound
  · have hmem := mem_endingSchemas.2 ⟨ht, first, hfirst⟩
    rw [← h] at hmem
    exact checkAt_unique hfirst (mem_endingSchemas.1 hmem).2
  · exact hbelow t ht w hw (fuel + 1) path

/-- The checks of a value that ever end do so after as many steps, from where those of the parts have
ended, as there are schemas. -/
theorem follows_checkAt_level {start : ℕ}
    (hbelow : ∀ t ∈ schemaPool root schema, ∀ w ∈ valueParts v, ∀ more path,
      Follows (checkAt root more w t path) (checkAt root start w t path))
    {s : Json} (hs : s ∈ schemaPool root schema) (fuel : ℕ) :
    Follows (checkAt root fuel v s path)
      (checkAt root (start + (nodeCount root + nodeCount schema)) v s path) := by
  have hlater : ∀ m, ∀ t ∈ schemaPool root schema, ∀ w ∈ valueParts v, ∀ more path,
      Follows (checkAt root more w t path) (checkAt root (start + m) w t path) :=
    fun m t ht w hw more path =>
      (hbelow t ht w hw more path).trans (follows_checkAt_of_le (Nat.le_add_right start m) w t path)
  -- the number of schemas whose check has ended, from the start on
  have hcard := Nat.stabilises_of_monotone
    (f := fun m => (endingSchemas root schema v path (start + m)).card)
    (n := fuel + (nodeCount root + nodeCount schema))
    (fun m n hmn => Finset.card_le_card (endingSchemas_mono (Nat.add_le_add_left hmn start)))
    (fun m => card_endingSchemas_le (start + m))
    (fun m hm => by
      have heq := Finset.eq_of_subset_of_card_le
        (endingSchemas_mono (Nat.le_succ (start + m))) (le_of_eq hm.symm)
      exact congrArg Finset.card (endingSchemas_stable (hlater m) heq))
    (Nat.le_add_left _ _)
  have heq := Finset.eq_of_subset_of_card_le (endingSchemas_mono (Nat.add_le_add_left
    (Nat.le_add_left (nodeCount root + nodeCount schema) fuel) start)) (le_of_eq hcard)
  intro found hfound
  have hmem : s ∈ endingSchemas root schema v path
      (start + (fuel + (nodeCount root + nodeCount schema))) :=
    mem_endingSchemas.2 ⟨hs, found, follows_checkAt_of_le (by omega) v s path found hfound⟩
  rw [← heq] at hmem
  exact checkAt_unique hfound (mem_endingSchemas.1 hmem).2

/-- **A check that ends does so within the bound.**  With each level of the value, all schemas can be
met once. -/
theorem follows_checkAt_bound {levels : ℕ} (hv : depth v ≤ levels) {s : Json}
    (hs : s ∈ schemaPool root schema) (fuel : ℕ) (path : String) :
    Follows (checkAt root fuel v s path)
      (checkAt root (levels * (nodeCount root + nodeCount schema)) v s path) := by
  induction levels generalizing v s fuel path with
  | zero =>
      have hpos := depth_pos v
      omega
  | succ levels ih =>
      rw [Nat.succ_mul]
      refine follows_checkAt_level (fun t ht w hw more path => ?_) hs fuel
      have hlt := depth_lt_of_mem_valueParts hw
      exact ih (by omega) ht more path

end Bound

/-! ### Validation -/

/-- A validation gives the report of any check that ends, in order. -/
theorem validate_eq_ok_iff {root schema v : Json} {path : String} {errors : List Violation} :
    validate root schema v path = .ok errors ↔
      ∃ fuel found, checkAt root fuel v schema path = .ok found ∧
        errors = ordered Violation.le found := by
  constructor
  · intro h
    rw [validate] at h
    cases hcheck : checkAt root (fuelFor root schema v) v schema path with
    | error e =>
        rw [hcheck] at h
        exact absurd h (by simp [Except.map])
    | ok found =>
        rw [hcheck] at h
        exact ⟨_, found, hcheck, (Except.ok.inj h).symm⟩
  · rintro ⟨fuel, found, hcheck, rfl⟩
    have hs : schema ∈ schemaPool root schema := List.mem_append_right _ (mem_nodes_self schema)
    have hbound := (follows_checkAt_bound (Nat.le_refl _) hs fuel path).trans
      (follows_checkAt_succ root _ v schema path)
    rw [validate, fuelFor, hbound found hcheck]
    rfl

/-- The report of a validation is empty exactly if the value satisfies the schema. -/
theorem errors_eq_nil_iff {root schema v : Json} {path : String} {errors : List Violation}
    (h : validate root schema v path = .ok errors) : errors = [] ↔ Satisfies root schema v := by
  obtain ⟨fuel, found, hcheck, rfl⟩ := validate_eq_ok_iff.1 h
  exact ordered_eq_nil_iff.trans (checkAt_eq_nil_iff hcheck)

/-- **A validation decides whether a value satisfies a schema.**  It gives a report if the check ends at
any depth.  The report is empty exactly if the value satisfies the schema, and it is ordered by path,
keyword and message. -/
theorem validate_correct (root schema v : Json) (path : String) :
    ((∃ fuel found, checkAt root fuel v schema path = .ok found) →
      ∃ errors, validate root schema v path = .ok errors) ∧
    ∀ errors, validate root schema v path = .ok errors →
      (errors = [] ↔ Satisfies root schema v) ∧ errors.Pairwise fun x y => x.key ≤ y.key := by
  refine ⟨?_, fun errors h => ?_⟩
  · rintro ⟨fuel, found, hcheck⟩
    exact ⟨_, validate_eq_ok_iff.2 ⟨fuel, found, hcheck, rfl⟩⟩
  · obtain ⟨fuel, found, hcheck, hordered⟩ := validate_eq_ok_iff.1 h
    exact ⟨errors_eq_nil_iff h, hordered ▸ pairwise_ordered_key found⟩

/-- Arrays of different names; what a name is stands elsewhere in the schema. -/
def namesSchema : Json :=
  .obj [("definitions", .obj [("name", .obj [("type", .str "string")])]),
    ("items", .obj [("$ref", .str "#/definitions/name")]), ("uniqueItems", .bool true)]

/-- A schema that is satisfied by an array of names, and not by one with a number among them. -/
theorem validate_correct_names :
    Satisfies namesSchema namesSchema (.arr [.str "a", .str "b"]) ∧
      ¬ Satisfies namesSchema namesSchema (.arr [.str "a", .int 1]) := by
  have hnames : validate namesSchema namesSchema (.arr [.str "a", .str "b"]) "$" = .ok [] :=
    validate_eq_ok_iff.2 ⟨3, [], rfl, rfl⟩
  have hnumber : validate namesSchema namesSchema (.arr [.str "a", .int 1]) "$" =
      .ok [⟨"$[1]", "must be string, got integer", "type", some (.int 1)⟩] :=
    validate_eq_ok_iff.2 ⟨3, [_], rfl, rfl⟩
  constructor
  · exact ((validate_correct namesSchema namesSchema _ "$").2 [] hnames).1.1 rfl
  · intro hsat
    have hnil := ((validate_correct namesSchema namesSchema _ "$").2 _ hnumber).1.2 hsat
    exact absurd hnil (List.cons_ne_nil _ _)

end Schema

end DesignRegistry
