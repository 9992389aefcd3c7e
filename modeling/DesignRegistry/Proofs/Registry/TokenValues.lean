/-
**Tokens of valid registries.**

What a token is, is said twice: the schema of manifests tells tokens from groups by a condition, and the
list of tokens is made by a walk that takes a scalar in place of an object for a token and passes over
lists.  In a registry that the schema accepts there is nothing but objects where the walk comes to, and
those with a value have a text or a number as that value.  So the walk has no scalar to take for a token
and no list to pass over, whatever the keys are.

Main results:

* `Registry.tokenNode_of_visits` — the walk comes to nodes of the schema only;
* `Registry.tokens_of_valid` — **every token that is listed is an object of the tree whose value is a text
  or a number**.
-/
import DesignRegistry.Proofs.Registry.TokenNames
import DesignRegistry.Proofs.Registry.WellFormed

set_option relaxedAutoImplicit false
set_option autoImplicit false

namespace DesignRegistry

open Json

namespace Json.Members

/-- Members that are put together from pairs are among them. -/
theorem mem_of_mem_ofPairs {pairs : List (String × Json)} : ∀ m ∈ ofPairs pairs, m ∈ pairs :=
  ofPairs_induction (P := fun ms => ∀ m ∈ ms, m ∈ pairs) (fun _ hm => absurd hm List.not_mem_nil)
    fun _ hms _ hput _ hm => (mem_put hm).elim (fun heq => heq ▸ hput) (hms _)

end Json.Members

namespace Registry

open Token

variable {way : List String} {v w leaf : Json} {ms : Members}

/-- A node is an object, and its value, if it has one, is a text or a number. -/
theorem TokenNode.value (h : TokenNode v) :
    ∃ ms, v = .obj ms ∧ ∀ value, Members.get? "value" ms = some value → IsScalar value := by
  cases h with
  | @token ms hfields => exact ⟨ms, rfl, (Members.given_iff.1 hfields.value).2⟩
  | @group ms hnone =>
      refine ⟨ms, rfl, fun value hvalue => ?_⟩
      rw [Members.has, hvalue] at hnone
      exact absurd hnone (by simp)

/-- A node is taken for no token but itself. -/
theorem TokenNode.eq_of_isToken (h : TokenNode v) (htoken : IsToken v leaf) : leaf = v := by
  obtain ⟨ms, rfl⟩ := h.exists_obj
  cases htoken with
  | token => rfl
  | scalar hscalar => exact absurd hscalar (by simp [members?])

/-- The walk through a tree of nodes comes to nodes only. -/
theorem tokenNode_of_visits (h : Members.Each TokenNode ms) (hv : Visits (.obj ms) way v) :
    TokenNode v := by
  -- the induction is on the way; a group that the walk goes on from has nodes as members
  induction way generalizing ms with
  | nil => exact absurd rfl hv.ne_nil
  | cons key way ih =>
      obtain ⟨w, hw, ⟨rfl, rfl⟩ | ⟨⟨group, rfl, hnone⟩, hvisits⟩⟩ := visits_cons.1 hv
      · exact h key w hw
      · exact ih ((tokenNode_obj.1 (h key _ hw)).2 hnone) hvisits

/-- The tokens of a registry that the schema of manifests accepts are nodes. -/
theorem each_tokenNode_of_valid {registry tokens : Json} {r : ValidationReport}
    (hr : Validator.standard.validate registry SchemaTag.manifest.name = .ok r)
    (hvalid : r.valid = true) (htokens : registry.field? "tokens" = some tokens) :
    ∃ ms, tokens = .obj ms ∧ Members.Each TokenNode ms := by
  obtain ⟨violations, hreport⟩ := Schema.ends_validate_bundled .manifest registry "$"
  obtain rfl := Except.ok.inj ((Validator.validate_standard_eq_ok hreport).symm.trans hr)
  have hclean := (Schema.errors_eq_nil_iff hreport).1 (List.isEmpty_iff.1 hvalid)
  obtain ⟨fields, rfl, hfields⟩ := satisfies_manifest.1 hclean
  exact hfields.tokens tokens htokens

/-- **Every token of a valid registry is an object of the tree whose value is a text or a number.**  The
tokens of a registry that the schema of manifests accepts are members of an object; the walk comes to
objects only, so there is no scalar to be taken for a token and no list to be passed over; and where such
an object has a value, it is a text or a number.  This holds for any keys, also for those with which two
tokens end up under one name. -/
theorem tokens_of_valid {registry tokens : Json} {r : ValidationReport} (hu : registry.UniqueKeys)
    (hr : Validator.standard.validate registry SchemaTag.manifest.name = .ok r)
    (hvalid : r.valid = true) (htokens : registry.field? "tokens" = some tokens) :
    (∃ ms, tokens = .obj ms) ∧
      (∀ way v, Visits tokens way v →
        ∃ ms, v = .obj ms ∧ ∀ value, Members.get? "value" ms = some value → IsScalar value) ∧
      ∀ m ∈ flatten "" tokens, ∃ way ms value, m.1 = way.foldl pathName "" ∧
        Visits tokens way m.2 ∧ m.2 = .obj ms ∧ Members.get? "value" ms = some value ∧
        IsScalar value := by
  obtain ⟨ms, rfl, hnodes⟩ := each_tokenNode_of_valid hr hvalid htokens
  refine ⟨⟨ms, rfl⟩, fun way v hv => (tokenNode_of_visits hnodes hv).value, fun m hm => ?_⟩
  have hunique : (Json.obj ms).UniqueKeys := by
    cases registry with
    | obj fields => exact hu.get? htokens
    | null | bool _ | int _ | float _ | str _ | arr _ => exact absurd htokens (by simp [field?])
  have hleaf : m ∈ leavesOf "" ms := Members.mem_of_mem_ofPairs m hm
  rw [leavesOf_eq] at hleaf
  obtain ⟨⟨way, leaf⟩, hway, rfl⟩ := List.mem_map.1 hleaf
  obtain ⟨v, hvisits, htoken⟩ := (mem_waysOf_iff hunique).1 hway
  have hnode := tokenNode_of_visits hnodes hvisits
  obtain rfl := hnode.eq_of_isToken htoken
  obtain ⟨group, rfl, hscalar⟩ := hnode.value
  cases htoken with
  | token hhas =>
      obtain ⟨value, hvalue⟩ := Option.isSome_iff_exists.1 hhas
      exact ⟨way, group, value, rfl, hvisits, rfl, hvalue, hscalar value hvalue⟩

/-- A registry with a token called value, an empty key, and two tokens under one name. -/
def tangledRegistry : Json :=
  .obj [("name", .str "R"), ("version", .str "1.0.0"), ("components", .arr []),
    ("tokens", .obj [("value", .obj [("value", .int 4)]),
      ("a.b", .obj [("value", .str "first")]),
      ("a", .obj [("b", .obj [("value", .str "second")]), ("", .obj [])])])]

/-- Of two tokens under one name the later is listed, and it is an object of the tree like any other. -/
theorem tokens_of_valid_tangled :
    ∃ r, Validator.standard.validate tangledRegistry SchemaTag.manifest.name = .ok r ∧
      r.valid = true ∧ tangledRegistry.UniqueKeys ∧
      ∃ tokens, tangledRegistry.field? "tokens" = some tokens ∧
        flatten "" tokens = [("value", .obj [("value", .int 4)]),
          ("a.b", .obj [("value", .str "second")])] ∧
        ∃ way ms value, "a.b" = way.foldl pathName "" ∧
          Visits tokens way (.obj [("value", .str "second")]) ∧
          Json.obj [("value", .str "second")] = .obj ms ∧
          Members.get? "value" ms = some value ∧ IsScalar value := by
  have hclean : Schema.validate Schema.manifest Schema.manifest tangledRegistry "$" = .ok [] :=
    Schema.validate_eq_ok_iff.2 ⟨16, [], rfl, rfl⟩
  have hreport : Validator.standard.validate tangledRegistry SchemaTag.manifest.name =
      .ok ⟨SchemaTag.manifest.name, []⟩ := @Validator.validate_standard_eq_ok .manifest _ _ hclean
  have hu : tangledRegistry.UniqueKeys := by
    simp [tangledRegistry, UniqueKeys, UniqueKeysMembers, UniqueKeysItems, Members.keys]
  refine ⟨_, hreport, rfl, hu, _, rfl, rfl, ?_⟩
  exact (tokens_of_valid hu hreport rfl rfl).2.2 ("a.b", .obj [("value", .str "second")])
    (List.mem_cons_of_mem _ List.mem_cons_self)

end Registry

end DesignRegistry
