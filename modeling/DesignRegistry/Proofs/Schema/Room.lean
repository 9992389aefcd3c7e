/-
**Checks with a bounded stack.**

A check goes from schema to schema, and the stack of a run has room for so many steps only.  For the
bundled schemas there is room enough if there is some for five steps on each level of the value.  No room
is enough for all values: each group of tokens takes three steps, so as many groups as there is room for
steps, one in the other, stop the check.

Main definitions:

* `Schema.tokenTower`, `Schema.towerRegistry` — groups of tokens one in the other, and a registry of them.

Main results:

* `Validator.validate_within` — **with room enough, a document has the same report**;
* `Schema.checkAt_towerRegistry` — **without it, a check of groups of tokens is stopped**.
-/
import DesignRegistry.Proofs.Schema.Bound

set_option relaxedAutoImplicit false
set_option autoImplicit false

namespace DesignRegistry

/-! ### Room enough -/

section Enough

variable {doc : Json} {room : ℕ}

/-- With room for five steps on each level, a document has the same report. -/
theorem Validator.validate_within (t : SchemaTag) (h : 5 * Schema.depth doc ≤ room) :
    (Validator.standard.within room).validate doc t.name = Validator.standard.validate doc t.name := by
  obtain ⟨found, hfound⟩ := Schema.ends_checkAt_bundled t doc "$"
  have hbounded : (Validator.standard.within room).errors t.schema doc =
      .ok (Schema.ordered Schema.Violation.le found) := by
    change Schema.validateWithin room t.schema t.schema doc "$" = _
    rw [Schema.validateWithin, Schema.follows_checkAt_of_le h doc t.schema "$" found hfound]
    rfl
  rw [Validator.validate_eq_ok hbounded (Validator.lookup_standard t),
    Validator.validate_standard_eq_ok (Schema.validate_eq_ok_iff.2 ⟨_, found, hfound, rfl⟩)]

/-- Advice comes from one report at most. -/
theorem advisoryProblems_congr {v v' : Validator}
    (h : ∀ t : SchemaTag, v.validate doc t.name = v'.validate doc t.name) :
    advisoryProblems v doc = advisoryProblems v' doc := by
  rw [advisoryProblems, advisoryProblems, advisoryReport, advisoryReport, Validator.validateDetected,
    Validator.validateDetected, h]

end Enough

namespace Schema

open Json

/-! ### Towers of groups -/

/-- Groups of tokens, one in the other. -/
def tokenTower : ℕ → Json
  | 0 => .obj []
  | n + 1 => .obj [("a", tokenTower n)]

/-- A registry without components whose tokens are such groups. -/
def towerRegistry (n : ℕ) : Json := .obj [("components", .arr []), ("tokens", tokenTower n)]

/-- The schema that refers to the one of what stands in a group. -/
def toTokenNode : Json := .obj [("$ref", .str "#/definitions/tokenNode")]

/-- A fault in one part ends the check of all of them. -/
theorem gather_of_error {α : Type} {f : α → Outcome} {fault : Fault} {front back : List α} {x : α}
    (hfront : ∀ y ∈ front, f y = .ok []) (h : f x = .error fault) :
    gather f (front ++ x :: back) = .error fault := by
  induction front with
  | nil => simp only [List.nil_append, gather, h]
  | cons y front ih =>
      rw [List.forall_mem_cons] at hfront
      simp only [List.cons_append, gather, hfront.1, ih hfront.2]

/-- A fault in a key that is neither named nor covered ends the check of such keys. -/
theorem checkAdditional_of_error {check : Checker} {schema s ms : Members} {k path : String} {v : Json}
    {fault : Fault} (hs : Members.get? "additionalProperties" schema = some (.obj s))
    (hv : Members.get? k ms = some v) (h : check v (.obj s) (memberPath path k) = .error fault) :
    checkAdditional check schema path ms [k] = .error fault := by
  rw [checkAdditional, hs]
  simp only [gather, hv, h]

section Steps

variable {fuel n : ℕ} {fault : Fault} {path : String}

/-- A fault inside a group ends the check of the group. -/
theorem checkObject_tokenTower {schema : Members}
    (hschema : schema = [("additionalProperties", toTokenNode)] ∨
      schema = [("type", .str "object"), ("additionalProperties", toTokenNode)])
    (h : checkAt manifest fuel (tokenTower n) toTokenNode (memberPath path "a") = .error fault) :
    checkObject (checkAt manifest fuel) schema path [("a", tokenTower n)] = .error fault := by
  have hadditional : checkAdditional (checkAt manifest fuel) schema path [("a", tokenTower n)] ["a"] =
      .error fault := by
    rcases hschema with rfl | rfl <;> exact checkAdditional_of_error rfl rfl h
  rcases hschema with rfl | rfl <;>
  · change (checkAdditional (checkAt manifest fuel) _ path [("a", tokenTower n)] ["a"] >>= _) = _
    rw [hadditional]
    rfl

/-- One group more takes three steps more: to its schema, to the schema for groups, and into the group. -/
theorem checkAt_tokenTower_succ
    (h : ∀ path, checkAt manifest fuel (tokenTower n) toTokenNode path = .error fault) (path : String) :
    checkAt manifest (fuel + 3) (tokenTower (n + 1)) toTokenNode path = .error fault := by
  have hgroup : checkAt manifest (fuel + 1) (tokenTower (n + 1))
      (.obj [("additionalProperties", toTokenNode)]) path = .error fault := by
    change (checkObject (checkAt manifest fuel) [("additionalProperties", toTokenNode)] path
      [("a", tokenTower n)] >>= _) = _
    rw [checkObject_tokenTower (.inl rfl) (h _)]
    rfl
  change (checkAt manifest (fuel + 1) (tokenTower (n + 1))
    (.obj [("additionalProperties", toTokenNode)]) path >>= _) = _
  rw [hgroup]
  rfl

/-- So with three steps for each group the check does not come to the bottom. -/
theorem checkAt_tokenTower (h : fuel ≤ 3 * n) (path : String) :
    checkAt manifest fuel (tokenTower n) toTokenNode path = .error .endless := by
  induction n generalizing fuel path with
  | zero =>
      obtain rfl : fuel = 0 := by omega
      rfl
  | succ n ih =>
      rcases fuel with _ | _ | _ | fuel
      · rfl
      · rfl
      · rfl
      · exact checkAt_tokenTower_succ (ih (by omega)) path

/-- Nor does the check of the properties of a registry with such groups. -/
theorem checkProperties_towerRegistry (h : fuel ≤ 3 * n) :
    checkProperties (checkAt manifest (fuel + 2)) (manifest.members?.getD []) "$"
      [("components", .arr []), ("tokens", tokenTower (n + 1))] = .error .endless := by
  have htokens : checkAt manifest (fuel + 2) (tokenTower (n + 1))
      (.obj [("$ref", .str "#/definitions/tokenTree")]) (memberPath "$" "tokens") =
        .error .endless := by
    change (checkObject (checkAt manifest fuel)
      [("type", .str "object"), ("additionalProperties", toTokenNode)] _
        [("a", tokenTower n)] >>= _) = _
    rw [checkObject_tokenTower (.inr rfl) (checkAt_tokenTower h _)]
    rfl
  -- the keys of the schema come in order, and the tokens behind keys that find nothing
  have hkeys : inOrder (Members.keys (memberSchemas (manifest.members?.getD []) "properties")) =
      ["components", "description", "lastModified", "metadata", "name"] ++
        "tokens" :: ["version"] := by decide +kernel
  rw [checkProperties, hkeys]
  refine gather_of_error ?_ htokens
  simp only [List.forall_mem_cons]
  exact ⟨rfl, rfl, rfl, rfl, rfl, List.forall_mem_nil _⟩

end Steps

/-- **A check of groups of tokens is stopped** if there is room for three steps on each of them only. -/
theorem checkAt_towerRegistry {n room : ℕ} (h : room ≤ 3 * n) :
    checkAt manifest room (towerRegistry n) manifest "$" = .error .endless := by
  cases n with
  | zero =>
      obtain rfl : room = 0 := by omega
      rfl
  | succ n =>
      rcases room with _ | _ | _ | fuel
      · rfl
      · rfl
      · rfl
      · have hobject : checkObject (checkAt manifest (fuel + 2)) (manifest.members?.getD []) "$"
            [("components", .arr []), ("tokens", tokenTower (n + 1))] = .error .endless := by
          change (checkProperties _ _ _ _ >>= _) = _
          rw [checkProperties_towerRegistry (by omega)]
          rfl
        change (checkObject (checkAt manifest (fuel + 2)) (manifest.members?.getD []) "$"
          [("components", .arr []), ("tokens", tokenTower (n + 1))] >>= _) = _
        rw [hobject]
        rfl

end Schema

/-- A registry of groups of tokens has no report if there is room for three steps on each of them only. -/
theorem Validator.validate_towerRegistry {n room : ℕ} (h : room ≤ 3 * n) :
    (Validator.standard.within room).validate (Schema.towerRegistry n) SchemaTag.manifest.name =
      .error (.fault .endless) := by
  have hstopped : (Validator.standard.within room).errors Schema.manifest (Schema.towerRegistry n) =
      .error .endless := by
    change Schema.validateWithin room Schema.manifest Schema.manifest (Schema.towerRegistry n) "$" = _
    rw [Schema.validateWithin, Schema.checkAt_towerRegistry h]
    rfl
  exact Validator.validate_eq_error hstopped (Validator.lookup_standard .manifest)

end DesignRegistry
