/-
**What schemas mean.**

A schema demands something of a value: that it is accepted by other schemas, or something that the value
shows by itself.  Each keyword adds its demands, and a value satisfies a schema if all demands of all
its keywords are met; a reference stands for the schema that it names and makes the other keywords
void.  Since a keyword can count how many schemas are satisfied and a condition can fail, meeting a
demand is defined together with not meeting it: a demand has a verdict.

Meaning follows references as far as they go.  References that lead back to where they started never
lead to a verdict.

Main definitions:

* `Schema.OfType` — the types of values;
* `Schema.Keyword`, `Schema.Demand`, `Schema.Asks` — what each keyword demands of a value;
* `Schema.Verdict` — whether a demand is met;
* `Schema.Satisfies` — **a value satisfies a schema**.

Main results:

* `Schema.Verdict.unique` — a demand is not both met and not met.
-/
import DesignRegistry.Schema.Check
import Mathlib.Data.List.Count

set_option relaxedAutoImplicit false
set_option autoImplicit false

namespace DesignRegistry

namespace Schema

open Json

/-! ### Demands -/

/-- The types of values: a number without a fraction is an integer too, and a boolean is no number. -/
def OfType : Json → String → Prop
  | .null, name => name = "null"
  | .bool _, name => name = "boolean"
  | .int _, name => name = "integer" ∨ name = "number"
  | .float _, name => name = "number"
  | .str _, name => name = "string"
  | .arr _, name => name = "array"
  | .obj _, name => name = "object"

/-- The keywords, one for each group that is read together. -/
inductive Keyword where
  | allOf | anyOf | oneOf | condition | type | const | enum
  | minLength | maxLength | pattern | format
  | minimum | maximum
  | required | properties | patternProperties | additionalProperties
  | minItems | maxItems | uniqueItems | items
deriving DecidableEq

/-- Something that a schema demands. -/
inductive Demand where
  /-- What a value shows by itself. -/
  | fact (holds : Prop)
  /-- A schema is satisfied by a value. -/
  | meets (schema value : Json)
  /-- Some schema of a list is satisfied by a value. -/
  | some (schemas : List Json) (value : Json)
  /-- Exactly one schema of a list is satisfied by a value. -/
  | one (schemas : List Json) (value : Json)
  /-- Where a condition is satisfied by a value one schema is too, and elsewhere another. -/
  | branch (condition met unmet value : Json)

/-- Whether a pattern of the keyword `patternProperties` covers a key. -/
def CoveredByPattern (schema : Members) (key : String) : Prop :=
  ∃ m ∈ memberSchemas schema "patternProperties", ∃ p,
    patternOf m.1 = .ok p ∧ p.occursIn key = true

/-- A schema that is an object or a boolean. -/
def IsSchema (s : Json) : Prop := (∃ b, s = .bool b) ∨ ∃ ms, s = .obj ms

/-- What each keyword of a schema demands of a value. -/
inductive Asks (schema : Members) : Keyword → Json → Demand → Prop
  | allOf {v s : Json} {schemas : List Json} :
      Members.get? "allOf" schema = some (.arr schemas) → s ∈ schemas →
      Asks schema .allOf v (.meets s v)
  | anyOf {v : Json} {schemas : List Json} :
      Members.get? "anyOf" schema = some (.arr schemas) → schemas ≠ [] →
      Asks schema .anyOf v (.some schemas v)
  | oneOf {v : Json} {schemas : List Json} :
      Members.get? "oneOf" schema = some (.arr schemas) → Asks schema .oneOf v (.one schemas v)
  /-- A branch that is not given accepts every value. -/
  | condition {v : Json} {condition : Members} :
      Members.get? "if" schema = some (.obj condition) →
      Asks schema .condition v (.branch (.obj condition)
        ((Members.get? "then" schema).getD (.bool true))
        ((Members.get? "else" schema).getD (.bool true)) v)
  | type {v : Json} {name : String} : Members.get? "type" schema = some (.str name) →
      Asks schema .type v (.fact (OfType v name))
  | types {v : Json} {names : List Json} : Members.get? "type" schema = some (.arr names) →
      Asks schema .type v (.fact (∃ name ∈ names, OfType v name.plain))
  | const {v c : Json} : Members.get? "const" schema = some c →
      Asks schema .const v (.fact (v.equivalent c = true))
  | enum {v : Json} {values : List Json} : Members.get? "enum" schema = some (.arr values) →
      Asks schema .enum v (.fact (∃ c ∈ values, c.equivalent v = true))
  | minLength {text : String} {bound : Json} {n : Int} : keyword? schema "minLength" = some bound →
      integerOf bound = .ok n → Asks schema .minLength (.str text) (.fact (n ≤ text.length))
  | maxLength {text : String} {bound : Json} {n : Int} : keyword? schema "maxLength" = some bound →
      integerOf bound = .ok n → Asks schema .maxLength (.str text) (.fact (text.length ≤ n))
  | pattern {text written : String} {p : Pattern} :
      Members.get? "pattern" schema = some (.str written) → patternOf written = .ok p →
      Asks schema .pattern (.str text) (.fact (p.occursIn text = true))
  | format {text : String} : Members.get? "format" schema = some (.str "date-time") →
      Asks schema .format (.str text) (.fact (∃ t, checkDateTimeText text = .ok t))
  | minimum {v bound : Json} {x least : Binary64} : OfType v "number" →
      keyword? schema "minimum" = some bound → binaryOf v = .ok x → binaryOf bound = .ok least →
      Asks schema .minimum v (.fact (x.lt least = false))
  | maximum {v bound : Json} {x most : Binary64} : OfType v "number" →
      keyword? schema "maximum" = some bound → binaryOf v = .ok x → binaryOf bound = .ok most →
      Asks schema .maximum v (.fact (most.lt x = false))
  | required {ms : Members} {keys : List Json} {k : Json} :
      Members.get? "required" schema = some (.arr keys) → k ∈ keys →
      Asks schema .required (.obj ms) (.fact (∃ key, k = .str key ∧ Members.has key ms = true))
  | properties {ms : Members} {key : String} {s v : Json} :
      Members.get? key (memberSchemas schema "properties") = some s →
      Members.get? key ms = some v → Asks schema .properties (.obj ms) (.meets s v)
  | patternProperties {ms : Members} {m : String × Json} {p : Pattern} {key : String} {v : Json} :
      m ∈ memberSchemas schema "patternProperties" → patternOf m.1 = .ok p →
      Members.get? key ms = some v → p.occursIn key = true →
      Asks schema .patternProperties (.obj ms) (.meets m.2 v)
  /-- The keys that neither a name nor a pattern covers. -/
  | additionalProperties {ms : Members} {s : Json} {key : String} {v : Json} :
      Members.get? "additionalProperties" schema = some s → IsSchema s →
      Members.get? key ms = some v → Members.has key (memberSchemas schema "properties") = false →
      ¬ CoveredByPattern schema key → Asks schema .additionalProperties (.obj ms) (.meets s v)
  | minItems {xs : List Json} {bound : Json} {n : Int} : keyword? schema "minItems" = some bound →
      integerOf bound = .ok n → Asks schema .minItems (.arr xs) (.fact (n ≤ xs.length))
  | maxItems {xs : List Json} {bound : Json} {n : Int} : keyword? schema "maxItems" = some bound →
      integerOf bound = .ok n → Asks schema .maxItems (.arr xs) (.fact (xs.length ≤ n))
  | uniqueItems {xs : List Json} : Members.get? "uniqueItems" schema = some (.bool true) →
      Asks schema .uniqueItems (.arr xs)
        (.fact (xs.Pairwise fun earlier later => earlier.equivalent later = false))
  | items {xs : List Json} {s x : Json} : Members.get? "items" schema = some s → IsSchema s →
      x ∈ xs → Asks schema .items (.arr xs) (.meets s x)

/-! ### Verdicts -/

/-- Whether a demand is met. -/
inductive Verdict (root : Json) : Demand → Bool → Prop
  | fact {holds : Prop} : holds → Verdict root (.fact holds) true
  | no_fact {holds : Prop} : ¬ holds → Verdict root (.fact holds) false
  /-- The schemas true and false accept everything and nothing. -/
  | boolean (b : Bool) (v : Json) : Verdict root (.meets (.bool b) v) b
  /-- What is neither an object nor a boolean accepts nothing. -/
  | no_schema {s : Json} (v : Json) : ¬ IsSchema s → Verdict root (.meets s v) false
  /-- A reference means the schema that it names. -/
  | reference {ms : Members} {r : String} {target v : Json} {b : Bool} :
      Members.get? "$ref" ms = some (.str r) → root.resolve r = .ok target →
      Verdict root (.meets target v) b → Verdict root (.meets (.obj ms) v) b
  /-- A reference that names nothing accepts nothing. -/
  | no_reference {ms : Members} {reference : Json} (v : Json) :
      Members.get? "$ref" ms = some reference →
      (∀ r target, reference = .str r → root.resolve r ≠ .ok target) →
      Verdict root (.meets (.obj ms) v) false
  /-- All demands of all keywords are met. -/
  | every {ms : Members} {v : Json} : Members.get? "$ref" ms = none →
      (∀ k d, Asks ms k v d → Verdict root d true) → Verdict root (.meets (.obj ms) v) true
  | not_every {ms : Members} {v : Json} {k : Keyword} {d : Demand} :
      Members.get? "$ref" ms = none → Asks ms k v d → Verdict root d false →
      Verdict root (.meets (.obj ms) v) false
  | some {schemas : List Json} {s v : Json} : s ∈ schemas → Verdict root (.meets s v) true →
      Verdict root (.some schemas v) true
  | not_some {schemas : List Json} {v : Json} :
      (∀ s ∈ schemas, Verdict root (.meets s v) false) → Verdict root (.some schemas v) false
  /-- The schemas are counted that are satisfied. -/
  | one {schemas : List Json} {v : Json} (satisfied : Json → Bool) :
      (∀ s ∈ schemas, Verdict root (.meets s v) (satisfied s)) →
      Verdict root (.one schemas v) (schemas.countP satisfied == 1)
  | met {condition met unmet v : Json} {b : Bool} : Verdict root (.meets condition v) true →
      Verdict root (.meets met v) b → Verdict root (.branch condition met unmet v) b
  | unmet {condition met unmet v : Json} {b : Bool} : Verdict root (.meets condition v) false →
      Verdict root (.meets unmet v) b → Verdict root (.branch condition met unmet v) b

/-- A value satisfies a schema; references are resolved in a root. -/
def Satisfies (root schema v : Json) : Prop := Verdict root (.meets schema v) true

/-- A demand is not both met and not met. -/
theorem Verdict.unique {root : Json} {d : Demand} {b b' : Bool} (h : Verdict root d b)
    (h' : Verdict root d b') : b = b' := by
  -- two verdicts come from one rule, or from rules whose conditions exclude each other
  induction h generalizing b' with
  | fact hholds =>
      cases h' with
      | fact => rfl
      | no_fact hnot => exact absurd hholds hnot
  | no_fact hnot =>
      cases h' with
      | fact hholds => exact absurd hholds hnot
      | no_fact => rfl
  | boolean b v =>
      cases h' with
      | boolean => rfl
      | no_schema _ hnot => exact absurd (.inl ⟨b, rfl⟩) hnot
  | no_schema v hnot =>
      cases h' with
      | boolean => exact absurd (.inl ⟨_, rfl⟩) hnot
      | no_schema => rfl
      | reference => exact absurd (.inr ⟨_, rfl⟩) hnot
      | no_reference => rfl
      | every => exact absurd (.inr ⟨_, rfl⟩) hnot
      | not_every => rfl
  | reference href htarget _ ih =>
      cases h' with
      | no_schema _ hnot => exact absurd (.inr ⟨_, rfl⟩) hnot
      | reference href' htarget' hverdict =>
          obtain rfl := Json.str.inj (Option.some.inj (href.symm.trans href'))
          obtain rfl := Except.ok.inj (htarget.symm.trans htarget')
          exact ih hverdict
      | no_reference _ href' hnot =>
          obtain rfl := Option.some.inj (href.symm.trans href')
          exact absurd htarget (hnot _ _ rfl)
      | every href' => exact absurd (href.symm.trans href') (by simp)
      | not_every href' => exact absurd (href.symm.trans href') (by simp)
  | no_reference v href hnot =>
      cases h' with
      | no_schema => rfl
      | reference href' htarget' =>
          obtain rfl := Option.some.inj (href.symm.trans href')
          exact absurd htarget' (hnot _ _ rfl)
      | no_reference => rfl
      | every href' => exact absurd (href.symm.trans href') (by simp)
      | not_every => rfl
  | every href _ ih =>
      cases h' with
      | no_schema _ hnot => exact absurd (.inr ⟨_, rfl⟩) hnot
      | reference href' => exact absurd (href.symm.trans href') (by simp)
      | no_reference _ href' => exact absurd (href.symm.trans href') (by simp)
      | every => rfl
      | not_every _ hasks hverdict => exact ih _ _ hasks hverdict
  | not_every href hasks _ ih =>
      cases h' with
      | no_schema => rfl
      | reference href' => exact absurd (href.symm.trans href') (by simp)
      | no_reference => rfl
      | every _ hevery => exact ih (hevery _ _ hasks)
      | not_every => rfl
  | some hs _ ih =>
      cases h' with
      | some => rfl
      | not_some hnone => exact ih (hnone _ hs)
  | not_some _ ih =>
      cases h' with
      | some hs hverdict => exact ih _ hs hverdict
      | not_some => rfl
  | one satisfied _ ih =>
      cases h' with
      | one satisfied' hverdicts =>
          rw [List.countP_congr fun s hs => by rw [ih s hs (hverdicts s hs)]]
  | met _ _ ihc ih =>
      cases h' with
      | met _ hverdict => exact ih hverdict
      | unmet hc => exact absurd (ihc hc) (by simp)
  | unmet _ _ ihc ih =>
      cases h' with
      | met hc => exact absurd (ihc hc) (by simp)
      | unmet _ hverdict => exact ih hverdict

end Schema

end DesignRegistry
