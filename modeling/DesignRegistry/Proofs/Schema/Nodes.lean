/-
**Reading a schema keyword by keyword.**

A schema without a reference is satisfied if the demands of each of its keywords are met, and a keyword
that it does not have demands nothing.  What the demands of a keyword come to is told here for each
keyword that the bundled schemas use, so that a schema can be read off from its members.

Main definitions:

* `Schema.Keyword.key` — the member of a schema that a keyword is read from;
* `Schema.Meets` — the demands of one keyword are met;
* `Json.Members.Maybe`, `Json.Members.Each` — what a member is if it is there, and what all of them are.

Main results:

* `Schema.satisfies_reference`, `Schema.satisfies_keywords` — **a schema is a reference, or its
  keywords**;
* `Schema.meets_properties`, `Schema.meets_additional` and others — what each keyword comes to.
-/
import DesignRegistry.Proofs.Json.Content
import DesignRegistry.Proofs.Schema.Meaning

set_option relaxedAutoImplicit false
set_option autoImplicit false

namespace DesignRegistry

/-! ### Members -/

namespace Json.Members

/-- The value of a key, if the key is there. -/
def Maybe (key : String) (P : Json → Prop) (ms : Members) : Prop := ∀ v, get? key ms = some v → P v

/-- The value of a key, which is there. -/
def Given (key : String) (P : Json → Prop) (ms : Members) : Prop := ∃ v, get? key ms = some v ∧ P v

/-- The values of all keys. -/
def Each (P : Json → Prop) (ms : Members) : Prop := ∀ key v, get? key ms = some v → P v

theorem given_iff {key : String} {P : Json → Prop} {ms : Members} :
    Given key P ms ↔ has key ms = true ∧ Maybe key P ms := by
  rw [Given, Maybe, has, Option.isSome_iff_exists]
  constructor
  · rintro ⟨v, hv, hP⟩
    refine ⟨⟨v, hv⟩, fun w hw => ?_⟩
    rwa [← Option.some.inj (hv.symm.trans hw)]
  · rintro ⟨⟨v, hv⟩, hP⟩
    exact ⟨v, hv, hP v hv⟩

theorem Maybe.congr {key : String} {P Q : Json → Prop} {ms : Members} (h : ∀ v, P v ↔ Q v) :
    Maybe key P ms ↔ Maybe key Q ms := forall_congr' fun v => imp_congr_right fun _ => h v

theorem Each.congr {P Q : Json → Prop} {ms : Members} (h : ∀ v, P v ↔ Q v) :
    Each P ms ↔ Each Q ms := forall_congr' fun _ => Maybe.congr h

/-- What holds of each key of members with different keys holds of each member. -/
theorem forall_get?_iff {ms : Members} (h : (keys ms).Nodup) {P : String → Json → Prop} :
    (∀ key v, get? key ms = some v → P key v) ↔ ∀ m ∈ ms, P m.1 m.2 :=
  ⟨fun hP m hm => hP m.1 m.2 (get?_of_mem h hm), fun hP _ _ hv => hP _ (mem_of_get? hv)⟩

end Json.Members

namespace Schema

open Json

/-! ### Keywords -/

/-- The member of a schema that a keyword is read from. -/
def Keyword.key : Keyword → String
  | .allOf => "allOf"
  | .anyOf => "anyOf"
  | .oneOf => "oneOf"
  | .condition => "if"
  | .type => "type"
  | .const => "const"
  | .enum => "enum"
  | .minLength => "minLength"
  | .maxLength => "maxLength"
  | .pattern => "pattern"
  | .format => "format"
  | .minimum => "minimum"
  | .maximum => "maximum"
  | .required => "required"
  | .properties => "properties"
  | .patternProperties => "patternProperties"
  | .additionalProperties => "additionalProperties"
  | .minItems => "minItems"
  | .maxItems => "maxItems"
  | .uniqueItems => "uniqueItems"
  | .items => "items"

/-- The keywords. -/
def Keyword.all : List Keyword :=
  [.allOf, .anyOf, .oneOf, .condition, .type, .const, .enum, .minLength, .maxLength, .pattern,
    .format, .minimum, .maximum, .required, .properties, .patternProperties,
    .additionalProperties, .minItems, .maxItems, .uniqueItems, .items]

theorem Keyword.mem_all (k : Keyword) : k ∈ all := by cases k <;> decide

/-- The keywords that a schema has. -/
def keywordsOf (ms : Members) : List Keyword := Keyword.all.filter fun k => Members.has k.key ms

/-- The demands of a keyword are met. -/
def Meets (root : Json) (ms : Members) (k : Keyword) (v : Json) : Prop :=
  ∀ d, Asks ms k v d → Verdict root d true

variable {root v : Json} {ms : Members}

theorem has_of_keyword? {name : String} {bound : Json} (h : keyword? ms name = some bound) :
    Members.has name ms = true := by
  rw [keyword?] at h
  split at h
  · exact absurd h (by simp)
  · rw [Members.has, h, Option.isSome_some]

theorem has_of_mem_memberSchemas {name : String} {m : String × Json}
    (h : m ∈ memberSchemas ms name) : Members.has name ms = true := by
  rw [memberSchemas] at h
  split at h
  · next found => rw [Members.has, found, Option.isSome_some]
  · exact absurd h List.not_mem_nil

/-- A keyword that a schema does not have demands nothing. -/
theorem Asks.has {k : Keyword} {d : Demand} (h : Asks ms k v d) : Members.has k.key ms = true := by
  cases h with
  | minLength h | maxLength h | minimum _ h | maximum _ h | minItems h | maxItems h =>
      exact has_of_keyword? h
  | patternProperties h => exact has_of_mem_memberSchemas h
  | properties h => exact has_of_mem_memberSchemas (Members.mem_of_get? h)
  | allOf h | anyOf h | oneOf h | condition h | type h | types h | const h | enum h | pattern h
  | format h | required h | additionalProperties h | uniqueItems h | items h =>
      rw [Members.has, Keyword.key, h, Option.isSome_some]

/-- A schema that is a reference means the schema that it names. -/
theorem satisfies_reference {r : String} {target : Json}
    (href : Members.get? "$ref" ms = some (.str r)) (htarget : root.resolve r = .ok target) :
    Satisfies root (.obj ms) v ↔ Satisfies root target v := by
  constructor
  · intro h
    cases h with
    | reference href' htarget' hverdict =>
        obtain rfl := Json.str.inj (Option.some.inj (href.symm.trans href'))
        obtain rfl := Except.ok.inj (htarget.symm.trans htarget')
        exact hverdict
    | every hnone => exact absurd (href.symm.trans hnone) (by simp)
  · exact .reference href htarget

/-- A schema without a reference means what its keywords demand. -/
theorem satisfies_keywords (href : Members.get? "$ref" ms = none) :
    Satisfies root (.obj ms) v ↔ ∀ k ∈ keywordsOf ms, Meets root ms k v := by
  constructor
  · intro h k _ d hasks
    cases h with
    | reference href' => exact absurd (href.symm.trans href') (by simp)
    | every _ hevery => exact hevery k d hasks
  · intro h
    refine .every href fun k d hasks => h k ?_ d hasks
    exact List.mem_filter.2 ⟨k.mem_all, hasks.has⟩

/-! ### Combinations -/

theorem meets_allOf {schemas : List Json} (h : Members.get? "allOf" ms = some (.arr schemas)) :
    Meets root ms .allOf v ↔ ∀ s ∈ schemas, Satisfies root s v := by
  constructor
  · exact fun hmeets s hs => hmeets _ (.allOf h hs)
  · intro hall d hasks
    cases hasks with
    | allOf h' hs =>
        obtain rfl := Json.arr.inj (Option.some.inj (h.symm.trans h'))
        exact hall _ hs

/-- Where it is settled when a condition is satisfied, the branches are what is left of it. -/
theorem meets_condition {condition : Members} {P : Prop}
    (h : Members.get? "if" ms = some (.obj condition))
    (hmet : P → Verdict root (.meets (.obj condition) v) true)
    (hunmet : ¬P → Verdict root (.meets (.obj condition) v) false) :
    Meets root ms .condition v ↔
      (P → Satisfies root ((Members.get? "then" ms).getD (.bool true)) v) ∧
        (¬P → Satisfies root ((Members.get? "else" ms).getD (.bool true)) v) := by
  constructor
  · intro hmeets
    have hbranch := hmeets _ (.condition h)
    refine ⟨fun hP => ?_, fun hP => ?_⟩
    · cases hbranch with
      | met _ hthen => exact hthen
      | unmet hcondition => exact absurd ((hmet hP).unique hcondition) (by simp)
    · cases hbranch with
      | met hcondition => exact absurd ((hunmet hP).unique hcondition) (by simp)
      | unmet _ helse => exact helse
  · rintro ⟨hthen, helse⟩ d hasks
    cases hasks with
    | condition h' =>
        obtain rfl := Json.obj.inj (Option.some.inj (h.symm.trans h'))
        by_cases hP : P
        · exact .met (hmet hP) (hthen hP)
        · exact .unmet (hunmet hP) (helse hP)

/-! ### Values -/

theorem verdict_fact {holds : Prop} : Verdict root (.fact holds) true ↔ holds := by
  constructor
  · intro h
    cases h with
    | fact hholds => exact hholds
  · exact .fact

theorem meets_type {name : String} (h : Members.get? "type" ms = some (.str name)) :
    Meets root ms .type v ↔ OfType v name := by
  constructor
  · exact fun hmeets => verdict_fact.1 (hmeets _ (.type h))
  · intro hof d hasks
    cases hasks with
    | type h' =>
        obtain rfl := Json.str.inj (Option.some.inj (h.symm.trans h'))
        exact .fact hof
    | types h' => exact absurd (h.symm.trans h') (by simp)

theorem meets_types {names : List Json} (h : Members.get? "type" ms = some (.arr names)) :
    Meets root ms .type v ↔ ∃ name ∈ names, OfType v name.plain := by
  constructor
  · exact fun hmeets => verdict_fact.1 (hmeets _ (.types h))
  · intro hof d hasks
    cases hasks with
    | type h' => exact absurd (h.symm.trans h') (by simp)
    | types h' =>
        obtain rfl := Json.arr.inj (Option.some.inj (h.symm.trans h'))
        exact .fact hof

theorem meets_const {c : Json} (h : Members.get? "const" ms = some c) :
    Meets root ms .const v ↔ v.equivalent c = true := by
  constructor
  · exact fun hmeets => verdict_fact.1 (hmeets _ (.const h))
  · intro heq d hasks
    cases hasks with
    | const h' =>
        obtain rfl := Option.some.inj (h.symm.trans h')
        exact .fact heq

theorem meets_enum {values : List Json} (h : Members.get? "enum" ms = some (.arr values)) :
    Meets root ms .enum v ↔ ∃ c ∈ values, c.equivalent v = true := by
  constructor
  · exact fun hmeets => verdict_fact.1 (hmeets _ (.enum h))
  · intro hsome d hasks
    cases hasks with
    | enum h' =>
        obtain rfl := Json.arr.inj (Option.some.inj (h.symm.trans h'))
        exact .fact hsome

/-! ### Texts -/

theorem meets_minLength {bound : Json} {n : Int} (h : keyword? ms "minLength" = some bound)
    (hn : integerOf bound = .ok n) :
    Meets root ms .minLength v ↔ ∀ s, v = .str s → n ≤ s.length := by
  constructor
  · rintro hmeets s rfl
    exact verdict_fact.1 (hmeets _ (.minLength h hn))
  · intro hlong d hasks
    cases hasks with
    | minLength h' hn' =>
        obtain rfl := Option.some.inj (h.symm.trans h')
        obtain rfl := Except.ok.inj (hn.symm.trans hn')
        exact .fact (hlong _ rfl)

theorem meets_pattern {written : String} {p : Pattern}
    (h : Members.get? "pattern" ms = some (.str written)) (hp : patternOf written = .ok p) :
    Meets root ms .pattern v ↔ ∀ s, v = .str s → p.occursIn s = true := by
  constructor
  · rintro hmeets s rfl
    exact verdict_fact.1 (hmeets _ (.pattern h hp))
  · intro hoccurs d hasks
    cases hasks with
    | pattern h' hp' =>
        obtain rfl := Json.str.inj (Option.some.inj (h.symm.trans h'))
        obtain rfl := Except.ok.inj (hp.symm.trans hp')
        exact .fact (hoccurs _ rfl)

theorem meets_format (h : Members.get? "format" ms = some (.str "date-time")) :
    Meets root ms .format v ↔ ∀ s, v = .str s → ∃ t, checkDateTimeText s = .ok t := by
  constructor
  · rintro hmeets s rfl
    exact verdict_fact.1 (hmeets _ (.format h))
  · intro hfits d hasks
    cases hasks with
    | format => exact .fact (hfits _ rfl)

/-! ### Objects and arrays -/

theorem meets_required {keys : List Json} (h : Members.get? "required" ms = some (.arr keys)) :
    Meets root ms .required v ↔ ∀ vs, v = .obj vs → ∀ k ∈ keys, ∃ key, k = .str key ∧
      Members.has key vs = true := by
  constructor
  · rintro hmeets vs rfl k hk
    exact verdict_fact.1 (hmeets _ (.required h hk))
  · intro hall d hasks
    cases hasks with
    | required h' hk =>
        obtain rfl := Json.arr.inj (Option.some.inj (h.symm.trans h'))
        exact .fact (hall _ rfl _ hk)

theorem meets_properties {schemas : Members}
    (h : Members.get? "properties" ms = some (.obj schemas)) (hu : (Members.keys schemas).Nodup) :
    Meets root ms .properties v ↔
      ∀ vs, v = .obj vs → ∀ m ∈ schemas, Members.Maybe m.1 (Satisfies root m.2) vs := by
  have hschemas : memberSchemas ms "properties" = schemas := by rw [memberSchemas, h]
  have hiff : ∀ vs, (∀ m ∈ schemas, Members.Maybe m.1 (Satisfies root m.2) vs) ↔
      ∀ key s, Members.get? key schemas = some s → Members.Maybe key (Satisfies root s) vs :=
    fun vs => (Members.forall_get?_iff (P := fun key s => Members.Maybe key (Satisfies root s) vs)
      hu).symm
  simp only [hiff]
  constructor
  · rintro hmeets vs rfl key s hs w hw
    exact hmeets _ (.properties (hschemas ▸ hs) hw)
  · intro hall d hasks
    cases hasks with
    | properties hs hw => exact hall _ rfl _ _ (hschemas ▸ hs) _ hw

/-- Where there are neither properties nor patterns, the other properties are all of them. -/
theorem meets_additional {s : Json} (h : Members.get? "additionalProperties" ms = some s)
    (hs : IsSchema s) (hproperties : Members.get? "properties" ms = none)
    (hpatterns : Members.get? "patternProperties" ms = none) :
    Meets root ms .additionalProperties v ↔
      ∀ vs, v = .obj vs → Members.Each (Satisfies root s) vs := by
  constructor
  · rintro hmeets vs rfl key w hw
    refine hmeets _ (.additionalProperties h hs hw ?_ ?_)
    · rw [memberSchemas, hproperties]
      rfl
    · rintro ⟨m, hm, -⟩
      rw [memberSchemas, hpatterns] at hm
      exact absurd hm List.not_mem_nil
  · intro hall d hasks
    cases hasks with
    | additionalProperties h' _ hw =>
        obtain rfl := Option.some.inj (h.symm.trans h')
        exact hall _ rfl _ _ hw

theorem meets_items {s : Json} (h : Members.get? "items" ms = some s) (hs : IsSchema s) :
    Meets root ms .items v ↔ ∀ xs, v = .arr xs → ∀ x ∈ xs, Satisfies root s x := by
  constructor
  · rintro hmeets xs rfl x hx
    exact hmeets _ (.items h hs hx)
  · intro hall d hasks
    cases hasks with
    | items h' _ hx =>
        obtain rfl := Option.some.inj (h.symm.trans h')
        exact hall _ rfl _ hx

end Schema

end DesignRegistry
