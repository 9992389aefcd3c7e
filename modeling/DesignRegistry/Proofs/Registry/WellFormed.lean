/-
**Well-formed registries.**

The schema of manifests is a document with references, conditions and a definition that refers to itself.
What it accepts is told here without it: which members a registry has and what they are, down to the
definitions of props and the tree of tokens.  A token is told from a group by whether it has a value, and
groups nest to any depth.

Main definitions:

* `Json.IsText`, `Json.ObjectWith`, `Json.ListOf` — the shapes of members;
* `Registry.StartsWithVersion` — three numbers with dots between them;
* `Registry.PropDefinition`, `Registry.ComponentFields`, `Registry.TokenNode`,
  `Registry.WellFormed` — **well-formed registries**.

Main results:

* `Registry.satisfies_propDef`, `Registry.satisfies_tokenNode`, `Registry.satisfies_component` — what the
  definitions of the schema accept;
* `Registry.validate_manifest` — **the schema of manifests accepts exactly the well-formed registries**.
-/
import DesignRegistry.Proofs.Pattern.Runs
import DesignRegistry.Proofs.Schema.Bound
import DesignRegistry.Proofs.Schema.Nodes
import DesignRegistry.Registry.Validation

set_option relaxedAutoImplicit false
set_option autoImplicit false

namespace DesignRegistry

/-! ### Shapes -/

namespace Json

/-- A text. -/
def IsText (v : Json) : Prop := ∃ s, v = .str s

/-- A text that is not empty. -/
def IsName (v : Json) : Prop := ∃ s, v = .str s ∧ s ≠ ""

/-- A boolean. -/
def IsFlag (v : Json) : Prop := ∃ b, v = .bool b

/-- A text or a number; a boolean is neither. -/
def IsScalar (v : Json) : Prop := IsText v ∨ (∃ n, v = .int n) ∨ ∃ x, v = .float x

/-- An object whose members fulfil a condition. -/
def ObjectWith (P : Members → Prop) (v : Json) : Prop := ∃ ms, v = .obj ms ∧ P ms

/-- An array of values of one kind. -/
def ListOf (P : Json → Prop) (v : Json) : Prop := ∃ xs, v = .arr xs ∧ ∀ x ∈ xs, P x

@[simp] theorem objectWith_obj {P : Members → Prop} {ms : Members} :
    ObjectWith P (.obj ms) ↔ P ms := by
  simp [ObjectWith]

theorem objectWith_iff {P : Members → Prop} {v : Json} :
    ObjectWith P v ↔ (∃ ms, v = .obj ms) ∧ ∀ ms, v = .obj ms → P ms := by
  constructor
  · rintro ⟨ms, rfl, h⟩
    exact ⟨⟨ms, rfl⟩, fun ns hns => Json.obj.inj hns ▸ h⟩
  · rintro ⟨⟨ms, rfl⟩, h⟩
    exact ⟨ms, rfl, h ms rfl⟩

theorem listOf_iff {P : Json → Prop} {v : Json} :
    ListOf P v ↔ (∃ xs, v = .arr xs) ∧ ∀ xs, v = .arr xs → ∀ x ∈ xs, P x := by
  constructor
  · rintro ⟨xs, rfl, h⟩
    exact ⟨⟨xs, rfl⟩, fun ys hys => Json.arr.inj hys ▸ h⟩
  · rintro ⟨⟨xs, rfl⟩, h⟩
    exact ⟨xs, rfl, h xs rfl⟩

theorem ObjectWith.congr {P Q : Members → Prop} {v : Json} (h : ∀ ms, P ms ↔ Q ms) :
    ObjectWith P v ↔ ObjectWith Q v :=
  exists_congr fun ms => and_congr_right fun _ => h ms

end Json

open Json

namespace Registry

/-! ### The data of a registry -/

/-- A number in decimal digits. -/
def Digits (cs : List Char) : Prop := cs ≠ [] ∧ ∀ c ∈ cs, isDecimal c = true

/-- A text that starts with three numbers, with dots between them. -/
def StartsWithVersion (cs : List Char) : Prop :=
  ∃ major minor patch rest, cs = major ++ '.' :: (minor ++ '.' :: (patch ++ rest)) ∧
    Digits major ∧ Digits minor ∧ Digits patch

/-- The definition of a prop: its type is one of those of props, and only a text lists its values. -/
structure PropDefinition (ms : Members) : Prop where
  type : Members.Given "type" (fun t => ∃ name ∈ Component.propTypes, t = .str name) ms
  required : Members.Maybe "required" IsFlag ms
  description : Members.Maybe "description" IsText ms
  values : Members.Maybe "values" (ListOf IsText) ms
  listing : Members.has "values" ms = true → Members.Given "type" (· = .str "string") ms

/-- The definition of a prop that carries its own name. -/
def NamedPropDefinition (ms : Members) : Prop :=
  PropDefinition ms ∧ Members.Given "name" IsName ms

/-- Props: definitions by name, or a list of definitions with names. -/
def IsProps (v : Json) : Prop :=
  ObjectWith (Members.Each (ObjectWith PropDefinition)) v ∨ ListOf (ObjectWith NamedPropDefinition) v

/-- Texts by name. -/
def IsTextMap (v : Json) : Prop := ObjectWith (Members.Each IsText) v

/-- The members of a component. -/
structure ComponentFields (ms : Members) : Prop where
  name : Members.Given "name" IsName ms
  description : Members.Maybe "description" IsText ms
  props : Members.Maybe "props" IsProps ms
  variants : Members.Maybe "variants" (ObjectWith (Members.Each IsTextMap)) ms
  examples : Members.Maybe "examples" (ListOf IsText) ms
  peerDependencies : Members.Maybe "peerDependencies" IsTextMap ms
  dependencies : Members.Maybe "dependencies" IsTextMap ms
  tokens : Members.Maybe "tokens"
    (ObjectWith (Members.Each fun v => IsScalar v ∨ ∃ ms, v = .obj ms)) ms

/-- The members of a token. -/
structure TokenFields (ms : Members) : Prop where
  value : Members.Given "value" IsScalar ms
  type : Members.Maybe "type" IsText ms
  category : Members.Maybe "category" IsText ms
  description : Members.Maybe "description" IsText ms

/-- A node of a tree of tokens: a token, which has a value, or a group of nodes. -/
inductive TokenNode : Json → Prop
  | token {ms : Members} : TokenFields ms → TokenNode (.obj ms)
  | group {ms : Members} : Members.has "value" ms = false →
      (∀ key v, Members.get? key ms = some v → TokenNode v) → TokenNode (.obj ms)

/-- The members of a registry. -/
structure Fields (ms : Members) : Prop where
  name : Members.Given "name" IsName ms
  version : Members.Given "version" (fun v => ∃ s, v = .str s ∧ StartsWithVersion s.toList) ms
  description : Members.Maybe "description" IsText ms
  components : Members.Given "components" (ListOf (ObjectWith ComponentFields)) ms
  tokens : Members.Maybe "tokens" (ObjectWith (Members.Each TokenNode)) ms
  metadata : Members.Maybe "metadata" (fun v => ∃ members, v = .obj members) ms
  lastModified : Members.Maybe "lastModified" (fun v => checkDateTime v = .ok ()) ms

/-- A well-formed registry. -/
def WellFormed (v : Json) : Prop := ObjectWith Fields v

/-! ### Scalars -/

open Schema

variable {v : Json}

theorem ofType_string : OfType v "string" ↔ IsText v := by
  cases v <;> simp [OfType, IsText]

theorem ofType_boolean : OfType v "boolean" ↔ IsFlag v := by
  cases v <;> simp [OfType, IsFlag]

theorem ofType_number : OfType v "number" ↔ (∃ n, v = .int n) ∨ ∃ x, v = .float x := by
  cases v <;> simp [OfType]

theorem ofType_object : OfType v "object" ↔ ∃ ms, v = .obj ms := by
  cases v <;> simp [OfType]

theorem ofType_array : OfType v "array" ↔ ∃ xs, v = .arr xs := by
  cases v <;> simp [OfType]

theorem equivalent_str_iff {s : String} : v.equivalent (.str s) = true ↔ v = .str s := by
  cases v <;> simp [equivalent, equalBy, numericEqual, numeric?]

theorem str_equivalent_iff {s : String} : (Json.str s).equivalent v = true ↔ v = .str s := by
  rw [eq_comm (a := v)]
  cases v <;> simp [equivalent, equalBy, numericEqual, numeric?]

/-- The schema of a type. -/
theorem satisfies_typed (name : String) :
    Satisfies manifest (.obj [("type", .str name)]) v ↔ OfType v name := by
  rw [satisfies_keywords rfl, show keywordsOf _ = [.type] from rfl, List.forall_mem_singleton,
    meets_type rfl]

theorem satisfies_text : Satisfies manifest (.obj [("type", .str "string")]) v ↔ IsText v :=
  (satisfies_typed "string").trans ofType_string

theorem satisfies_flag : Satisfies manifest (.obj [("type", .str "boolean")]) v ↔ IsFlag v :=
  (satisfies_typed "boolean").trans ofType_boolean

theorem satisfies_name :
    Satisfies manifest (.obj [("type", .str "string"), ("minLength", .int 1)]) v ↔ IsName v := by
  rw [satisfies_keywords rfl, show keywordsOf _ = [.type, .minLength] from rfl,
    List.forall_mem_cons, List.forall_mem_singleton, meets_type rfl, meets_minLength rfl rfl,
    ofType_string]
  cases v with
  | str s =>
      have hlength : (1 : Int) ≤ s.length ↔ s ≠ "" := by
        have hzero : s.length = 0 ↔ s = "" := String.length_eq_zero_iff
        rw [Ne, ← hzero]
        omega
      simp only [IsText, IsName, Json.str.injEq, exists_eq', forall_eq', true_and,
        exists_eq_left', hlength]
  | null | bool _ | int _ | float _ | arr _ | obj _ => simp [IsText, IsName]

/-- An array whose items satisfy one schema. -/
theorem satisfies_list {s : Json} (hs : IsSchema s) {P : Json → Prop}
    (hP : ∀ w, Satisfies manifest s w ↔ P w) :
    Satisfies manifest (.obj [("type", .str "array"), ("items", s)]) v ↔ ListOf P v := by
  rw [satisfies_keywords rfl, show keywordsOf _ = [.type, .items] from rfl,
    List.forall_mem_cons, List.forall_mem_singleton, meets_type rfl, meets_items rfl hs,
    ofType_array, listOf_iff]
  simp only [hP]

theorem satisfies_texts :
    Satisfies manifest
      (.obj [("type", .str "array"), ("items", .obj [("type", .str "string")])]) v ↔
        ListOf IsText v :=
  satisfies_list (.inr ⟨_, rfl⟩) fun _ => satisfies_text

/-- An object whose members satisfy one schema. -/
theorem satisfies_each {s : Json} (hs : IsSchema s) {P : Json → Prop}
    (hP : ∀ w, Satisfies manifest s w ↔ P w) :
    Satisfies manifest (.obj [("type", .str "object"), ("additionalProperties", s)]) v ↔
      ObjectWith (Members.Each P) v := by
  rw [satisfies_keywords rfl, show keywordsOf _ = [.type, .additionalProperties] from rfl,
    List.forall_mem_cons, List.forall_mem_singleton, meets_type rfl, meets_additional rfl hs rfl rfl,
    ofType_object, objectWith_iff]
  simp only [Members.Each.congr hP]

/-! ### Versions -/

/-- The pattern of versions. -/
def versionPattern : Pattern :=
  let number : Pattern := .repeated .longest 1 none (.one { items := [.category false .digit false] })
  let dot : Pattern := .one (.single '.')
  .seq (.anchor .textStart) (.seq number (.seq dot (.seq number (.seq dot number))))

theorem patternOf_version : patternOf "^\\d+\\.\\d+\\.\\d+" = .ok versionPattern := by
  rfl

/-- A run of decimal digits. -/
theorem mem_ends_number {c d : Cursor} :
    d ∈ Pattern.ends (.repeated .longest 1 none (.one { items := [.category false .digit false] })) c ↔
      ∃ run rest, c.rest = run ++ rest ∧ Digits run ∧ d = c.past run rest := by
  have hdigits : ∀ run, 1 ≤ run.length ∧
      CharClass.Fills { items := [.category false .digit false] } run ↔ Digits run := by
    intro run
    refine and_congr ?_ ?_
    · rw [Nat.one_le_iff_ne_zero, Ne, List.length_eq_zero_iff]
    · simp [CharClass.Fills, CharClass.contains, CharClass.variants, ClassItem.contains,
        CharCategory.contains]
  rw [Pattern.mem_ends_run (by decide)]
  simp only [← hdigits, and_assoc]

theorem mem_ends_dot {c d : Cursor} : d ∈ Pattern.ends (.one (.single '.')) c ↔
    ∃ rest, c.rest = '.' :: rest ∧ d = c.past ['.'] rest := by
  rw [Pattern.mem_ends_one]
  have hdot : ∀ x, (CharClass.single '.').contains x = true ↔ x = '.' := by
    simp [CharClass.single, CharClass.contains, CharClass.variants, ClassItem.contains]
  simp only [hdot]
  constructor
  · rintro ⟨x, rest, hrest, rfl, hd⟩
    exact ⟨rest, hrest, hd⟩
  · rintro ⟨rest, hrest, hd⟩
    exact ⟨'.', rest, hrest, rfl, hd⟩

/-- The pattern of versions matches what starts with three numbers. -/
theorem occursIn_version {s : String} :
    versionPattern.occursIn s = true ↔ StartsWithVersion s.toList := by
  rw [versionPattern, Pattern.occursIn_textStart]
  simp only [Pattern.mem_ends_seq, mem_ends_number, mem_ends_dot]
  constructor
  · rintro ⟨d, c₁, ⟨major, rest₁, hmajor, hmajor', rfl⟩, c₂, ⟨rest₂, hdot, rfl⟩,
      c₃, ⟨minor, rest₃, hminor, hminor', rfl⟩, c₄, ⟨rest₄, hdot', rfl⟩, patch, rest, hpatch,
      hpatch', rfl⟩
    refine ⟨major, minor, patch, rest, ?_, hmajor', hminor', hpatch'⟩
    rw [← (show rest₄ = patch ++ rest from hpatch), ← (show rest₃ = '.' :: rest₄ from hdot'),
      ← (show rest₂ = minor ++ rest₃ from hminor), ← (show rest₁ = '.' :: rest₂ from hdot)]
    exact hmajor
  · rintro ⟨major, minor, patch, rest, htext, hmajor, hminor, hpatch⟩
    exact ⟨_, _, ⟨major, _, htext, hmajor, rfl⟩, _, ⟨_, rfl, rfl⟩, _, ⟨minor, _, rfl, hminor, rfl⟩,
      _, ⟨_, rfl, rfl⟩, patch, rest, rfl, hpatch, rfl⟩

/-! ### Definitions of props -/

/-- The condition that a key is there; what is no object fulfils it. -/
theorem verdict_hasKey (key : String) :
    ((∀ vs, v = .obj vs → Members.has key vs = true) →
      Verdict manifest (.meets (.obj [("required", .arr [.str key])]) v) true) ∧
    (¬ (∀ vs, v = .obj vs → Members.has key vs = true) →
      Verdict manifest (.meets (.obj [("required", .arr [.str key])]) v) false) := by
  have hiff : Satisfies manifest (.obj [("required", .arr [.str key])]) v ↔
      ∀ vs, v = .obj vs → Members.has key vs = true := by
    rw [satisfies_keywords rfl, show keywordsOf _ = [.required] from rfl,
      List.forall_mem_singleton, meets_required rfl]
    simp
  refine ⟨hiff.2, fun hnot => ?_⟩
  simp only [not_forall] at hnot
  obtain ⟨vs, rfl, hkey⟩ := hnot
  refine .not_every rfl (.required rfl (List.mem_singleton.2 rfl)) (.no_fact ?_)
  rintro ⟨k, hk, hhas⟩
  obtain rfl := Json.str.inj hk
  exact hkey hhas

theorem satisfies_propType :
    Satisfies manifest (.obj [("type", .str "string"), ("enum", .arr
        [.str "string", .str "number", .str "boolean", .str "object", .str "array",
          .str "function", .str "element", .str "node"])]) v ↔
      ∃ name ∈ Component.propTypes, v = .str name := by
  rw [satisfies_keywords rfl, show keywordsOf _ = [.type, .enum] from rfl, List.forall_mem_cons,
    List.forall_mem_singleton, meets_type rfl, meets_enum rfl, ofType_string]
  have henum : (∃ c ∈ Component.propTypes.map Json.str, c.equivalent v = true) ↔
      ∃ name ∈ Component.propTypes, v = .str name := by
    simp only [List.mem_map]
    constructor
    · rintro ⟨_, ⟨name, hname, rfl⟩, heq⟩
      exact ⟨name, hname, str_equivalent_iff.1 heq⟩
    · rintro ⟨name, hname, heq⟩
      exact ⟨_, ⟨name, hname, rfl⟩, str_equivalent_iff.2 heq⟩
  refine Iff.trans (and_congr_right fun _ => henum) (and_iff_right_of_imp ?_)
  rintro ⟨name, -, rfl⟩
  exact ⟨name, rfl⟩

/-- The schema that asks for the type of texts. -/
theorem satisfies_textType :
    Satisfies manifest
        (.obj [("properties", .obj [("type", .obj [("const", .str "string")])])]) v ↔
      ∀ vs, v = .obj vs → Members.Maybe "type" (· = .str "string") vs := by
  have hconst : ∀ w, Satisfies manifest (.obj [("const", .str "string")]) w ↔ w = .str "string" := by
    intro w
    rw [satisfies_keywords rfl, show keywordsOf _ = [.const] from rfl, List.forall_mem_singleton,
      meets_const rfl, equivalent_str_iff]
  rw [satisfies_keywords rfl, show keywordsOf _ = [.properties] from rfl,
    List.forall_mem_singleton, meets_properties rfl (by decide)]
  simp only [List.forall_mem_singleton, Members.Maybe, hconst]

/-- Members with the keys that are asked for, each of which satisfies the schema for it. -/
theorem meets_fields {ms schemas : Members} (keys : List String)
    (htype : Members.get? "type" ms = some (.str "object"))
    (hrequired : Members.get? "required" ms = some (.arr (keys.map .str)))
    (hproperties : Members.get? "properties" ms = some (.obj schemas))
    (hu : (Members.keys schemas).Nodup) :
    (Meets manifest ms .type v ∧ Meets manifest ms .required v ∧ Meets manifest ms .properties v) ↔
      ObjectWith (fun vs => (∀ key ∈ keys, Members.has key vs = true) ∧
        ∀ m ∈ schemas, Members.Maybe m.1 (Satisfies manifest m.2) vs) v := by
  have hkeys (vs : Members) :
      (∀ k ∈ keys.map Json.str, ∃ key, k = .str key ∧ Members.has key vs = true) ↔
        ∀ key ∈ keys, Members.has key vs = true := by simp
  rw [meets_type htype, meets_required hrequired, meets_properties hproperties hu, ofType_object,
    objectWith_iff]
  simp only [hkeys, forall_and]

theorem satisfies_propDef : Satisfies manifest propDef v ↔ ObjectWith PropDefinition v := by
  rw [propDef, satisfies_keywords rfl,
    show keywordsOf _ = [.condition, .type, .required, .properties] from rfl, List.forall_mem_cons,
    List.forall_mem_cons, List.forall_mem_cons, List.forall_mem_singleton,
    meets_condition rfl (verdict_hasKey "values").1 (verdict_hasKey "values").2,
    meets_fields ["type"] rfl rfl rfl (by decide)]
  cases v with
  | obj ms =>
      simp only [objectWith_obj, List.forall_mem_singleton, List.forall_mem_cons]
      rw [Members.Maybe.congr fun _ => satisfies_propType, Members.Maybe.congr fun _ => satisfies_flag,
        Members.Maybe.congr fun _ => satisfies_text, Members.Maybe.congr fun _ => satisfies_texts]
      constructor
      · rintro ⟨⟨hthen, -⟩, hhas, htype, hrequired, hdescription, hvalues⟩
        refine ⟨Members.given_iff.2 ⟨hhas, htype⟩, hrequired, hdescription, hvalues, fun hlists => ?_⟩
        have htext := satisfies_textType.1 (hthen fun vs hvs => Json.obj.inj hvs ▸ hlists)
        exact Members.given_iff.2 ⟨hhas, htext ms rfl⟩
      · rintro ⟨htype, hrequired, hdescription, hvalues, hlisting⟩
        obtain ⟨hhas, htype⟩ := Members.given_iff.1 htype
        refine ⟨⟨fun hlists => satisfies_textType.2 ?_, fun _ => .boolean true _⟩, hhas, htype,
          hrequired, hdescription, hvalues⟩
        rintro vs ⟨⟩
        exact (Members.given_iff.1 (hlisting (hlists ms rfl))).2
  | null | bool _ | int _ | float _ | str _ | arr _ => simp [ObjectWith]

theorem satisfies_listedPropDef :
    Satisfies manifest listedPropDef v ↔ ObjectWith NamedPropDefinition v := by
  have hpropDef : Satisfies manifest (.obj [("$ref", .str "#/definitions/propDef")]) v ↔
      ObjectWith PropDefinition v :=
    (satisfies_reference rfl rfl).trans satisfies_propDef
  rw [listedPropDef, satisfies_keywords rfl,
    show keywordsOf _ = [.allOf, .required, .properties] from rfl, List.forall_mem_cons,
    List.forall_mem_cons, List.forall_mem_singleton, meets_allOf rfl, List.forall_mem_singleton,
    hpropDef, meets_required rfl, meets_properties rfl (by decide)]
  cases v with
  | obj ms =>
      simp only [objectWith_obj, List.forall_mem_singleton, Json.obj.injEq, forall_eq',
        Json.str.injEq, exists_eq_left', NamedPropDefinition, Members.given_iff]
      rw [Members.Maybe.congr fun _ => satisfies_name]
  | null | bool _ | int _ | float _ | str _ | arr _ => simp [ObjectWith]

/-! ### Components -/

theorem satisfies_props :
    Satisfies manifest
      (.obj [("type", .arr [.str "object", .str "array"]),
        ("additionalProperties", .obj [("$ref", .str "#/definitions/propDef")]),
        ("items", .obj [("$ref", .str "#/definitions/listedPropDef")])]) v ↔ IsProps v := by
  have hpropDef : ∀ w, Satisfies manifest (.obj [("$ref", .str "#/definitions/propDef")]) w ↔
      ObjectWith PropDefinition w :=
    fun w => (satisfies_reference rfl rfl).trans satisfies_propDef
  have hlisted : ∀ w, Satisfies manifest (.obj [("$ref", .str "#/definitions/listedPropDef")]) w ↔
      ObjectWith NamedPropDefinition w :=
    fun w => (satisfies_reference rfl rfl).trans satisfies_listedPropDef
  rw [satisfies_keywords rfl, show keywordsOf _ = [.type, .additionalProperties, .items] from rfl,
    List.forall_mem_cons, List.forall_mem_cons, List.forall_mem_singleton, meets_types rfl,
    meets_additional rfl (.inr ⟨_, rfl⟩) rfl rfl, meets_items rfl (.inr ⟨_, rfl⟩), IsProps]
  simp only [Members.Each.congr hpropDef, hlisted]
  constructor
  · rintro ⟨⟨name, hname, htype⟩, hmembers, hitems⟩
    rcases List.mem_pair.1 hname with rfl | rfl
    · obtain ⟨ms, rfl⟩ := ofType_object.1 htype
      exact .inl ⟨ms, rfl, hmembers ms rfl⟩
    · obtain ⟨xs, rfl⟩ := ofType_array.1 htype
      exact .inr ⟨xs, rfl, hitems xs rfl⟩
  · rintro (⟨ms, rfl, hmembers⟩ | ⟨xs, rfl, hitems⟩)
    · refine ⟨⟨_, List.mem_pair.2 (.inl rfl), ofType_object.2 ⟨ms, rfl⟩⟩, ?_, ?_⟩
      · rintro vs ⟨⟩
        exact hmembers
      · rintro xs ⟨⟩
    · refine ⟨⟨_, List.mem_pair.2 (.inr rfl), ofType_array.2 ⟨xs, rfl⟩⟩, ?_, ?_⟩
      · rintro vs ⟨⟩
      · rintro ys ⟨⟩
        exact hitems

theorem satisfies_textMap : Satisfies manifest dependencyMap v ↔ IsTextMap v :=
  satisfies_each (.inr ⟨_, rfl⟩) fun _ => satisfies_text

theorem satisfies_variants :
    Satisfies manifest
      (.obj [("type", .str "object"), ("additionalProperties", .obj
        [("type", .str "object"), ("additionalProperties", .obj [("type", .str "string")])])]) v ↔
      ObjectWith (Members.Each IsTextMap) v :=
  satisfies_each (.inr ⟨_, rfl⟩) fun _ => satisfies_textMap

theorem satisfies_componentTokens :
    Satisfies manifest
      (.obj [("type", .str "object"), ("additionalProperties", .obj
        [("type", .arr [.str "string", .str "number", .str "object"])])]) v ↔
      ObjectWith (Members.Each fun w => IsScalar w ∨ ∃ ms, w = .obj ms) v := by
  refine satisfies_each (.inr ⟨_, rfl⟩) fun w => ?_
  rw [satisfies_keywords rfl, show keywordsOf _ = [.type] from rfl, List.forall_mem_singleton,
    meets_types rfl]
  simp [Json.plain, ofType_string, ofType_number, ofType_object, IsScalar, or_assoc]

theorem satisfies_component :
    Satisfies manifest (.obj [("$ref", .str "#/definitions/component")]) v ↔
      ObjectWith ComponentFields v := by
  rw [satisfies_reference rfl rfl, satisfies_keywords rfl,
    show keywordsOf _ = [.type, .required, .properties] from rfl, List.forall_mem_cons,
    List.forall_mem_cons, List.forall_mem_singleton,
    meets_fields ["name"] rfl rfl rfl (by decide)]
  refine ObjectWith.congr fun ms => ?_
  have htextMap : ∀ w, Satisfies manifest (.obj [("$ref", .str "#/definitions/dependencyMap")]) w ↔
      IsTextMap w :=
    fun w => (satisfies_reference rfl rfl).trans satisfies_textMap
  simp only [List.forall_mem_cons, List.not_mem_nil, false_implies, implies_true, and_true]
  rw [Members.Maybe.congr fun _ => satisfies_name, Members.Maybe.congr fun _ => satisfies_text,
    Members.Maybe.congr fun _ => satisfies_props, Members.Maybe.congr fun _ => satisfies_variants,
    Members.Maybe.congr fun _ => satisfies_texts, Members.Maybe.congr htextMap,
    Members.Maybe.congr htextMap, Members.Maybe.congr fun _ => satisfies_componentTokens]
  constructor
  · rintro ⟨hhas, hname, hdescription, hprops, hvariants, hexamples, hpeers, hdependencies, htokens⟩
    exact ⟨Members.given_iff.2 ⟨hhas, hname⟩, hdescription, hprops, hvariants, hexamples, hpeers,
      hdependencies, htokens⟩
  · rintro ⟨hname, hdescription, hprops, hvariants, hexamples, hpeers, hdependencies, htokens⟩
    obtain ⟨hhas, hname⟩ := Members.given_iff.1 hname
    exact ⟨hhas, hname, hdescription, hprops, hvariants, hexamples, hpeers, hdependencies, htokens⟩

/-! ### Tokens -/

theorem satisfies_scalar :
    Satisfies manifest (.obj [("type", .arr [.str "string", .str "number"])]) v ↔ IsScalar v := by
  rw [satisfies_keywords rfl, show keywordsOf _ = [.type] from rfl, List.forall_mem_singleton,
    meets_types rfl]
  simp [Json.plain, ofType_string, ofType_number, IsScalar]

theorem satisfies_tokenLeaf :
    Satisfies manifest tokenLeaf v ↔ ObjectWith TokenFields v := by
  rw [tokenLeaf, satisfies_keywords rfl,
    show keywordsOf _ = [.type, .required, .properties] from rfl, List.forall_mem_cons,
    List.forall_mem_cons, List.forall_mem_singleton,
    meets_fields ["value"] rfl rfl rfl (by decide)]
  refine ObjectWith.congr fun ms => ?_
  simp only [List.forall_mem_cons, List.not_mem_nil, false_implies, implies_true, and_true]
  rw [Members.Maybe.congr fun _ => satisfies_scalar, Members.Maybe.congr fun _ => satisfies_text,
    Members.Maybe.congr fun _ => satisfies_text, Members.Maybe.congr fun _ => satisfies_text]
  constructor
  · rintro ⟨hhas, hvalue, htype, hcategory, hdescription⟩
    exact ⟨Members.given_iff.2 ⟨hhas, hvalue⟩, htype, hcategory, hdescription⟩
  · rintro ⟨hvalue, htype, hcategory, hdescription⟩
    obtain ⟨hhas, hvalue⟩ := Members.given_iff.1 hvalue
    exact ⟨hhas, hvalue, htype, hcategory, hdescription⟩

/-- What the definition of nodes asks of the members of an object. -/
theorem satisfies_tokenNode_obj {ms : Members} : Satisfies manifest tokenNode (.obj ms) ↔
    (Members.has "value" ms = true → TokenFields ms) ∧
      (Members.has "value" ms = false → Members.Each (Satisfies manifest tokenNode) ms) := by
  have hleaf : Satisfies manifest (.obj [("$ref", .str "#/definitions/tokenLeaf")]) (.obj ms) ↔
      TokenFields ms :=
    ((satisfies_reference rfl rfl).trans satisfies_tokenLeaf).trans objectWith_obj
  have hnodes : Satisfies manifest
      (.obj [("additionalProperties", .obj [("$ref", .str "#/definitions/tokenNode")])])
      (.obj ms) ↔ Members.Each (Satisfies manifest tokenNode) ms := by
    rw [satisfies_keywords rfl, show keywordsOf _ = [.additionalProperties] from rfl,
      List.forall_mem_singleton, meets_additional rfl (.inr ⟨_, rfl⟩) rfl rfl]
    simp only [Json.obj.injEq, forall_eq']
    exact Members.Each.congr fun w => satisfies_reference rfl rfl
  rw [← hleaf, ← hnodes]
  conv_lhs => rw [tokenNode]
  rw [satisfies_keywords rfl, show keywordsOf _ = [.condition, .type] from rfl,
    List.forall_mem_cons, List.forall_mem_singleton,
    meets_condition rfl (verdict_hasKey "value").1 (verdict_hasKey "value").2, meets_type rfl,
    ofType_object, and_iff_left ⟨ms, rfl⟩]
  simp only [Json.obj.injEq, forall_eq', Bool.not_eq_true]
  exact Iff.rfl

theorem TokenNode.exists_obj (h : TokenNode v) : ∃ ms, v = .obj ms := by
  cases h with
  | token => exact ⟨_, rfl⟩
  | group => exact ⟨_, rfl⟩

theorem tokenNode_obj {ms : Members} : TokenNode (.obj ms) ↔
    (Members.has "value" ms = true → TokenFields ms) ∧
      (Members.has "value" ms = false → Members.Each TokenNode ms) := by
  constructor
  · intro h
    cases h with
    | token hfields =>
        refine ⟨fun _ => hfields, fun hnone => ?_⟩
        rw [(Members.given_iff.1 hfields.value).1] at hnone
        exact absurd hnone (by simp)
    | group hnone hnodes =>
        refine ⟨fun hhas => ?_, fun _ => hnodes⟩
        rw [hnone] at hhas
        exact absurd hhas (by simp)
  · rintro ⟨htoken, hgroup⟩
    cases hhas : Members.has "value" ms with
    | true => exact .token (htoken hhas)
    | false => exact .group hhas (hgroup hhas)

/-- By induction on the depth of the node. -/
theorem satisfies_tokenNode : Satisfies manifest tokenNode v ↔ TokenNode v := by
  induction hdepth : depth v using Nat.strong_induction_on generalizing v with
  | _ n ih =>
      cases v with
      | obj ms =>
          have hnodes : Members.Each (Satisfies manifest tokenNode) ms ↔ Members.Each TokenNode ms := by
            refine forall_congr' fun key => forall_congr' fun w => imp_congr_right fun hw => ?_
            have hpart : w ∈ valueParts (.obj ms) := List.mem_map_of_mem (Members.mem_of_get? hw)
            exact ih (depth w) (hdepth ▸ depth_lt_of_mem_valueParts hpart) rfl
          rw [satisfies_tokenNode_obj, tokenNode_obj, hnodes]
      | null | bool _ | int _ | float _ | str _ | arr _ =>
          refine ⟨fun h => ?_, fun h => absurd h.exists_obj (by simp)⟩
          have htype := (satisfies_keywords rfl).1 h .type (by decide)
          exact absurd (ofType_object.1 ((meets_type rfl).1 htype)) (by simp)

/-! ### Registries -/

theorem satisfies_version :
    Satisfies manifest (.obj [("type", .str "string"), ("pattern", .str "^\\d+\\.\\d+\\.\\d+")]) v ↔
      ∃ s, v = .str s ∧ StartsWithVersion s.toList := by
  rw [satisfies_keywords rfl, show keywordsOf _ = [.type, .pattern] from rfl, List.forall_mem_cons,
    List.forall_mem_singleton, meets_type rfl, meets_pattern rfl patternOf_version, ofType_string]
  cases v <;> simp [IsText, occursIn_version]

theorem satisfies_dateTime :
    Satisfies manifest (.obj [("type", .str "string"), ("format", .str "date-time")]) v ↔
      checkDateTime v = .ok () := by
  rw [satisfies_keywords rfl, show keywordsOf _ = [.type, .format] from rfl, List.forall_mem_cons,
    List.forall_mem_singleton, meets_type rfl, meets_format rfl, ofType_string]
  cases v with
  | str s => simpa [IsText, checkDateTime] using ⟨fun ⟨_, h⟩ => h, fun h => ⟨(), h⟩⟩
  | null | bool _ | int _ | float _ | arr _ | obj _ => simp [IsText, checkDateTime]

theorem satisfies_manifest : Satisfies manifest manifest v ↔ WellFormed v := by
  change Satisfies manifest (.obj _) v ↔ _
  rw [satisfies_keywords rfl,
    show keywordsOf _ = [.type, .required, .properties] from rfl, List.forall_mem_cons,
    List.forall_mem_cons, List.forall_mem_singleton,
    meets_fields ["name", "version", "components"] rfl rfl rfl (by decide)]
  refine ObjectWith.congr fun ms => ?_
  have hcomponents : ∀ w, Satisfies manifest (.obj [("type", .str "array"),
      ("items", .obj [("$ref", .str "#/definitions/component")])]) w ↔
        ListOf (ObjectWith ComponentFields) w :=
    fun _ => satisfies_list (.inr ⟨_, rfl⟩) fun _ => satisfies_component
  have htokens : ∀ w, Satisfies manifest (.obj [("$ref", .str "#/definitions/tokenTree")]) w ↔
      ObjectWith (Members.Each TokenNode) w :=
    fun w => (satisfies_reference rfl rfl).trans (satisfies_each (.inr ⟨_, rfl⟩) fun _ =>
      (satisfies_reference rfl rfl).trans satisfies_tokenNode)
  have hmetadata : ∀ w, Satisfies manifest (.obj [("type", .str "object")]) w ↔
      ∃ ms, w = .obj ms :=
    fun w => (satisfies_typed "object").trans ofType_object
  simp only [List.forall_mem_cons, List.not_mem_nil, false_implies, implies_true, and_true]
  rw [Members.Maybe.congr fun _ => satisfies_name, Members.Maybe.congr fun _ => satisfies_version,
    Members.Maybe.congr fun _ => satisfies_text, Members.Maybe.congr hcomponents,
    Members.Maybe.congr htokens, Members.Maybe.congr hmetadata,
    Members.Maybe.congr fun _ => satisfies_dateTime]
  constructor
  · rintro ⟨⟨hname, hversion, hcomponents⟩, hname', hversion', hdescription, hcomponents', htokens,
      hmetadata, hmodified⟩
    exact ⟨Members.given_iff.2 ⟨hname, hname'⟩, Members.given_iff.2 ⟨hversion, hversion'⟩,
      hdescription, Members.given_iff.2 ⟨hcomponents, hcomponents'⟩, htokens, hmetadata, hmodified⟩
  · rintro ⟨hname, hversion, hdescription, hcomponents, htokens, hmetadata, hmodified⟩
    obtain ⟨hname, hname'⟩ := Members.given_iff.1 hname
    obtain ⟨hversion, hversion'⟩ := Members.given_iff.1 hversion
    obtain ⟨hcomponents, hcomponents'⟩ := Members.given_iff.1 hcomponents
    exact ⟨⟨hname, hversion, hcomponents⟩, hname', hversion', hdescription, hcomponents', htokens,
      hmetadata, hmodified⟩

/-- **The schema of manifests accepts exactly the well-formed registries.**  With the bundled schemas,
every document has a verdict. -/
theorem validate_manifest (document : Json) :
    ∃ r, Validator.standard.validate document SchemaTag.manifest.name = .ok r ∧
      (r.valid = true ↔ WellFormed document) := by
  obtain ⟨violations, hviolations⟩ := Schema.ends_validate_bundled .manifest document "$"
  refine ⟨⟨SchemaTag.manifest.name, violations⟩, Validator.validate_standard_eq_ok hviolations, ?_⟩
  have hclean := Schema.errors_eq_nil_iff hviolations
  exact List.isEmpty_iff.trans (hclean.trans satisfies_manifest)

end Registry

end DesignRegistry
