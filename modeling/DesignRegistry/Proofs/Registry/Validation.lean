/-
**What the validation of a registry reports.**

A registry is valid if no error is reported.  Errors come from the schema of manifests and from checks of
the components, and what the schema reports about props is left out, as the check of definitions is
there for it.  The check of definitions asks for less than the schema, though: that a definition is an
object with a known type, and that values stand only beside the type of texts.  So a registry is valid
although the schema reports violations of it if all of them are about props, by their paths, and all
definitions are well formed in this weaker sense.

Main definitions:

* `Component.WellDefined`, `Component.PropsWellDefined` — what the check of definitions asks for.

Main results:

* `Component.propErrors_eq_nil_iff` — the check of definitions reports nothing exactly then;
* `Registry.validate_bundled` — **when a registry is valid**;
* `Registry.validate_bundled_swallows` — a violation of the schema that is not reported;
* `Registry.exists_report_iff` — when a registry has a report;
* `Registry.validation_standard_finishes` — **validation with the bundled schemas finishes**.
-/
import DesignRegistry.Proofs.Json.Legible
import DesignRegistry.Proofs.Schema.Room
import DesignRegistry.Registry.Validation

set_option relaxedAutoImplicit false
set_option autoImplicit false

namespace DesignRegistry

namespace Component

/-! ### Definitions of props -/

/-- A definition with one of the types of props; only beside the type of texts it lists values. -/
def WellDefined (definition : Json) : Prop :=
  ∃ t ∈ propTypes, definition.field? "type" = some (.str t) ∧
    ∀ values, definition.field? "values" = some values → values.isTruthy = true → t = "string"

/-- A definition in a list carries its name; a bracket would be taken for a position. -/
def Named (definition : Json) : Prop :=
  ∃ name, definition.field? "name" = some (.str name) ∧ name ≠ "" ∧ Text.hasFront name "[" = false

/-- A component whose props are left out or all well defined. -/
def PropsWellDefined (component : Json) : Prop :=
  match (component.field? "props").getD .null with
  | .null => True
  | .obj ms => ∀ m ∈ ms, WellDefined m.2
  | .arr ds => ∀ d ∈ ds, Named d ∧ WellDefined d
  | _ => False

theorem knownType_iff (type : Json) :
    isKnownType type = true ↔ ∃ t ∈ propTypes, type = .str t := by
  rw [isKnownType]
  cases type with
  | str s => simp [Json.text?]
  | null | bool _ | int _ | float _ | arr _ | obj _ => simp [Json.text?]

/-- The values of a definition are passed over unless there is something in them. -/
theorem truthyValues_iff (definition : Json) :
    ((definition.field? "values").map Json.isTruthy).getD false = true ↔
      ∃ values, definition.field? "values" = some values ∧ values.isTruthy = true := by
  cases definition.field? "values" with
  | none => simp
  | some values => simp

theorem typeErrors_eq_nil_iff (about : String) (definition type : Json) :
    typeErrors about definition type = [] ↔ ∃ t ∈ propTypes, type = .str t ∧
      ∀ values, definition.field? "values" = some values → values.isTruthy = true →
        t = "string" := by
  have hvalues : ((((definition.field? "values").map Json.isTruthy).getD false &&
      type.text? != some "string") = true) ↔
        ¬ (((definition.field? "values").map Json.isTruthy).getD false = true →
          type.text? = some "string") := by
    simp
  simp only [typeErrors, List.append_eq_nil_iff, ite_eq_left_iff, ite_eq_right_iff, List.cons_ne_nil,
    imp_false, not_not, hvalues, knownType_iff]
  constructor
  · rintro ⟨⟨t, ht, rfl⟩, hstring⟩
    refine ⟨t, ht, rfl, fun values hget htruthy => ?_⟩
    exact Option.some.inj (hstring ((truthyValues_iff definition).2 ⟨values, hget, htruthy⟩))
  · rintro ⟨t, ht, rfl, hstring⟩
    refine ⟨⟨t, ht, rfl⟩, fun htruthy => ?_⟩
    obtain ⟨values, hget, htruthy⟩ := (truthyValues_iff definition).1 htruthy
    rw [hstring values hget htruthy]
    rfl

/-- A definition has no errors exactly if it is well defined and, in a list, named. -/
theorem definitionErrors_eq_nil_iff (label name : String) (listed : Bool) (definition : Json) :
    definitionErrors label listed name definition = [] ↔
      (listed && Text.hasFront name "[") = false ∧ WellDefined definition := by
  cases definition with
  | obj ms =>
      cases hlisted : (listed && Text.hasFront name "[") with
      | true => simp [definitionErrors, hlisted]
      | false =>
          simp only [definitionErrors, hlisted, Bool.false_eq_true, if_false, true_and, WellDefined,
            Json.field?]
          cases htype : Json.Members.get? "type" ms with
          | none => simp [Json.isTruthy]
          | some type =>
              rw [Option.getD_some]
              split
              · rw [typeErrors_eq_nil_iff]
                simp [Json.field?]
              · next hfalsy =>
                  -- no type is the empty text
                  simp only [List.cons_ne_nil, Option.some.injEq, false_iff]
                  rintro ⟨t, ht, rfl, -⟩
                  have hempty : t = "" := by simpa [Json.isTruthy] using hfalsy
                  rw [hempty] at ht
                  exact absurd ht (by decide)
  | null | bool _ | int _ | float _ | str _ | arr _ =>
      simp [definitionErrors, WellDefined, Json.field?]

/-- A definition without a name is called by its position, in brackets. -/
theorem hasFront_listedLabel_iff (definition : Json) (index : ℕ) :
    Text.hasFront (listedLabel definition index) "[" = false ↔ Named definition := by
  have hposition : Text.hasFront ("[" ++ natText index ++ "]") "[" = true := by
    simp [Text.hasFront, startsWith, afterFront?]
  rw [listedLabel, Named]
  cases hname : definition.field? "name" with
  | none => simp [filledText?, hposition]
  | some v =>
      cases v with
      | str s =>
          by_cases hempty : s = ""
          · simp [filledText?, hempty, hposition]
          · simp [filledText?, hempty]
      | null | bool _ | int _ | float _ | arr _ | obj _ => simp [filledText?, hposition]

/-- **The check of definitions reports nothing exactly if the props are well defined.** -/
theorem propErrors_eq_nil_iff (component : Json) (index : ℕ) :
    propErrors component index = [] ↔ PropsWellDefined component := by
  rw [propErrors, PropsWellDefined]
  cases (component.field? "props").getD .null with
  | null => simp
  | obj ms => simp [List.flatMap_eq_nil_iff, definitionErrors_eq_nil_iff]
  | arr ds =>
      simp only [List.flatMap_eq_nil_iff, definitionErrors_eq_nil_iff, Bool.true_and,
        hasFront_listedLabel_iff]
      constructor
      · intro h d hd
        obtain ⟨i, hi, rfl⟩ := List.getElem_of_mem hd
        exact h (ds[i], i) (List.mem_zipIdx_iff_getElem?.2 (List.getElem?_eq_getElem hi))
      · exact fun h x hx => h x.1 (List.fst_mem_of_mem_zipIdx hx)
  | bool _ | int _ | float _ | str _ => simp

end Component

namespace Registry

/-! ### Components -/

/-- A component without errors; what is no object is left to the schema. -/
def ComponentSound (component : Json) : Prop :=
  ∀ ms, component = .obj ms →
    Component.PropsWellDefined component ∧ Component.exampleErrors component = []

theorem componentErrors_eq_nil_iff (component : Json) (index : ℕ) :
    componentErrors component index = [] ↔ ComponentSound component := by
  cases component with
  | obj ms =>
      rw [componentErrors, List.append_eq_nil_iff, Component.propErrors_eq_nil_iff]
      exact ⟨fun h _ _ => h, fun h => h ms rfl⟩
  | null | bool _ | int _ | float _ | str _ | arr _ => simp [componentErrors, ComponentSound]

/-! ### Reports -/

/-- A registry is valid exactly if all violations of the schema are about props and no component has
errors. -/
theorem report_valid_iff (checks : RegistryChecks) (violations : List Schema.Violation)
    (registry : Json) : (report checks violations registry).valid = true ↔
      (∀ x ∈ violations, isAboutProps x = true) ∧
        ∀ c ∈ listedComponents registry, ComponentSound c := by
  rw [RegistryReport.valid, List.isEmpty_iff]
  simp only [report, List.append_eq_nil_iff, List.map_eq_nil_iff, List.filter_eq_nil_iff,
    Bool.not_eq_true', Bool.not_eq_false, List.flatMap_eq_nil_iff, componentErrors_eq_nil_iff]
  refine and_congr_right fun _ => ⟨fun h c hc => ?_, fun h x hx => h x.1 ?_⟩
  · obtain ⟨i, hi, rfl⟩ := List.getElem_of_mem hc
    exact h ((listedComponents registry)[i], i)
      (List.mem_zipIdx_iff_getElem?.2 (List.getElem?_eq_getElem hi))
  · exact List.fst_mem_of_mem_zipIdx hx

/-- A violation of the schema is reported unless it is about props. -/
theorem line_mem_errors {checks : RegistryChecks} {violations : List Schema.Violation}
    {registry : Json} {x : Schema.Violation} (hx : x ∈ violations) (hprops : isAboutProps x = false) :
    x.line ∈ (report checks violations registry).errors :=
  List.mem_append_left _ (List.mem_map_of_mem (List.mem_filter.2 ⟨hx, by rw [hprops]; rfl⟩))

/-- There is a report just if all values that are made texts have one. -/
theorem reported_eq_ok_iff {checks : RegistryChecks} {violations : List Schema.Violation}
    {registry : Json} {r : RegistryReport} : reported checks violations registry = .ok r ↔
      (∀ v ∈ shownValues checks registry, v.hasText = true) ∧ r = report checks violations registry := by
  rw [reported, ← List.all_eq_true]
  split
  · next htexts => exact ⟨fun h => ⟨htexts, (Except.ok.inj h).symm⟩, fun h => congrArg _ h.2.symm⟩
  · next hnone => exact iff_of_false (by simp) fun h => hnone h.1

/-- With a schema that ends, a registry has a report just if all values that are made texts have one. -/
theorem validate_standard_eq_ok_iff {checks : RegistryChecks} {violations : List Schema.Violation}
    {registry : Json} {r : RegistryReport}
    (h : Schema.validate Schema.manifest Schema.manifest registry "$" = .ok violations) :
    validate .standard checks registry = .ok r ↔
      (∀ v ∈ shownValues checks registry, v.hasText = true) ∧
        r = report checks violations registry := by
  rw [validate, @Validator.validate_standard_eq_ok .manifest _ _ h]
  exact reported_eq_ok_iff

/-- With the bundled schemas, a registry has a report just if all values that are made texts have one. -/
theorem exists_report_iff (checks : RegistryChecks) (registry : Json) :
    (∃ r, validate .standard checks registry = .ok r) ↔
      ∀ v ∈ shownValues checks registry, v.hasText = true := by
  obtain ⟨violations, hviolations⟩ := Schema.ends_validate_bundled .manifest registry "$"
  constructor
  · rintro ⟨r, hr⟩
    exact ((validate_standard_eq_ok_iff hviolations).1 hr).1
  · exact fun htexts => ⟨_, (validate_standard_eq_ok_iff hviolations).2 ⟨htexts, rfl⟩⟩

/-- **When a registry is valid.**  With the bundled schemas, a registry has a report just if all values of
it that are made texts have one, whatever checks are wanted.  Every violation of the schema of manifests is
reported unless its path is about props.  The registry is valid exactly if all violations are, and if all
components that are objects have well defined props and good examples. -/
theorem validate_bundled (checks : RegistryChecks) (registry : Json) :
    ∃ violations, Validator.standard.validate registry SchemaTag.manifest.name =
        .ok ⟨SchemaTag.manifest.name, violations⟩ ∧
      (violations = [] ↔ Schema.Satisfies Schema.manifest Schema.manifest registry) ∧
      ((∃ r, validate .standard checks registry = .ok r) ↔
        ∀ v ∈ shownValues checks registry, v.hasText = true) ∧
      ∀ r, validate .standard checks registry = .ok r →
        (∀ x ∈ violations, isAboutProps x = false → x.line ∈ r.errors) ∧
        (r.valid = true ↔ (∀ x ∈ violations, isAboutProps x = true) ∧
          ∀ c ∈ listedComponents registry, ComponentSound c) := by
  obtain ⟨violations, hviolations⟩ := Schema.ends_validate_bundled .manifest registry "$"
  refine ⟨violations, Validator.validate_standard_eq_ok hviolations,
    Schema.errors_eq_nil_iff hviolations, exists_report_iff checks registry, fun r hr => ?_⟩
  obtain ⟨-, rfl⟩ := (validate_standard_eq_ok_iff hviolations).1 hr
  exact ⟨fun x hx hprops => line_mem_errors hx hprops, report_valid_iff checks violations registry⟩

/-- A registry whose only component has a prop that is required, in words. -/
def wordyRegistry : Json :=
  .obj [("name", .str "R"), ("version", .str "1.0.0"),
    ("components", .arr [.obj [("name", .str "A"),
      ("props", .obj [("p", .obj [("type", .str "string"), ("required", .str "yes")])])]])]

/-- The schema reports that a prop is required by something that is no boolean, and the registry is
valid. -/
theorem validate_bundled_swallows :
    Validator.standard.validate wordyRegistry SchemaTag.manifest.name =
        .ok ⟨SchemaTag.manifest.name,
          [⟨"$.components[0].props.p.required", "must be boolean, got string", "type",
            some (.str "yes")⟩]⟩ ∧
      ∀ checks, ∃ r, validate .standard checks wordyRegistry = .ok r ∧ r.valid = true ∧
        r.errors = [] := by
  have hviolations : Schema.validate Schema.manifest Schema.manifest wordyRegistry "$" =
      .ok [⟨"$.components[0].props.p.required", "must be boolean, got string", "type",
        some (.str "yes")⟩] :=
    Schema.validate_eq_ok_iff.2 ⟨9, [_], rfl, rfl⟩
  have htexts : ∀ checks, ∀ v ∈ shownValues checks wordyRegistry, v.hasText = true := by
    rintro ⟨strict, tokens, examples, naming⟩
    cases strict <;> cases tokens <;> cases examples <;> cases naming <;> decide +kernel
  refine ⟨@Validator.validate_standard_eq_ok .manifest _ _ hviolations, fun checks =>
    ⟨_, (validate_standard_eq_ok_iff hviolations).2 ⟨htexts checks, rfl⟩, ?_⟩⟩
  -- which checks are wanted matters for warnings only
  have herrors : (report {} [⟨"$.components[0].props.p.required", "must be boolean, got string",
      "type", some (.str "yes")⟩] wordyRegistry).errors = [] := by decide +kernel
  exact ⟨List.isEmpty_iff.2 herrors, herrors⟩

/-! ### Validation that finishes -/

/-- What a registry is reported depends on the report of the schema. -/
theorem validate_congr {v v' : Validator} {registry : Json}
    (h : ∀ t : SchemaTag, v.validate registry t.name = v'.validate registry t.name)
    (checks : RegistryChecks) : validate v checks registry = validate v' checks registry := by
  rw [validate, h, validate]

/-- **Validation with the bundled schemas finishes.**  Whatever the document, its check against each of
them goes no deeper than five steps from schema to schema for each level of the document, and is not
stopped by a keyword, a pattern or a timestamp.  So advice on the document finishes as well, and its
validation as a registry does, with whatever checks are wanted, just if all values that are made texts have
one.  All this holds with a bounded stack that has room for these steps. -/
theorem validation_standard_finishes (doc : Json) :
    (∀ t : SchemaTag, ∃ found,
      Schema.checkAt t.schema (5 * Schema.depth doc) doc t.schema "$" = .ok found ∧
        Validator.standard.validate doc t.name =
          .ok ⟨t.name, Schema.ordered Schema.Violation.le found⟩) ∧
      (∃ problems, advisoryProblems .standard doc = .ok problems) ∧
      (∀ checks, (∃ r, validate .standard checks doc = .ok r) ↔
        ∀ v ∈ shownValues checks doc, v.hasText = true) ∧
      ∀ room, 5 * Schema.depth doc ≤ room →
        (∀ t : SchemaTag, (Validator.standard.within room).validate doc t.name =
          Validator.standard.validate doc t.name) ∧
        advisoryProblems (Validator.standard.within room) doc = advisoryProblems .standard doc ∧
        ∀ checks, validate (Validator.standard.within room) checks doc =
          validate .standard checks doc := by
  refine ⟨fun t => ?_, ?_, fun checks => ?_, fun room hroom => ?_⟩
  · obtain ⟨found, hfound⟩ := Schema.ends_checkAt_bundled t doc "$"
    exact ⟨found, hfound,
      Validator.validate_standard_eq_ok (Schema.validate_eq_ok_iff.2 ⟨_, found, hfound, rfl⟩)⟩
  · obtain ⟨advice, hadvice⟩ := advisoryReport_standard doc
    exact ⟨advice.1, by rw [advisoryProblems, hadvice]; rfl⟩
  · exact exists_report_iff checks doc
  · have hsame := fun t => Validator.validate_within t hroom
    exact ⟨hsame, advisoryProblems_congr hsame, validate_congr hsame⟩

/-- A registry whose only component has a prop of a type. -/
def typedRegistry (type : Json) : Json :=
  .obj [("name", .str "R"), ("version", .str "1.0.0"),
    ("components", .arr [.obj [("name", .str "A"), ("props", .obj [("p", .obj [("type", type)])])]])]

/-- A type that is none is made a text, to be shown. -/
theorem mem_shownValues_typedRegistry {type : Json} (htruthy : type.isTruthy = true)
    (hunknown : Component.isKnownType type = false) (checks : RegistryChecks) :
    type ∈ shownValues checks (typedRegistry type) := by
  have hshown : type ∈ Component.shownType false "p" (.obj [("type", type)]) := by
    simp [Component.shownType, Json.Members.get?, htruthy, hunknown]
  refine List.mem_flatMap.2 ⟨_, List.mem_singleton_self _, ?_⟩
  refine List.mem_append_left _ (List.mem_append_left _ (List.mem_append_left _
    (List.mem_append_left _ ?_)))
  exact List.mem_flatMap.2 ⟨("p", .obj [("type", type)]), List.mem_singleton_self _, hshown⟩

/-- In a stack with room for a thousand steps, a registry with 334 groups of tokens, one in the other, has no
report and gets no advice.  Nor has a registry a report in which the type of a prop is an integer of more
than 4300 digits. -/
theorem validation_standard_stops :
    (Validator.standard.within 1000).validate (Schema.towerRegistry 334) SchemaTag.manifest.name =
        .error (.fault .endless) ∧
      advisoryProblems (Validator.standard.within 1000) (Schema.towerRegistry 334) =
        .error (.fault .endless) ∧
      (∀ checks, validate (Validator.standard.within 1000) checks (Schema.towerRegistry 334) =
        .error (.fault .endless)) ∧
      ∀ checks, ¬ ∃ r, validate .standard checks (typedRegistry (.int (10 ^ 5000))) = .ok r := by
  have hstopped := Validator.validate_towerRegistry (show 1000 ≤ 3 * 334 by decide)
  refine ⟨hstopped, ?_, fun checks => by rw [validate, hstopped], fun checks hreport => ?_⟩
  · have hmanifest : SchemaTag.detect (Schema.towerRegistry 334) = .manifest := rfl
    rw [advisoryProblems, advisoryReport, hmanifest]
    simp only [Validator.validateDetected, hmanifest, hstopped]
    rfl
  · have htruthy : (Json.int (10 ^ 5000)).isTruthy = true :=
      bne_iff_ne.2 (pow_ne_zero 5000 (by decide))
    have htext := (exists_report_iff checks _).1 hreport _
      (mem_shownValues_typedRegistry htruthy rfl checks)
    rw [Json.hasText_int_pow (by decide)] at htext
    exact absurd htext (by simp)

end Registry

end DesignRegistry
