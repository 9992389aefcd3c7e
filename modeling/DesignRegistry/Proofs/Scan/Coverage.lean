/-
**What a scan finds of the rule about components.**

A scan applies all rules but the one about components, and compares elements with the registry instead.
A required prop that an element lacks is found by both.  The text of a prop is not: the rule looks at
the values that the prop's definition lists, and the scan at the variants that the component declares
for the prop.  These are different parts of a registry, and a registry may fill one without the other.

Main definitions:

* `Script.Source.Uses` — an element of a script is a component of a registry;
* `Component.Lacks`, `Component.Unlisted` — what the rule about components reports;
* `Component.Refuses`, `Component.Unvaried`, `Declared.Unknown` — what a scan reports besides.

Main results:

* `Rule.componentDiagnostics_error_iff` — when the rule about components reports an error;
* `Scan.nodes_error_iff` — when the comparison with the registry finds one;
* `scan_against_rule` — **when a scan finds a script invalid, and when the rule does**;
* `scan_passes_unlisted` — a script with an error of the rule that is valid for a scan.
-/
import DesignRegistry.Proofs.Json.Content
import DesignRegistry.Scan.Contract

set_option relaxedAutoImplicit false
set_option autoImplicit false

namespace DesignRegistry

/-! ### Breaches -/

/-- An element of a script is a component of a registry. -/
structure Script.Source.Uses (s : Script.Source) (registry : Json) (e : Script.Element)
    (component : Json) : Prop where
  element : e ∈ s.elements
  isComponent : e.isComponent = true
  found : Registry.find? registry e.name = some component

namespace Component

/-- An element lacks a required prop; what it spreads may hold any of them. -/
structure Lacks (component : Json) (e : Script.Element) (prop : String) : Prop where
  required : prop ∈ requiredProps component
  noSpread : e.hasSpread = false
  absent : e.hasAttribute prop = false

/-- The text of an attribute is none of the values that are listed for its prop. -/
def Unlisted (component : Json) (a : Script.Attribute) : Prop :=
  a.isString = true ∧ ∃ values, listedValues? component a.name = some values ∧
    ∀ v ∈ values, v.text? ≠ some a.textValue

/-- An attribute is none of the props that a component takes. -/
def Refuses (component : Json) (a : Script.Attribute) : Prop :=
  a.name ∉ Json.Members.keys (props component) ∧ a.name ∉ Scan.reservedProps

/-- The text of an attribute is none of the variants that are declared for its prop; an empty text is
passed over. -/
def Unvaried (component : Json) (a : Script.Attribute) : Prop :=
  a.isString = true ∧ a.textValue ≠ "" ∧
    ∃ allowed, variantValues? component a.name = some allowed ∧ a.textValue ∉ allowed

end Component

/-- The text of an attribute that takes a token looks like the name of one, and no token has it. -/
def Declared.Unknown (d : Declared) (a : Script.Attribute) : Prop :=
  a.isString = true ∧ isTokenProp a.name = true ∧ a.textValue ≠ "" ∧
    isFixedValue a.textValue = false ∧ looksLikeToken a.textValue = true ∧
    namesToken a.textValue d.tokenNames = false

/-! ### What is found -/

theorem Script.Source.mem_elements (s : Script.Source) {e : Script.Element} :
    e ∈ s.elements ↔ .element e ∈ s.nodes := by
  rw [elements, List.mem_filterMap]
  constructor
  · rintro ⟨n, hn, he⟩
    split at he
    · obtain rfl := Option.some.inj he
      exact hn
    · exact absurd he (by simp)
  · exact fun he => ⟨_, he, rfl⟩

/-- What is found of the required props that an element lacks. -/
theorem Component.exists_lacking {α : Type} (component : Json) (e : Script.Element) {f : String → α}
    {P : α → Prop} (hP : ∀ p, P (f p)) :
    (∃ x ∈ (if e.hasSpread then [] else
        ((requiredProps component).filter fun p => !e.hasAttribute p).map f), P x) ↔
      ∃ p, Lacks component e p := by
  cases hspread : e.hasSpread with
  | true =>
      refine iff_of_false ?_ ?_
      · rintro ⟨x, hx, -⟩
        exact absurd hx List.not_mem_nil
      · rintro ⟨p, h⟩
        exact absurd h.noSpread (by simp [hspread])
  | false =>
      rw [if_neg (by simp)]
      constructor
      · rintro ⟨x, hx, -⟩
        obtain ⟨p, hp, -⟩ := List.mem_map.1 hx
        obtain ⟨hrequired, habsent⟩ := List.mem_filter.1 hp
        exact ⟨p, hrequired, hspread, by simpa using habsent⟩
      · rintro ⟨p, h⟩
        exact ⟨_, List.mem_map.2 ⟨p, List.mem_filter.2 ⟨h.required, by simp [h.absent]⟩, rfl⟩, hP p⟩

/-! ### Errors of rules -/

/-- Some diagnostic is an error. -/
def Diagnostics.HasError (ds : List Diagnostic) : Prop := ∃ d ∈ ds, d.severity = .error

theorem Diagnostics.errors_ofList_ne_nil (ds : List Diagnostic) :
    (ofList ds).errors ≠ [] ↔ HasError ds := by
  rw [ofList, Ne, List.filter_eq_nil_iff, HasError]
  simp

theorem Diagnostics.hasError_append (ds es : List Diagnostic) :
    HasError (ds ++ es) ↔ HasError ds ∨ HasError es := by
  simp only [HasError, List.mem_append, or_and_right, exists_or]

theorem Diagnostics.hasError_flatMap {α : Type} (xs : List α) (f : α → List Diagnostic) :
    HasError (xs.flatMap f) ↔ ∃ x ∈ xs, HasError (f x) := exists_mem_flatMap

/-- Sorting by severity neither hides an error nor makes one. -/
theorem Diagnostics.hasError_all_ofList (ds : List Diagnostic) :
    HasError (ofList ds).all ↔ (ofList ds).errors ≠ [] := by
  rw [errors_ofList_ne_nil, all, ofList]
  simp only [HasError, List.mem_append, List.mem_filter, decide_eq_true_eq]
  constructor
  · rintro ⟨d, (⟨hd, -⟩ | ⟨hd, -⟩) | ⟨hd, -⟩, herror⟩ <;> exact ⟨d, hd, herror⟩
  · rintro ⟨d, hd, herror⟩
    exact ⟨d, .inl (.inl ⟨hd, herror⟩), herror⟩

namespace Component

open Diagnostics

theorem missingPropErrors_error_iff (component : Json) (e : Script.Element) :
    HasError (missingPropErrors component e) ↔ ∃ p, Lacks component e p :=
  exists_lacking component e fun _ => rfl

theorem attributeErrors_error_iff (component : Json) (e : Script.Element) :
    HasError (e.attributes.filterMap (attributeError? component e)) ↔
      ∃ a ∈ e.attributes, Unlisted component a := by
  have hsome : ∀ a, (∃ d, attributeError? component e a = some d ∧ d.severity = .error) ↔
      Unlisted component a := by
    intro a
    rw [attributeError?, Unlisted]
    cases listedValues? component a.name with
    | none => simp
    | some values =>
        simp only [Option.some.injEq, exists_eq_left']
        split
        · next hlisted =>
            refine iff_of_false (by simp) ?_
            rintro ⟨hstring, hnone⟩
            simp only [hstring, Bool.not_true, Bool.false_or, List.any_eq_true, beq_iff_eq] at hlisted
            obtain ⟨v, hv, htext⟩ := hlisted
            exact hnone v hv htext
        · next hlisted =>
            refine iff_of_true ⟨_, rfl, rfl⟩ ?_
            simpa using hlisted
  rw [HasError, exists_mem_filterMap]
  simp only [hsome]

theorem useDiagnostics_error_iff (registry : Json) (e : Script.Element) :
    HasError (useDiagnostics registry e) ↔ ∃ c, Registry.find? registry e.name = some c ∧
      ((∃ p, Lacks c e p) ∨ ∃ a ∈ e.attributes, Unlisted c a) := by
  rw [useDiagnostics]
  cases Registry.find? registry e.name with
  | none =>
      -- what no registry declares is worth a warning at most
      refine iff_of_false ?_ (by simp)
      simp only
      split <;> simp [HasError, Rule.warning]
  | some c =>
      simp only [Option.some.injEq, exists_eq_left']
      rw [hasError_append, missingPropErrors_error_iff, attributeErrors_error_iff]

end Component

/-- The rule about components reports an error exactly if an element lacks a required prop, or has a text
that is none of those that are listed for its prop. -/
theorem Rule.componentDiagnostics_error_iff (registry : Json) (s : Script.Source) :
    Diagnostics.HasError (componentDiagnostics registry s) ↔ ∃ e c, s.Uses registry e c ∧
      ((∃ p, Component.Lacks c e p) ∨ ∃ a ∈ e.attributes, Component.Unlisted c a) := by
  simp only [componentDiagnostics, Diagnostics.hasError_flatMap, List.mem_filter,
    Component.useDiagnostics_error_iff]
  constructor
  · rintro ⟨e, ⟨he, hcomponent⟩, c, hfound, h⟩
    exact ⟨e, c, ⟨he, hcomponent, hfound⟩, h⟩
  · rintro ⟨e, c, huses, h⟩
    exact ⟨e, ⟨huses.element, huses.isComponent⟩, c, huses.found, h⟩

/-! ### Errors of scans -/

namespace Scan

/-- Some violation is an error. -/
def HasError (vs : List Violation) : Prop := ∃ v ∈ vs, v.severity = .error

theorem isValid_eq_false_iff (r : ScanResult) : r.isValid = false ↔ HasError r.violations := by
  simp [ScanResult.isValid, HasError, Violation.isError]

theorem hasError_append (vs ws : List Violation) :
    HasError (vs ++ ws) ↔ HasError vs ∨ HasError ws := by
  simp only [HasError, List.mem_append, or_and_right, exists_or]

theorem hasError_filterMap {α : Type} (xs : List α) (f : α → Option Violation) :
    HasError (xs.filterMap f) ↔ ∃ x ∈ xs, ∃ v, f x = some v ∧ v.severity = .error :=
  exists_mem_filterMap

theorem hasError_ofDiagnostic (file : String) (ds : List Diagnostic) :
    HasError (ds.map (.ofDiagnostic file)) ↔ Diagnostics.HasError ds := by
  constructor
  · rintro ⟨v, hv, herror⟩
    obtain ⟨d, hd, rfl⟩ := List.mem_map.1 hv
    exact ⟨d, hd, herror⟩
  · rintro ⟨d, hd, herror⟩
    exact ⟨_, List.mem_map_of_mem hd, herror⟩

variable (d : Declared) (file : String) (component : Json) (e : Script.Element)

theorem propViolation?_error_iff (a : Script.Attribute) :
    (∃ v, propViolation? file e (Json.Members.keys (Component.props component)) a = some v ∧
      v.severity = .error) ↔ Component.Refuses component a := by
  rw [propViolation?, Component.Refuses]
  split
  · next hknown =>
      refine iff_of_false (by simp) ?_
      rintro ⟨hprop, hreserved⟩
      simp only [Bool.or_eq_true, List.contains_iff_mem] at hknown
      exact hknown.elim hprop hreserved
  · next hunknown =>
      refine iff_of_true ⟨_, rfl, rfl⟩ ?_
      simpa only [Bool.or_eq_true, List.contains_iff_mem, not_or] using hunknown

theorem variantViolation?_error_iff (a : Script.Attribute) :
    (∃ v, variantViolation? file component e a = some v ∧ v.severity = .error) ↔
      Component.Unvaried component a := by
  rw [variantViolation?, Component.Unvaried]
  cases Component.variantValues? component a.name with
  | none => simp
  | some allowed =>
      simp only [Option.some.injEq, exists_eq_left']
      split
      · next hallowed =>
          refine iff_of_false (by simp) ?_
          rintro ⟨hstring, htext, hnone⟩
          simp [hstring, htext, hnone] at hallowed
      · next hrefused =>
          refine iff_of_true ⟨_, rfl, rfl⟩ ?_
          simpa [and_assoc] using hrefused

theorem tokenViolation?_error_iff (a : Script.Attribute) :
    (∃ v, tokenViolation? d {} file e a = some v ∧ v.severity = .error) ↔ d.Unknown a := by
  rw [tokenViolation?, Declared.Unknown]
  split
  · next hskipped =>
      refine iff_of_false (by simp) ?_
      rintro ⟨hstring, hprop, htext, -⟩
      simp [hstring, hprop, htext] at hskipped
  · next htaken =>
      simp only [Bool.or_eq_true, Bool.not_eq_true', decide_eq_true_eq, not_or, Bool.not_eq_false]
        at htaken
      obtain ⟨⟨hstring, hprop⟩, htext⟩ := htaken
      cases hfixed : isFixedValue a.textValue with
      | true => simp [fixedAttribute, found]
      | false =>
          cases hlooks : looksLikeToken a.textValue <;>
            cases hnames : namesToken a.textValue d.tokenNames <;>
            simp [hstring, hprop, htext, unknownToken, found]

/-- A comparison of props finds an error exactly if one is refused or lacking. -/
theorem propViolations_error_iff : HasError (propViolations file component e) ↔
    (∃ p, Component.Lacks component e p) ∨ ∃ a ∈ e.attributes, Component.Refuses component a := by
  rw [propViolations, hasError_append, hasError_filterMap, or_comm]
  simp only [propViolation?_error_iff]
  exact or_congr_left (Component.exists_lacking component e fun _ => rfl)

/-- What a comparison of an element finds to be an error. -/
theorem elementViolations_error_iff : HasError (elementViolations d {} file e) ↔
    (∃ c, Registry.find? d.registry e.name = some c ∧ ((∃ p, Component.Lacks c e p) ∨
      ∃ a ∈ e.attributes, Component.Refuses c a ∨ Component.Unvaried c a)) ∨
    ∃ a ∈ e.attributes, d.Unknown a := by
  rw [elementViolations, hasError_append]
  refine or_congr ?_ ?_
  · cases Registry.find? d.registry e.name with
    | none =>
        refine iff_of_false ?_ (by simp)
        rintro ⟨v, hv, -⟩
        exact absurd hv List.not_mem_nil
    | some c =>
        simp only [Option.some.injEq, exists_eq_left', if_true]
        rw [hasError_append, propViolations_error_iff, hasError_filterMap]
        simp only [variantViolation?_error_iff, and_or_left, exists_or, or_assoc]
  · rw [if_pos rfl, hasError_filterMap]
    simp only [tokenViolation?_error_iff]

/-- Errors are found in elements that are components; what is found in texts is a warning at most. -/
theorem nodeViolations_error_iff (n : Script.Node) : HasError (nodeViolations d {} file n) ↔
    ∃ e, n = .element e ∧ e.isComponent = true ∧ HasError (elementViolations d {} file e) := by
  have hstring : ∀ t, ¬ HasError (stringViolation? {} file t).toList := by
    intro t
    rw [stringViolation?]
    split <;> simp [HasError, found]
  have htemplate : ∀ t, ¬ HasError (templateViolation? {} file t).toList := by
    intro t
    rw [templateViolation?]
    split <;> simp [HasError, found]
  cases n with
  | element e =>
      rw [nodeViolations]
      cases hcomponent : e.isComponent with
      | true => simp [hcomponent]
      | false => simp [HasError, hcomponent]
  | string t => simp [nodeViolations, hstring]
  | template t => simp [nodeViolations, htemplate]
  | importDecl i => simp [nodeViolations, HasError]
  | call c => simp [nodeViolations, HasError]

/-- The comparison of a script with a registry finds an error exactly in an element. -/
theorem nodes_error_iff (s : Script.Source) :
    HasError (s.nodes.flatMap (nodeViolations d {} file)) ↔
      ∃ e ∈ s.elements, e.isComponent = true ∧ HasError (elementViolations d {} file e) := by
  rw [HasError, exists_mem_flatMap]
  constructor
  · rintro ⟨n, hn, hfound⟩
    obtain ⟨e, rfl, hcomponent, helement⟩ := (nodeViolations_error_iff d file n).1 hfound
    exact ⟨e, s.mem_elements.2 hn, hcomponent, helement⟩
  · rintro ⟨e, he, hcomponent, helement⟩
    exact ⟨_, s.mem_elements.1 he,
      (nodeViolations_error_iff d file (.element e)).2 ⟨e, rfl, hcomponent, helement⟩⟩

end Scan

/-! ### A scan beside the rule -/

/-- **When a scan finds a script invalid, and when the rule about components does.**  The rule reports an
error where an element lacks a required prop or has a text that is none of the values listed for its
prop.  A scan finds the first of these, and of the second only what is none of the variants that are
declared for the prop; it is invalid also for errors of other rules, for props that a component does
not take and for unknown tokens.  So a script that the rule rejects is invalid for a scan if each text
that is not among the values listed for a prop is not among its variants either. -/
theorem scan_against_rule [Script.Parser] (registry : Json) (path text : String) (s : Script.Source)
    (hread : Script.Source.read path text = .ok s) (helements : hasElements text = true) :
    ((Contract.check registry [.components] false path text).diagnostics.errors ≠ [] ↔
      ∃ e c, s.Uses registry e c ∧
        ((∃ p, Component.Lacks c e p) ∨ ∃ a ∈ e.attributes, Component.Unlisted c a)) ∧
    ((Scan.source (.ofRegistry registry) Scan.rules {} path text).isValid = false ↔
      (Contract.check registry Scan.rules false path text).diagnostics.errors ≠ [] ∨
      (∃ e c, s.Uses registry e c ∧ ((∃ p, Component.Lacks c e p) ∨
        ∃ a ∈ e.attributes, Component.Refuses c a ∨ Component.Unvaried c a)) ∨
      ∃ e ∈ s.elements, e.isComponent = true ∧
        ∃ a ∈ e.attributes, (Declared.ofRegistry registry).Unknown a) ∧
    ((∀ e c, s.Uses registry e c → ∀ a ∈ e.attributes,
        Component.Unlisted c a → Component.Unvaried c a) →
      (Contract.check registry [.components] false path text).diagnostics.errors ≠ [] →
      (Scan.source (.ofRegistry registry) Scan.rules {} path text).isValid = false) := by
  have hrule : (Contract.check registry [.components] false path text).diagnostics.errors ≠ [] ↔
      ∃ e c, s.Uses registry e c ∧
        ((∃ p, Component.Lacks c e p) ∨ ∃ a ∈ e.attributes, Component.Unlisted c a) := by
    rw [← Rule.componentDiagnostics_error_iff, Contract.check, hread]
    simp only [Contract.findings, Rule.apply]
    rw [Diagnostics.errors_ofList_ne_nil, List.flatMap_singleton, Rule.diagnostics]
  have hscan : (Scan.source (.ofRegistry registry) Scan.rules {} path text).isValid = false ↔
      (Contract.check registry Scan.rules false path text).diagnostics.errors ≠ [] ∨
      (∃ e c, s.Uses registry e c ∧ ((∃ p, Component.Lacks c e p) ∨
        ∃ a ∈ e.attributes, Component.Refuses c a ∨ Component.Unvaried c a)) ∨
      ∃ e ∈ s.elements, e.isComponent = true ∧
        ∃ a ∈ e.attributes, (Declared.ofRegistry registry).Unknown a := by
    rw [Scan.isValid_eq_false_iff, Scan.source, helements, hread, Contract.check, hread]
    simp only [Bool.not_true, Bool.false_eq_true, if_false, Contract.findings, Rule.apply]
    rw [Scan.violations, Scan.hasError_append, Scan.hasError_ofDiagnostic, Rule.apply,
      Diagnostics.hasError_all_ofList, Scan.nodes_error_iff]
    refine or_congr_right ?_
    simp only [Scan.elementViolations_error_iff]
    constructor
    · rintro ⟨e, he, hcomponent, ⟨c, hfound, h⟩ | h⟩
      · exact .inl ⟨e, c, ⟨he, hcomponent, hfound⟩, h⟩
      · exact .inr ⟨e, he, hcomponent, h⟩
    · rintro (⟨e, c, huses, h⟩ | ⟨e, he, hcomponent, h⟩)
      · exact ⟨e, huses.element, huses.isComponent, .inl ⟨c, huses.found, h⟩⟩
      · exact ⟨e, he, hcomponent, .inr h⟩
  refine ⟨hrule, hscan, fun hvaried herror => hscan.2 (.inr (.inl ?_))⟩
  obtain ⟨e, c, huses, hlacks | ⟨a, ha, hunlisted⟩⟩ := hrule.1 herror
  · exact ⟨e, c, huses, .inl hlacks⟩
  · exact ⟨e, c, huses, .inr ⟨a, ha, .inr (hvaried e c huses a ha hunlisted)⟩⟩

/-- A registry of two components: one lists the values of a prop, and the other asks for one. -/
def formRegistry : Json :=
  .obj [("components", .arr
    [.obj [("name", .str "MyButton"), ("props", .obj
        [("size", .obj [("type", .str "string"), ("values", .arr [.str "sm", .str "lg"])])])],
      .obj [("name", .str "MyField"), ("props", .obj
        [("label", .obj [("type", .str "string"), ("required", .bool true)])])]])]

/-- A field without its label is rejected by the rule, and it is invalid for a scan. -/
theorem scan_against_rule_field :
    (∃ s, Script.Source.read "x.jsx" "<MyField/>" = .ok s) ∧ hasElements "<MyField/>" = true ∧
      (Contract.check formRegistry [.components] false "x.jsx" "<MyField/>").diagnostics.errors ≠ [] ∧
      (Scan.source (.ofRegistry formRegistry) Scan.rules {} "x.jsx" "<MyField/>").isValid = false := by
  have hnodes : (Script.Source.read "x.jsx" "<MyField/>").toOption.map Script.Source.nodes =
      some [.element { name := "MyField", attributes := [], position := ⟨1, 1⟩ }] := by
    decide +kernel
  obtain ⟨s, hread, hs⟩ := exists_ok_of_seen hnodes
  have helements : hasElements "<MyField/>" = true := by decide +kernel
  have herror : (Contract.check formRegistry [.components] false "x.jsx"
      "<MyField/>").diagnostics.errors ≠ [] := by decide +kernel
  refine ⟨⟨s, hread⟩, helements, herror, (scan_against_rule formRegistry "x.jsx" "<MyField/>" s
    hread helements).2.2 (fun e c huses a ha => ?_) herror⟩
  -- the only element has no attributes
  have he := huses.element
  rw [Script.Source.elements, hs] at he
  obtain rfl := List.mem_singleton.1 he
  exact absurd ha List.not_mem_nil

/-- A button of a size that is not listed is rejected by the rule, and it is valid for a scan. -/
theorem scan_passes_unlisted :
    (∃ s, Script.Source.read "x.jsx" "<MyButton size=\"xl\"/>" = .ok s) ∧
      hasElements "<MyButton size=\"xl\"/>" = true ∧
      (Contract.check formRegistry [.components] false "x.jsx"
        "<MyButton size=\"xl\"/>").diagnostics.errors ≠ [] ∧
      (Scan.source (.ofRegistry formRegistry) Scan.rules {} "x.jsx"
        "<MyButton size=\"xl\"/>").isValid = true := by
  have hpath : (Script.Source.read "x.jsx" "<MyButton size=\"xl\"/>").toOption.map
      Script.Source.path = some "x.jsx" := by decide +kernel
  obtain ⟨s, hread, -⟩ := exists_ok_of_seen hpath
  exact ⟨⟨s, hread⟩, by decide +kernel, by decide +kernel, by decide +kernel⟩

end DesignRegistry
