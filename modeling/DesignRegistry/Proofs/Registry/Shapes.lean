/-
**The two shapes of props.**

Props are written as an object from names to definitions, or as a list of definitions that carry their
names.  A registry in the first shape is turned into one in the second here, and nothing that looks at
registries can tell the two apart: neither the validation of the registry, nor the check of a script, nor
a scan.  The schema does: it has a definition for each shape, and reports at other paths.  But what it
reports about props is left to the check of definitions, which calls a definition by its name in both
shapes.

Main definitions:

* `Component.PropsByName` — props that can be listed;
* `Component.withPropList`, `Registry.withPropLists` — the same with lists of props.

Main results:

* `Component.props_withPropList` — what the props of a component become;
* `Registry.validate_withPropLists` — **a registry is as valid with lists of props**;
* `prop_shapes_agree` — **the two shapes of props mean the same**.
-/
import DesignRegistry.Proofs.Json.Legible
import DesignRegistry.Proofs.Registry.Validation
import DesignRegistry.Proofs.Schema.Agreement
import DesignRegistry.Proofs.Text.Pieces
import DesignRegistry.Scan.Contract

set_option relaxedAutoImplicit false
set_option autoImplicit false

namespace DesignRegistry

open Json

/-! ### Members -/

namespace Json.Members

/-- Values that change with their keys. -/
theorem get?_map (f : String × Json → Json) (key : String) (ms : Members) :
    get? key (ms.map fun m => (m.1, f m)) = (get? key ms).map fun v => f (key, v) := by
  induction ms with
  | nil => rfl
  | cons m ms ih =>
      obtain ⟨k, v⟩ := m
      rw [List.map_cons, get?_cons, get?_cons]
      by_cases hk : k = key
      · rw [if_pos hk, if_pos hk, Option.map_some, hk]
      · rw [if_neg hk, if_neg hk, ih]

end Json.Members

/-! ### Components -/

namespace Component

/-- A definition with its name put in. -/
def withName (m : String × Json) : Json :=
  match m.2 with
  | .obj ds => .obj (Members.put "name" (.str m.1) ds)
  | d => d

/-- A component with its props as a list, if they are given by name. -/
def withPropList (component : Json) : Json :=
  match component, component.field? "props" with
  | .obj ms, some (.obj ps) => .obj (Members.put "props" (.arr (ps.map withName)) ms)
  | c, _ => c

/-- Props that can be listed: each name occurs once, is not empty and is not taken for a position, and
what it has is a definition. -/
def Listable (ps : Members) : Prop :=
  (Members.keys ps).Nodup ∧
    ∀ m ∈ ps, m.1 ≠ "" ∧ Text.hasFront m.1 "[" = false ∧ isDefinition m.2 = true

instance (ps : Members) : Decidable (Listable ps) := inferInstanceAs (Decidable (_ ∧ _))

/-- A component whose props can be listed, if they are given by name. -/
def PropsByName (component : Json) : Prop :=
  ∀ ps, component.field? "props" = some (.obj ps) → Listable ps

variable {component : Json}

/-- A component stays as it is, or its list of props stands where the object stood. -/
theorem withPropList_cases (component : Json) : withPropList component = component ∨
    ∃ ms ps, component = .obj ms ∧ Members.get? "props" ms = some (.obj ps) ∧
      withPropList component = .obj (Members.put "props" (.arr (ps.map withName)) ms) := by
  rw [withPropList.eq_def]
  split
  · next ms ps hps => exact .inr ⟨ms, ps, rfl, hps, rfl⟩
  · exact .inl rfl

theorem field?_withPropList {key : String} (h : key ≠ "props") :
    (withPropList component).field? key = component.field? key := by
  rcases withPropList_cases component with heq | ⟨ms, ps, rfl, -, heq⟩
  · rw [heq]
  · rw [heq, field?, field?, Members.get?_put_of_ne h]

/-! ### Definitions -/

theorem field?_withName {key : String} (h : key ≠ "name") (m : String × Json) :
    (withName m).field? key = m.2.field? key := by
  rw [withName]
  split
  · next ds hds => rw [hds, field?, field?, Members.get?_put_of_ne h]
  · rfl

theorem name_withName {m : String × Json} (h : isDefinition m.2 = true) :
    (withName m).field? "name" = some (.str m.1) := by
  obtain ⟨name, d⟩ := m
  cases d with
  | obj ds => exact Members.get?_put_self _ _ _
  | null | bool _ | int _ | float _ | str _ | arr _ => exact absurd h (by simp [isDefinition, members?])

theorem listedProp?_withName {m : String × Json} (h : isDefinition m.2 = true) :
    listedProp? (withName m) = some (m.1, withName m) := by
  obtain ⟨name, d⟩ := m
  cases d with
  | obj ds => simp [withName, listedProp?, text?]
  | null | bool _ | int _ | float _ | str _ | arr _ => exact absurd h (by simp [isDefinition, members?])

/-- The props of a component are the same with a list of them, but for the names in the definitions. -/
theorem props_withPropList (h : PropsByName component) :
    props (withPropList component) = props component ∨
      props (withPropList component) = (props component).map fun m => (m.1, withName m) := by
  rcases withPropList_cases component with heq | ⟨ms, ps, rfl, hps, heq⟩
  · rw [heq]
    exact .inl rfl
  · obtain ⟨hnodup, hall⟩ := h ps hps
    refine .inr ?_
    have hprops : props (.obj ms) = ps := by
      rw [props, field?, hps]
      exact List.filter_eq_self.2 fun m hm => (hall m hm).2.2
    have hlisted : (ps.map withName).filterMap listedProp? = ps.map fun m => (m.1, withName m) := by
      rw [List.filterMap_map, ← List.filterMap_eq_map]
      exact List.filterMap_congr fun m hm => listedProp?_withName (hall m hm).2.2
    rw [heq, hprops, props, field?, Members.get?_put_self]
    simp only [hlisted]
    refine Members.ofPairs_of_nodup ?_
    rwa [Members.keys, List.map_map]

theorem keys_props_withPropList (h : PropsByName component) :
    Members.keys (props (withPropList component)) = Members.keys (props component) := by
  rcases props_withPropList h with heq | heq
  · rw [heq]
  · rw [heq, Members.keys, List.map_map]
    rfl

theorem requiredProps_withPropList (h : PropsByName component) :
    requiredProps (withPropList component) = requiredProps component := by
  rcases props_withPropList h with heq | heq
  · rw [requiredProps, heq, requiredProps]
  · have hrequired : (fun m => isRequired m.2) ∘ (fun m : String × Json => (m.1, withName m)) =
        fun m => isRequired m.2 := by
      funext m
      rw [Function.comp_apply, isRequired, field?_withName (by decide), isRequired]
    rw [requiredProps, heq, List.filter_map, List.map_map, hrequired, requiredProps]
    rfl

/-- What a definition says, but for the name, does not change. -/
theorem definition_withPropList (h : PropsByName component) {key : String} (hkey : key ≠ "name")
    (prop : String) :
    (Members.get? prop (props (withPropList component))).bind (field? key) =
      (Members.get? prop (props component)).bind (field? key) := by
  rcases props_withPropList h with heq | heq
  · rw [heq]
  · rw [heq, Members.get?_map, Option.bind_map]
    refine congrArg _ (funext fun d => ?_)
    exact field?_withName hkey (prop, d)

/-! ### Errors -/

section Accessors

variable (component)

theorem listsProps_withPropList : listsProps (withPropList component) = listsProps component := by
  rcases withPropList_cases component with heq | ⟨ms, ps, rfl, hps, heq⟩
  · rw [heq]
  · rw [heq, listsProps, listsProps, field?, field?, Members.get?_put_self, hps]

theorem label_withPropList (i : ℕ) : label (withPropList component) i = label component i := by
  rw [label, field?_withPropList (by decide), label]

theorem shownName_withPropList : shownName (withPropList component) = shownName component := by
  rw [shownName, field?_withPropList (by decide), shownName]

theorem examples_withPropList : examples (withPropList component) = examples component := by
  rw [examples, field?_withPropList (by decide), examples]

theorem hasVariants_withPropList : hasVariants (withPropList component) = hasVariants component := by
  rw [hasVariants, field?_withPropList (by decide), hasVariants]

theorem listedVariants_withPropList (prop : String) :
    listedVariants (withPropList component) prop = listedVariants component prop := by
  rw [listedVariants, field?_withPropList (by decide), listedVariants]

theorem ownTokens_withPropList : ownTokens (withPropList component) = ownTokens component := by
  rw [ownTokens, field?_withPropList (by decide), ownTokens]

theorem variantValues?_withPropList (prop : String) :
    variantValues? (withPropList component) prop = variantValues? component prop := by
  rw [variantValues?, field?_withPropList (by decide), variantValues?]

end Accessors

/-- A definition is called by its name in a list as well. -/
theorem listedLabel_withName {m : String × Json} (hname : m.1 ≠ "") (h : isDefinition m.2 = true)
    (i : ℕ) : listedLabel (withName m) i = m.1 := by
  rw [listedLabel, name_withName h, filledText?, if_neg hname, Option.getD_some]

/-- A definition has the same errors in both shapes. -/
theorem definitionErrors_withName {m : String × Json} (about : String)
    (hfront : Text.hasFront m.1 "[" = false) (h : isDefinition m.2 = true) :
    definitionErrors about true m.1 (withName m) = definitionErrors about false m.1 m.2 := by
  obtain ⟨name, d⟩ := m
  cases d with
  | obj ds =>
      have htype : Members.get? "type" (Members.put "name" (.str name) ds) = Members.get? "type" ds :=
        Members.get?_put_of_ne (by decide) _ _
      have hvalues : Members.get? "values" (Members.put "name" (.str name) ds) =
          Members.get? "values" ds :=
        Members.get?_put_of_ne (by decide) _ _
      simp only [definitionErrors, withName, hfront, typeErrors, field?, htype, hvalues, Bool.and_false]
      rfl
  | null | bool _ | int _ | float _ | str _ | arr _ => exact absurd h (by simp [isDefinition, members?])

/-- A definition shows the same type in both shapes. -/
theorem shownType_withName {m : String × Json} (hfront : Text.hasFront m.1 "[" = false) :
    shownType true m.1 (withName m) = shownType false m.1 m.2 := by
  obtain ⟨name, d⟩ := m
  cases d with
  | obj ds =>
      simp only [shownType, withName, hfront, Bool.and_false, Members.get?_put_of_ne
        (show "type" ≠ "name" by decide)]
  | null | bool _ | int _ | float _ | str _ | arr _ => rfl

/-- What comes of each definition in both shapes comes of all of them. -/
theorem flatMap_withName {α : Type} {ps : Members} (h : Listable ps)
    {f : Bool → String → Json → List α}
    (hf : ∀ m ∈ ps, f true m.1 (withName m) = f false m.1 m.2) :
    ((ps.map withName).zipIdx.flatMap fun x => f true (listedLabel x.1 x.2) x.1) =
      ps.flatMap fun m => f false m.1 m.2 := by
  rw [List.zipIdx_map, List.flatMap_map]
  conv_rhs => rw [← List.zipIdx_map_fst 0 ps, List.flatMap_map]
  refine List.flatMap_congr fun x hx => ?_
  have hmem := List.fst_mem_of_mem_zipIdx hx
  obtain ⟨hname, -, hdefinition⟩ := h.2 x.1 hmem
  change f true (listedLabel (withName x.1) x.2) (withName x.1) = _
  rw [listedLabel_withName hname hdefinition, hf x.1 hmem]

theorem propErrors_withPropList (h : PropsByName component) (i : ℕ) :
    propErrors (withPropList component) i = propErrors component i := by
  rw [propErrors, label_withPropList, propErrors]
  rcases withPropList_cases component with heq | ⟨ms, ps, rfl, hps, heq⟩
  · rw [heq]
  · have hall := h ps hps
    simp only [heq, field?, Members.get?_put_self, hps, Option.getD_some]
    exact flatMap_withName hall fun m hm =>
      definitionErrors_withName _ (hall.2 m hm).2.1 (hall.2 m hm).2.2

theorem shownTypes_withPropList (h : PropsByName component) :
    shownTypes (withPropList component) = shownTypes component := by
  rw [shownTypes, shownTypes]
  rcases withPropList_cases component with heq | ⟨ms, ps, rfl, hps, heq⟩
  · rw [heq]
  · have hall := h ps hps
    simp only [heq, field?, Members.get?_put_self, hps, Option.getD_some]
    exact flatMap_withName hall fun m hm => shownType_withName (hall.2 m hm).2.1

theorem definedVariants_withPropList (h : PropsByName component) :
    definedVariants (withPropList component) = definedVariants component := by
  rw [definedVariants, definition_withPropList h (by decide), definedVariants]

theorem allowedVariants_withPropList (h : PropsByName component) :
    allowedVariants (withPropList component) = allowedVariants component := by
  rw [allowedVariants, variantValues?_withPropList, field?_withPropList (by decide),
    definedVariants_withPropList h, allowedVariants]

theorem exampleErrors_withPropList (h : PropsByName component) :
    exampleErrors (withPropList component) = exampleErrors component := by
  have hhas : ∀ n, Members.has n (props (withPropList component)) =
      Members.has n (props component) := by
    intro n
    rw [Bool.eq_iff_iff, Members.has_iff, Members.has_iff, keys_props_withPropList h]
  simp only [exampleErrors, unknownPropErrors, unknownVariantErrors, examples_withPropList,
    shownName_withPropList, hasVariants_withPropList, listsProps_withPropList, hhas,
    allowedVariants_withPropList h]

/-! ### Warnings -/

theorem variantWarnings_withPropList (h : PropsByName component) :
    variantWarnings (withPropList component) = variantWarnings component := by
  simp only [variantWarnings, examples_withPropList, shownName_withPropList,
    hasVariants_withPropList, allowedVariants_withPropList h]

theorem tokenUseWarnings_withPropList (component : Json) :
    tokenUseWarnings (withPropList component) = tokenUseWarnings component := by
  have huses : styleUses (withPropList component) = styleUses component := by
    rw [styleUses, field?_withPropList (by decide), field?_withPropList (by decide), styleUses]
  simp only [tokenUseWarnings, huses, shownName_withPropList,
    field?_withPropList (show "tokens" ≠ "props" by decide)]

theorem tokenWarnings_withPropList (strict : Bool) (component : Json) :
    tokenWarnings strict (withPropList component) = tokenWarnings strict component := by
  rw [tokenWarnings, tokenUseWarnings_withPropList, ownTokens_withPropList, tokenWarnings]

theorem propNameWarnings_withPropList (h : PropsByName component) :
    propNameWarnings (withPropList component) = propNameWarnings component := by
  rw [propNameWarnings, keys_props_withPropList h, shownName_withPropList, propNameWarnings]

theorem namingWarnings_withPropList (h : PropsByName component) :
    namingWarnings (withPropList component) = namingWarnings component := by
  rw [namingWarnings, field?_withPropList (by decide), propNameWarnings_withPropList h, namingWarnings]

/-! ### Values that are made texts -/

/-- The same values are made texts in both shapes. -/
theorem shownValues_withPropList (checks : RegistryChecks) (h : PropsByName component) :
    shownValues checks (withPropList component) = shownValues checks component := by
  have hmessages : namedMessages checks (withPropList component) = namedMessages checks component := by
    rw [namedMessages, exampleErrors_withPropList h, variantWarnings_withPropList h,
      tokenUseWarnings_withPropList, propNameWarnings_withPropList h, namedMessages]
  rw [shownValues, shownTypes_withPropList h, listedVariants_withPropList,
    definedVariants_withPropList h, hmessages, field?_withPropList (by decide), comparedTokens,
    ownTokens_withPropList, shownValues, comparedTokens]

end Component

/-! ### Registries -/

namespace Registry

open Component

/-- A registry whose components have lists of props. -/
def withPropLists (registry : Json) : Json :=
  match registry, registry.field? "components" with
  | .obj ms, some (.arr cs) => .obj (Members.put "components" (.arr (cs.map withPropList)) ms)
  | r, _ => r

variable {registry : Json}

/-- A registry stays as it is, or its components are changed where they stand. -/
theorem withPropLists_cases (registry : Json) :
    (withPropLists registry = registry ∧ listedComponents registry = []) ∨
      ∃ ms cs, registry = .obj ms ∧ Members.get? "components" ms = some (.arr cs) ∧
        withPropLists registry =
          .obj (Members.put "components" (.arr (cs.map withPropList)) ms) := by
  cases registry with
  | obj ms =>
      cases hcs : Members.get? "components" ms with
      | none => exact .inl (by simp [withPropLists, listedComponents, field?, hcs])
      | some v =>
          cases v with
          | arr cs => exact .inr ⟨ms, cs, rfl, hcs, by simp [withPropLists, field?, hcs]⟩
          | null | bool _ | int _ | float _ | str _ | obj _ =>
              exact .inl (by simp [withPropLists, listedComponents, field?, items?, hcs])
  | null | bool _ | int _ | float _ | str _ | arr _ => exact .inl ⟨rfl, rfl⟩

theorem field?_withPropLists {key : String} (h : key ≠ "components") :
    (withPropLists registry).field? key = registry.field? key := by
  rcases withPropLists_cases registry with ⟨heq, -⟩ | ⟨ms, cs, rfl, -, heq⟩
  · rw [heq]
  · rw [heq, field?, field?, Members.get?_put_of_ne h]

theorem listedComponents_withPropLists (registry : Json) :
    listedComponents (withPropLists registry) = (listedComponents registry).map withPropList := by
  rcases withPropLists_cases registry with ⟨heq, hnil⟩ | ⟨ms, cs, rfl, hcs, heq⟩
  · rw [heq, hnil, List.map_nil]
  · rw [heq, listedComponents, listedComponents, field?, field?, Members.get?_put_self, hcs]
    rfl

theorem isNamed_withPropList (name : String) (component : Json) :
    isNamed name (withPropList component) = isNamed name component := by
  simp only [isNamed, namingKeys, List.any_cons, List.any_nil,
    field?_withPropList (show "name" ≠ "props" by decide),
    field?_withPropList (show "displayName" ≠ "props" by decide),
    field?_withPropList (show "exportName" ≠ "props" by decide)]

theorem components_withPropLists (registry : Json) :
    components (withPropLists registry) = (components registry).map withPropList := by
  have hcomponent : isComponent ∘ withPropList = isComponent := by
    funext c
    rw [Function.comp_apply, isComponent, field?_withPropList (by decide), isComponent]
  rw [components, ← listedComponents, listedComponents_withPropLists, List.filter_map, hcomponent]
  rfl

/-- A name leads to the same component. -/
theorem find?_withPropLists (registry : Json) (name : String) :
    find? (withPropLists registry) name = (find? registry name).map withPropList := by
  have hnamed : isNamed name ∘ withPropList = isNamed name :=
    funext fun c => isNamed_withPropList name c
  rw [find?, components_withPropLists, List.find?_map, hnamed, find?]

/-- What goes by a name is listed. -/
theorem mem_listed_of_find? {name : String} {component : Json}
    (h : find? registry name = some component) : component ∈ listedComponents registry :=
  (List.mem_filter.1 (List.mem_of_find?_eq_some h)).1

/-! ### Reports on registries -/

theorem componentErrors_withPropList {component : Json} (h : PropsByName component) (i : ℕ) :
    componentErrors (withPropList component) i = componentErrors component i := by
  have herrors := propErrors_withPropList h i
  have hexamples := exampleErrors_withPropList h
  rcases withPropList_cases component with heq | ⟨ms, ps, rfl, hps, heq⟩
  · rw [heq]
  · rw [heq] at herrors hexamples ⊢
    rw [componentErrors, componentErrors, herrors, hexamples]

theorem componentWarnings_withPropList {component : Json} (h : PropsByName component)
    (checks : RegistryChecks) :
    componentWarnings checks (withPropList component) = componentWarnings checks component := by
  have hvariants := variantWarnings_withPropList h
  have htokens := tokenWarnings_withPropList checks.strict component
  have hnames := namingWarnings_withPropList h
  rcases withPropList_cases component with heq | ⟨ms, ps, rfl, hps, heq⟩
  · rw [heq]
  · rw [heq] at hvariants htokens hnames ⊢
    rw [componentWarnings, componentWarnings, hvariants, htokens, hnames]

theorem componentValues_withPropList {component : Json} (h : PropsByName component)
    (checks : RegistryChecks) :
    componentValues checks (withPropList component) = componentValues checks component := by
  have hvalues := shownValues_withPropList checks h
  rcases withPropList_cases component with heq | ⟨ms, ps, rfl, hps, heq⟩
  · rw [heq]
  · rw [heq] at hvalues ⊢
    rw [componentValues, componentValues, hvalues]

/-- The paths of violations about props. -/
def isPropsPath (path : String) : Bool := Text.contains path ".props"

/-- The lines of a report are those of what is left of it without the paths of props. -/
theorem lines_eq_of_kept {found found' : List Schema.Violation}
    (h : Schema.kept isPropsPath found = Schema.kept isPropsPath found') :
    (found.filter fun v => !isAboutProps v).map Schema.Violation.line =
      (found'.filter fun v => !isAboutProps v).map Schema.Violation.line := by
  have hlines : ∀ report : List Schema.Violation,
      (report.filter fun v => !isAboutProps v).map Schema.Violation.line =
        (Schema.kept isPropsPath report).map fun k =>
          (ofLex k).1 ++ ": " ++ (ofLex (ofLex k).2).2 := by
    intro report
    rw [Schema.kept, List.filter_map, List.map_map]
    rfl
  rw [hlines, hlines, h]

theorem report_withPropLists (checks : RegistryChecks) {found found' : List Schema.Violation}
    (hprops : ∀ c ∈ listedComponents registry, PropsByName c)
    (h : Schema.kept isPropsPath found = Schema.kept isPropsPath found') :
    report checks found' (withPropLists registry) = report checks found registry := by
  have herrors : ((listedComponents registry).zipIdx.flatMap fun x =>
      componentErrors (withPropList x.1) x.2) =
        (listedComponents registry).zipIdx.flatMap fun x => componentErrors x.1 x.2 :=
    List.flatMap_congr fun x hx =>
      componentErrors_withPropList (hprops x.1 (List.fst_mem_of_mem_zipIdx hx)) x.2
  have hwarnings : ((listedComponents registry).flatMap fun c =>
      componentWarnings checks (withPropList c)) =
        (listedComponents registry).flatMap (componentWarnings checks) :=
    List.flatMap_congr fun c hc => componentWarnings_withPropList (hprops c hc) checks
  rw [report, listedComponents_withPropLists, List.length_map, List.zipIdx_map, List.flatMap_map,
    List.flatMap_map, lines_eq_of_kept h.symm, hwarnings, report, ← herrors]
  rfl

theorem reported_withPropLists (checks : RegistryChecks) {found found' : List Schema.Violation}
    (hprops : ∀ c ∈ listedComponents registry, PropsByName c)
    (h : Schema.kept isPropsPath found = Schema.kept isPropsPath found') :
    reported checks found' (withPropLists registry) = reported checks found registry := by
  have hvalues : shownValues checks (withPropLists registry) = shownValues checks registry := by
    rw [Registry.shownValues, listedComponents_withPropLists, List.flatMap_map, Registry.shownValues]
    exact List.flatMap_congr fun c hc => componentValues_withPropList (hprops c hc) checks
  rw [reported, hvalues, report_withPropLists checks hprops h, reported]

/-! ### The schema of manifests -/

open Schema

/-- All that is reported about the props of a component is passed over. -/
theorem agree_props (fuel : ℕ) (v w s : Json) (path : String) :
    Agree isPropsPath (checkAt manifest fuel v s (memberPath path "props"))
      (checkAt manifest fuel w s (memberPath path "props")) := by
  refine agree_beneath (beneath_checkAt manifest fuel v s _) (beneath_checkAt manifest fuel w s _) ?_
  intro longer hlonger
  rw [isPropsPath, Text.contains, occursIn_iff]
  refine List.IsInfix.trans ?_ hlonger.isInfix
  rw [memberPath, String.append_assoc, String.toList_append]
  exact (List.suffix_append _ _).isInfix

theorem agree_component (fuel : ℕ) (component : Json) (path : String) :
    Agree isPropsPath
      (checkAt manifest fuel component (.obj [("$ref", .str "#/definitions/component")]) path)
      (checkAt manifest fuel (withPropList component)
        (.obj [("$ref", .str "#/definitions/component")]) path) := by
  rcases withPropList_cases component with heq | ⟨ms, ps, rfl, hps, heq⟩
  · rw [heq]
    exact agree_refl _
  · rw [heq]
    refine agree_checkAt_reference rfl rfl (fun fuel => ?_) fuel
    refine agree_checkAt_keywords rfl (fun fuel => ?_) fuel
    exact agree_put rfl hps fun s _ => agree_props fuel _ _ s path

theorem agree_manifest (fuel : ℕ) (registry : Json) :
    Agree isPropsPath (checkAt manifest fuel registry manifest "$")
      (checkAt manifest fuel (withPropLists registry) manifest "$") := by
  rcases withPropLists_cases registry with ⟨heq, -⟩ | ⟨ms, cs, rfl, hcs, heq⟩
  · rw [heq]
    exact agree_refl _
  · rw [heq]
    refine agree_checkAt_keywords rfl (fun fuel => ?_) fuel
    refine agree_put rfl hcs fun s hs => ?_
    obtain rfl := Option.some.inj hs
    refine agree_checkAt_keywords rfl (fun fuel => ?_) fuel
    exact agree_array rfl rfl fun i c _ => agree_component fuel c _

/-- **A registry is as valid with lists of props,** for the same reasons and with the same warnings. -/
theorem validate_withPropLists (checks : RegistryChecks)
    (hprops : ∀ c ∈ listedComponents registry, PropsByName c) :
    validate .standard checks (withPropLists registry) = validate .standard checks registry := by
  obtain ⟨found, hfound⟩ := ends_validate_bundled .manifest registry "$"
  obtain ⟨found', hfound'⟩ := ends_validate_bundled .manifest (withPropLists registry) "$"
  have hkept := kept_of_validate (fun fuel => agree_manifest fuel registry) hfound hfound'
  rw [validate, validate, Validator.validate_standard_eq_ok hfound,
    Validator.validate_standard_eq_ok hfound']
  exact reported_withPropLists checks hprops hkept

end Registry

/-! ### Scripts -/

open Component Registry

theorem Token.ofRegistry_withPropLists (registry : Json) :
    Token.ofRegistry (withPropLists registry) = Token.ofRegistry registry := by
  rw [Token.ofRegistry, field?_withPropLists (by decide), Token.ofRegistry]

section Components

variable {component : Json}

theorem Component.missingPropErrors_withPropList (h : PropsByName component) (e : Script.Element) :
    missingPropErrors (withPropList component) e = missingPropErrors component e := by
  rw [missingPropErrors, requiredProps_withPropList h, missingPropErrors]

theorem Component.attributeError?_withPropList (h : PropsByName component) (e : Script.Element) :
    attributeError? (withPropList component) e = attributeError? component e := by
  funext a
  rw [attributeError?, listedValues?, definition_withPropList h (by decide), attributeError?,
    listedValues?]

theorem Scan.propViolations_withPropList (h : PropsByName component) (file : String)
    (e : Script.Element) :
    propViolations file (withPropList component) e = propViolations file component e := by
  rw [propViolations, keys_props_withPropList h, requiredProps_withPropList h, propViolations]

theorem Scan.variantViolation?_withPropList (file : String) (e : Script.Element) :
    variantViolation? file (withPropList component) e = variantViolation? file component e := by
  funext a
  rw [variantViolation?, variantValues?_withPropList, variantViolation?]

end Components

section Registries

variable {registry : Json}

/-- Elements are looked at in the same way. -/
theorem Component.useDiagnostics_withPropLists
    (hprops : ∀ c ∈ listedComponents registry, PropsByName c) (e : Script.Element) :
    useDiagnostics (withPropLists registry) e = useDiagnostics registry e := by
  rw [useDiagnostics, find?_withPropLists, useDiagnostics]
  cases hfind : find? registry e.name with
  | none => rfl
  | some c =>
      have hc := hprops c (mem_listed_of_find? hfind)
      rw [Option.map_some]
      simp only [missingPropErrors_withPropList hc, attributeError?_withPropList hc]

theorem Rule.apply_withPropLists (hprops : ∀ c ∈ listedComponents registry, PropsByName c)
    (rules : List Rule) (s : Script.Source) :
    Rule.apply rules (withPropLists registry) s = Rule.apply rules registry s := by
  have hrule : diagnostics (withPropLists registry) s = diagnostics registry s := by
    funext r
    cases r with
    | tokens =>
        rw [diagnostics, tokenDiagnostics, Token.spellings, Token.names,
          Token.ofRegistry_withPropLists]
        rfl
    | components =>
        have huse : useDiagnostics (withPropLists registry) = useDiagnostics registry :=
          funext fun e => useDiagnostics_withPropLists hprops e
        rw [diagnostics, componentDiagnostics, huse]
        rfl
    | props | accessibility | performance | patterns => rfl
  rw [Rule.apply, hrule, Rule.apply]

theorem Scan.elementViolations_withPropLists
    (hprops : ∀ c ∈ listedComponents registry, PropsByName c) (o : ScanOptions) (file : String)
    (e : Script.Element) :
    elementViolations (.ofRegistry (withPropLists registry)) o file e =
      elementViolations (.ofRegistry registry) o file e := by
  -- of the tokens only the list is looked at
  have htokens : tokenViolation? (.ofRegistry (withPropLists registry)) o file e =
      tokenViolation? (.ofRegistry registry) o file e := by
    rw [Declared.ofRegistry, Token.ofRegistry_withPropLists]
    rfl
  rw [elementViolations, elementViolations, htokens]
  simp only [Declared.ofRegistry, find?_withPropLists]
  cases hfind : find? registry e.name with
  | none => rfl
  | some c =>
      have hc := hprops c (mem_listed_of_find? hfind)
      rw [Option.map_some]
      simp only [propViolations_withPropList hc, variantViolation?_withPropList]

theorem Scan.violations_withPropLists (hprops : ∀ c ∈ listedComponents registry, PropsByName c)
    (rules : List Rule) (o : ScanOptions) (s : Script.Source) :
    violations (.ofRegistry (withPropLists registry)) rules o s =
      violations (.ofRegistry registry) rules o s := by
  have hrules : Rule.apply rules (Declared.ofRegistry (withPropLists registry)).registry s =
      Rule.apply rules (Declared.ofRegistry registry).registry s :=
    Rule.apply_withPropLists hprops rules s
  have hnodes : nodeViolations (.ofRegistry (withPropLists registry)) o s.path =
      nodeViolations (.ofRegistry registry) o s.path := by
    funext node
    cases node with
    | element e => rw [nodeViolations, elementViolations_withPropLists hprops, nodeViolations]
    | _ => rfl
  rw [violations, hrules, hnodes, violations]

end Registries

/-- **The two shapes of props mean the same.**  A registry whose components have their props by name
keeps its report, whatever checks are wanted, if the props are listed instead, with the names put into
the definitions.  So does every script that is checked against it, and every script that is scanned. -/
theorem prop_shapes_agree [Script.Parser] {registry : Json}
    (hprops : ∀ c ∈ listedComponents registry, PropsByName c) :
    (∀ checks, validate .standard checks (withPropLists registry) =
        validate .standard checks registry) ∧
      (∀ rules strict path text, Contract.check (withPropLists registry) rules strict path text =
        Contract.check registry rules strict path text) ∧
      ∀ rules o path text, Scan.source (.ofRegistry (withPropLists registry)) rules o path text =
        Scan.source (.ofRegistry registry) rules o path text := by
  refine ⟨fun checks => validate_withPropLists checks hprops, fun rules strict path text => ?_,
    fun rules o path text => ?_⟩
  · rw [Contract.check, Contract.check]
    cases Script.Source.read path text with
    | error f => rfl
    | ok s => rw [Contract.findings, Rule.apply_withPropLists hprops, Contract.findings]
  · rw [Scan.source, Scan.source]
    simp only [Scan.violations_withPropLists hprops]

/-- The registry with a prop that is required in words, with a list of props. -/
def wordyListRegistry : Json :=
  .obj [("name", .str "R"), ("version", .str "1.0.0"),
    ("components", .arr [.obj [("name", .str "A"),
      ("props", .arr [.obj [("type", .str "string"), ("required", .str "yes"),
        ("name", .str "p")]])]])]

/-- The schema reports the word at different paths in the two shapes, and neither is passed on. -/
theorem prop_shapes_agree_wordy :
    (∀ c ∈ listedComponents wordyRegistry, PropsByName c) ∧
      withPropLists wordyRegistry = wordyListRegistry ∧
      (∀ checks, validate .standard checks wordyListRegistry =
        validate .standard checks wordyRegistry) ∧
      (∀ rules strict path text, Contract.check wordyListRegistry rules strict path text =
        Contract.check wordyRegistry rules strict path text) ∧
      ∀ rules o path text, Scan.source (.ofRegistry wordyListRegistry) rules o path text =
        Scan.source (.ofRegistry wordyRegistry) rules o path text := by
  have hprops : ∀ c ∈ listedComponents wordyRegistry, PropsByName c := by
    intro c hc ps hps
    obtain rfl := List.mem_singleton.1 hc
    obtain rfl := Json.obj.inj (Option.some.inj hps)
    decide
  exact ⟨hprops, rfl, prop_shapes_agree hprops⟩

end DesignRegistry
