/-
**Validation of registries.**

A registry is checked against the schema of manifests and, beyond what a schema can say, component
by component: the definitions of props, the props and variants that examples use, the tokens that
styles use, and names.  What the schema reports about props is left to the check of definitions,
which names the component.

A message can show any value of a registry, and variants and values of tokens are compared as texts.
Where one of these values has no text, there is no report.

Main definitions

* `Component.propErrors`, `Component.exampleErrors` — errors of one component;
* `Component.variantWarnings`, `Component.tokenWarnings`, `Component.namingWarnings` — warnings;
* `Registry.shownValues` — the values that are made texts;
* `Registry.report`, `Registry.reported` — the report on a registry, if all these values have a text;
* `Registry.validate` — the report with what the schema says.
-/
import DesignRegistry.Registry.Basic
import DesignRegistry.Registry.Example
import DesignRegistry.Registry.Token
import DesignRegistry.Text.Shape

namespace DesignRegistry

/-- Texts in the order of their characters, each once. -/
def sortedOnce (texts : List String) : List String := Schema.inOrder texts.eraseDups

namespace Component

/-! ### Definitions of props -/

/-- The types that a prop can have. -/
def propTypes : List String :=
  ["string", "number", "boolean", "object", "array", "function", "element", "node"]

/-- A text that is not empty. -/
def filledText? (v : Option Json) : Option String :=
  match v with
  | some (.str s) => if s = "" then none else some s
  | _ => none

/-- What a message calls the component at an index. -/
def label (component : Json) (index : Nat) : String :=
  (filledText? (component.field? "name")).getD ("component[" ++ natText index ++ "]")

/-- What a message calls the definition at an index of a list. -/
def listedLabel (definition : Json) (index : Nat) : String :=
  (filledText? (definition.field? "name")).getD ("[" ++ natText index ++ "]")

/-- Whether a type is one that a prop can have. -/
def isKnownType (type : Json) : Bool := (type.text?.map propTypes.contains).getD false

/-- The errors of a definition whose type is given. -/
def typeErrors (about : String) (definition type : Json) : List String :=
  (if isKnownType type then []
    else
      [about ++ " has invalid type '" ++ type.plain ++ "'. Valid types: " ++ joined ", " propTypes])
  ++ (if ((definition.field? "values").map Json.isTruthy).getD false
        && type.text? != some "string" then
      [about ++ " cannot have 'values' field unless type is 'string'"]
    else [])

/-- The errors of the definition of a prop. -/
def definitionErrors (label : String) (listed : Bool) (name : String) (definition : Json) :
    List String :=
  let about := "Component " ++ label ++ ": prop '" ++ name ++ "'"
  match definition with
  | .obj ms =>
    if listed && Text.hasFront name "[" then
      ["Component " ++ label ++ ": prop " ++ name ++ " is missing required 'name' field"]
    else
      let type := (Json.Members.get? "type" ms).getD .null
      if type.isTruthy then typeErrors about definition type
      else [about ++ " is missing required 'type' field"]
  | _ => [about ++ " must be an object"]

/-- The type of a definition, where a message shows it. -/
def shownType (listed : Bool) (name : String) (definition : Json) : List Json :=
  match definition with
  | .obj ms =>
    let type := (Json.Members.get? "type" ms).getD .null
    if (listed && Text.hasFront name "[") || !type.isTruthy || isKnownType type then [] else [type]
  | _ => []

/-- The types in the definitions of a component's props that messages show. -/
def shownTypes (component : Json) : List Json :=
  match (component.field? "props").getD .null with
  | .obj ms => ms.flatMap fun (name, d) => shownType false name d
  | .arr ds => ds.zipIdx.flatMap fun (d, i) => shownType true (listedLabel d i) d
  | _ => []

/-- The errors of the definitions of a component's props. -/
def propErrors (component : Json) (index : Nat) : List String :=
  let label := label component index
  match (component.field? "props").getD .null with
  | .null => []
  | .obj ms => ms.flatMap fun (name, d) => definitionErrors label false name d
  | .arr ds => ds.zipIdx.flatMap fun (d, i) => definitionErrors label true (listedLabel d i) d
  | _ => ["Component " ++ label ++ ": props must be an object or a list of prop definitions"]

/-! ### Examples -/

/-- The props that every component takes. -/
def standardProps : List String :=
  ["key", "ref", "className", "style", "id", "onClick", "onChange", "onSubmit", "onFocus",
    "onBlur", "children", "title", "role"]

/-- Whether a name belongs to the attributes for accessibility or for data. -/
def isOpenAttribute (name : String) : Bool :=
  Text.hasFront name "aria-" || Text.hasFront name "data-"

/-- Whether every component takes a prop. -/
def isStandardProp (name : String) : Bool := standardProps.contains name || isOpenAttribute name

/-- The values that the definition of the prop `variant` lists. -/
def definedVariants (component : Json) : List Json :=
  match (Json.Members.get? "variant" (props component)).bind (Json.field? "values") with
  | some (.arr vs) => vs
  | _ => []

/-- The values of `variant` that a component allows, wherever they are declared. -/
def allowedVariants (component : Json) : List String :=
  let flat :=
    match component.field? "variants" with
    | some (.obj ms) =>
      (ms.filter fun m => m.2.items?.isNone && m.2.members?.isNone).map Prod.fst
    | _ => []
  (variantValues? component "variant").getD [] ++ flat ++ (definedVariants component).map Json.plain

/-- The examples of a component. -/
def examples (component : Json) : List String :=
  (((component.field? "examples").bind Json.items?).getD []).filterMap Json.text?

/-- The name of a component in messages. -/
def shownName (component : Json) : String := ((component.field? "name").getD .null).plain

/-- Whether a component lists props, as an object or as a list. -/
def listsProps (component : Json) : Bool :=
  match component.field? "props" with
  | some (.obj _) => true
  | some (.arr _) => true
  | _ => false

/-- Whether a component declares variants. -/
def hasVariants (component : Json) : Bool :=
  ((component.field? "variants").bind Json.members?).isSome

/-- The props that an example gives although the component does not take them. -/
def unknownPropErrors (component : Json) (number : Nat) (text : String) : List String :=
  if listsProps component then
    ((Example.propNames text).filter fun n =>
      !(Json.Members.has n (props component)) && !isStandardProp n).map fun n =>
        "Invalid prop '" ++ n ++ "' in example " ++ natText number ++ " of " ++ shownName component
  else []

/-- The variant that an example chooses although the component does not allow it. -/
def unknownVariantErrors (component : Json) (text : String) : List String :=
  match hasVariants component, Example.variant? text with
  | true, some v =>
    if (allowedVariants component).contains v then []
    else ["Invalid variant '" ++ v ++ "' in example of " ++ shownName component]
  | _, _ => []

/-- The errors of a component's examples. -/
def exampleErrors (component : Json) : List String :=
  (examples component).zipIdx.flatMap fun (text, i) =>
    unknownPropErrors component (i + 1) text ++ unknownVariantErrors component text

/-- The variants that no example chooses. -/
def variantWarnings (component : Json) : List String :=
  let texts := examples component
  if hasVariants component && !texts.isEmpty then
    let used := texts.filterMap Example.variant?
    ((sortedOnce (allowedVariants component)).filter fun v => !used.contains v).map fun v =>
      "unused variant '" ++ v ++ "' in " ++ shownName component
  else []

/-! ### Tokens -/

/-- The words of a component's styles and class name. -/
def styleUses (component : Json) : List String :=
  let styles :=
    match component.field? "styles" with
    | some (.obj ms) => ms.filterMap fun m => m.2.text?
    | _ => []
  let className := ((component.field? "className").bind Json.text?).toList
  (styles ++ className).flatMap styleWords

/-- The colours that have a name. -/
def namedColours : List String := ["red", "green", "blue", "white", "black"]

/-- Whether a value is a colour. -/
def isColour (v : Json) : Bool :=
  let s := v.plain
  namedColours.contains s || isHexColour 6 6 s.toList || isRgbColour s.toList

/-- Whether a value is a length. -/
def isSpacing (v : Json) : Bool := isLength v.plain.toList

/-- The warnings about the value of a token. -/
def tokenValueWarnings (key : String) (value : Json) : List String :=
  (if Text.contains key "color" && !isColour value then
      ["Invalid color token value '" ++ value.plain ++ "' for " ++ key]
    else [])
  ++ (if Text.contains key "spacing" && !isSpacing value then
      ["Invalid spacing token value '" ++ value.plain ++ "' for " ++ key]
    else [])

/-- The tokens of a component, if it has any. -/
def ownTokens (component : Json) : Json.Members :=
  ((component.field? "tokens").bind Json.members?).getD []

/-- The warnings about tokens of a component that no style uses, and about uses of none of them. -/
def tokenUseWarnings (component : Json) : List String :=
  match component.field? "tokens" with
  | some (.obj ms) =>
    let declared := Json.Members.keys ms
    let used := styleUses component
    let unused := (declared.filter fun t => !used.any fun u => Text.contains u (Token.dashed t)).map
      fun t => "Unused token '" ++ t ++ "' in " ++ shownName component
    let undefined := (used.filter fun u => Text.contains u "-"
        && !declared.any fun t => Text.contains u (Token.dashed t)).map
      fun u => "Undefined token referenced: " ++ u ++ " in " ++ shownName component
    unused ++ undefined
  | _ => []

/-- The warnings about the tokens of a component. -/
def tokenWarnings (strict : Bool) (component : Json) : List String :=
  tokenUseWarnings component
  ++ (if strict then (ownTokens component).flatMap fun (k, v) => tokenValueWarnings k v else [])

/-- The values of tokens that are compared with colours or lengths. -/
def comparedTokens (component : Json) : List Json :=
  ((ownTokens component).filter fun m =>
    Text.contains m.1 "color" || Text.contains m.1 "spacing").map Prod.snd

/-! ### Names -/

/-- The warnings about the names of a component's props. -/
def propNameWarnings (component : Json) : List String :=
  ((Json.Members.keys (props component)).filter fun p =>
    !isCamelCase p && !isOpenAttribute p).map fun p =>
      "Prop name '" ++ p ++ "' in " ++ shownName component ++ " should be camelCase"

/-- The warnings about the names of a component and its props. -/
def namingWarnings (component : Json) : List String :=
  (match filledText? (component.field? "name") with
    | some n =>
      if isPascalCase n then [] else ["Component name '" ++ n ++ "' should be PascalCase"]
    | none => [])
  ++ propNameWarnings component

end Component

/-! ### Registries -/

/-- Which checks of a registry are wanted. -/
structure RegistryChecks where
  /-- Whether examples and tokens are checked in full. -/
  strict : Bool := false
  /-- Whether the use of tokens is checked. -/
  tokens : Bool := false
  /-- Whether variants without an example are reported. -/
  examples : Bool := false
  /-- Whether names are checked. -/
  naming : Bool := false

/-- The report on a registry. -/
structure RegistryReport where
  /-- The number of components. -/
  components : Nat
  /-- The errors in order. -/
  errors : List String
  /-- The warnings in order. -/
  warnings : List String
deriving DecidableEq, Repr

namespace RegistryReport

/-- A registry is valid when there are no errors. -/
def valid (r : RegistryReport) : Bool := r.errors.isEmpty

/-- The document that describes a report. -/
def toJson (r : RegistryReport) : Json :=
  .obj [("success", .bool r.valid), ("valid", .bool r.valid),
    ("componentsValidated", .int r.components), ("errors", .arr (r.errors.map .str)),
    ("warnings", .arr (r.warnings.map .str))]

end RegistryReport

namespace Component

/-- The messages in which the name of a component stands as it is. -/
def namedMessages (checks : RegistryChecks) (component : Json) : List String :=
  exampleErrors component
    ++ (if checks.examples || checks.strict then variantWarnings component else [])
    ++ (if checks.tokens || checks.strict then tokenUseWarnings component else [])
    ++ (if checks.naming then propNameWarnings component else [])

/-- The values of a component that are made texts: types and names that messages show, listed variants,
and values of tokens that are compared with colours or lengths. -/
def shownValues (checks : RegistryChecks) (component : Json) : List Json :=
  shownTypes component ++ listedVariants component "variant" ++ definedVariants component
    ++ (if (namedMessages checks component).isEmpty then []
      else [(component.field? "name").getD .null])
    ++ (if checks.strict then comparedTokens component else [])

end Component

namespace Registry

/-- Whether a violation of the schema is about props, which have a check of their own. -/
def isAboutProps (v : Schema.Violation) : Bool := Text.contains v.path ".props"

/-- The errors of a component. -/
def componentErrors (component : Json) (index : Nat) : List String :=
  match component with
  | .obj _ => Component.propErrors component index ++ Component.exampleErrors component
  | _ => []

/-- The warnings about a component. -/
def componentWarnings (checks : RegistryChecks) (component : Json) : List String :=
  match component with
  | .obj _ =>
    (if checks.examples || checks.strict then Component.variantWarnings component else [])
      ++ (if checks.tokens || checks.strict then Component.tokenWarnings checks.strict component
        else [])
      ++ (if checks.naming then Component.namingWarnings component else [])
  | _ => []

/-- The values that are listed as components. -/
def listedComponents (registry : Json) : List Json :=
  ((registry.field? "components").bind Json.items?).getD []

/-- The values of a component that are made texts; what is no object is left to the schema. -/
def componentValues (checks : RegistryChecks) (component : Json) : List Json :=
  match component with
  | .obj _ => Component.shownValues checks component
  | _ => []

/-- The values of a registry that are made texts. -/
def shownValues (checks : RegistryChecks) (registry : Json) : List Json :=
  (listedComponents registry).flatMap (componentValues checks)

/-- The report on a registry in which the schema found violations. -/
def report (checks : RegistryChecks) (violations : List Schema.Violation) (registry : Json) :
    RegistryReport :=
  let components := listedComponents registry
  { components := components.length
    errors := (violations.filter fun v => !isAboutProps v).map Schema.Violation.line
      ++ components.zipIdx.flatMap fun (c, i) => componentErrors c i
    warnings := components.flatMap (componentWarnings checks) }

/-- The report on a registry in which the schema found violations, if there is one. -/
def reported (checks : RegistryChecks) (violations : List Schema.Violation) (registry : Json) :
    Except ValidationProblem RegistryReport :=
  if (shownValues checks registry).all Json.hasText then .ok (report checks violations registry)
  else .error (.fault (.noText .tooManyDigits))

/-- The report on a registry. -/
def validate (v : Validator) (checks : RegistryChecks) (registry : Json) :
    Except ValidationProblem RegistryReport :=
  match v.validate registry SchemaTag.manifest.name with
  | .ok r => reported checks r.errors registry
  | .error e => .error e

end Registry

end DesignRegistry
