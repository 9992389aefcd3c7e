/-
**Scanning a script.**

A scan applies rules to a script and then compares it node by node with the registry: the props,
variants and tokens of components, and fixed values in texts and templates.  Files that do not look
like ones with elements are only counted; so are files that do not follow the grammar.

Main definitions

* `ScanOptions` — which comparisons are wanted;
* `Declared` — what a registry declares;
* `Scan.elementViolations`, `Scan.nodeViolations` — the comparisons;
* `Scan.source` — the result for one script alone;
* `Scan.into`, `Scan.sources` — a script scanned on top of a result, and scripts one after the other.
-/
import DesignRegistry.Contract.Check
import DesignRegistry.Scan.Value
import DesignRegistry.Scan.Violation
import DesignRegistry.Text.Distance

namespace DesignRegistry

/-! ### Settings -/

/-- Which comparisons a scan makes. -/
structure ScanOptions where
  /-- Whether tokens and fixed values are looked at. -/
  tokens : Bool := true
  /-- Whether props are compared. -/
  props : Bool := true
  /-- Whether variants are compared. -/
  variants : Bool := true
  /-- The fixed values that are allowed. -/
  allowed : List String := []

/-- What a registry declares, as a scan looks it up. -/
structure Declared where
  /-- The registry. -/
  registry : Json
  /-- The tokens of the registry. -/
  tokens : Json.Members

namespace Declared

/-- What a registry declares. -/
def ofRegistry (registry : Json) : Declared := ⟨registry, Token.ofRegistry registry⟩

/-- The names of the tokens. -/
def tokenNames (d : Declared) : List String := Json.Members.keys d.tokens

/-- The first token with a value. -/
def tokenFor? (d : Declared) (value : String) : Option String :=
  (d.tokens.find? fun t => (t.2.field? "value").bind Json.text? == some value).map Prod.fst

end Declared

namespace Scan

/-! ### Findings about an element -/

/-- A finding at a place. -/
def found (file : String) (position : Script.Position) (kind : String) (severity : Severity)
    (message : String) (suggestion : Option String := none) : Violation :=
  { kind, severity, message, file, suggestion, line := position.line, column := position.column }

/-- A question whether one of some names was meant. -/
def didYouMean (names : List String) : String := "Did you mean: " ++ joined ", " names ++ "?"

/-- The props that are never handed to a component. -/
def reservedProps : List String := ["key", "ref"]

/-- What to do about a prop that a component does not take. -/
def propAdvice (name : String) (valid : List String) : String :=
  match closestMatches name valid with
  | [] => "Valid props: " ++ joined ", " valid
  | hints => didYouMean hints

/-- The finding about an attribute that the component of an element does not take. -/
def propViolation? (file : String) (e : Script.Element) (valid : List String)
    (a : Script.Attribute) : Option Violation :=
  if valid.contains a.name || reservedProps.contains a.name then none
  else
    some { found file e.position "invalid-prop" .error
        ("Invalid prop \"" ++ a.name ++ "\" for component \"" ++ e.name ++ "\"")
        (some (propAdvice a.name valid)) with
      component := some e.name
      prop := some a.name }

/-- The finding about a required prop that an element lacks. -/
def missingProp (file : String) (e : Script.Element) (prop : String) : Violation :=
  { found file e.position "missing-required-prop" .error
      ("Missing required prop \"" ++ prop ++ "\" for component \"" ++ e.name ++ "\"") with
    component := some e.name
    prop := some prop }

/-- The findings about the props of an element; what it spreads may hold any required prop. -/
def propViolations (file : String) (component : Json) (e : Script.Element) : List Violation :=
  let valid := Json.Members.keys (Component.props component)
  e.attributes.filterMap (propViolation? file e valid)
    ++ (if e.hasSpread then []
      else
        ((Component.requiredProps component).filter fun p => !e.hasAttribute p).map
          (missingProp file e))

/-- The finding about a variant that a component does not declare. -/
def variantViolation? (file : String) (component : Json) (e : Script.Element)
    (a : Script.Attribute) : Option Violation :=
  match Component.variantValues? component a.name with
  | none => none
  | some allowed =>
    if !a.isString || a.textValue = "" || allowed.contains a.textValue then none
    else
      some { found file e.position "invalid-variant" .error
          ("Invalid variant \"" ++ a.textValue ++ "\" for prop \"" ++ a.name ++ "\" on component \""
            ++ e.name ++ "\"")
          (some ("Valid variants: " ++ joined ", " allowed)) with
        component := some e.name
        prop := some a.name
        variant := some a.textValue }

/-- The finding about a fixed value in an attribute. -/
def fixedAttribute (d : Declared) (file : String) (e : Script.Element) (a : Script.Attribute) :
    Violation :=
  { found file e.position "hardcoded-value" .warning
      ("Hardcoded value \"" ++ a.textValue ++ "\" in prop \"" ++ a.name
        ++ "\" should use design token")
      (some (match d.tokenFor? a.textValue with
        | some "" => "Use a design token instead"
        | some t => "Consider using token: " ++ t
        | none => "Use a design token instead")) with
    component := some e.name
    prop := some a.name
    value := some a.textValue }

/-- The finding about the name of a token that does not exist. -/
def unknownToken (d : Declared) (file : String) (e : Script.Element) (a : Script.Attribute) :
    Violation :=
  { found file e.position "invalid-token" .error
      ("Invalid token reference \"" ++ a.textValue ++ "\" in prop \"" ++ a.name ++ "\"")
      (some (match closestMatches a.textValue d.tokenNames with
        | [] => "Check available tokens in your design system"
        | hints => didYouMean hints)) with
    component := some e.name
    prop := some a.name
    value := some a.textValue }

/-- The finding about an attribute that takes a token. -/
def tokenViolation? (d : Declared) (o : ScanOptions) (file : String) (e : Script.Element)
    (a : Script.Attribute) : Option Violation :=
  if !a.isString || !isTokenProp a.name || a.textValue = "" then none
  else if isFixedValue a.textValue then
    if o.allowed.contains a.textValue then none else some (fixedAttribute d file e a)
  else if looksLikeToken a.textValue && !namesToken a.textValue d.tokenNames then
    some (unknownToken d file e a)
  else none

/-- The findings about an element that is a component. -/
def elementViolations (d : Declared) (o : ScanOptions) (file : String) (e : Script.Element) :
    List Violation :=
  (match Registry.find? d.registry e.name with
    | none => []
    | some c =>
      (if o.props then propViolations file c e else [])
        ++ (if o.variants then e.attributes.filterMap (variantViolation? file c e) else []))
  ++ (if o.tokens then e.attributes.filterMap (tokenViolation? d o file e) else [])

/-! ### Findings about texts -/

/-- The finding about a fixed value in a text that is neither in an attribute nor in an import. -/
def stringViolation? (o : ScanOptions) (file : String) (s : Script.StringLiteral) :
    Option Violation :=
  if s.inAttribute || s.inImport || !(isFixedColour s.value || isFixedSpacing s.value)
      || o.allowed.contains s.value then none
  else
    some { found file s.position "hardcoded-value" .warning
        ("Hardcoded value \"" ++ s.value ++ "\" should use design token")
        (some "Replace with design token") with
      value := some s.value }

/-- The finding about a fixed colour at the start of a template. -/
def templateViolation? (o : ScanOptions) (file : String) (t : Script.Template) :
    Option Violation :=
  if !isFixedColour t.head || o.allowed.contains t.head then none
  else
    some { found file t.position "hardcoded-value" .warning
        ("Hardcoded value \"" ++ t.head ++ "\" in template literal should use design token")
        (some "Replace with design token") with
      value := some t.head }

/-- The findings about a node. -/
def nodeViolations (d : Declared) (o : ScanOptions) (file : String) : Script.Node → List Violation
  | .element e => if e.isComponent then elementViolations d o file e else []
  | .string s => if o.tokens then (stringViolation? o file s).toList else []
  | .template t => if o.tokens then (templateViolation? o file t).toList else []
  | _ => []

/-! ### One script -/

/-- The rules that a scan applies: all but the one about components, which its own comparisons
cover. -/
def rules : List Rule := Rule.all.filter (· ≠ .components)

/-- The violations of a script that was read. -/
def violations (d : Declared) (rules : List Rule) (o : ScanOptions) (s : Script.Source) :
    List Violation :=
  (Rule.apply rules d.registry s).all.map (.ofDiagnostic s.path)
    ++ s.nodes.flatMap (nodeViolations d o s.path)

/-- The counts of a script that was read. -/
def stats (o : ScanOptions) (violations : List Violation) (s : Script.Source) : ScanStats :=
  let components := s.elements.filter Script.Element.isComponent
  { files := 1
    components := components.length
    tokens := if o.tokens then (components.flatMap Script.Element.attributes).length else 0
    violations := violations.length }

/-- The result for one script alone. -/
def source [Script.Parser] (d : Declared) (rules : List Rule) (o : ScanOptions)
    (path text : String) : ScanResult :=
  if !hasElements text then { stats := { files := 1 } }
  else
    match Script.Source.read path text with
    | .error _ => { stats := { files := 1, unreadable := 1 } }
    | .ok s =>
      let found := violations d rules o s
      { violations := found, stats := stats o found s }

/-! ### One script after the other -/

/-- An attribute is looked at for tokens, and counted. -/
def visitAttribute (d : Declared) (o : ScanOptions) (file : String) (e : Script.Element)
    (r : ScanResult) (a : Script.Attribute) : ScanResult :=
  let r := r.addAll (tokenViolation? d o file e a).toList
  { r with stats := { r.stats with tokens := r.stats.tokens + 1 } }

/-- An element that is a component is counted and compared with the registry. -/
def visitComponent (d : Declared) (o : ScanOptions) (file : String) (r : ScanResult)
    (e : Script.Element) : ScanResult :=
  let r := { r with stats := { r.stats with components := r.stats.components + 1 } }
  let r :=
    match Registry.find? d.registry e.name with
    | none => r
    | some c =>
      let r := if o.props then r.addAll (propViolations file c e) else r
      if o.variants then r.addAll (e.attributes.filterMap (variantViolation? file c e)) else r
  if o.tokens then e.attributes.foldl (visitAttribute d o file e) r else r

/-- A node is visited; what is found comes on top of a result. -/
def visit (d : Declared) (o : ScanOptions) (file : String) (r : ScanResult) :
    Script.Node → ScanResult
  | .element e => if e.isComponent then visitComponent d o file r e else r
  | .string s => if o.tokens then r.addAll (stringViolation? o file s).toList else r
  | .template t => if o.tokens then r.addAll (templateViolation? o file t).toList else r
  | _ => r

/-- A script is scanned; what is found comes on top of a result. -/
def into [Script.Parser] (d : Declared) (rules : List Rule) (o : ScanOptions) (r : ScanResult)
    (path text : String) : ScanResult :=
  let r := { r with stats := { r.stats with files := r.stats.files + 1 } }
  if !hasElements text then r
  else
    match Script.Source.read path text with
    | .error _ => { r with stats := { r.stats with unreadable := r.stats.unreadable + 1 } }
    | .ok s =>
      s.nodes.foldl (visit d o s.path)
        (r.addAll ((Rule.apply rules d.registry s).all.map (.ofDiagnostic s.path)))

/-- The result for several scripts, each a path and a text. -/
def sources [Script.Parser] (d : Declared) (rules : List Rule) (o : ScanOptions)
    (scripts : List (String × String)) : ScanResult :=
  scripts.foldl (fun r (path, text) => into d rules o r path text) {}

end Scan

end DesignRegistry
