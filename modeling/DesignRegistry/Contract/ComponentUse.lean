/-
**The use of components.**

A component that a script uses should be declared by the registry, unless its name looks like that
of another library.  A declared component must be given its required props, and a prop with listed
values one of them.

Main definitions

* `Component.isForeignName` — the names of other libraries;
* `Rule.componentDiagnostics` — what the rule says about a script.
-/
import DesignRegistry.Contract.Rule

namespace DesignRegistry

namespace Component

/-- Whether a name is one capital and then small letters. -/
def isPlainWord (name : String) : Bool :=
  match name.toList with
  | c :: d :: rest => isAsciiUpper c && isAsciiLower d && isLineEnd (rest.dropWhile isAsciiLower)
  | _ => false

/-- Whether a name starts with `Ui` and another capital. -/
def hasLibraryFront (name : String) : Bool :=
  match afterFront? "Ui".toList name.toList with
  | some (c :: _) => isAsciiUpper c
  | _ => false

/-- Whether a name looks like that of a component of another library. -/
def isForeignName (name : String) : Bool :=
  isPlainWord name || hasLibraryFront name || Text.hasFront name "React."

/-- The errors about the props that an element lacks; what it spreads may hold any of them. -/
def missingPropErrors (component : Json) (e : Script.Element) : List Diagnostic :=
  if e.hasSpread then []
  else
    ((requiredProps component).filter fun p => !e.hasAttribute p).map fun p =>
      Rule.components.error e.position
        ("Required prop '" ++ p ++ "' missing for component '" ++ e.name ++ "'")

/-- The values listed for a prop. -/
def listedValues? (component : Json) (prop : String) : Option (List Json) :=
  ((Json.Members.get? prop (props component)).bind (Json.field? "values")).bind Json.items?

/-- The error about an attribute whose text is none of the values listed for it. -/
def attributeError? (component : Json) (e : Script.Element) (a : Script.Attribute) :
    Option Diagnostic :=
  match listedValues? component a.name with
  | none => none
  | some values =>
    if !a.isString || values.any (fun v => v.text? == some a.textValue) then none
    else
      some (Rule.components.error a.position
        ("Invalid value '" ++ a.textValue ++ "' for prop '" ++ a.name ++ "' on '" ++ e.name
          ++ "'. Expected one of: " ++ joined ", " (values.map Json.plain)))

/-- What there is to say about an element that is a component. -/
def useDiagnostics (registry : Json) (e : Script.Element) : List Diagnostic :=
  match Registry.find? registry e.name with
  | none =>
    if isForeignName e.name then []
    else
      [Rule.components.warning e.position ("Component '" ++ e.name ++ "' not found in registry")]
  | some c => missingPropErrors c e ++ e.attributes.filterMap (attributeError? c e)

end Component

namespace Rule

/-- What the rule about components says about a script. -/
def componentDiagnostics (registry : Json) (s : Script.Source) : List Diagnostic :=
  (s.elements.filter Script.Element.isComponent).flatMap (Component.useDiagnostics registry)

end Rule

end DesignRegistry
