/-
**What a script imports and uses.**

Main definitions

* `Script.Source.imports` — the names bound from each imported script;
* `Script.Source.components` — the components that occur, with the attributes of each occurrence;
* `Script.Source.hooks` — the functions called whose name starts with `use`.
-/
import DesignRegistry.Keyed
import DesignRegistry.Script.Node

namespace DesignRegistry

namespace Script

/-- The attributes of an element by name; of two with one name the last counts. -/
def Element.attributeValues (e : Element) : Keyed AttributeValue :=
  .ofPairs (e.attributes.map fun a => (a.name, a.value))

namespace Source

/-- The imports in order. -/
def importDecls (s : Source) : List Import :=
  s.nodes.filterMap fun
    | .importDecl i => some i
    | _ => none

/-- The calls in order. -/
def calls (s : Source) : List Call :=
  s.nodes.filterMap fun
    | .call c => some c
    | _ => none

/-- The names bound from each imported script; of two imports of one script the last counts. -/
def imports (s : Source) : Keyed (List ImportSpecifier) :=
  .ofPairs (s.importDecls.map fun i => (i.source, i.specifiers))

/-- The components that occur, with the attributes of each occurrence in order. -/
def components (s : Source) : Keyed (List (Keyed AttributeValue)) :=
  .gather ((s.elements.filter Element.isComponent).map fun e => (e.name, e.attributeValues))

/-- Whether a call is one of a function, not of a member, whose name starts with `use`. -/
def isHook (c : Call) : Bool := !c.isMember && Text.hasFront c.callee "use"

/-- The functions called whose name starts with `use`, each once. -/
def hooks (s : Source) : List String := ((s.calls.filter isHook).map Call.callee).eraseDups

end Source

end Script

end DesignRegistry
