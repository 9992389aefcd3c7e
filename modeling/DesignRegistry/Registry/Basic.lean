/-
**Registries of components.**

A registry lists components; a component tells its props, which values some of them take, and
examples of its use.  Props are written either as an object from names to definitions or as a list
of definitions with names.  Whatever does not have the expected form is passed over.

Main definitions

* `Registry.components`, `Registry.find?` — the components, and the one a script names;
* `Component.props`, `Component.requiredProps` — what a component takes;
* `Component.variantValues?` — the values that a prop takes;
* `Registry.load` — the registry in a file or a directory.
-/
import DesignRegistry.Workspace.Basic

namespace DesignRegistry

/-! ### Components -/

namespace Registry

/-- Whether a value is a component: an object with a name. -/
def isComponent (v : Json) : Bool := ((v.field? "name").bind Json.text?).isSome

/-- The components of a registry. -/
def components (registry : Json) : List Json :=
  (((registry.field? "components").bind Json.items?).getD []).filter isComponent

/-- The members by which a script may name a component. -/
def namingKeys : List String := ["name", "displayName", "exportName"]

/-- Whether a component goes by a name. -/
def isNamed (name : String) (component : Json) : Bool :=
  namingKeys.any fun key => (component.field? key).bind Json.text? == some name

/-- The first component that goes by a name. -/
def find? (registry : Json) (name : String) : Option Json :=
  (components registry).find? (isNamed name)

end Registry

namespace Component

/-! ### Props -/

/-- The definition of a prop in a list, under its name. -/
def listedProp? (v : Json) : Option (String × Json) :=
  match v with
  | .obj ms => ((Json.Members.get? "name" ms).bind Json.text?).map fun n => (n, v)
  | _ => none

/-- Whether a value can define a prop. -/
def isDefinition (v : Json) : Bool := v.members?.isSome

/-- The props of a component: names with their definitions. -/
def props (component : Json) : Json.Members :=
  match component.field? "props" with
  | some (.obj ms) => ms.filter fun m => isDefinition m.2
  | some (.arr vs) => .ofPairs (vs.filterMap listedProp?)
  | _ => []

/-- Whether a definition asks for its prop. -/
def isRequired (definition : Json) : Bool :=
  match definition.field? "required" with
  | some (.bool b) => b
  | _ => false

/-- The names of the props that must be given. -/
def requiredProps (component : Json) : List String :=
  ((props component).filter fun m => isRequired m.2).map Prod.fst

/-! ### Variants -/

/-- The values that a component lists for a prop among its variants. -/
def listedVariants (component : Json) (prop : String) : List Json :=
  (((component.field? "variants").bind (Json.field? prop)).bind Json.items?).getD []

/-- The values that a prop takes, where a component declares them. -/
def variantValues? (component : Json) (prop : String) : Option (List String) :=
  match (component.field? "variants").bind (Json.field? prop) with
  | some (.obj ms) => some (Json.Members.keys ms)
  | some (.arr vs) => some (vs.map Json.plain)
  | _ => none

end Component

/-! ### Loading -/

namespace Registry

/-- The file of a registry: in a directory, the file `registry.json`. -/
def fileOf (fs : FileSystem) (p : FilePath) : FilePath :=
  if fs.isDirectory p then p.child "registry.json" else p

/-- The registry in a file or a directory. -/
def load (p : FilePath) : Action Json := do
  let fs ← Action.files
  let p := fileOf fs p
  if fs.pathExists p then
    match fs.documentOf p with
    | .error cause =>
      if cause.isExpected then Action.fail (.registry (.unreadable p cause))
      else Action.fail (.read cause)
    | .ok (.obj ms) => return .obj ms
    | .ok _ => Action.fail (.registry (.notObject p))
  else Action.fail (.registry (.missing p))

end Registry

end DesignRegistry
