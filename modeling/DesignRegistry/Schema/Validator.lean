/-
**Named schemas and documents.**

A validator is a list of schemas with names.  A document is checked against a schema by name, or
against the schema that its members suggest; the outcome is a report with every violation.

Main definitions

* `SchemaTag`, `SchemaTag.detect` — the kinds of document, and the kind of a given one;
* `Validator`, `Validator.add`, `Validator.standard` — lists of named schemas;
* `Validator.within` — a validator whose stack is bounded;
* `Validator.validate`, `Validator.require` — a report, and a report that must be clean;
* `structureProblems`, `advisoryProblems` — checks whose findings are only advice.
-/
import DesignRegistry.Schema.Bundled
import DesignRegistry.Schema.Check

namespace DesignRegistry

/-! ### Kinds of document -/

/-- The kinds of document that have a schema. -/
inductive SchemaTag where
  | component | manifest | theme | config
deriving DecidableEq, Repr

namespace SchemaTag

/-- The name of a kind's schema. -/
def name : SchemaTag → String
  | .component => "component"
  | .manifest => "manifest"
  | .theme => "theme"
  | .config => "config"

/-- The schema of a kind. -/
def schema : SchemaTag → Json
  | .component => Schema.component
  | .manifest => Schema.manifest
  | .theme => Schema.theme
  | .config => Schema.config

/-- All kinds, in the order in which their schemas are loaded. -/
def all : List SchemaTag := [.component, .manifest, .theme, .config]

/-- The kind that a document's members suggest; what suggests nothing is a theme. -/
def detect (document : Json) : SchemaTag :=
  match document with
  | .obj ms =>
    let named := ((Json.Members.get? "name" ms).map Json.isTruthy).getD false
    if Json.Members.has "components" ms then .manifest
    else if named && Json.Members.has "props" ms then .component
    else if Json.Members.has "registryName" ms then .config
    else .theme
  | _ => .theme

end SchemaTag

/-! ### Validators -/

/-- Schemas with names. -/
structure Validator where
  /-- The schemas in the order in which they were added; no name occurs twice. -/
  schemas : List (String × Json) := []
  /-- How many steps of a check the stack has room for; if none is given, it has room for every check
  that has an end. -/
  room : Option Nat := none
deriving Inhabited

/-- The report of a check. -/
structure ValidationReport where
  /-- The name of the schema. -/
  schemaName : String
  /-- The violations in order. -/
  errors : List Schema.Violation

namespace ValidationReport

/-- A document is valid when nothing is reported. -/
def valid (r : ValidationReport) : Bool := r.errors.isEmpty

end ValidationReport

/-- Why a validator gives no clean report. -/
inductive ValidationProblem where
  /-- A schema that is no object. -/
  | schemaNotObject (name : String)
  /-- A name that no schema has. -/
  | unknownSchema (name : String)
  /-- A check that could not be carried out. -/
  | fault (fault : Schema.Fault)
  /-- A report that should have been clean. -/
  | invalid (report : ValidationReport)

/-- A violation as people read it. -/
def Schema.Violation.line (v : Schema.Violation) : String := v.path ++ ": " ++ v.message

namespace ValidationProblem

/-- The wording of a problem. -/
def message : ValidationProblem → String
  | .schemaNotObject name => "Schema " ++ quoted name ++ " is not a JSON object"
  | .unknownSchema name => "Schema not found: " ++ name
  | .fault f => f.message
  | .invalid report =>
    "Schema validation failed for " ++ report.schemaName ++ ": "
      ++ joined ", " (report.errors.map (·.line))

end ValidationProblem

namespace Validator

/-- Adds schemas under names that are still free. -/
def add (v : Validator) : List (String × Json) → Except ValidationProblem Validator
  | [] => .ok v
  | (name, schema) :: rest =>
    if (v.schemas.lookup name).isSome then v.add rest
    else
      match schema with
      | .obj _ => ({ v with schemas := v.schemas ++ [(name, schema)] } : Validator).add rest
      | _ => .error (.schemaNotObject name)

/-- The validator of the four kinds of document. -/
def standard : Validator := { schemas := SchemaTag.all.map fun t => (t.name, t.schema) }

/-- The validator with a bounded stack. -/
def within (v : Validator) (room : Nat) : Validator := { v with room := some room }

/-- The names of the schemas in order. -/
def names (v : Validator) : List String := Schema.inOrder (v.schemas.map Prod.fst)

/-- The violations of a schema by a document. -/
def errors (v : Validator) (schema document : Json) : Schema.Outcome :=
  match v.room with
  | none => Schema.validate schema schema document "$"
  | some room => Schema.validateWithin room schema schema document "$"

/-- The report of a document against a named schema. -/
def validate (v : Validator) (document : Json) (name : String) :
    Except ValidationProblem ValidationReport :=
  match v.schemas.lookup name with
  | none => .error (.unknownSchema name)
  | some schema =>
    match v.errors schema document with
    | .ok errors => .ok ⟨name, errors⟩
    | .error f => .error (.fault f)

/-- The report of a document, which must be clean. -/
def require (v : Validator) (document : Json) (name : String) :
    Except ValidationProblem ValidationReport := do
  let report ← v.validate document name
  if report.valid then return report else throw (.invalid report)

/-- The report of a document against the schema that its members suggest. -/
def validateDetected (v : Validator) (document : Json) :
    Except ValidationProblem ValidationReport :=
  v.validate document (SchemaTag.detect document).name

/-- The lines that tell which schemas were loaded. -/
def loadLog (v : Validator) : List String :=
  v.schemas.map fun (name, _) => "[dsgate schema] loaded: " ++ name

end Validator

/-- The lines that tell what a report found. -/
def ValidationReport.log (r : ValidationReport) : List String :=
  if r.valid then []
  else
    ("[dsgate schema] " ++ r.schemaName ++ ": " ++ natText r.errors.length ++ " error(s)")
      :: r.errors.map fun e => "  - " ++ e.line

/-! ### Advice -/

/-- Whether a value is a text with something in it. -/
def isNamed : Option Json → Bool
  | some (.str s) => s != ""
  | _ => false

/-- The problem of the `i`-th component when it has no name. -/
def unnamedProblem (i : Nat) (component : Json) : List String :=
  if isNamed (component.field? "name") then []
  else ["components[" ++ natText i ++ "] must have a name"]

/-- The least that a registry needs: an array of components with names. -/
def structureProblems (document : Json) : List String :=
  match document with
  | .obj ms =>
    match Json.Members.get? "components" ms with
    | some (.arr components) =>
      (components.zipIdx.map fun (c, i) => unnamedProblem i c).flatten
    | _ => ["document must have a components array"]
  | _ => ["document must be an object"]

/-- Advice on a document: a registry or a component is checked against its schema, anything else for
the least that a registry needs. -/
def advisoryReport (v : Validator) (document : Json) :
    Except ValidationProblem (List String × List String) :=
  match SchemaTag.detect document with
  | .manifest | .component => do
    let report ← v.validateDetected document
    return (report.errors.map (·.line), report.log)
  | _ => .ok (structureProblems document, [])

/-- The problems of a document, as advice. -/
def advisoryProblems (v : Validator) (document : Json) :
    Except ValidationProblem (List String) :=
  (advisoryReport v document).map Prod.fst

end DesignRegistry
