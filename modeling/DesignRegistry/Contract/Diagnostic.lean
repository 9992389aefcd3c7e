/-
**Diagnostics.**

A diagnostic is what a rule has to say about a place in a script.  A report sorts diagnostics by
severity and keeps their order otherwise.

Main definitions

* `Severity`, `Diagnostic` — diagnostics;
* `Diagnostics` — diagnostics by severity;
* `ContractReport` — the report on one script.
-/
import DesignRegistry.Json.Basic
import DesignRegistry.Script.Node

namespace DesignRegistry

/-! ### Severity -/

/-- How serious a finding is. -/
inductive Severity where
  | error
  | warning
  /-- A suggestion. -/
  | info
  /-- A severity of another name, which counts as a suggestion. -/
  | other (name : String)
deriving DecidableEq, Repr

namespace Severity

/-- The name of a severity. -/
def name : Severity → String
  | .error => "error"
  | .warning => "warning"
  | .info => "info"
  | .other n => n

/-- The severity of a name. -/
def ofName (n : String) : Severity :=
  if n = "error" then .error
  else if n = "warning" then .warning
  else if n = "info" then .info
  else .other n

/-- A severity that is read back by its name has that name. -/
@[simp] theorem name_ofName (n : String) : (ofName n).name = n := by
  unfold ofName
  split
  · simp_all [name]
  · split
    · simp_all [name]
    · split <;> simp_all [name]

end Severity

/-! ### Diagnostics -/

/-- What a rule says about a place. -/
structure Diagnostic where
  /-- The place. -/
  position : Script.Position
  /-- What is said. -/
  message : String
  /-- The rule that says it. -/
  rule : String
  /-- How serious it is. -/
  severity : Severity
  /-- What to use instead. -/
  suggestion : Option String := none
deriving DecidableEq, Repr

namespace Diagnostic

/-- The document that describes a diagnostic. -/
def toJson (d : Diagnostic) : Json :=
  .obj ([("line", .int d.position.line), ("column", .int d.position.column),
      ("message", .str d.message), ("rule", .str d.rule), ("severity", .str d.severity.name)]
    ++ (d.suggestion.map fun s => ("suggestion", Json.str s)).toList)

end Diagnostic

/-- Diagnostics by severity. -/
structure Diagnostics where
  /-- The errors in order. -/
  errors : List Diagnostic
  /-- The warnings in order. -/
  warnings : List Diagnostic
  /-- The suggestions in order. -/
  suggestions : List Diagnostic
deriving DecidableEq, Repr

namespace Diagnostics

/-- Diagnostics sorted by severity. -/
def ofList (ds : List Diagnostic) : Diagnostics :=
  { errors := ds.filter (·.severity = .error)
    warnings := ds.filter (·.severity = .warning)
    suggestions := ds.filter (·.severity = .info) }

/-- All diagnostics, the errors first and the suggestions last. -/
def all (ds : Diagnostics) : List Diagnostic := ds.errors ++ ds.warnings ++ ds.suggestions

end Diagnostics

/-! ### Reports -/

/-- The report on one script. -/
structure ContractReport where
  /-- The path of the script. -/
  path : String
  /-- The number of its lines. -/
  lines : Nat
  /-- The number of rules that were applied. -/
  rules : Nat
  /-- What the rules say. -/
  diagnostics : Diagnostics
  /-- Whether warnings count against the script. -/
  strict : Bool

namespace ContractReport

/-- Whether nothing counts against the script. -/
def valid (r : ContractReport) : Bool :=
  r.diagnostics.errors.isEmpty && !(r.strict && !r.diagnostics.warnings.isEmpty)

/-- The members that describe a report. -/
def members (r : ContractReport) : Json.Members :=
  [("valid", .bool r.valid),
    ("errors", .arr (r.diagnostics.errors.map Diagnostic.toJson)),
    ("warnings", .arr (r.diagnostics.warnings.map Diagnostic.toJson)),
    ("suggestions", .arr (r.diagnostics.suggestions.map Diagnostic.toJson)),
    ("metadata", .obj [("filePath", .str r.path), ("linesChecked", .int r.lines),
      ("rulesApplied", .int r.rules)])]

end ContractReport

end DesignRegistry
