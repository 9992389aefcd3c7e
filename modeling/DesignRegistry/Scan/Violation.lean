/-
**Violations.**

A violation is a finding of a scan, with the file and the place.  The result of a scan is the list
of violations and what was counted on the way; only errors make it invalid.

Main definitions

* `Violation` — findings;
* `ScanStats` — counts;
* `ScanResult`, `ScanResult.isValid` — results, and whether they are good;
* `ScanResult.add`, `ScanResult.join` — one more violation, and two results together.
-/
import DesignRegistry.Contract.Diagnostic

namespace DesignRegistry

/-! ### Violations -/

/-- A finding of a scan. -/
structure Violation where
  /-- What kind of finding it is. -/
  kind : String
  /-- How serious it is. -/
  severity : Severity
  /-- What is said. -/
  message : String
  /-- The path of the file. -/
  file : String
  /-- The line, counted from one. -/
  line : Int
  /-- The column, counted from one. -/
  column : Int
  /-- What to do. -/
  suggestion : Option String := none
  /-- The component that it is about. -/
  component : Option String := none
  /-- The prop that it is about. -/
  prop : Option String := none
  /-- The value that it is about. -/
  value : Option String := none
  /-- The variant that it is about. -/
  variant : Option String := none
deriving DecidableEq, Repr

namespace Violation

/-- Whether a finding makes a scan invalid. -/
def isError (v : Violation) : Bool := v.severity = .error

/-- A member for a detail that may be lacking. -/
def detail (key : String) (value : Option String) : Json.Members :=
  (value.map fun s => (key, Json.str s)).toList

/-- The document that describes a finding; details that are lacking are left out. -/
def toJson (v : Violation) : Json :=
  .obj ([("type", .str v.kind), ("severity", .str v.severity.name), ("message", .str v.message),
      ("file", .str v.file), ("line", .int v.line), ("column", .int v.column)]
    ++ detail "suggestion" v.suggestion ++ detail "component" v.component ++ detail "prop" v.prop
    ++ detail "value" v.value ++ detail "variant" v.variant)

/-- The finding that a diagnostic is in a scan. -/
def ofDiagnostic (file : String) (d : Diagnostic) : Violation :=
  { kind := d.rule, severity := d.severity, message := d.message, file
    line := d.position.line, column := d.position.column, suggestion := d.suggestion }

end Violation

/-! ### Counts -/

/-- What a scan counts. -/
structure ScanStats where
  /-- The files. -/
  files : Nat := 0
  /-- The elements that are components. -/
  components : Nat := 0
  /-- The attributes looked at for tokens. -/
  tokens : Nat := 0
  /-- The violations. -/
  violations : Nat := 0
  /-- The files that do not follow the grammar. -/
  unreadable : Nat := 0
deriving DecidableEq, Repr

namespace ScanStats

/-- The sum of two counts. -/
def add (a b : ScanStats) : ScanStats :=
  { files := a.files + b.files
    components := a.components + b.components
    tokens := a.tokens + b.tokens
    violations := a.violations + b.violations
    unreadable := a.unreadable + b.unreadable }

/-- The document that describes counts. -/
def toJson (s : ScanStats) : Json :=
  .obj [("filesScanned", .int s.files), ("componentsChecked", .int s.components),
    ("tokensValidated", .int s.tokens), ("violations", .int s.violations),
    ("parseErrors", .int s.unreadable)]

end ScanStats

/-! ### Results -/

/-- The result of a scan. -/
structure ScanResult where
  /-- The violations in order. -/
  violations : List Violation := []
  /-- What was counted. -/
  stats : ScanStats := {}

namespace ScanResult

/-- The violations that are errors. -/
def errors (r : ScanResult) : List Violation := r.violations.filter Violation.isError

/-- The violations that are warnings. -/
def warnings (r : ScanResult) : List Violation := r.violations.filter (·.severity = .warning)

/-- A scan is valid if no violation is an error. -/
def isValid (r : ScanResult) : Bool := !r.violations.any Violation.isError

/-- A result with one more violation, which is counted. -/
def add (r : ScanResult) (v : Violation) : ScanResult :=
  { violations := r.violations ++ [v]
    stats := { r.stats with violations := r.stats.violations + 1 } }

/-- A result with more violations, one after the other. -/
def addAll (r : ScanResult) (vs : List Violation) : ScanResult := vs.foldl add r

/-- The result of two scans together. -/
def join (a b : ScanResult) : ScanResult :=
  { violations := a.violations ++ b.violations, stats := a.stats.add b.stats }

/-- The member that lists the violations. -/
def violationsMember (r : ScanResult) : String × Json :=
  ("violations", .arr (r.violations.map Violation.toJson))

/-- The document that describes a result. -/
def toJson (r : ScanResult) : Json :=
  .obj [r.violationsMember, ("stats", r.stats.toJson), ("isValid", .bool r.isValid)]

end ScanResult

end DesignRegistry
