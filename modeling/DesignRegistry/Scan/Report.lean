/-
**Reports on scans.**

The result of a scan is written in one of four formats: a text for people, a JSON document, commands
for a build log, and a suite of test cases in XML.

Main definitions

* `ReportFormat` — the formats;
* `Colour.paint` — colours of a terminal;
* `ScanResult.grouped` — the violations by one of their fields;
* `ScanResult.render` — the report.
-/
import DesignRegistry.Json.Printer
import DesignRegistry.Keyed
import DesignRegistry.Scan.Violation
import DesignRegistry.Text.Casing
import DesignRegistry.Text.Markup

namespace DesignRegistry

/-! ### Formats -/

/-- The formats of a report. -/
inductive ReportFormat where
  | default | json | github | junit
deriving DecidableEq, Repr

namespace ReportFormat

/-- All formats. -/
def all : List ReportFormat := [.default, .json, .github, .junit]

/-- The name of a format. -/
def name : ReportFormat → String
  | .default => "default"
  | .json => "json"
  | .github => "github"
  | .junit => "junit"

/-- The format of a name. -/
def ofName? (n : String) : Option ReportFormat := all.find? (·.name == n)

end ReportFormat

/-! ### Colours -/

/-- The colours of a report. -/
inductive Colour where
  | red | green | yellow | cyan | grey
deriving DecidableEq, Repr

namespace Colour

/-- The number by which a terminal knows a colour. -/
def code : Colour → Nat
  | .red => 31
  | .green => 32
  | .yellow => 33
  | .cyan => 36
  | .grey => 90

/-- A text in a colour, if colours are wanted and there is a text. -/
def paint (wanted : Bool) (c : Colour) (text : String) : String :=
  if wanted && text != "" then "\x1b[" ++ natText c.code ++ "m" ++ text ++ "\x1b[0m" else text

end Colour

/-- Lines with a line feed after each. -/
def withLineEnds (lines : List String) : String :=
  lines.foldr (fun line rest => line ++ "\n" ++ rest) ""

/-- Every line stands in the text, and a line feed behind it. -/
theorem toList_withLineEnds (lines : List String) :
    (withLineEnds lines).toList = lines.flatMap fun line => line.toList ++ ['\n'] := by
  induction lines with
  | nil => rfl
  | cons line lines ih =>
    rw [withLineEnds, List.foldr_cons, String.toList_append, String.toList_append, List.flatMap_cons,
      ← ih]
    rfl

/-! ### Groups -/

namespace Violation

/-- The text of a field of a violation; a field that is empty or zero or does not exist has none. -/
def fieldText? (v : Violation) (field : String) : Option String :=
  let ofInt (n : Int) : Option String := if n = 0 then none else some (intText n)
  let text : Option String :=
    match field with
    | "type" => some v.kind
    | "severity" => some v.severity.name
    | "message" => some v.message
    | "file" => some v.file
    | "line" => ofInt v.line
    | "column" => ofInt v.column
    | "suggestion" => v.suggestion
    | "component" => v.component
    | "prop" => v.prop
    | "value" => v.value
    | "variant" => v.variant
    | _ => none
  text.filter (· != "")

/-- The place of a violation. -/
def place (v : Violation) : String := v.file ++ ":" ++ intText v.line ++ ":" ++ intText v.column

end Violation

namespace ScanResult

/-- The violations by a field, in the order in which its values first come up. -/
def grouped (r : ScanResult) (field : String) : Keyed (List Violation) :=
  .gather (r.violations.map fun v => ((v.fieldText? field).getD "other", v))

/-! ### The text -/

/-- The mark of a severity. -/
def mark : Severity → String
  | .error => "❌"
  | .warning => "⚠️"
  | _ => "ℹ️"

/-- The lines about a violation. -/
def violationLines (colours : Bool) (v : Violation) : List String :=
  ["  " ++ mark v.severity ++ " " ++ v.message, Colour.grey.paint colours ("     " ++ v.place)]
    ++ (match v.suggestion with
      | none => []
      | some "" => []
      | some s => [Colour.cyan.paint colours ("     💡 " ++ s)])
    ++ [""]

/-- The lines about a group of violations. -/
def groupLines (colours : Bool) (group : String × List Violation) : List String :=
  Colour.yellow.paint colours (upperCase group.1 ++ " (" ++ natText group.2.length ++ ")")
    :: group.2.flatMap (violationLines colours)

/-- The lines that sum up a scan with violations. -/
def summaryLines (colours : Bool) (r : ScanResult) : List String :=
  (["Summary:", "  Files scanned: " ++ natText r.stats.files,
      "  Components checked: " ++ natText r.stats.components,
      "  Violations found: " ++ natText r.stats.violations ++ " (" ++ natText r.errors.length
        ++ " errors, " ++ natText r.warnings.length ++ " warnings)"]
    ++ (if r.stats.unreadable = 0 then []
      else ["  Files not parsed: " ++ natText r.stats.unreadable])).map (Colour.grey.paint colours)

/-- The report as a text for people. -/
def renderText (colours : Bool) (field : String) (r : ScanResult) : String :=
  withLineEnds <|
    if r.violations.isEmpty then
      [Colour.green.paint colours "✅ Design system validation passed",
        Colour.grey.paint colours
          ("Scanned " ++ natText r.stats.files ++ " files, checked "
            ++ natText r.stats.components ++ " components")]
    else
      [Colour.red.paint colours
          ("❌ Found " ++ natText r.violations.length ++ " design system violations"), ""]
        ++ (r.grouped field).flatMap (groupLines colours) ++ summaryLines colours r

/-! ### Commands for a build log -/

/-- A character of a message in a command; what would end the command is written as a number. -/
def commandChar (c : Char) : List Char :=
  if c = '%' then "%25".toList
  else if c = '\r' then "%0D".toList
  else if c = '\n' then "%0A".toList
  else [c]

/-- A message in a command. -/
def commandText (s : String) : String := String.ofList (s.toList.flatMap commandChar)

/-- The command for a violation. -/
def command (v : Violation) : String :=
  "::" ++ (if v.isError then "error" else "warning") ++ " file=" ++ v.file ++ ",line="
    ++ intText v.line ++ ",col=" ++ intText v.column ++ "::" ++ commandText v.message

/-- The report as commands. -/
def renderCommands (r : ScanResult) : String := withLineEnds (r.violations.map command)

/-! ### Test cases -/

/-- What stands in the failure of a test case. -/
def failureText (v : Violation) : String :=
  "Location: " ++ v.place ++ "\nSuggestion: "
    ++ (match v.suggestion with
      | none => "None"
      | some "" => "None"
      | some s => s)

/-- The lines of the test case for a violation; only an error is a failure. -/
def caseLines (v : Violation) : List String :=
  let front := "  <testcase name=" ++ Markup.attributeText v.place ++ " classname="
    ++ Markup.attributeText ("DesignSystemValidation." ++ v.kind)
  if v.isError then
    [front ++ ">",
      "    <failure message=" ++ Markup.attributeText v.message ++ " type="
        ++ Markup.attributeText v.kind ++ ">" ++ Markup.escaped (failureText v) ++ "</failure>",
      "  </testcase>"]
  else [front ++ " />"]

/-- The report as a suite of test cases. -/
def renderCases (r : ScanResult) : String :=
  withLineEnds <|
    ["<?xml version=\"1.0\" encoding=\"UTF-8\"?>",
      "<testsuite name=\"Design System Validation\" tests=\"" ++ natText r.violations.length
        ++ "\" failures=\"" ++ natText r.errors.length ++ "\" errors=\"0\">"]
    ++ r.violations.flatMap caseLines ++ ["</testsuite>"]

/-! ### Reports -/

/-- The report on a scan; `field` groups the violations in the text for people. -/
def render (r : ScanResult) (format : ReportFormat) (field : String) (colours : Bool) : String :=
  match format with
  | .default => r.renderText colours field
  | .json => r.toJson.pretty
  | .github => r.renderCommands
  | .junit => r.renderCases

end ScanResult

end DesignRegistry
