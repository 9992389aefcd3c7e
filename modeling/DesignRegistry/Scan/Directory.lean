/-
**Scanning a directory.**

The files of a directory that a pattern selects are scanned one after the other, each on top of what
was found before.

Main definitions

* `ScanSettings` — what is scanned and how;
* `Action.scanFiles`, `Action.scanDirectory` — the scan in a workspace.
-/
import DesignRegistry.Glob.Select
import DesignRegistry.Scan.Contract

namespace DesignRegistry

/-- What is scanned and how. -/
structure ScanSettings where
  /-- The pattern for files, with alternatives in braces. -/
  pattern : String := "**/*.\x7btsx,jsx,ts,js\x7d"
  /-- The patterns for files to leave out. -/
  ignored : List String := ["node_modules/**", "dist/**", "build/**", ".next/**"]
  /-- Which comparisons are made. -/
  options : ScanOptions := {}
  /-- The ids of the rules to apply, if not the usual ones. -/
  rules : Option (List String) := none
  /-- Whether each step is told in the log. -/
  verbose : Bool := false

namespace ScanSettings

/-- The rules to apply. -/
def selectedRules (s : ScanSettings) : Except ScanProblem (List Rule) :=
  match s.rules with
  | none => .ok Scan.rules
  | some ids => Rule.select (some ids)

end ScanSettings

namespace Scan

/-- The line for the log about a file, if it looks like one with elements and does not follow the
grammar. -/
def unreadableLine? [Script.Parser] (path text : String) : Option String :=
  if hasElements text then
    match Script.Source.read path text with
    | .error f => some ("could not parse " ++ path ++ ": " ++ f.message)
    | .ok _ => none
  else none

end Scan

namespace Action

/-- A line for the log of a scan. -/
def sayScan (verbose : Bool) (line : String) : Action Unit :=
  if verbose then say ("[dsgate validate-ci] " ++ line) else give ()

/-- A file is scanned, as far as its bytes are a text; what is found comes on top of a result. -/
def scanFile [Script.Parser] (d : Declared) (rules : List Rule) (s : ScanSettings)
    (r : ScanResult) (p : FilePath) : Action ScanResult := do
  let text ← ofExcept .file ((← files).lossyTextOf p)
  sayAll ((if s.verbose then (Scan.unreadableLine? p.text text).toList else []).map
    ("[dsgate validate-ci] " ++ ·))
  return Scan.into d rules s.options r p.text text

/-- Files are scanned, one after the other. -/
def scanFiles [Script.Parser] (d : Declared) (rules : List Rule) (s : ScanSettings) :
    ScanResult → List FilePath → Action ScanResult
  | r, [] => give r
  | r, p :: ps => do scanFiles d rules s (← scanFile d rules s r p) ps

/-- The result of a scan of a directory, or of one file. -/
def scanDirectory [Script.Parser] (registry : Json) (s : ScanSettings) (source : FilePath) :
    Action ScanResult := do
  if !(← files).pathExists source then fail (.absent "Source path" source)
  let rules ← ofExcept .scan s.selectedRules
  sayScan s.verbose ("scanning " ++ source.text ++ " with pattern: " ++ s.pattern)
  let paths ← ofExcept .scan (Glob.collect (← files) source s.pattern s.ignored)
  sayScan s.verbose ("found " ++ natText paths.length ++ " file(s)")
  scanFiles (.ofRegistry registry) rules s {} paths

end Action

end DesignRegistry
