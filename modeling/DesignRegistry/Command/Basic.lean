/-
**Commands.**

A command line names one of five commands and gives its arguments.

Main definitions

* `Task`, `Command` — commands;
* `CommandName`, `CommandName.rules` — the commands by name, and what each takes;
* `Command.read` — the command of a command line;
* `Command.paths` — the paths that a command looks at.
-/
import DesignRegistry.Command.Arguments
import DesignRegistry.Registry.Validation
import DesignRegistry.Scan.Directory
import DesignRegistry.Scan.Report
import DesignRegistry.Workspace.Rollback

namespace DesignRegistry

/-! ### Tasks -/

/-- What a command is to do. -/
inductive Task where
  /-- Applies the patches of a file to a registry. -/
  | mutate (registry patches target : FilePath) (undo : Option FilePath) (dryRun backup : Bool)
  /-- Lists the snapshots. -/
  | listSnapshots
  /-- Removes all but the newest snapshots. -/
  | cleanUp (keep : Int)
  /-- Brings a registry back. -/
  | rollBack (registry : Option FilePath) (source : String) (target : Option FilePath)
      (backup validate : Bool)
  /-- Checks a registry. -/
  | validate (registry : FilePath) (checks : RegistryChecks)
  /-- Checks scripts against a registry. -/
  | scan (source registry : FilePath) (settings : ScanSettings) (format : ReportFormat)
      (output : Option FilePath) (field : String) (failing plain : Bool)
  /-- Lists the schemas. -/
  | listSchemas
  /-- Checks a document against a schema, or against the one that its members suggest. -/
  | checkDocument (document : Option FilePath) (schema : Option String)

/-- A command. -/
structure Command where
  /-- What is to be done. -/
  task : Task
  /-- Whether the outcome is given as JSON. -/
  json : Bool
  /-- Whether each step is told in the log. -/
  verbose : Bool
  /-- The directory of the snapshots. -/
  backups : FilePath
  /-- The audit log. -/
  auditLog : FilePath

/-! ### Rules -/

/-- The commands. -/
inductive CommandName where
  | mutate | rollback | validate | scan | schema
deriving DecidableEq, Repr

namespace CommandName

/-- All commands. -/
def all : List CommandName := [.mutate, .rollback, .validate, .scan, .schema]

/-- The word for a command. -/
def text : CommandName → String
  | .mutate => "mutate"
  | .rollback => "rollback"
  | .validate => "validate"
  | .scan => "validate-ci"
  | .schema => "schema"

/-- The command of a word. -/
def ofText? (t : String) : Option CommandName := all.find? (·.text == t)

/-- The options that every command has. -/
def commonOptions : List (String × OptionKind) :=
  [("-h", .notice .help), ("--help", .notice .help), ("--verbose", .switch), ("--json", .switch)]

/-- Options without a value. -/
def switches (names : List String) : List (String × OptionKind) :=
  names.map fun n => (n, .switch)

/-- Options with any value. -/
def valued (names : List String) : List (String × OptionKind) :=
  names.map fun n => (n, .value fun _ => true)

/-- What a command takes. -/
def rules : CommandName → ArgumentRules
  | .mutate =>
    ⟨3, false, commonOptions ++ switches ["--dry-run", "--no-backup"]
      ++ valued ["--undo", "--backup-dir", "--audit-log"]⟩
  | .rollback =>
    ⟨3, true, commonOptions ++ switches ["--no-backup", "--no-validate", "--list", "--cleanup"]
      ++ valued ["--backup-dir", "--audit-log"]
      ++ [("--keep", .value fun t => (integerOfText? t).isSome)]⟩
  | .validate =>
    ⟨1, false, commonOptions
      ++ switches ["--strict", "--check-tokens", "--check-examples", "--check-naming"]⟩
  | .scan =>
    ⟨1, false, commonOptions
      ++ switches ["--fail-on-violations", "--no-fail-on-violations", "--no-tokens", "--no-props",
        "--no-variants", "--no-color"]
      ++ valued ["--registry", "--output", "--allow", "--glob", "--ignore", "--group-by"]
      ++ [("--format", .value fun t => (ReportFormat.ofName? t).isSome)]⟩
  | .schema => ⟨1, true, commonOptions ++ switches ["--list"] ++ valued ["--schema"]⟩

end CommandName

/-! ### Reading -/

namespace Task

/-- The path that an option or an argument gives, if it is not empty. -/
def path? (t : String) : Option FilePath := if t = "" then none else some (.ofText t)

/-- Whether a scan with violations counts as failed: the last of the two switches decides. -/
def isFailing (a : Arguments) : Bool :=
  match (a.settings.filter fun s =>
      s.1 == "--fail-on-violations" || s.1 == "--no-fail-on-violations").getLast? with
  | some s => s.1 == "--fail-on-violations"
  | none => true

/-- The settings of a scan. -/
def scanSettings (a : Arguments) : ScanSettings :=
  let usual : ScanSettings := {}
  { usual with
    pattern := (a.value? "--glob").getD usual.pattern
    ignored := if a.has "--ignore" then a.values "--ignore" else usual.ignored
    options :=
      { tokens := !a.has "--no-tokens"
        props := !a.has "--no-props"
        variants := !a.has "--no-variants"
        allowed := a.values "--allow" }
    verbose := a.has "--verbose" }

/-- What a command is to do, by its arguments. -/
def ofArguments (a : Arguments) : CommandName → Task
  | .mutate =>
    .mutate (.ofText (a.argument 0)) (.ofText (a.argument 1)) (.ofText (a.argument 2))
      ((a.filled? "--undo").map .ofText) (a.has "--dry-run") (!a.has "--no-backup")
  | .rollback =>
    if a.has "--list" then .listSnapshots
    else if a.has "--cleanup" then
      .cleanUp (((a.value? "--keep").bind integerOfText?).getD 10)
    else
      .rollBack (path? (a.argument 0)) (a.given[1]?.getD "last") (path? (a.argument 2))
        (!a.has "--no-backup") (!a.has "--no-validate")
  | .validate =>
    .validate (.ofText (a.argument 0))
      { strict := a.has "--strict"
        tokens := a.has "--check-tokens"
        examples := a.has "--check-examples"
        naming := a.has "--check-naming" }
  | .scan =>
    .scan (.ofText (a.argument 0)) (.ofText ((a.value? "--registry").getD "./registry"))
      (scanSettings a) (((a.value? "--format").bind ReportFormat.ofName?).getD .default)
      ((a.filled? "--output").map .ofText) ((a.value? "--group-by").getD "type") (isFailing a)
      (a.has "--no-color")
  | .schema =>
    if a.has "--list" then .listSchemas
    else .checkDocument (path? (a.argument 0)) (a.value? "--schema")

end Task

namespace Command

/-- The command of its name and arguments. -/
def ofArguments (name : CommandName) (a : Arguments) : Command :=
  { task := .ofArguments a name
    json := a.has "--json"
    verbose := a.has "--verbose"
    backups := .ofText ((a.value? "--backup-dir").getD ".dcp-backups")
    auditLog := .ofText ((a.value? "--audit-log").getD "mutations.log.jsonl") }

/-- What may stand before the name of a command. -/
def frontRules : ArgumentRules :=
  ⟨0, false, [("-h", .notice .help), ("--help", .notice .help), ("--version", .notice .version)]⟩

/-- The words from the name of the command on, and whether there are unknown ones before it. -/
def nameOnwards (surplus : Bool) : List Word → List String → Except NoCommand (Bool × List String)
  | .unknown :: ws, _ :: ts => nameOnwards true ws ts
  | .option _ (.notice n) none :: _, _ => .error (.notice n)
  | .option .. :: _, _ => .error .misuse
  | .letters letter (.notice n) rest :: _, _ => .error (ArgumentRules.noticeWith n letter rest)
  | .letters .. :: _, _ => .error .misuse
  | _, ts => .ok (surplus, ts)

/-- The command of a command line. -/
def read (texts : List String) : Except NoCommand Command := do
  let (surplus, rest) ← nameOnwards false (← frontRules.words texts) texts
  match rest with
  | [] => .error (if surplus then .misuse else .nothing)
  | t :: ts =>
    match CommandName.ofText? t with
    | none => .error .misuse
    | some name =>
      let a ← name.rules.read ts
      if surplus || a.surplus then .error .misuse else .ok (.ofArguments name a)

/-- The text that tells how commands are written. -/
def usage : String :=
  joined "\n" [
    "usage: dsgate mutate REGISTRY PATCH OUTPUT [--undo FILE] [--dry-run] [--no-backup]",
    "       dsgate rollback [REGISTRY [SOURCE [OUTPUT]]] [--no-backup] [--no-validate]",
    "       dsgate rollback --list",
    "       dsgate rollback --cleanup [--keep COUNT]",
    "       dsgate validate REGISTRY [--strict] [--check-tokens] [--check-examples] [--check-naming]",
    "       dsgate validate-ci SOURCE [--registry PATH] [--format FORMAT] [--output FILE]",
    "              [--[no-]fail-on-violations] [--allow VALUE] [--glob PATTERN] [--ignore PATTERN]",
    "              [--no-tokens] [--no-props] [--no-variants] [--group-by FIELD] [--no-color]",
    "       dsgate schema DOCUMENT [--schema NAME]",
    "       dsgate schema --list",
    "",
    "Every command takes --verbose and --json; mutate and rollback take --backup-dir DIRECTORY",
    "and --audit-log FILE.",
    ""]

/-! ### Files -/

/-- The paths that a command looks at. -/
def paths (c : Command) : List FilePath :=
  match c.task with
  | .mutate registry patches target undo _ _ =>
    [registry, patches, target, c.backups, c.auditLog] ++ undo.toList
  | .rollBack registry source target _ _ =>
    [FilePath.ofText source, c.backups, c.auditLog] ++ registry.toList ++ target.toList
      ++ ({} : RollbackEngine).undoNames.map .ofText
  | .listSnapshots => [c.backups]
  | .cleanUp _ => [c.backups]
  | .validate registry _ => [registry]
  | .scan source registry _ _ output _ _ _ => [source, registry] ++ output.toList
  | .listSchemas => []
  | .checkDocument document _ => document.toList

end Command

namespace NoCommand

/-- What is said instead of running a command. -/
def text : NoCommand → String
  | .notice .version => "dsgate 0.0.0\n"
  | _ => Command.usage

end NoCommand

end DesignRegistry
