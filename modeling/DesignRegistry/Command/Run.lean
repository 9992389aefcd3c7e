/-
**Running commands.**

A command works on a workspace and ends with an exit code.  What it reports goes to the output, as
JSON or as lines for people; what goes wrong goes to the log, and then the exit code is one.

Main definitions

* `Action.inStore` — an action with another store of snapshots;
* `Action.runMutation`, `Action.runRollback`, `Action.runValidation`, `Action.runScan`,
  `Action.runCheck` — the commands;
* `Command.run`, `Command.execute` — a command, and a command with its failure reported.
-/
import DesignRegistry.Command.Basic

namespace DesignRegistry

namespace Action

/-! ### Surroundings -/

/-- An action with another store of snapshots. -/
def inStore {α : Type} (store : SnapshotStore) (x : Action α) : Action α := fun w =>
  match x { w with store } with
  | (r, after) => (r, { after with store := w.store })

/-- Prints a document. -/
def printDocument (layout : Json.Layout) (doc : Json) : Action Unit :=
  print (Json.render layout doc)

/-- Lines about what is there only sometimes. -/
def optionalLine (front : String) (text : Option String) : List String :=
  (text.map (front ++ ·)).toList

/-- A reference that is not empty. -/
def filled (reference : Option String) : Option String := reference.filter (· != "")

/-- The validator of the four kinds of document; that it was loaded is told in the log. -/
def loadSchemas (verbose : Bool) : Action Validator := do
  if verbose then sayAll Validator.standard.loadLog
  return .standard

/-- The engine of a command. -/
def commandEngine (c : Command) (validator : Validator) : Engine :=
  { validator, auditLog := some c.auditLog, verbose := c.verbose, schemaVerbose := c.verbose }

/-! ### Mutations -/

/-- The lines about a mutation. -/
def mutationLines (registry patches target : FilePath) (undo : Option FilePath)
    (r : MutationReport) : List String :=
  let count := natText r.successful ++ " of " ++ natText r.mutations ++ " mutations"
  if r.dryRun then
    ["🔍 DRY RUN: Would apply " ++ count, "   Registry: " ++ registry.text,
        "   Patch: " ++ patches.text, "   Output: " ++ target.text]
      ++ optionalLine "   Undo: " (undo.map FilePath.text)
  else
    ["✅ Applied " ++ count ++ " -> " ++ target.text]
      ++ optionalLine "💾 Backup: " (filled r.backup)
      ++ optionalLine "↩️  Undo patch available: " (undo.map FilePath.text)

/-- The document that describes a mutation. -/
def mutationDocument (target : FilePath) (undo : Option FilePath) (r : MutationReport) : Json :=
  .obj (r.members
    ++ (if r.dryRun then [("mutatedDocument", r.document)] else [])
    ++ [("output", if r.dryRun then .null else .str target.text),
      ("undo", if r.dryRun then .null else .ofText? (undo.map FilePath.text))])

/-- The line of the log about a patch that failed. -/
def failedLine (f : FailedPatch) : String :=
  "[dsgate mutate] patch " ++ natText (f.index + 1) ++ " failed: " ++ f.error.message

/-- Applies the patches of a file to a registry. -/
def runMutation (c : Command) (registry patches target : FilePath) (undo : Option FilePath)
    (dryRun backup : Bool) : Action Nat := do
  if !(← files).pathExists registry then fail (.absent "Registry file" registry)
  let doc ← readDocument registry
  let ps ← loadPatches patches
  let e := commandEngine c (← loadSchemas c.verbose)
  let r ← mutate e
    { dryRun, createBackup := backup, target := some target, undo, source := some registry.text }
    doc ps
  if c.json then printDocument .pretty (mutationDocument target undo r)
  else do
    printAll (mutationLines registry patches target undo r)
    sayAll (r.failed.map failedLine)
  return 0

/-! ### Snapshots -/

/-- A number with blanks in front up to a width. -/
def aligned (width n : Nat) : String :=
  let digits := natDigits n
  String.ofList (List.replicate (width - digits.length) ' ' ++ digits)

/-- The document that describes a snapshot; its time is a number with a fraction. -/
def snapshotDocument (s : SnapshotEntry) : Json :=
  .obj [("type", .str "backup"), ("path", .str s.path), ("filename", .str s.filename),
    ("created", ((Binary64.ofInt? s.created).map Json.float).getD .null), ("size", .int s.size)]

/-- The line about a snapshot. -/
def snapshotLine (s : SnapshotEntry) : String :=
  "  " ++ String.ofList (Moment.secondsChars [' '] ⟨s.created * 1000000⟩) ++ "  "
    ++ aligned 8 s.size ++ " B  " ++ s.path

/-- Lists the snapshots. -/
def runList (c : Command) : Action Nat := do
  let points ← listSnapshots
  if c.json then
    printDocument .prettyAscii (.obj [("rollbackPoints", .arr (points.map snapshotDocument))])
  else if points.isEmpty then print ("No backups found in " ++ c.backups.text)
  else
    printAll (("📋 " ++ natText points.length ++ " rollback point(s) in " ++ c.backups.text ++ ":")
      :: points.map snapshotLine)
  return 0

/-- The document that describes a file that could not be removed. -/
def deletionDocument (d : Deletion) : Json :=
  .obj [("path", .str d.path), ("error", .ofText? d.error)]

/-- Removes all but the newest snapshots. -/
def runCleanUp (c : Command) (keep : Int) : Action Nat := do
  if keep < 0 then fail (.negativeKeep "--keep")
  let e := commandEngine c (← loadSchemas c.verbose)
  let ds ← cleanUp { toEngine := e } keep
  let deleted := ds.filter Deletion.ok
  if c.json then
    printDocument .prettyAscii (.obj [("deleted", .arr (deleted.map fun d => .str d.path)),
      ("failed", .arr ((ds.filter fun d => !d.ok).map deletionDocument)), ("kept", .int keep)])
  else
    print ("🧹 Removed " ++ natText deleted.length ++ " old backup(s), keeping the " ++ intText keep
      ++ " most recent")
  return 0

/-! ### Rollbacks -/

/-- The lines about a rollback. -/
def rollbackLines (target : FilePath) (r : RollbackReport) : List String :=
  ["✅ Rollback complete (" ++ r.method.name ++ "): " ++ target.text]
    ++ optionalLine "↩️  Applied " (r.applied.map fun n => natText n ++ " undo patches")
    ++ optionalLine "💾 Pre-rollback backup: " (filled r.backup)
    ++ r.warnings.map ("⚠️  " ++ ·)

/-- Brings a registry back. -/
def runRollback (c : Command) (registry : Option FilePath) (source : String)
    (target : Option FilePath) (backup validate : Bool) : Action Nat := do
  match registry with
  | none => fail (.pathRequired "registry" "--list / --cleanup")
  | some registry => do
    let e : RollbackEngine :=
      { toEngine := commandEngine c (← loadSchemas c.verbose), validate }
    let r ← rollBackFrom e { target, createBackup := backup } registry (some source)
    let target := target.getD registry
    if c.json then
      printDocument .pretty (.obj (r.members ++ [("output", .str target.text),
        ("validationWarnings", .arr (r.warnings.map .str))]))
    else printAll (rollbackLines target r)
    return 0

/-! ### Registries -/

/-- The exit code of a check. -/
def verdict (valid : Bool) : Nat := if valid then 0 else 1

/-- The lines about the check of a registry. -/
def registryLines (r : RegistryReport) : List String :=
  (if r.valid then ["✅ Registry is valid (" ++ natText r.components ++ " components)"]
    else
      ("❌ Registry validation failed (" ++ natText r.errors.length ++ " errors)")
        :: r.errors.map ("  - " ++ ·))
  ++ (if r.warnings.isEmpty then []
    else ("⚠️  " ++ natText r.warnings.length ++ " warnings:") :: r.warnings.map ("  - " ++ ·))

/-- Checks a registry. -/
def runValidation (c : Command) (registry : FilePath) (checks : RegistryChecks) :
    Action Nat := do
  let doc ← Registry.load registry
  if c.verbose then say ("[dsgate validate] registry: " ++ registry.text)
  let v ← loadSchemas c.verbose
  let schemaReport ← ofExcept .validation (v.validate doc SchemaTag.manifest.name)
  if c.verbose then sayAll schemaReport.log
  let r ← ofExcept .validation (Registry.reported checks schemaReport.errors doc)
  if c.json then printDocument .pretty r.toJson else printAll (registryLines r)
  return verdict r.valid

/-! ### Scans -/

/-- The document that describes a scan. -/
def scanDocument (r : ScanResult) : Json :=
  .obj [("isValid", .bool r.isValid), r.violationsMember, ("stats", r.stats.toJson)]

/-- Writes the report on a scan to a file, and tells so unless the outcome is given as JSON. -/
def writeReport (c : Command) (p : FilePath) (text : String) : Action Unit := do
  changeFiles (·.makeDirectories p.parent)
  changeFiles (·.writeText p text)
  if !c.json then print ("Validation report written to: " ++ p.text)

/-- Checks scripts against a registry. -/
def runScan [Script.Parser] (c : Command) (colours : Bool) (source registry : FilePath)
    (settings : ScanSettings) (format : ReportFormat) (output : Option FilePath) (field : String)
    (failing : Bool) : Action Nat := do
  sayScan c.verbose ("registry: " ++ registry.text)
  sayScan c.verbose ("source: " ++ source.text)
  let doc ← Registry.load registry
  let r ← scanDirectory doc settings source
  match output with
  | some p => writeReport c p (r.render format field false)
  | none => if !c.json then printText (r.render format field colours)
  if c.json then printDocument .pretty (scanDocument r)
  return verdict (!failing || r.isValid)

/-! ### Schemas -/

/-- Lists the schemas. -/
def runSchemas (c : Command) : Action Nat := do
  let names := Validator.standard.names
  if c.json then printDocument .lineAscii (.obj [("schemas", .arr (names.map .str))])
  else printAll names
  return 0

/-- The document that describes the check of a document. -/
def checkDocument (r : ValidationReport) : Json :=
  .obj [("valid", .bool r.valid), ("schemaName", .str r.schemaName),
    ("errors", .arr (r.errors.map fun v =>
      .obj [("path", .str v.path), ("message", .str v.message), ("value", v.value.getD .null),
        ("keyword", .str v.keyword)]))]

/-- The lines about the check of a document. -/
def checkLines (p : FilePath) (r : ValidationReport) : List String :=
  if r.valid then ["✅ " ++ p.text ++ " is a valid " ++ r.schemaName]
  else
    ("❌ " ++ p.text ++ " failed " ++ r.schemaName ++ " schema validation ("
        ++ natText r.errors.length ++ " errors)")
      :: r.errors.map fun v => "  - " ++ v.line

/-- Checks a document against a schema, or against the one that its members suggest. -/
def runCheck (c : Command) (document : Option FilePath) (schema : Option String) :
    Action Nat := do
  match document with
  | none => fail (.pathRequired "document" "--list")
  | some p => do
    if !(← files).pathExists p then fail (.absent "File" p)
    let doc ← readDocument p
    let v ← loadSchemas c.verbose
    let r ← ofExcept .validation <|
      match schema with
      | some name => v.validate doc name
      | none => v.validateDetected doc
    if c.verbose then sayAll r.log
    if c.json then printDocument .pretty (checkDocument r) else printAll (checkLines p r)
    return verdict r.valid

end Action

/-! ### Commands -/

namespace Command

/-- Runs a command; `terminal` tells whether the output can show colours. -/
def run [Script.Parser] (terminal : Bool) (c : Command) : Action Nat :=
  Action.inStore (.directory c.backups) <|
    match c.task with
    | .mutate registry patches target undo dryRun backup =>
      Action.runMutation c registry patches target undo dryRun backup
    | .listSnapshots => Action.runList c
    | .cleanUp keep => Action.runCleanUp c keep
    | .rollBack registry source target backup validate =>
      Action.runRollback c registry source target backup validate
    | .validate registry checks => Action.runValidation c registry checks
    | .scan source registry settings format output field failing plain =>
      Action.runScan c (terminal && !plain && format = .default) source registry settings format
        output field failing
    | .listSchemas => Action.runSchemas c
    | .checkDocument document schema => Action.runCheck c document schema

/-- The line of the log about a failure. -/
def failureLine (json : Bool) (f : Failure) : String :=
  if json then Json.render .lineAscii (.obj [("error", .str f.message)]) else "❌ " ++ f.message

/-- Runs a command and reports its failure; the exit code, and the workspace after it. -/
def execute [Script.Parser] (terminal : Bool) (c : Command) (w : Workspace) : Nat × Workspace :=
  match c.run terminal w with
  | (.ok code, w) => (code, w)
  | (.error f, w) => (1, { w with log := w.log ++ failureLine c.json f ++ "\n" })

end Command

end DesignRegistry
