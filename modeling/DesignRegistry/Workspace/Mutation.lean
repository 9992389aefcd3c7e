/-
**Batches of patches.**

A batch applies patches one after the other.  A patch that fails is recorded and skipped, and the
document stays as it was before it.  A snapshot is taken first; the changed document and the
operations that undo the batch can be written to files, and the batch is entered in the audit log.
Findings of the schema before and after are advice only.  At the end the report says how the document
changed as a file, which a document without a text does not: then there is no report, though the files
are written and the entry is made.  A dry run does the same without a snapshot, files or an entry.

Main definitions

* `Batch`, `Batch.run` — the outcome of the patches alone;
* `MutationOptions`, `MutationReport` — a mutation's settings and its report;
* `Action.mutate` — a mutation in a workspace;
* `patchList` — the patches that a document holds.
-/
import DesignRegistry.Patch.Difference
import DesignRegistry.Workspace.Audit

namespace DesignRegistry

/-! ### Lists of patches -/

/-- The list of patches that a document holds: itself, or its member `patches` or `undoPatches`. -/
def patchList (place : String) (doc : Json) : Except PatchFileProblem (List Json) :=
  match doc.items?, (doc.field? "patches").bind Json.items?,
      (doc.field? "undoPatches").bind Json.items? with
  | some ps, _, _ => .ok ps
  | none, some ps, _ => .ok ps
  | none, none, some ps => .ok ps
  | none, none, none => .error (.noList place)

/-- The list of patches in a file. -/
def Action.loadPatches (p : FilePath) : Action (List Json) := do
  let fs ← files
  if fs.pathExists p then
    match fs.documentOf p with
    | .ok doc => ofExcept .patchFile (patchList p.text doc)
    | .error e => if e.isMalformed then fail (.patchFile (.malformed p e)) else fail (.read e)
  else fail (.patchFile (.missing p))

/-! ### The patches alone -/

/-- A patch that failed. -/
structure FailedPatch where
  /-- The position of the patch, counted from zero. -/
  index : Nat
  /-- The patch. -/
  patch : Json
  /-- Why it failed. -/
  error : PatchError

namespace FailedPatch

/-- The document that describes a failed patch. -/
def toJson (f : FailedPatch) : Json :=
  .obj [("index", .int f.index), ("patch", f.patch), ("error", .str f.error.message)]

end FailedPatch

/-- The outcome of a list of patches. -/
structure Batch where
  /-- The document after the patches that succeeded. -/
  document : Json
  /-- The number of patches that succeeded. -/
  successful : Nat
  /-- The patches that failed, in order. -/
  failed : List FailedPatch

namespace Batch

/-- The outcome after one more patch, the `index`-th. -/
def step (b : Batch) (index : Nat) (patch : Json) : Batch :=
  match applyPatch b.document patch with
  | .ok doc => { b with document := doc, successful := b.successful + 1 }
  | .error e => { b with failed := b.failed ++ [⟨index, patch, e⟩] }

/-- The outcome after more patches, the first of which is the `index`-th. -/
def steps (b : Batch) (index : Nat) : List Json → Batch
  | [] => b
  | p :: ps => steps (b.step index p) (index + 1) ps

/-- The outcome of patches on a document. -/
def run (doc : Json) (patches : List Json) : Batch := steps ⟨doc, 0, []⟩ 0 patches

end Batch

/-- How a patch is named in the log. -/
def patchLabel (patch : Json) : String :=
  let member (key : String) : String := ((patch.field? key).getD .null).plain
  member "op" ++ " " ++ member "path"

/-- The line of the log about a patch. -/
def patchLine (doc : Json) (index : Nat) (patch : Json) : String :=
  match applyPatch doc patch with
  | .ok _ => "ok patch " ++ natText (index + 1) ++ ": " ++ patchLabel patch
  | .error e => "FAIL patch " ++ natText (index + 1) ++ ": " ++ e.message

/-- The lines of the log about patches, the first of which is the `index`-th. -/
def patchLines (doc : Json) (index : Nat) : List Json → List String
  | [] => []
  | p :: ps =>
    patchLine doc index p :: patchLines ((applyPatch doc p).toOption.getD doc) (index + 1) ps

/-! ### Mutations -/

/-- What a mutation or a rollback works with. -/
structure Engine where
  /-- The schemas that advise. -/
  validator : Validator := .standard
  /-- The audit log, if one is kept. -/
  auditLog : Option FilePath := none
  /-- Whether each step is told in the log. -/
  verbose : Bool := false
  /-- Whether the findings of the schemas are told in the log. -/
  schemaVerbose : Bool := false

/-- The settings of a mutation. -/
structure MutationOptions where
  /-- Whether nothing is to be changed. -/
  dryRun : Bool := false
  /-- Whether a snapshot is taken first. -/
  createBackup : Bool := true
  /-- Whether the schemas give advice. -/
  validate : Bool := true
  /-- The file for the changed document. -/
  target : Option FilePath := none
  /-- The file for the operations that undo the batch. -/
  undo : Option FilePath := none
  /-- Where the document came from. -/
  source : Option String := none

/-- The report of a mutation. -/
structure MutationReport where
  /-- The number of patches. -/
  mutations : Nat
  /-- The number of patches that succeeded. -/
  successful : Nat
  /-- The patches that failed, in order. -/
  failed : List FailedPatch
  /-- The changed document. -/
  document : Json
  /-- How the document changed as a file. -/
  change : Option SizeChange
  /-- The operations that undo the batch. -/
  undo : List Json
  /-- The reference of the snapshot. -/
  backup : Option String
  /-- Whether nothing was to be changed. -/
  dryRun : Bool
  /-- The advice of the schemas. -/
  warnings : List String

namespace MutationReport

/-- The members that describe a report, without the changed document. -/
def members (r : MutationReport) : Json.Members :=
  [("success", .bool true), ("mutations", .int r.mutations), ("successful", .int r.successful),
    ("failed", .arr (r.failed.map FailedPatch.toJson)), ("diff", diffSummary r.change),
    ("undoPatches", .arr r.undo), ("backupPath", .ofText? r.backup), ("dryRun", .bool r.dryRun)]

end MutationReport

namespace Action

/-- A line for the log of a mutation. -/
def sayMutation (e : Engine) (line : String) : Action Unit :=
  if e.verbose then say ("[dsgate mutate] " ++ line) else give ()

/-- The advice of the schemas on a document. -/
def advise (e : Engine) (doc : Json) : Action (List String) := do
  let (problems, lines) ← ofExcept .validation (advisoryReport e.validator doc)
  if e.schemaVerbose then sayAll lines
  return problems

/-- The advice of the schemas at a stage of a mutation. -/
def adviseAt (e : Engine) (stage : String) (doc : Json) : Action (List String) := do
  let problems ← advise e doc
  sayMutation e <|
    if problems.isEmpty then "schema validation passed (" ++ stage ++ ")"
    else
      "WARNING: schema validation failed (" ++ stage ++ "), continuing: " ++ joined "; " problems
  return problems.map fun p => stage ++ ": " ++ p

/-- The advice at a stage if advice is wanted. -/
def adviseIf (wanted : Bool) (e : Engine) (stage : String) (doc : Json) : Action (List String) :=
  if wanted then adviseAt e stage doc else give []

/-- Puts a document into a file, if one is given, and tells so. -/
def writeOptional (e : Engine) (label : String) (p : Option FilePath) (doc : Json) :
    Action Unit :=
  match p with
  | none => give ()
  | some p => do
    writeDocument p doc
    sayMutation e (label ++ p.text)

/-- Takes a snapshot, if one is wanted, and tells so. -/
def snapshotBefore (e : Engine) (wanted : Bool) (doc : Json) : Action (Option String) :=
  if wanted then do
    let ref ← saveSnapshot SnapshotKind.mutation.front doc
    sayMutation e ("backup: " ++ ref)
    return some ref
  else give none

/-- Writes the files of a mutation and its entry in the audit log. -/
def recordMutation (e : Engine) (o : MutationOptions) (backup : Option String) (b : Batch)
    (undo : List Json) : Action Unit := do
  writeOptional e "wrote: " o.target b.document
  writeOptional e "undo patch: " o.undo (.obj [("undoPatches", .arr undo)])
  match e.auditLog with
  | none => return ()
  | some log =>
    let _ ← logRecord log {
      type := "mutation"
      source := o.source
      target := o.target.map FilePath.text
      backup := backup
      count := b.successful
      extra := [("undoPath", .ofText? (o.undo.map FilePath.text))] }
    return ()

/-- Tells in the log how each patch fares. -/
def sayPatches (e : Engine) (doc : Json) (patches : List Json) : Action Unit :=
  if e.verbose then sayAll ((patchLines doc 0 patches).map ("[dsgate mutate] " ++ ·)) else give ()

/-- Records a mutation unless nothing is to be changed. -/
def recordUnlessDry (e : Engine) (o : MutationOptions) (backup : Option String) (b : Batch)
    (undo : List Json) : Action Unit :=
  if o.dryRun then give () else recordMutation e o backup b undo

/-- Applies patches to a document. -/
def mutate (e : Engine) (o : MutationOptions) (doc : Json) (patches : List Json) :
    Action MutationReport := do
  sayMutation e ("processing " ++ natText patches.length ++ " patch(es)"
    ++ (if o.dryRun then " (dry run)" else ""))
  let backup ← snapshotBefore e (o.createBackup && !o.dryRun) doc
  let before ← adviseIf o.validate e "pre-mutation" doc
  let b := Batch.run doc patches
  sayPatches e doc patches
  let after ← adviseIf o.validate e "post-mutation" b.document
  let undo := undoPatches b.document doc
  recordUnlessDry e o backup b undo
  sayMutation e ("applied " ++ natText b.successful ++ " of " ++ natText patches.length
    ++ " patch(es)")
  -- only now, with the files written and the entry made, are the documents compared as texts
  let change ← ofExcept .text (sizeChange doc b.document)
  return {
    mutations := patches.length
    successful := b.successful
    failed := b.failed
    document := b.document
    change
    undo := undo
    backup := backup
    dryRun := o.dryRun
    warnings := before ++ after }

/-- Puts the document of a snapshot's file into another file. -/
def restore (e : Engine) (backup target : FilePath) : Action Unit := do
  let fs ← files
  if fs.pathExists backup then
    let doc ← readDocument backup
    writeDocument target doc
    sayMutation e ("restored " ++ target.text ++ " from " ++ backup.text)
  else fail (.absent "Backup file" backup)

end Action

end DesignRegistry
