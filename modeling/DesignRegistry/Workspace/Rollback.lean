/-
**Rollbacks.**

A rollback brings back an earlier document, either by patches that undo a mutation or from a
snapshot.  Undoing by patches is all or nothing: the first patch that fails ends it, nothing is
written, and the snapshot taken before is discarded again, so that an abandoned rollback does not
become the newest one to return to.  Findings of the schema are advice only.

Main definitions

* `undoAll` — the document after patches of which none may fail;
* `RollbackReport`, `RollbackOptions`, `RollbackTarget` — reports and settings;
* `Action.rollBackByPatches`, `Action.rollBackToDocument` — rollbacks of a document;
* `Action.rollBackFileByPatches`, `Action.rollBackFileToSnapshot`, `Action.rollBackLast`,
  `Action.rollBackFrom` — rollbacks of a file;
* `Action.lastRollbackPoint`, `Action.cleanUp` — what can be returned to, and making room.
-/
import DesignRegistry.Workspace.Mutation

namespace DesignRegistry

/-! ### Undoing -/

/-- The document after patches of which none may fail, or the first that does, counted on from
`position`. -/
def undoAll (position : Nat) : List Json → Json → Except RollbackProblem Json
  | [], doc => .ok doc
  | p :: ps, doc =>
    match applyPatch doc p with
    | .ok doc => undoAll (position + 1) ps doc
    | .error e => .error (.patchFails (position + 1) e)

/-- The lines of the log about patches up to the first that fails, counted on from `position`. -/
def undoLines (position : Nat) : List Json → Json → List String
  | [], _ => []
  | p :: ps, doc =>
    match applyPatch doc p with
    | .ok doc =>
      ("ok undo patch " ++ natText (position + 1) ++ ": " ++ patchLabel p)
        :: undoLines (position + 1) ps doc
    | .error _ => []

/-! ### Settings and reports -/

/-- What a rollback works with. -/
structure RollbackEngine extends Engine where
  /-- Whether the schemas give advice. -/
  validate : Bool := true
  /-- The names of the files that may hold undo patches, the preferred one first. -/
  undoNames : List String := ["undo.json", "mutation-undo.json", ".last-undo.json"]
  /-- The directory in which they are looked for; the current one if none is given. -/
  undoDirectory : Option FilePath := none

/-- How a document was brought back. -/
inductive RollbackMethod where
  | patch | backup
deriving DecidableEq, Repr

namespace RollbackMethod

/-- The name of a method. -/
def name : RollbackMethod → String
  | .patch => "patch"
  | .backup => "backup"

end RollbackMethod

/-- The report of a rollback. -/
structure RollbackReport where
  /-- How the document was brought back. -/
  method : RollbackMethod
  /-- The document. -/
  document : Json
  /-- The reference of the snapshot taken before. -/
  backup : Option String
  /-- The number of patches, if there were patches. -/
  applied : Option Nat
  /-- The advice of the schemas. -/
  warnings : List String

namespace RollbackReport

/-- The members that describe a report, without the document. -/
def members (r : RollbackReport) : Json.Members :=
  [("success", .bool true), ("method", .str r.method.name), ("backupPath", .ofText? r.backup)]
    ++ (match r.applied with
      | some n => [("patchesApplied", .int n)]
      | none => [])

end RollbackReport

/-- The settings of a rollback of a file. -/
structure RollbackOptions where
  /-- The file for the document; the registry's own if none is given. -/
  target : Option FilePath := none
  /-- Whether a snapshot is taken first. -/
  createBackup : Bool := true
  /-- Whether the rollback is entered in the audit log. -/
  logged : Bool := true

/-- What a rollback can return to. -/
inductive RollbackPoint where
  | backup (reference : String)
  | patch (path : String)
deriving DecidableEq, Repr

namespace RollbackPoint

/-- The method that returns to a point. -/
def method : RollbackPoint → RollbackMethod
  | .backup _ => .backup
  | .patch _ => .patch

/-- Where a point is kept. -/
def path : RollbackPoint → String
  | .backup ref => ref
  | .patch p => p

end RollbackPoint

namespace Action

/-- A line for the log of a rollback. -/
def sayRollback (e : RollbackEngine) (line : String) : Action Unit :=
  if e.verbose then say ("[dsgate rollback] " ++ line) else give ()

/-! ### Documents -/

/-- The advice on a document that was brought back. -/
def adviseOnRollback (e : RollbackEngine) (doc : Json) : Action (List String) :=
  if e.validate then do
    let problems ← advise e.toEngine doc
    if !problems.isEmpty then
      sayRollback e ("WARNING: rolled-back state failed validation: " ++ joined "; " problems)
    return problems
  else give []

/-- Takes a snapshot of a document that is not null, if one is wanted. -/
def snapshotCurrent (e : RollbackEngine) (wanted : Bool) (doc : Json) :
    Action (Option String) :=
  match wanted, doc with
  | false, _ => give none
  | true, .null => give none
  | true, doc => do
    let ref ← saveSnapshot SnapshotKind.rollback.front doc
    sayRollback e ("pre-rollback backup: " ++ ref)
    return some ref

/-- Takes back the snapshot of a rollback that was abandoned. -/
def abandonSnapshot (e : RollbackEngine) : Option String → Action Unit
  | none => give ()
  | some ref => do
    let d ← discardSnapshot ref
    sayRollback e <|
      match d.error with
      | none => "discarded pre-rollback backup: " ++ ref
      | some error => "WARNING: failed to discard pre-rollback backup " ++ ref ++ ": " ++ error

/-- Brings a document back by patches. -/
def rollBackByPatches (e : RollbackEngine) (createBackup : Bool) (doc : Json)
    (patches : List Json) : Action RollbackReport := do
  if patches.isEmpty then fail (.rollback .noPatches)
  else
    let backup ← snapshotCurrent e createBackup doc
    sayAll (if e.verbose then (undoLines 0 patches doc).map ("[dsgate rollback] " ++ ·) else [])
    match undoAll 0 patches doc with
    | .error problem => do
      abandonSnapshot e backup
      fail (.rollback problem)
    | .ok state => do
      let warnings ← adviseOnRollback e state
      return ⟨.patch, state, backup, some patches.length, warnings⟩

/-- Brings a document back from a snapshot. -/
def rollBackToDocument (e : RollbackEngine) (createBackup : Bool) (doc snapshot : Json) :
    Action RollbackReport := do
  let backup ← snapshotCurrent e createBackup doc
  let warnings ← adviseOnRollback e snapshot
  return ⟨.backup, snapshot, backup, none, warnings⟩

/-! ### Files -/

/-- The document of the registry's file. -/
def readRegistry (p : FilePath) : Action Json := do
  let fs ← files
  if fs.pathExists p then
    match fs.documentOf p with
    | .ok doc => return doc
    | .error cause =>
      if cause.isMalformed then fail (.rollback (.registryMalformed p cause))
      else fail (.read cause)
  else fail (.rollback (.registryMissing p))

/-- The patches in an undo file. -/
def readUndoFile (p : FilePath) : Action (List Json) := do
  match ← outcome (loadPatches p) with
  | .ok ps => return ps
  | .error (.patchFile problem) => fail (.rollback (.patchFile problem))
  | .error f => fail f

/-- Writes the document that was brought back, and enters the rollback in the audit log. -/
def finishRollback (e : RollbackEngine) (o : RollbackOptions) (registry : FilePath)
    (origin : String) (r : RollbackReport) : Action RollbackReport := do
  let target := o.target.getD registry
  writeDocument target r.document
  sayRollback e ("wrote: " ++ target.text)
  match o.logged, e.auditLog with
  | true, some log =>
    let _ ← logRecord log {
      type := "rollback"
      source := some registry.text
      target := some target.text
      backup := r.backup
      count := r.applied.getD 0
      extra := [("method", .str r.method.name), ("restoredFrom", .str origin)] }
    return r
  | _, _ => return r

/-- Brings a file's document back by the patches of an undo file. -/
def rollBackFileByPatches (e : RollbackEngine) (o : RollbackOptions)
    (registry undo : FilePath) : Action RollbackReport := do
  let doc ← readRegistry registry
  let patches ← readUndoFile undo
  let r ← rollBackByPatches e o.createBackup doc patches
  finishRollback e o registry undo.text r

/-- The document of a snapshot to return to. -/
def readSnapshot (ref : String) : Action Json := do
  match ← outcome (loadSnapshot ref) with
  | .ok doc => return doc
  | .error (.snapshot (.missing m)) => fail (.rollback (.snapshot ref (.missing m)))
  | .error (.snapshot (.unreadable cause)) =>
    if cause.isExpected then fail (.rollback (.snapshot ref (.unreadable cause)))
    else fail (.read cause)
  | .error f => fail f

/-- Brings a file's document back from a snapshot. -/
def rollBackFileToSnapshot (e : RollbackEngine) (o : RollbackOptions) (registry : FilePath)
    (ref : String) : Action RollbackReport := do
  let snapshot ← readSnapshot ref
  let doc ← if o.createBackup then readRegistry registry else pure .null
  let r ← rollBackToDocument e o.createBackup doc snapshot
  finishRollback e o registry ref r

/-- The first of the undo files that is there. -/
def undoFile? (e : RollbackEngine) (fs : FileSystem) : Option String :=
  let base := e.undoDirectory.getD ⟨"/", fs.current⟩
  (e.undoNames.find? fun n => fs.isFile (base.join (.ofText n))).map fun n =>
    (base.join (.ofText n)).text

/-- What to return to: the newest snapshot, or else an undo file. -/
def lastRollbackPoint (e : RollbackEngine) : Action (Option RollbackPoint) := do
  match ← listSnapshots with
  | s :: _ => return some (.backup s.path)
  | [] => return (undoFile? e (← files)).map .patch

/-- Brings a file's document back from the newest snapshot or else an undo file. -/
def rollBackLast (e : RollbackEngine) (o : RollbackOptions) (registry : FilePath) :
    Action RollbackReport := do
  match ← lastRollbackPoint e with
  | none => fail (.rollback .nothingToRollBack)
  | some point => do
    sayRollback e ("last rollback point: " ++ point.method.name ++ " " ++ point.path)
    match point with
    | .patch p => rollBackFileByPatches e o registry (.ofText p)
    | .backup ref => rollBackFileToSnapshot e o registry ref

/-- Brings a file's document back from a source by name: the newest there is, a snapshot's file or
an undo file, which the file's name tells apart. -/
def rollBackFrom (e : RollbackEngine) (o : RollbackOptions) (registry : FilePath)
    (source : Option String) : Action RollbackReport :=
  match source with
  | none => rollBackLast e o registry
  | some s =>
    if s = "last" then rollBackLast e o registry
    else if Text.hasBack s ".json" then
      let name := (FilePath.ofText s).name
      if Text.contains name "backup" || !Text.contains name "undo" then
        rollBackFileToSnapshot e o registry s
      else rollBackFileByPatches e o registry (.ofText s)
    else fail (.rollback .unknownSource)

/-! ### Making room -/

/-- Removes all but the newest snapshots, and tells how it went. -/
def cleanUp (e : RollbackEngine) (keep : Int) : Action (List Deletion) := do
  let ds ← pruneSnapshots keep
  let failures := ds.filterMap fun d =>
    d.error.map fun error => "WARNING: failed to delete backup " ++ d.path ++ ": " ++ error
  let deleted := (ds.filter Deletion.ok).length
  let _ ← inTurn (sayRollback e) failures
  if deleted ≠ 0 then
    sayRollback e ("cleaned up " ++ natText deleted ++ " old backup file(s)")
  return ds

end Action

end DesignRegistry
