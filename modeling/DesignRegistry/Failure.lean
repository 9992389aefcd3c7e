/-
**Why an action fails.**

Every action on a workspace fails for one of a few causes, each with its own wording.

Main definitions

* `PatchFileProblem`, `RollbackProblem`, `RegistryProblem` — causes by activity;
* `Failure`, `Failure.message` — all causes.
-/
import DesignRegistry.Patch.Apply
import DesignRegistry.Schema.Validator
import DesignRegistry.Storage.Document

namespace DesignRegistry

/-! ### Causes by activity -/

/-- Why a file or a document gives no list of patches. -/
inductive PatchFileProblem where
  | missing (path : FilePath)
  | malformed (path : FilePath) (cause : ReadFailure)
  /-- The document at the place holds no list. -/
  | noList (place : String)

namespace PatchFileProblem

/-- The wording of a problem. -/
def message : PatchFileProblem → String
  | .missing p => "Patch file not found: " ++ p.text
  | .malformed p cause => "Patch file is not valid JSON: " ++ p.text ++ ": " ++ cause.message
  | .noList place =>
    "Invalid patch file format: " ++ place
      ++ " (expected a list, \x7bpatches\x7d or \x7bundoPatches\x7d)"

end PatchFileProblem

/-- Why a snapshot cannot be loaded. -/
inductive SnapshotProblem where
  | missing (reference : String)
  | unreadable (cause : ReadFailure)

namespace SnapshotProblem

/-- The wording of a problem. -/
def message : SnapshotProblem → String
  | .missing ref => "Backup not found: " ++ ref
  | .unreadable cause => cause.message

end SnapshotProblem

/-- Why a rollback is refused. -/
inductive RollbackProblem where
  | noPatches
  /-- A patch, counted from one, that fails. -/
  | patchFails (position : Nat) (error : PatchError)
  | registryMissing (path : FilePath)
  | registryMalformed (path : FilePath) (cause : ReadFailure)
  | patchFile (problem : PatchFileProblem)
  | snapshot (reference : String) (problem : SnapshotProblem)
  /-- There is neither a snapshot nor an undo file. -/
  | nothingToRollBack
  | unknownSource

namespace RollbackProblem

/-- The wording of a problem. -/
def message : RollbackProblem → String
  | .noPatches => "No undo patches to apply"
  | .patchFails n e => "Failed to apply undo patch " ++ natText n ++ ": " ++ e.message
  | .registryMissing p => "Registry file not found: " ++ p.text
  | .registryMalformed p cause =>
    "Registry file is not valid JSON: " ++ p.text ++ ": " ++ cause.message
  | .patchFile p => p.message
  | .snapshot ref p => "Cannot read backup " ++ ref ++ ": " ++ p.message
  | .nothingToRollBack => "No rollback information found"
  | .unknownSource =>
    "Invalid rollback source. Use \"last\", a backup file path, or an undo patch path."

end RollbackProblem

/-- Why a registry cannot be loaded. -/
inductive RegistryProblem where
  | missing (path : FilePath)
  | unreadable (path : FilePath) (cause : ReadFailure)
  | notObject (path : FilePath)

namespace RegistryProblem

/-- The wording of a problem. -/
def message : RegistryProblem → String
  | .missing p => "Registry file not found: " ++ p.text
  | .unreadable p cause => "Failed to load registry " ++ p.text ++ ": " ++ cause.message
  | .notObject p => "Registry must be a JSON object: " ++ p.text

end RegistryProblem

/-- Why the files of a scan cannot be collected. -/
inductive ScanProblem where
  /-- A pattern that names nothing. -/
  | emptyPattern (pattern : String)
  /-- A pattern that starts at the root. -/
  | absolutePattern
  /-- A pattern in which two stars stand beside something else. -/
  | partialDepth
  /-- A pattern that says no more than the directory itself. -/
  | noNames
  /-- Such a pattern with a slash at its end. -/
  | noNamesButSlash
  /-- A rule that does not exist. -/
  | unknownRules (ids : List String)

namespace ScanProblem

/-- The wording of a problem. -/
def message : ScanProblem → String
  | .emptyPattern p => "Unacceptable pattern: " ++ quoted p
  | .absolutePattern => "Non-relative patterns are unsupported"
  | .partialDepth => "Invalid pattern: '**' can only be an entire path component"
  | .noNames => "tuple index out of range"
  | .noNamesButSlash => "'_TerminatingSelector' object has no attribute 'select_from'"
  | .unknownRules ids => "Unknown rule(s): " ++ joined ", " ids

end ScanProblem

/-! ### All causes -/

/-- Why an action fails. -/
inductive Failure where
  | file (problem : FileProblem)
  | read (cause : ReadFailure)
  /-- Something named by a label is not at a path. -/
  | absent (label : String) (path : FilePath)
  | snapshot (problem : SnapshotProblem)
  | patchFile (problem : PatchFileProblem)
  | rollback (problem : RollbackProblem)
  | registry (problem : RegistryProblem)
  | validation (problem : ValidationProblem)
  | scan (problem : ScanProblem)
  /-- A negative count of snapshots to keep, by the name of the count. -/
  | negativeKeep (name : String)
  | unknownAuditType (name : String)
  /-- A path that the command line lacks, and the options that do without. -/
  | pathRequired (what options : String)
  | unknownFormat (name : String)
  /-- A document that is to be shown or compared as a text has none. -/
  | text (fault : Json.TextFault)

namespace Failure

/-- The wording of a failure. -/
def message : Failure → String
  | .file p => p.message
  | .read f => f.message
  | .absent label p => label ++ " not found: " ++ p.text
  | .snapshot p => p.message
  | .patchFile p => p.message
  | .rollback p => p.message
  | .registry p => p.message
  | .validation p => p.message
  | .scan p => p.message
  | .negativeKeep name => name ++ " must be >= 0"
  | .unknownAuditType name => "Invalid audit entry type: " ++ name
  | .pathRequired what options => what ++ " path required (or use " ++ options ++ ")"
  | .unknownFormat name =>
    "Unknown report format: " ++ name ++ " (expected one of: default, json, github, junit)"
  | .text fault => fault.message

end Failure

end DesignRegistry
