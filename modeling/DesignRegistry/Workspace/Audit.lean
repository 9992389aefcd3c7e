/-
**The audit log.**

The log is a file with one document a line, the oldest first.  An entry tells when a mutation or a
rollback ran, what it read and wrote, its snapshot and how many operations took effect.  Entries are
only ever added.

Main definitions

* `AuditRecord`, `AuditRecord.entry` — what an entry tells, and the entry;
* `Action.logRecord`, `Action.auditEntries` — adding an entry, and reading all of them.
-/
import DesignRegistry.Workspace.Basic

namespace DesignRegistry

/-- What an entry of the audit log tells. -/
structure AuditRecord where
  /-- What ran: `mutation` or `rollback`. -/
  type : String
  /-- Where the document came from. -/
  source : Option String := none
  /-- Where the document went. -/
  target : Option String := none
  /-- The reference of the snapshot taken before. -/
  backup : Option String := none
  /-- The number of operations that took effect. -/
  count : Int := 0
  /-- Further members; those that are null are left out. -/
  extra : Json.Members := []

/-- A text or null. -/
def Json.ofText? (s : Option String) : Json := (s.map Json.str).getD .null

namespace AuditRecord

/-- The types of entry. -/
def types : List String := ["mutation", "rollback"]

/-- The members of an entry at a time, without the further ones. -/
def baseMembers (r : AuditRecord) (timestamp : String) : Json.Members :=
  [("timestamp", .str timestamp), ("type", .str r.type), ("sourcePath", .ofText? r.source),
    ("outputPath", .ofText? r.target), ("backupPath", .ofText? r.backup),
    ("appliedOpsCount", .int r.count)]

/-- The members with a further one, unless it is null. -/
def addMember (ms : Json.Members) (m : String × Json) : Json.Members :=
  match m.2 with
  | .null => ms
  | v => Json.Members.put m.1 v ms

/-- The entry at a time. -/
def entry (r : AuditRecord) (timestamp : String) : Json :=
  .obj (r.extra.foldl addMember (r.baseMembers timestamp))

end AuditRecord

/-- The documents on the lines of a log, blank lines left out. -/
def readEntries : List (List Char) → Except Json.ReadError (List Json)
  | [] => .ok []
  | line :: rest =>
    let body := trimBlanks line
    if body.isEmpty then readEntries rest
    else
      match Json.parse (String.ofList body) with
      | .error e => .error e
      | .ok v => (readEntries rest).map (v :: ·)

namespace Action

/-- Adds an entry to the log at a path. -/
def logRecord (log : FilePath) (r : AuditRecord) : Action Json := do
  if AuditRecord.types.contains r.type then
    let t ← readClock
    let entry := r.entry t.timestamp
    changeFiles (·.appendLine log entry)
    return entry
  else fail (.unknownAuditType r.type)

/-- The entries of the log at a path, the oldest first. -/
def auditEntries (log : FilePath) : Action (List Json) := do
  let fs ← files
  if fs.pathExists log then
    let text ← ofExcept .read (fs.textOf log)
    ofExcept (fun e => .read (.json e)) (readEntries (pieces '\n' text.toList))
  else return []

end Action

end DesignRegistry
