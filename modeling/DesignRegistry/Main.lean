/-
**The command line.**

The files that a command looks at are loaded, the command is run on them, and the files that it
changed are written back.  All decisions are those of `DesignRegistry.Command.execute`.
-/
import DesignRegistry.Command.Run
import Std.Time.DateTime.Timestamp

namespace DesignRegistry

namespace Disk

/-- The text of a location. -/
def pathText (loc : Location) : String := "/" ++ joined "/" loc

/-- The location of an absolute path. -/
def locationOf (text : String) : Location := (FilePath.ofText text).names

/-- The location that names lead to from another. -/
def stepThrough (loc : Location) (names : List String) : Location :=
  names.foldl (fun l n => if n = ".." then l.dropLast else l ++ [n]) loc

/-- The location of a path. -/
def locate (current : Location) (p : FilePath) : Location :=
  stepThrough (if p.isAbsolute then [] else current) p.names

/-- The file system with a directory. -/
def withDirectory (fs : FileSystem) (loc : Location) : FileSystem :=
  if loc = [] then fs else fs.withEntry loc .directory

/-- Loads what lies at a location, and below it down to a depth. -/
def load : Nat → FileSystem → Location → IO FileSystem
  | 0, fs, _ => return fs
  | depth + 1, fs, loc => do
    let path := (← IO.currentDir) / pathText loc
    if ← path.isDir then
      (← path.readDir).foldlM (fun fs e => load depth fs (loc ++ [e.fileName])) (withDirectory fs loc)
    else if ← path.pathExists then
      let bytes ← IO.FS.readBinFile path
      return fs.withEntry loc (.file bytes (← path.metadata).modified.sec)
    else return fs

/-- Loads the directories on the way to a location. -/
def loadWay (fs : FileSystem) (loc : Location) : IO FileSystem :=
  (List.range loc.length).foldlM (fun fs i => do
      let path := (← IO.currentDir) / pathText (loc.take i)
      return if ← path.isDir then withDirectory fs (loc.take i) else fs)
    fs

/-- Loads what lies at paths. -/
def loadAll (fs : FileSystem) (paths : List FilePath) : IO FileSystem :=
  paths.foldlM (fun fs p => do load 64 (← loadWay fs (locate fs.current p)) (locate fs.current p)) fs

/-- Writes an entry that is new or has changed. -/
def writeEntry (before : FileSystem) (item : Location × Entry) : IO Unit :=
  match item with
  | (loc, e) =>
    if before.entryAt? loc == some e then return ()
    else
      match e with
      | .directory => IO.FS.createDirAll (pathText loc)
      | .file bytes _ => IO.FS.writeBinFile (pathText loc) bytes

/-- Removes a file that is gone. -/
def removeEntry (after : FileSystem) (item : Location × Entry) : IO Unit :=
  match after.entryAt? item.1 with
  | some _ => return ()
  | none => IO.FS.removeFile (pathText item.1)

/-- Writes back what has changed. -/
def writeBack (before after : FileSystem) : IO Unit := do
  after.entries.forM (writeEntry before)
  before.entries.forM (removeEntry after)

/-- The workspace of a command. -/
def workspace (c : Command) : IO Workspace := do
  let current := locationOf (← IO.currentDir).toString
  let micros := (← Std.Time.Timestamp.now).toNanosecondsSinceUnixEpoch.val / 1000
  let files ← loadAll (.empty current (micros / 1000000)) c.paths
  return { files, clock := ⟨⟨micros⟩, 1000⟩, store := .directory c.backups }

/-- Runs a command on the files of the disk. -/
def run (c : Command) : IO Nat := do
  let before ← workspace c
  let terminal := (← (← IO.getStdout).isTty) && (← IO.getEnv "NO_COLOR").isNone
  let (code, after) := c.execute terminal before
  writeBack before.files after.files
  IO.print after.output
  IO.eprint after.log
  return code

end Disk

end DesignRegistry

/-- Runs the command of a command line. -/
def main (args : List String) : IO UInt32 := do
  match DesignRegistry.Command.read args with
  | .ok c => return (← DesignRegistry.Disk.run c).toUInt32
  | .error stop =>
    if stop = .misuse then IO.eprint stop.text else IO.print stop.text
    return stop.exitCode.toUInt32
