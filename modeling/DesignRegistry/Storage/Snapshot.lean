/-
**Snapshots.**

A snapshot keeps a document under a reference.  Snapshots live either in a directory, one file each
in the layout of files, or in memory under numbered references.  Both list the newest first, keep
what was saved until it is removed, and never reuse a reference that is still taken.

Main definitions

* `SnapshotEntry`, `Deletion` — a line of a listing, and the outcome of a removal;
* `snapshotName` — the name of a snapshot by its kind and the time it was taken;
* `MemorySnapshots` — snapshots in memory;
* `FileSystem.addSnapshot`, `FileSystem.snapshots`, `FileSystem.pruneSnapshots` — snapshots in a
  directory;
* `SnapshotStore` — either of them.
-/
import DesignRegistry.Storage.Document
import DesignRegistry.Time.Calendar

namespace DesignRegistry

/-! ### Listings -/

/-- A snapshot in a listing. -/
structure SnapshotEntry where
  /-- The reference to load it by. -/
  path : String
  /-- The name without the place where it is kept. -/
  filename : String
  /-- When it was made: seconds for a file, its position for one in memory. -/
  created : Int
  /-- The number of bytes of its text. -/
  size : Nat
deriving DecidableEq, Repr

/-- The outcome of a removal. -/
structure Deletion where
  /-- What was to be removed. -/
  path : String
  /-- Why it could not be removed, if it could not. -/
  error : Option String
deriving DecidableEq, Repr

namespace Deletion

/-- Whether the removal succeeded. -/
def ok (d : Deletion) : Bool := d.error.isNone

end Deletion

/-- The kinds of snapshot, by what they precede. -/
inductive SnapshotKind where
  | mutation | rollback
deriving DecidableEq, Repr

namespace SnapshotKind

/-- The front of a snapshot's name. -/
def front : SnapshotKind → String
  | .mutation => "dcp"
  | .rollback => "rollback"

end SnapshotKind

/-- The name of a snapshot without its ending. -/
def snapshotStem (front timestamp : String) : String :=
  front ++ "-backup-" ++ filenameStamp timestamp

/-- The name of a snapshot. -/
def snapshotName (front timestamp : String) : String := snapshotStem front timestamp ++ ".json"

/-! ### In memory -/

/-- Snapshots in memory, the oldest first. -/
structure MemorySnapshots where
  /-- The references and the documents. -/
  items : List (String × Json) := []
  /-- The number of the next reference. -/
  next : Nat := 0

namespace MemorySnapshots

/-- The reference of the `n`-th snapshot. -/
def reference (front timestamp : String) (n : Nat) : String :=
  "memory://" ++ snapshotName front timestamp ++ "#" ++ natText n

/-- Adds a snapshot; also its reference. -/
def save (m : MemorySnapshots) (front timestamp : String) (doc : Json) :
    String × MemorySnapshots :=
  let ref := reference front timestamp m.next
  (ref, { items := m.items ++ [(ref, doc)], next := m.next + 1 })

/-- The document of a reference. -/
def load? (m : MemorySnapshots) (ref : String) : Option Json := m.items.lookup ref

/-- The line of a listing for the snapshot at a position. -/
def entryOf (position : Nat) (item : String × Json) : SnapshotEntry :=
  { path := item.1
    filename := String.ofList ((cutAt? "://".toList item.1.toList).map Prod.snd |>.getD [])
    created := position
    size := (item.2.render .lineAscii).utf8ByteSize }

/-- The snapshots, the newest first. -/
def list (m : MemorySnapshots) : List SnapshotEntry :=
  (m.items.zipIdx.map fun (item, i) => entryOf i item).reverse

/-- The snapshots that are not listed under the given paths. -/
def without (m : MemorySnapshots) (paths : List String) : MemorySnapshots :=
  { m with items := m.items.filter fun item => !paths.contains item.1 }

/-- Removes all but the newest snapshots. -/
def prune (m : MemorySnapshots) (keep : Nat) : List Deletion × MemorySnapshots :=
  let doomed := (m.list.drop keep).map (·.path)
  (doomed.map fun p => ⟨p, none⟩, m.without doomed)

/-- Removes one snapshot. -/
def discard (m : MemorySnapshots) (ref : String) : Deletion × MemorySnapshots :=
  if m.items.any fun item => item.1 == ref then (⟨ref, none⟩, m.without [ref])
  else (⟨ref, some "Backup not found"⟩, m)

end MemorySnapshots

/-! ### In a directory -/

namespace FileSystem

/-- Removes a file, telling how it went. -/
def tryDelete (fs : FileSystem) (p : FilePath) : Deletion × FileSystem :=
  match fs.removeFile p with
  | .ok fs => (⟨p.text, none⟩, fs)
  | .error e => (⟨p.text, some e.message⟩, fs)

/-- Removes files one after the other, telling how it went. -/
def tryDeleteAll (fs : FileSystem) : List FilePath → List Deletion × FileSystem
  | [] => ([], fs)
  | p :: ps =>
    let (d, fs) := fs.tryDelete p
    let (ds, fs) := tryDeleteAll fs ps
    (d :: ds, fs)

/-- The first path from the `n`-th on that leads to nothing: `stem-n.json`, `stem-(n+1).json`, and
so on. -/
def freePathFrom (fs : FileSystem) (directory : FilePath) (stem : String) (n : Nat) :
    Nat → FilePath
  | 0 => directory.join (.ofText (stem ++ "-" ++ natText n ++ ".json"))
  | tries + 1 =>
    let p := directory.join (.ofText (stem ++ "-" ++ natText n ++ ".json"))
    if fs.pathExists p then freePathFrom fs directory stem (n + 1) tries else p

/-- A path for a snapshot that leads to nothing yet.  There are fewer taken paths than entries. -/
def freePath (fs : FileSystem) (directory : FilePath) (stem : String) : FilePath :=
  let p := directory.join (.ofText (stem ++ ".json"))
  if fs.pathExists p then freePathFrom fs directory stem 1 (fs.entries.length + 1) else p

/-- Adds a snapshot to a directory; also its path. -/
def addSnapshot (fs : FileSystem) (directory : FilePath) (front timestamp : String)
    (doc : Json) : Except FileProblem (FilePath × FileSystem) :=
  let p := fs.freePath directory (snapshotStem front timestamp)
  match fs.create p doc.pretty.toUTF8 with
  | .error e => .error e
  | .ok fs => .ok (p, fs)

/-- The line of a listing for a name in a directory, if it is a snapshot's. -/
def snapshotNamed? (fs : FileSystem) (directory : FilePath) (name : String) :
    Option SnapshotEntry :=
  let p := directory.child name
  match fs.at? p with
  | some (.file bytes changed) =>
    if Text.hasBack name ".json" then some ⟨p.text, name, changed, bytes.size⟩ else none
  | _ => none

/-- Whether a snapshot is listed before another: newer, or as new and later by name. -/
def listedBefore (a b : SnapshotEntry) : Bool :=
  b.created < a.created || (a.created == b.created && decide (b.filename ≤ a.filename))

/-- The snapshots in a directory, the newest first. -/
def snapshots (fs : FileSystem) (directory : FilePath) : List SnapshotEntry :=
  match fs.entryAt directory with
  | .ok (loc, some .directory) =>
    ((fs.namesIn loc).filterMap (fs.snapshotNamed? directory)).mergeSort listedBefore
  | _ => []

/-- Removes all but the newest snapshots of a directory. -/
def pruneSnapshots (fs : FileSystem) (directory : FilePath) (keep : Nat) :
    List Deletion × FileSystem :=
  fs.tryDeleteAll (((fs.snapshots directory).drop keep).map fun e => FilePath.ofText e.path)

end FileSystem

/-! ### Stores -/

/-- Where snapshots are kept. -/
inductive SnapshotStore where
  | directory (path : FilePath)
  | memory (snapshots : MemorySnapshots)

end DesignRegistry
