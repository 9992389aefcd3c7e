/-
**A file system as a value.**

A file system knows what stands at each location: a directory, or a file with its bytes and the time
of its last change.  The root is always a directory.  A path is followed name by name from the
current directory, each time through a directory; what stands at its end may be missing.  Changes
give a new file system and leave all other locations as they were.

Main definitions

* `FileSystem`, `FileSystem.entryAt?` — file systems and what they hold;
* `FileProblem` — why a path cannot be used;
* `FileSystem.locate` — the location that a path leads to;
* `FileSystem.bytesOf`, `FileSystem.write`, `FileSystem.create`, `FileSystem.append`,
  `FileSystem.makeDirectories`, `FileSystem.removeFile` — reading and changing;
* `FileSystem.namesIn` — the names in a directory.
-/
import DesignRegistry.Json.Display
import DesignRegistry.Storage.FilePath
import DesignRegistry.Text.Encoded

namespace DesignRegistry

/-! ### Problems -/

/-- Why a path cannot be used. -/
inductive FileCause where
  | notFound | alreadyExists | notDirectory | isDirectory
deriving DecidableEq, Repr

namespace FileCause

/-- The number of a cause. -/
def number : FileCause → Nat
  | .notFound => 2
  | .alreadyExists => 17
  | .notDirectory => 20
  | .isDirectory => 21

/-- The wording of a cause. -/
def message : FileCause → String
  | .notFound => "No such file or directory"
  | .alreadyExists => "File exists"
  | .notDirectory => "Not a directory"
  | .isDirectory => "Is a directory"

end FileCause

/-- A path that cannot be used, and why. -/
structure FileProblem where
  /-- Why it cannot be used. -/
  cause : FileCause
  /-- The path. -/
  path : FilePath
deriving DecidableEq, Repr

namespace FileProblem

/-- The wording of a problem. -/
def message (p : FileProblem) : String :=
  "[Errno " ++ natText p.cause.number ++ "] " ++ p.cause.message ++ ": " ++ quoted p.path.text

end FileProblem

/-! ### File systems -/

/-- The names from the root to a place. -/
abbrev Location := List String

/-- What stands at a location. -/
inductive Entry where
  | directory
  /-- A file: its bytes and the time of its last change in seconds. -/
  | file (bytes : ByteArray) (changed : Int)
deriving BEq

/-- A file system. -/
structure FileSystem where
  /-- What stands at each location other than the root. -/
  entries : List (Location × Entry)
  /-- The directory that relative paths start from. -/
  current : Location
  /-- The time that files changed now are marked with. -/
  now : Int

namespace FileSystem

/-- The entry of a location in a list of entries. -/
def findAt? (loc : Location) : List (Location × Entry) → Option Entry
  | [] => none
  | (l, e) :: rest => if l = loc then some e else findAt? loc rest

/-- The entries with one of them set: a new one goes last. -/
def putEntry (loc : Location) (e : Entry) : List (Location × Entry) → List (Location × Entry)
  | [] => [(loc, e)]
  | (l, old) :: rest => if l = loc then (l, e) :: rest else (l, old) :: putEntry loc e rest

/-- What stands at a location. -/
def entryAt? (fs : FileSystem) (loc : Location) : Option Entry :=
  if loc = [] then some .directory else findAt? loc fs.entries

/-- The file system with an entry set. -/
def withEntry (fs : FileSystem) (loc : Location) (e : Entry) : FileSystem :=
  { fs with entries := putEntry loc e fs.entries }

/-- A file system that holds an empty current directory only. -/
def empty (current : Location) (now : Int) : FileSystem :=
  { entries :=
      ((List.range current.length).map fun i => (current.take (i + 1), Entry.directory))
    current := current
    now := now }

/-! ### Following paths -/

/-- The location that names lead to from a location; each name but the last must lead to a
directory. -/
def follow (fs : FileSystem) (loc : Location) : List String → Except FileCause Location
  | [] => .ok loc
  | n :: ns =>
    match fs.entryAt? loc with
    | some .directory => follow fs (if n = ".." then loc.dropLast else loc ++ [n]) ns
    | some (.file ..) => .error .notDirectory
    | none => .error .notFound

/-- The location that a path leads to. -/
def locate (fs : FileSystem) (p : FilePath) : Except FileCause Location :=
  fs.follow (if p.isAbsolute then [] else fs.current) p.names

/-- What stands at the end of a path. -/
def entryAt (fs : FileSystem) (p : FilePath) : Except FileCause (Location × Option Entry) :=
  match fs.locate p with
  | .ok loc => .ok (loc, fs.entryAt? loc)
  | .error e => .error e

/-- What stands at the end of a path, if the path leads to something. -/
def at? (fs : FileSystem) (p : FilePath) : Option Entry :=
  match fs.entryAt p with
  | .ok (_, e) => e
  | .error _ => none

/-- Whether a path leads to something. -/
def pathExists (fs : FileSystem) (p : FilePath) : Bool := (fs.at? p).isSome

/-- Whether a path leads to a directory. -/
def isDirectory (fs : FileSystem) (p : FilePath) : Bool :=
  match fs.at? p with
  | some .directory => true
  | _ => false

/-- Whether a path leads to a file. -/
def isFile (fs : FileSystem) (p : FilePath) : Bool :=
  match fs.at? p with
  | some (.file ..) => true
  | _ => false

/-! ### Reading -/

/-- The bytes of a file. -/
def bytesOf (fs : FileSystem) (p : FilePath) : Except FileProblem ByteArray :=
  match fs.entryAt p with
  | .error cause => .error ⟨cause, p⟩
  | .ok (_, none) => .error ⟨.notFound, p⟩
  | .ok (_, some .directory) => .error ⟨.isDirectory, p⟩
  | .ok (_, some (.file bytes _)) => .ok bytes

/-- The name of a location that lies directly in another. -/
def nameIn? (directory loc : Location) : Option String :=
  match loc.getLast? with
  | some n => if loc.dropLast = directory then some n else none
  | none => none

/-- The names in a directory, in no order that matters. -/
def namesIn (fs : FileSystem) (directory : Location) : List String :=
  fs.entries.filterMap fun (l, _) => nameIn? directory l

/-! ### Changing -/

/-- The file system with a file's bytes replaced, or with a new file. -/
def write (fs : FileSystem) (p : FilePath) (bytes : ByteArray) : Except FileProblem FileSystem :=
  match fs.entryAt p with
  | .error cause => .error ⟨cause, p⟩
  | .ok (_, some .directory) => .error ⟨.isDirectory, p⟩
  | .ok (loc, _) => .ok (fs.withEntry loc (.file bytes fs.now))

/-- The file system with a new file where nothing stands yet. -/
def create (fs : FileSystem) (p : FilePath) (bytes : ByteArray) : Except FileProblem FileSystem :=
  match fs.entryAt p with
  | .error cause => .error ⟨cause, p⟩
  | .ok (_, some _) => .error ⟨.alreadyExists, p⟩
  | .ok (loc, none) => .ok (fs.withEntry loc (.file bytes fs.now))

/-- The file system with bytes added at the end of a file, or with a new file. -/
def append (fs : FileSystem) (p : FilePath) (bytes : ByteArray) : Except FileProblem FileSystem :=
  match fs.entryAt p with
  | .error cause => .error ⟨cause, p⟩
  | .ok (_, some .directory) => .error ⟨.isDirectory, p⟩
  | .ok (loc, some (.file old _)) => .ok (fs.withEntry loc (.file (old ++ bytes) fs.now))
  | .ok (loc, none) => .ok (fs.withEntry loc (.file bytes fs.now))

/-- The file system without a file. -/
def removeFile (fs : FileSystem) (p : FilePath) : Except FileProblem FileSystem :=
  match fs.entryAt p with
  | .error cause => .error ⟨cause, p⟩
  | .ok (_, none) => .error ⟨.notFound, p⟩
  | .ok (_, some .directory) => .error ⟨.isDirectory, p⟩
  | .ok (loc, some (.file ..)) =>
    .ok { fs with entries := fs.entries.filter fun m => m.1 != loc }

/-- The file system with one new directory. -/
def makeDirectory (fs : FileSystem) (p : FilePath) : Except FileProblem FileSystem :=
  match fs.entryAt p with
  | .error cause => .error ⟨cause, p⟩
  | .ok (_, some _) => .error ⟨.alreadyExists, p⟩
  | .ok (loc, none) => .ok (fs.withEntry loc .directory)

/-- One new directory; one that is there already is fine. -/
def ensureDirectory (fs : FileSystem) (p : FilePath) : Except FileProblem FileSystem :=
  match fs.makeDirectory p with
  | .ok fs => .ok fs
  | .error e => if fs.isDirectory p then .ok fs else .error e

/-- A directory and those on the way to it; what is there already stays.  The names are counted
down by `depth`. -/
def makeDirectoriesTo (fs : FileSystem) (p : FilePath) : Nat → Except FileProblem FileSystem
  | 0 => fs.ensureDirectory p
  | depth + 1 =>
    match fs.makeDirectory p with
    | .ok fs => .ok fs
    | .error ⟨.notFound, q⟩ =>
      if p.names = [] then .error ⟨.notFound, q⟩
      else
        match makeDirectoriesTo fs p.parent depth with
        | .ok fs => fs.ensureDirectory p
        | .error e => .error e
    | .error e => if fs.isDirectory p then .ok fs else .error e

/-- A directory and those on the way to it; what is there already stays. -/
def makeDirectories (fs : FileSystem) (p : FilePath) : Except FileProblem FileSystem :=
  makeDirectoriesTo fs p p.names.length

end FileSystem

end DesignRegistry
