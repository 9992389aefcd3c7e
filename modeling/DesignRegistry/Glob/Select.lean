/-
**Files selected by a pattern.**

A pattern for files is a path whose names may be patterns.  Two stars alone stand for a directory at
any depth, the starting one included.  Files are listed in the order of the names on the way to
them.

Main definitions

* `Glob.Selector`, `Glob.selectors` — the names of a pattern for files;
* `Glob.selected` — what a pattern selects from a directory;
* `Glob.collect` — the files that a pattern selects, without those that others exclude.
-/
import DesignRegistry.Failure
import DesignRegistry.Glob.Pattern

namespace DesignRegistry

namespace Glob

/-! ### Selectors -/

/-- A name of a pattern for files. -/
inductive Selector where
  /-- The directory itself and all directories below it. -/
  | anyDepth
  | pattern (text : List Char)
  | name (text : String)

/-- Whether a name is a pattern. -/
def isPattern (name : String) : Bool :=
  name.toList.any fun c => c == '*' || c == '?' || c == '['

/-- The selector that a name denotes; two stars must stand alone. -/
def selector (name : String) : Except ScanProblem Selector :=
  if name = "**" then .ok .anyDepth
  else if Text.contains name "**" then .error .partialDepth
  else if isPattern name then .ok (.pattern name.toList)
  else .ok (.name name)

/-- The selectors that names denote. -/
def selectorsOf : List String → Except ScanProblem (List Selector)
  | [] => .ok []
  | n :: ns => do return (← selector n) :: (← selectorsOf ns)

/-- The selectors of a pattern for files, and whether it asks for directories. -/
def selectors (pattern : String) : Except ScanProblem (List Selector × Bool) :=
  if pattern = "" then .error (.emptyPattern pattern)
  else
    let p := FilePath.ofText pattern
    if p.isAbsolute then .error .absolutePattern
    else if p.names = [] then
      .error (if Text.hasBack pattern "/" then .noNamesButSlash else .noNames)
    else do return (← selectorsOf p.names, Text.hasBack pattern "/")

/-! ### Selection -/

/-- The names from a location to another below it. -/
def below? : Location → Location → Option (List String)
  | [], names => some names
  | _ :: _, [] => none
  | a :: as, b :: bs => if a = b then below? as bs else none

/-- A directory and all directories below it. -/
def directoriesFrom (fs : FileSystem) (p : FilePath) : List FilePath :=
  match fs.locate p with
  | .error _ => []
  | .ok loc =>
    p :: fs.entries.filterMap fun (l, e) =>
      match e, below? loc l with
      | .directory, some (n :: ns) => some ⟨p.root, p.names ++ n :: ns⟩
      | _, _ => none

/-- The names in a directory. -/
def namesOf (fs : FileSystem) (p : FilePath) : List String :=
  match fs.locate p with
  | .error _ => []
  | .ok loc => fs.namesIn loc

/-- What selectors select from a directory. -/
def selected (fs : FileSystem) : List Selector → FilePath → List FilePath
  | [], p => [p]
  | .anyDepth :: rest, p => (directoriesFrom fs p).flatMap (selected fs rest)
  | .pattern text :: rest, p =>
    ((namesOf fs p).filter fun n => Glob.matches text n.toList).flatMap fun n =>
      if rest.isEmpty || fs.isDirectory (p.child n) then selected fs rest (p.child n) else []
  | .name n :: rest, p =>
    if rest.isEmpty || fs.isDirectory (p.child n) then selected fs rest (p.child n) else []

/-! ### Collection -/

/-- The order of names, compared one after the other. -/
def namesBefore : List String → List String → Bool
  | [], _ => true
  | _ :: _, [] => false
  | a :: as, b :: bs => if a = b then namesBefore as bs else decide (a < b)

/-- The files that one pattern selects from a directory. -/
def filesOf (fs : FileSystem) (source : FilePath) (pattern : String) :
    Except ScanProblem (List FilePath) := do
  let (parts, forDirectories) ← selectors pattern
  return if forDirectories || !fs.isDirectory source then []
    else (selected fs parts source).filter fs.isFile

/-- The files that patterns select from a directory. -/
def filesOfAll (fs : FileSystem) (source : FilePath) :
    List String → Except ScanProblem (List FilePath)
  | [] => .ok []
  | p :: ps => do return (← filesOf fs source p) ++ (← filesOfAll fs source ps)

/-- The path of a file from a directory that it was selected from. -/
def relativeTo (source p : FilePath) : String :=
  FilePath.text ⟨"", p.names.drop source.names.length⟩

/-- The files that a pattern with alternatives selects, without those that others exclude; a file is
taken as it is. -/
def collect (fs : FileSystem) (source : FilePath) (pattern : String) (ignored : List String) :
    Except ScanProblem (List FilePath) :=
  if fs.isFile source then .ok [source]
  else do
    let found ← filesOfAll fs source (expandBraces pattern)
    return ((found.filter fun p => !matchesAny (relativeTo source p) ignored).eraseDups).mergeSort
      fun a b => namesBefore a.names b.names

end Glob

end DesignRegistry
