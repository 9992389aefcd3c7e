/-
**Paths of files.**

A path is a root, which relative paths lack, and the names on the way.  Empty names and single dots
say nothing and are dropped when a path is read; two dots stay, since what they mean depends on the
directory that they follow.

Main definitions

* `FilePath.ofText`, `FilePath.text` — paths from texts and back;
* `FilePath.join`, `FilePath.name`, `FilePath.parent` — operations on names.
-/
import DesignRegistry.Text.Pieces

namespace DesignRegistry

/-- A path of a file or a directory. -/
structure FilePath where
  /-- The slashes in front: none for a relative path. -/
  root : String
  /-- The names on the way. -/
  names : List String
deriving DecidableEq, Repr, Inhabited

namespace FilePath

/-- The root of a path: exactly two slashes are a root of their own. -/
def rootOf : List Char → String
  | '/' :: '/' :: '/' :: _ => "/"
  | '/' :: '/' :: _ => "//"
  | '/' :: _ => "/"
  | _ => ""

/-- Whether a part between slashes is a name. -/
def isName (part : List Char) : Bool := part != [] && part != ['.']

/-- The path that a text denotes. -/
def ofText (s : String) : FilePath :=
  ⟨rootOf s.toList, ((pieces '/' s.toList).filter isName).map String.ofList⟩

/-- The text of a path; the path without names is a dot. -/
def text (p : FilePath) : String :=
  if p.root = "" ∧ p.names = [] then "." else p.root ++ joined "/" p.names

/-- Whether a path starts at the root. -/
def isAbsolute (p : FilePath) : Bool := p.root != ""

/-- A path taken from the directory that another one names. -/
def join (p q : FilePath) : FilePath := if q.isAbsolute then q else ⟨p.root, p.names ++ q.names⟩

/-- The path of a name in a directory. -/
def child (p : FilePath) (name : String) : FilePath := ⟨p.root, p.names ++ [name]⟩

/-- The last name of a path. -/
def name (p : FilePath) : String := p.names.getLast?.getD ""

/-- The directory that a path lies in. -/
def parent (p : FilePath) : FilePath := ⟨p.root, p.names.dropLast⟩

end FilePath

end DesignRegistry
