/-
**Documents in files.**

A document is read from a file as UTF-8 and written in the layout of files; directories on the way
to it are made.

Main definitions

* `ReadFailure` — why a file holds no document;
* `FileSystem.textOf`, `FileSystem.documentOf` — the text and the document of a file;
* `FileSystem.writeText`, `FileSystem.writeDocument`, `FileSystem.appendLine` — changes.
-/
import DesignRegistry.Json.Reader
import DesignRegistry.Storage.FileSystem

namespace DesignRegistry

/-- Why a file holds no document. -/
inductive ReadFailure where
  | file (problem : FileProblem)
  | bytes (fault : DecodeFault)
  | json (error : Json.ReadError)
deriving DecidableEq

namespace ReadFailure

/-- The wording of a failure. -/
def message : ReadFailure → String
  | .file p => p.message
  | .bytes f => f.message
  | .json e => e.message

/-- Whether the file was read and its content is no document. -/
def isMalformed : ReadFailure → Bool
  | .file _ => false
  | .bytes _ => true
  | .json e => e.hasPosition

/-- Whether the file could not be read, or its content is no document. -/
def isExpected (f : ReadFailure) : Bool :=
  match f with
  | .file _ => true
  | f => f.isMalformed

end ReadFailure

namespace FileSystem

/-- The text of a file. -/
def textOf (fs : FileSystem) (p : FilePath) : Except ReadFailure String :=
  match fs.bytesOf p with
  | .error e => .error (.file e)
  | .ok bytes =>
    match decodeText bytes with
    | .error e => .error (.bytes e)
    | .ok s => .ok (withPlainLineEnds s)

/-- The text of a file, what is no text replaced. -/
def lossyTextOf (fs : FileSystem) (p : FilePath) : Except FileProblem String :=
  match fs.bytesOf p with
  | .error e => .error e
  | .ok bytes => .ok (withPlainLineEnds (decodeLossy bytes))

/-- The document of a file. -/
def documentOf (fs : FileSystem) (p : FilePath) : Except ReadFailure Json :=
  match fs.textOf p with
  | .error e => .error e
  | .ok s =>
    match Json.parse s with
    | .error e => .error (.json e)
    | .ok v => .ok v

/-- The file system with a text in a file, the directories on the way made. -/
def writeText (fs : FileSystem) (p : FilePath) (text : String) : Except FileProblem FileSystem :=
  match fs.makeDirectories p.parent with
  | .error e => .error e
  | .ok fs => fs.write p text.toUTF8

/-- The file system with a document in a file. -/
def writeDocument (fs : FileSystem) (p : FilePath) (doc : Json) : Except FileProblem FileSystem :=
  fs.writeText p doc.pretty

/-- The file system with a document on a line of its own at the end of a file. -/
def appendLine (fs : FileSystem) (p : FilePath) (doc : Json) : Except FileProblem FileSystem :=
  match fs.makeDirectories p.parent with
  | .error e => .error e
  | .ok fs => fs.append p (doc.sortKeys.render .compact ++ "\n").toUTF8

end FileSystem

end DesignRegistry
