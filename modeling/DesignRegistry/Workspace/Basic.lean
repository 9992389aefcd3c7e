/-
**Workspaces.**

A workspace is all that an action can read and change: files, the clock, the snapshots, and what was
printed so far.  An action gives a result or a failure; what it changed before a failure stays
changed.

Main definitions

* `Workspace` — the state;
* `Action` — what runs on it;
* `Action.say`, `Action.print` — lines for the log and for the output;
* `Action.saveSnapshot`, `Action.loadSnapshot`, `Action.listSnapshots`, `Action.pruneSnapshots`,
  `Action.discardSnapshot` — work with the store of snapshots;
* `Action.readDocument`, `Action.writeDocument` — work with files.
-/
import DesignRegistry.Failure
import DesignRegistry.Storage.Snapshot

namespace DesignRegistry

/-- All that an action can read and change. -/
structure Workspace where
  /-- The files. -/
  files : FileSystem
  /-- The clock. -/
  clock : Clock
  /-- The snapshots. -/
  store : SnapshotStore
  /-- What was printed as output. -/
  output : String := ""
  /-- What was printed as log. -/
  log : String := ""

/-- What runs on a workspace: a result or a failure, and the workspace after it. -/
def Action (α : Type) : Type := Workspace → Except Failure α × Workspace

namespace Action

/-! ### Sequencing -/

/-- An action that changes nothing. -/
def give {α : Type} (a : α) : Action α := fun w => (.ok a, w)

/-- An action that fails. -/
def fail {α : Type} (f : Failure) : Action α := fun w => (.error f, w)

/-- An action, and then one that depends on its result; a failure ends the sequence. -/
def andThen {α β : Type} (x : Action α) (next : α → Action β) : Action β := fun w =>
  match x w with
  | (.ok a, w) => next a w
  | (.error f, w) => (.error f, w)

instance : Monad Action where
  pure := give
  bind := andThen

/-- The result of a computation that may fail. -/
def ofExcept {ε α : Type} (cause : ε → Failure) : Except ε α → Action α
  | .ok a => give a
  | .error e => fail (cause e)

/-- The workspace. -/
def current : Action Workspace := fun w => (.ok w, w)

/-- Runs an action to the end and gives its outcome, a failure included. -/
def outcome {α : Type} (x : Action α) : Action (Except Failure α) := fun w =>
  match x w with
  | (r, w) => (.ok r, w)

/-- Runs actions one after the other and gives their results. -/
def inTurn {α β : Type} (act : α → Action β) : List α → Action (List β)
  | [] => give []
  | x :: xs => do
    let b ← act x
    return b :: (← inTurn act xs)

/-! ### Printing -/

/-- Adds a text to the output. -/
def printText (s : String) : Action Unit := fun w => (.ok (), { w with output := w.output ++ s })

/-- Adds a line to the output. -/
def print (line : String) : Action Unit := printText (line ++ "\n")

/-- Adds a line to the log. -/
def say (line : String) : Action Unit := fun w => (.ok (), { w with log := w.log ++ line ++ "\n" })

/-- Adds lines to the output. -/
def printAll : List String → Action Unit
  | [] => give ()
  | l :: ls => do
    print l
    printAll ls

/-- Adds lines to the log. -/
def sayAll : List String → Action Unit
  | [] => give ()
  | l :: ls => do
    say l
    sayAll ls

/-! ### Time -/

/-- A reading of the clock. -/
def readClock : Action Moment := fun w =>
  let (t, c) := w.clock.read
  (.ok t, { w with clock := c })

/-! ### Files -/

/-- A change of the files. -/
def changeFiles (change : FileSystem → Except FileProblem FileSystem) : Action Unit := fun w =>
  match change w.files with
  | .ok fs => (.ok (), { w with files := fs })
  | .error e => (.error (.file e), w)

/-- The files. -/
def files : Action FileSystem := fun w => (.ok w.files, w)

/-- The document of a file. -/
def readDocument (p : FilePath) : Action Json := fun w =>
  match w.files.documentOf p with
  | .ok v => (.ok v, w)
  | .error e => (.error (.read e), w)

/-- Puts a document into a file. -/
def writeDocument (p : FilePath) (doc : Json) : Action Unit :=
  changeFiles (·.writeDocument p doc)

/-! ### Snapshots -/

/-- Saves a snapshot; its reference.  The directory is made before the clock is read. -/
def saveSnapshot (front : String) (doc : Json) : Action String := fun w =>
  match w.store with
  | .memory m =>
    let (t, clock) := w.clock.read
    let (ref, m) := m.save front t.timestamp doc
    (.ok ref, { w with clock, store := .memory m })
  | .directory dir =>
    match w.files.makeDirectories dir with
    | .error e => (.error (.file e), w)
    | .ok fs =>
      let (t, clock) := w.clock.read
      match fs.addSnapshot dir front t.timestamp doc with
      | .ok (p, fs) => (.ok p.text, { w with clock, files := fs })
      | .error e => (.error (.file e), { w with clock, files := fs })

/-- The document of a snapshot. -/
def loadSnapshot (ref : String) : Action Json := fun w =>
  match w.store with
  | .memory m =>
    match m.load? ref with
    | some doc => (.ok doc, w)
    | none => (.error (.snapshot (.missing ref)), w)
  | .directory _ =>
    match w.files.documentOf (.ofText ref) with
    | .ok doc => (.ok doc, w)
    | .error e => (.error (.snapshot (.unreadable e)), w)

/-- The snapshots, the newest first. -/
def listSnapshots : Action (List SnapshotEntry) := fun w =>
  match w.store with
  | .memory m => (.ok m.list, w)
  | .directory dir => (.ok (w.files.snapshots dir), w)

/-- Removes all but the newest snapshots. -/
def pruneSnapshots (keep : Int) : Action (List Deletion) := fun w =>
  if keep < 0 then (.error (.negativeKeep "keep_count"), w)
  else
    match w.store with
    | .memory m =>
      let (ds, m) := m.prune keep.toNat
      (.ok ds, { w with store := .memory m })
    | .directory dir =>
      let (ds, fs) := w.files.pruneSnapshots dir keep.toNat
      (.ok ds, { w with files := fs })

/-- Removes a file, telling how it went. -/
def tryDelete (p : FilePath) : Action Deletion := fun w =>
  let (d, fs) := w.files.tryDelete p
  (.ok d, { w with files := fs })

/-- Removes a snapshot, telling how it went. -/
def discardSnapshot (ref : String) : Action Deletion := fun w =>
  match w.store with
  | .memory m =>
    let (d, m) := m.discard ref
    (.ok d, { w with store := .memory m })
  | .directory _ => tryDelete (.ofText ref) w

end Action

end DesignRegistry
