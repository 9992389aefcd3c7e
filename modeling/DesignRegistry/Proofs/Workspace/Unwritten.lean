/-
**A rollback that cannot be written.**

A rollback of a file computes the document first, taking a snapshot of the current one on the way, and
writes it afterwards.  Where a patch fails the snapshot is taken back.  Where the document cannot be
written it is not: the failure leaves the workspace as it was when the document had been computed, and
a snapshot that was taken stays in the store, where the next rollback finds it.

Main definitions:

* `FileRollback`, `FileRollback.run` — the three rollbacks of a file;
* `FileRollback.compute` — a rollback up to the point where the document is there;
* `Workspace.Took` — a snapshot was taken, or nothing was done.

Main results:

* `FileRollback.run_eq` — a rollback computes a document and then writes it;
* `FileRollback.compute_computed` — until then it takes a snapshot at most;
* `unwritten_rollback` — **a rollback that cannot be written leaves the snapshot that it took**.
-/
import DesignRegistry.Proofs.Storage.Document
import DesignRegistry.Proofs.Workspace.Abort

set_option relaxedAutoImplicit false
set_option autoImplicit false

namespace DesignRegistry

/-! ### Rollbacks of a file -/

/-- A rollback of a file, by what it goes back to. -/
inductive FileRollback where
  | patches (undo : FilePath)
  | snapshot (reference : String)
  | last

namespace FileRollback

variable (e : RollbackEngine) (o : RollbackOptions) (registry : FilePath)

/-- Runs a rollback. -/
def run : FileRollback → Action RollbackReport
  | patches undo => Action.rollBackFileByPatches e o registry undo
  | snapshot ref => Action.rollBackFileToSnapshot e o registry ref
  | last => Action.rollBackLast e o registry

/-- The report of a rollback by patches that is still to be written, and where it comes from. -/
def computeByPatches (undo : FilePath) : Action (RollbackReport × String) := do
  let doc ← Action.readRegistry registry
  let patches ← Action.readUndoFile undo
  let r ← Action.rollBackByPatches e o.createBackup doc patches
  return (r, undo.text)

/-- The registry's document, which is read only where a snapshot of it is wanted. -/
def currentDocument : Action Json :=
  if o.createBackup then Action.readRegistry registry else pure .null

/-- The report of a rollback to a snapshot that is still to be written, and where it comes from. -/
def computeFromSnapshot (ref : String) : Action (RollbackReport × String) := do
  let snapshot ← Action.readSnapshot ref
  let doc ← currentDocument o registry
  let r ← Action.rollBackToDocument e o.createBackup doc snapshot
  return (r, ref)

/-- The report of a rollback that is still to be written, and where it comes from. -/
def compute : FileRollback → Action (RollbackReport × String)
  | patches undo => computeByPatches e o registry undo
  | snapshot ref => computeFromSnapshot e o registry ref
  | last => do
    match ← Action.lastRollbackPoint e with
    | none => Action.fail (.rollback .nothingToRollBack)
    | some point => do
      Action.sayRollback e ("last rollback point: " ++ point.method.name ++ " " ++ point.path)
      match point with
      | .patch p => computeByPatches e o registry (.ofText p)
      | .backup ref => computeFromSnapshot e o registry ref

/-- Writes the document of a report. -/
def finish (computed : RollbackReport × String) : Action RollbackReport :=
  Action.finishRollback e o registry computed.2 computed.1

theorem byPatches_eq (undo : FilePath) : Action.rollBackFileByPatches e o registry undo =
    computeByPatches e o registry undo >>= finish e o registry := by
  rw [Action.rollBackFileByPatches, computeByPatches]
  simp only [Action.bind_assoc, Action.pure_bind]
  rfl

theorem fromSnapshot_eq (ref : String) : Action.rollBackFileToSnapshot e o registry ref =
    computeFromSnapshot e o registry ref >>= finish e o registry := by
  rw [Action.rollBackFileToSnapshot, computeFromSnapshot]
  simp only [Action.bind_assoc, Action.pure_bind]
  refine congrArg (Action.readSnapshot ref >>= ·) (funext fun snapshot => ?_)
  rw [currentDocument]
  cases o.createBackup <;> rfl

/-- A rollback computes a document and then writes it. -/
theorem run_eq (c : FileRollback) :
    c.run e o registry = c.compute e o registry >>= finish e o registry := by
  cases c with
  | patches undo => exact byPatches_eq e o registry undo
  | snapshot ref => exact fromSnapshot_eq e o registry ref
  | last =>
      rw [run, compute, Action.rollBackLast, Action.bind_assoc]
      refine congrArg (Action.lastRollbackPoint e >>= ·) (funext fun found => ?_)
      cases found with
      | none => rfl
      | some point =>
          cases point with
          | patch p =>
              simp only [Action.bind_assoc]
              exact congrArg _ (funext fun _ => byPatches_eq e o registry (.ofText p))
          | backup ref =>
              simp only [Action.bind_assoc]
              exact congrArg _ (funext fun _ => fromSnapshot_eq e o registry ref)

end FileRollback

/-! ### Snapshots that are taken -/

/-- A snapshot of a document was taken under the reference that is given; where none is given, nothing
was done. -/
def Workspace.Took (w w' : Workspace) (doc : Json) : Option String → Prop
  | none => w.Agrees w'
  | some ref => ∃ w₁, Action.saveSnapshot SnapshotKind.rollback.front doc w = (.ok ref, w₁) ∧
      w₁.Agrees w'

theorem Workspace.Took.of_agrees {w w' w'' : Workspace} {doc : Json} {backup : Option String}
    (h : w.Took w' doc backup) (h' : w'.Agrees w'') : w.Took w'' doc backup := by
  cases backup with
  | none => exact Workspace.Agrees.trans h h'
  | some ref =>
      obtain ⟨w₁, hsave, hagree⟩ := h
      exact ⟨w₁, hsave, hagree.trans h'⟩

theorem Workspace.Agrees.took {w w' w'' : Workspace} {doc : Json} {backup : Option String}
    (h : w.Agrees w') (h' : w'.Took w'' doc backup) : w.Took w'' doc backup := by
  cases backup with
  | none => exact Workspace.Agrees.trans h h'
  | some ref =>
      obtain ⟨w₁, hsave, hagree⟩ := h'
      obtain ⟨hsame, hagree'⟩ := Action.saveSnapshot_agrees SnapshotKind.rollback.front doc h
      rw [hsave] at hsame hagree'
      exact ⟨(Action.saveSnapshot SnapshotKind.rollback.front doc w).2, Prod.ext hsame.symm rfl,
        hagree'.trans hagree⟩

namespace Action

/-- A snapshot is taken where one is wanted, unless there is nothing to take. -/
theorem snapshotCurrent_took {e : RollbackEngine} {createBackup : Bool} {doc : Json}
    {w w' : Workspace} {backup : Option String}
    (h : snapshotCurrent e createBackup doc w = (.ok backup, w')) :
    w.Took w' doc backup ∧ (backup = none ↔ (createBackup = true → doc = .null)) := by
  by_cases hwanted : createBackup = true → doc = .null
  · rw [snapshotCurrent_none hwanted] at h
    obtain ⟨hbackup, rfl⟩ := Prod.mk.inj h
    obtain rfl := Except.ok.inj hbackup
    exact ⟨.refl w, iff_of_true rfl hwanted⟩
  · obtain ⟨rfl, hdoc⟩ := Classical.not_imp.1 hwanted
    rw [snapshotCurrent_some hdoc] at h
    obtain ⟨ref, w₁, hsave, h⟩ := bind_ok h
    obtain ⟨_, w₂, hsay, h⟩ := bind_ok h
    obtain ⟨hbackup, rfl⟩ := Prod.mk.inj h
    obtain rfl := Except.ok.inj hbackup
    exact ⟨⟨w₁, hsave, (quiet_sayRollback e _).prints.agrees hsay⟩,
      iff_of_false (by simp) hwanted⟩

theorem rollBackByPatches_took {e : RollbackEngine} {createBackup : Bool} {doc : Json}
    {patches : List Json} {w w' : Workspace} {r : RollbackReport}
    (h : rollBackByPatches e createBackup doc patches w = (.ok r, w')) :
    w.Took w' doc r.backup ∧ (r.backup = none ↔ (createBackup = true → doc = .null)) := by
  rw [rollBackByPatches] at h
  split at h
  · exact absurd (congrArg Prod.fst h) (by simp [fail])
  obtain ⟨backup, w₁, hsnapshot, h⟩ := bind_ok h
  obtain ⟨_, w₂, hlog, h⟩ := bind_ok h
  cases hundo : undoAll 0 patches doc with
  | error problem =>
      simp only [hundo] at h
      obtain ⟨_, _, -, h⟩ := bind_ok h
      exact absurd (congrArg Prod.fst h) (by simp [fail])
  | ok state =>
      simp only [hundo] at h
      obtain ⟨warnings, w₃, hadvised, h⟩ := bind_ok h
      obtain ⟨hreport, rfl⟩ := Prod.mk.inj h
      obtain rfl := Except.ok.inj hreport
      obtain ⟨htook, hnone⟩ := snapshotCurrent_took hsnapshot
      have hagree := ((quiet_sayAll _).prints.agrees hlog).trans
        ((prints_adviseOnRollback e _).agrees hadvised)
      exact ⟨htook.of_agrees hagree, hnone⟩

theorem rollBackToDocument_took {e : RollbackEngine} {createBackup : Bool} {doc snapshot : Json}
    {w w' : Workspace} {r : RollbackReport}
    (h : rollBackToDocument e createBackup doc snapshot w = (.ok r, w')) :
    w.Took w' doc r.backup ∧ (r.backup = none ↔ (createBackup = true → doc = .null)) := by
  obtain ⟨backup, w₁, hsnapshot, h⟩ := bind_ok h
  obtain ⟨warnings, w₂, hadvised, h⟩ := bind_ok h
  obtain ⟨hreport, rfl⟩ := Prod.mk.inj h
  obtain rfl := Except.ok.inj hreport
  obtain ⟨htook, hnone⟩ := snapshotCurrent_took hsnapshot
  exact ⟨htook.of_agrees ((prints_adviseOnRollback e _).agrees hadvised), hnone⟩

/-- The document of a registry is the one in its file. -/
theorem documentOf_of_readRegistry {p : FilePath} {doc : Json} {w w' : Workspace}
    (h : readRegistry p w = (.ok doc, w')) : w.files.documentOf p = .ok doc := by
  rw [readRegistry, bind_of_ok (show files w = (.ok w.files, w) from rfl)] at h
  split at h
  · cases hdoc : w.files.documentOf p with
    | ok doc' =>
        simp only [hdoc] at h
        obtain rfl := Except.ok.inj (congrArg Prod.fst h)
        rfl
    | error cause =>
        simp only [hdoc] at h
        split at h
        · exact absurd (congrArg Prod.fst h) (by simp [fail])
        · exact absurd (congrArg Prod.fst h) (by simp [fail])
  · exact absurd (congrArg Prod.fst h) (by simp [fail])

end Action

/-- What a rollback does until its document is there: it takes a snapshot of the registry's document
if one is wanted, unless that document is null. -/
structure FileRollback.Computed (o : RollbackOptions) (registry : FilePath) (w w' : Workspace)
    (r : RollbackReport) : Prop where
  took : ∃ doc, w.Took w' doc r.backup ∧
    (o.createBackup = true → w.files.documentOf registry = .ok doc)
  none_iff : r.backup = none ↔
    (o.createBackup = true → w.files.documentOf registry = .ok .null)

namespace FileRollback

variable {e : RollbackEngine} {o : RollbackOptions} {registry : FilePath} {w w' : Workspace}
  {r : RollbackReport} {origin : String}

theorem Computed.of_doc {doc : Json} (htook : w.Took w' doc r.backup)
    (hnone : r.backup = none ↔ (o.createBackup = true → doc = .null))
    (hdoc : o.createBackup = true → w.files.documentOf registry = .ok doc) :
    Computed o registry w w' r where
  took := ⟨doc, htook, hdoc⟩
  none_iff := by
    rw [hnone]
    refine forall_congr' fun hbackup => ?_
    rw [hdoc hbackup, Except.ok.injEq]

theorem computeByPatches_computed {undo : FilePath}
    (h : computeByPatches e o registry undo w = (.ok (r, origin), w')) :
    Computed o registry w w' r := by
  obtain ⟨doc, hregistry, h⟩ := (Action.reads_readRegistry registry).bind_ok h
  obtain ⟨patches, -, h⟩ := (Action.reads_readUndoFile undo).bind_ok h
  obtain ⟨r', w₁, hrollback, h⟩ := Action.bind_ok h
  obtain ⟨hreport, rfl⟩ := Prod.mk.inj h
  obtain ⟨rfl, -⟩ := Prod.mk.inj (Except.ok.inj hreport)
  obtain ⟨htook, hnone⟩ := Action.rollBackByPatches_took hrollback
  exact .of_doc htook hnone fun _ => Action.documentOf_of_readRegistry hregistry

theorem reads_currentDocument (o : RollbackOptions) (registry : FilePath) :
    Action.Reads (currentDocument o registry) := by
  rw [currentDocument]
  split
  · exact Action.reads_readRegistry registry
  · exact Action.reads_pure _

theorem documentOf_of_currentDocument {doc : Json}
    (h : currentDocument o registry w = (.ok doc, w')) (hbackup : o.createBackup = true) :
    w.files.documentOf registry = .ok doc := by
  rw [currentDocument, if_pos hbackup] at h
  exact Action.documentOf_of_readRegistry h

theorem computeFromSnapshot_computed {ref : String}
    (h : computeFromSnapshot e o registry ref w = (.ok (r, origin), w')) :
    Computed o registry w w' r := by
  obtain ⟨snapshot, -, h⟩ := (Action.reads_readSnapshot ref).bind_ok h
  obtain ⟨doc, hregistry, h⟩ := (reads_currentDocument o registry).bind_ok h
  obtain ⟨r', w₁, hrollback, h⟩ := Action.bind_ok h
  obtain ⟨hreport, rfl⟩ := Prod.mk.inj h
  obtain ⟨rfl, -⟩ := Prod.mk.inj (Except.ok.inj hreport)
  obtain ⟨htook, hnone⟩ := Action.rollBackToDocument_took hrollback
  exact .of_doc htook hnone (documentOf_of_currentDocument hregistry)

theorem Computed.of_agrees {w₀ : Workspace} (hagree : w₀.Agrees w) (h : Computed o registry w w' r) :
    Computed o registry w₀ w' r where
  took := by
    obtain ⟨doc, htook, hdoc⟩ := h.took
    exact ⟨doc, hagree.took htook, by rwa [← hagree.files]⟩
  none_iff := by
    rw [← hagree.files]
    exact h.none_iff

/-- Until its document is there, a rollback takes a snapshot at most. -/
theorem compute_computed {c : FileRollback}
    (h : c.compute e o registry w = (.ok (r, origin), w')) : Computed o registry w w' r := by
  cases c with
  | patches undo => exact computeByPatches_computed h
  | snapshot ref => exact computeFromSnapshot_computed h
  | last =>
      obtain ⟨found, -, h⟩ := (Action.reads_lastRollbackPoint e).bind_ok h
      cases found with
      | none => exact absurd (congrArg Prod.fst h) (by simp [Action.fail])
      | some point =>
          obtain ⟨_, w₁, hsay, h⟩ := Action.bind_ok h
          have hagree := (Action.quiet_sayRollback e _).prints.agrees hsay
          cases point with
          | patch p => exact (computeByPatches_computed h).of_agrees hagree
          | backup ref => exact (computeFromSnapshot_computed h).of_agrees hagree

end FileRollback

/-! ### Listings -/

/-- What is listed, and the point that the next rollback returns to, depend on nothing printed. -/
theorem Workspace.Agrees.listing {e : RollbackEngine} {w w' : Workspace} (h : w.Agrees w') :
    (Action.listSnapshots w').1 = (Action.listSnapshots w).1 ∧
      (Action.lastRollbackPoint e w').1 = (Action.lastRollbackPoint e w).1 := by
  have hlisting : (Action.listSnapshots w').1 = (Action.listSnapshots w).1 := by
    rw [Action.listSnapshots, Action.listSnapshots, h.files, h.store]
    cases w.store <;> rfl
  obtain ⟨ss, hlist⟩ := Action.listSnapshots_ok w
  refine ⟨hlisting, ?_⟩
  rw [Action.lastRollbackPoint_fst hlist, Action.lastRollbackPoint_fst (hlisting.trans hlist),
    h.files]

/-- A snapshot that was taken is listed, and was not listed before. -/
theorem Workspace.Took.listing {w w' : Workspace} {doc : Json} {ref : String} (hw : w.Sound)
    (h : w.Took w' doc (some ref)) :
    ∃ before after, (Action.listSnapshots w).1 = .ok before ∧
      (Action.listSnapshots w').1 = .ok after ∧ (∀ s ∈ before, s.path ≠ ref) ∧
      ∃ s ∈ after, s.path = ref := by
  obtain ⟨w₁, hsave, hagree⟩ := h
  rcases Action.saveSnapshot_eq_ok hsave with ⟨m, hstore, -, rfl, hsaved⟩ |
    ⟨d, fs, name, hstore, hsaved, hmake, hname, rfl, hcreate⟩
  · refine ⟨m.list, (m.save SnapshotKind.rollback.front w.clock.read.1.timestamp doc).2.list,
      by simp only [Action.listSnapshots, hstore],
      by simp only [Action.listSnapshots, hagree.store, hsaved], ?_, ?_⟩
    · intro s hs
      obtain ⟨⟨item, i⟩, hitem, rfl⟩ := List.mem_map.1 (List.mem_reverse.1 hs)
      exact (hw.memory m hstore).ne_next _ _ item (List.fst_mem_of_mem_zipIdx hitem)
    · rw [m.list_save]
      exact ⟨_, List.mem_cons_self, rfl⟩
  · refine ⟨w.files.snapshots d, w'.files.snapshots d, by simp only [Action.listSnapshots, hstore],
      by simp only [Action.listSnapshots, hagree.store, hsaved], ?_, ?_⟩
    · -- directories that are made on the way hide no file
      intro s hs hpath
      obtain ⟨other, bytes, time, hending, hat, rfl⟩ := FileSystem.exists_of_mem_snapshots hs
      obtain rfl := FilePath.text_child_injective hpath
      have hat' := (FileSystem.gains_makeDirectories hmake).keeps.at? List.not_mem_nil hat
      exact FileSystem.path_ne_of_create hcreate _ (FileSystem.mem_snapshots hname hat') rfl
    · rw [hagree.files]
      exact ⟨_, FileSystem.mem_snapshots hname (FileSystem.at?_of_create hcreate), rfl⟩

/-! ### Rollbacks that cannot be written -/

/-- A rollback whose document cannot be written fails for the file, and leaves the workspace as it was
when the document was there. -/
theorem FileRollback.run_of_unwritten {c : FileRollback} {e : RollbackEngine} {o : RollbackOptions}
    {registry : FilePath} {w w' : Workspace} {r : RollbackReport} {origin : String}
    {problem : FileProblem} (hcompute : c.compute e o registry w = (.ok (r, origin), w'))
    (hwrite : w'.files.writeDocument (o.target.getD registry) r.document = .error problem) :
    c.run e o registry w = (.error (.file problem), w') := by
  have hfinish : Action.writeDocument (o.target.getD registry) r.document w' =
      (.error (.file problem), w') := by
    rw [Action.writeDocument, Action.changeFiles, hwrite]
  rw [run_eq, Action.bind_of_ok hcompute]
  exact Action.bind_of_error hfinish

/-- **A rollback that cannot be written leaves the snapshot that it took.**  It fails for the file, and
leaves the workspace as it was when the document was there.  If it took no snapshot, because none was
wanted or there was no document to take, the listing and the point that the next rollback returns to
are what they were; the snapshot that it took otherwise is listed from then on. -/
theorem unwritten_rollback (c : FileRollback) (e : RollbackEngine) (o : RollbackOptions)
    (registry : FilePath) (w w' : Workspace) (hw : w.Sound) (r : RollbackReport) (origin : String)
    (problem : FileProblem) (hcompute : c.compute e o registry w = (.ok (r, origin), w'))
    (hwrite : w'.files.writeDocument (o.target.getD registry) r.document = .error problem) :
    c.run e o registry w = (.error (.file problem), w') ∧
      (r.backup = none ↔ (o.createBackup = true → w.files.documentOf registry = .ok .null)) ∧
      (r.backup = none → (Action.listSnapshots w').1 = (Action.listSnapshots w).1 ∧
        (Action.lastRollbackPoint e w').1 = (Action.lastRollbackPoint e w).1) ∧
      ∀ ref, r.backup = some ref → ∃ before after, (Action.listSnapshots w).1 = .ok before ∧
        (Action.listSnapshots w').1 = .ok after ∧ (∀ s ∈ before, s.path ≠ ref) ∧
        ∃ s ∈ after, s.path = ref := by
  have hcomputed := FileRollback.compute_computed hcompute
  obtain ⟨doc, htook, -⟩ := hcomputed.took
  refine ⟨FileRollback.run_of_unwritten hcompute hwrite, hcomputed.none_iff, ?_, ?_⟩
  · intro hnone
    rw [hnone] at htook
    exact Workspace.Agrees.listing htook
  · intro ref href
    rw [href] at htook
    exact htook.listing hw

/-- A registry, an undo file for it, and a directory where its document is to be written. -/
def occupiedWorkspace : Workspace where
  files := ⟨[(["out"], .directory), (["reg.json"], .file "\x7b\"a\": 1\x7d".toUTF8 0),
    (["undo.json"], .file
      "[\x7b\"op\": \"add\", \"path\": \"/b\", \"value\": 2\x7d]".toUTF8 0)], [], 0⟩
  clock := ⟨⟨0⟩, 0⟩
  store := .memory {}

theorem sound_occupiedWorkspace : occupiedWorkspace.Sound where
  files := FileSystem.sound_of_entries rfl <|
    List.forall_mem_cons.2 ⟨rfl, List.forall_mem_cons.2 ⟨rfl, List.forall_mem_cons.2 ⟨rfl, List.forall_mem_nil _⟩⟩⟩
  memory := by
    intro m hm
    obtain rfl := SnapshotStore.memory.inj hm
    exact fun item hitem => absurd hitem List.not_mem_nil
  directory := fun d hd => absurd hd (by simp [occupiedWorkspace])

theorem documentOf_occupied :
    occupiedWorkspace.files.documentOf ⟨"", ["reg.json"]⟩ = .ok (.obj [("a", .int 1)]) :=
  FileSystem.documentOf_of_text rfl (by decide) (Json.eq_ok_of_same (by decide +kernel))

theorem loadPatches_occupied : (Action.loadPatches ⟨"", ["undo.json"]⟩ occupiedWorkspace).1 =
    .ok [(Operation.add "/b" (.int 2)).toJson] := by
  have hdoc : occupiedWorkspace.files.documentOf ⟨"", ["undo.json"]⟩ =
      .ok (.arr [(Operation.add "/b" (.int 2)).toJson]) :=
    FileSystem.documentOf_of_text rfl (by decide) (Json.eq_ok_of_same (by decide +kernel))
  rw [Action.loadPatches, Action.bind_of_ok (show Action.files occupiedWorkspace = _ from rfl),
    if_pos (FileSystem.pathExists_of_documentOf hdoc)]
  simp only [hdoc]
  rfl

/-- The rollback by the undo file has its document, and a snapshot, before it is to be written. -/
theorem compute_occupied :
    ∃ r w' ref, FileRollback.compute {} { target := some ⟨"", ["out"]⟩ } ⟨"", ["reg.json"]⟩
        (.patches ⟨"", ["undo.json"]⟩) occupiedWorkspace = (.ok (r, "undo.json"), w') ∧
      r.backup = some ref ∧ w'.files = occupiedWorkspace.files ∧
      (Action.listSnapshots w').1 ≠ .ok [] ∧
      (Action.lastRollbackPoint {} w').1 = .ok (some (.backup ref)) := by
  simp only [FileRollback.compute, FileRollback.computeByPatches,
    Action.bind_of_ok (Action.readRegistry_eq_ok documentOf_occupied),
    Action.bind_of_ok (Action.readUndoFile_eq_ok loadPatches_occupied)]
  exact ⟨_, _, _, rfl, rfl, rfl, fun h => absurd (Except.ok.inj h) (List.cons_ne_nil _ _), rfl⟩

/-- A directory stands where the document is to be written. -/
theorem writeDocument_occupied (doc : Json) :
    occupiedWorkspace.files.writeDocument ⟨"", ["out"]⟩ doc =
      .error ⟨.isDirectory, ⟨"", ["out"]⟩⟩ := rfl

/-- The snapshot stays that was taken before the rollback failed for a directory. -/
theorem unwritten_rollback_occupied :
    ∃ w' ref after, FileRollback.run {} { target := some ⟨"", ["out"]⟩ } ⟨"", ["reg.json"]⟩
        (.patches ⟨"", ["undo.json"]⟩) occupiedWorkspace =
        (.error (.file ⟨.isDirectory, ⟨"", ["out"]⟩⟩), w') ∧
      (Action.listSnapshots w').1 = .ok after ∧ ∃ s ∈ after, s.path = ref := by
  obtain ⟨r, w', ref, hcompute, hbackup, hfiles, -, -⟩ := compute_occupied
  have hwrite : w'.files.writeDocument ⟨"", ["out"]⟩ r.document =
      .error ⟨.isDirectory, ⟨"", ["out"]⟩⟩ := by
    rw [hfiles]
    exact writeDocument_occupied r.document
  obtain ⟨hrun, -, -, hlisted⟩ := unwritten_rollback (.patches ⟨"", ["undo.json"]⟩) {}
    { target := some ⟨"", ["out"]⟩ } ⟨"", ["reg.json"]⟩ occupiedWorkspace w'
    sound_occupiedWorkspace r "undo.json" _ hcompute hwrite
  obtain ⟨-, after, -, hafter, -, hin⟩ := hlisted ref hbackup
  exact ⟨w', ref, after, hrun, hafter, hin⟩

/-- A rollback that fails for a directory adds a snapshot to an empty listing, and the next rollback
returns to it instead of the undo file. -/
theorem unwritten_rollback_lists_more :
    (Action.listSnapshots occupiedWorkspace).1 = .ok [] ∧
      (Action.lastRollbackPoint {} occupiedWorkspace).1 = .ok (some (.patch "/undo.json")) ∧
      ∃ w' ref, FileRollback.run {} { target := some ⟨"", ["out"]⟩ } ⟨"", ["reg.json"]⟩
          (.patches ⟨"", ["undo.json"]⟩) occupiedWorkspace =
          (.error (.file ⟨.isDirectory, ⟨"", ["out"]⟩⟩), w') ∧
        (Action.listSnapshots w').1 ≠ .ok [] ∧
        (Action.lastRollbackPoint {} w').1 = .ok (some (.backup ref)) := by
  obtain ⟨r, w', ref, hcompute, -, hfiles, hlisting, hpoint⟩ := compute_occupied
  refine ⟨rfl, rfl, w', ref, FileRollback.run_of_unwritten hcompute ?_, hlisting, hpoint⟩
  rw [hfiles]
  exact writeDocument_occupied r.document

end DesignRegistry
