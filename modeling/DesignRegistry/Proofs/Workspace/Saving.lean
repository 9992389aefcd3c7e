/-
**Saving is exact and replaces nothing.**

A snapshot in a directory is saved under the first free name of its time, so it can be saved whatever
stands in the directory already, and nothing is replaced by it.  What was saved is read back as it was,
and the listing has one more line.

Three things stand in the way.  A front with a slash in it is no part of a name: it leads into another
directory, which nobody makes.  An integer with more digits than the reader takes is never read back.
And a directory that climbs out of a missing one is not there before the missing one is made, so that all
of its snapshots are listed only then.

Main definitions:

* `Nameable` — what can be part of a file's name;
* `Workspace.Saves` — a snapshot has come, and nothing else has changed.

Main results:

* `saveSnapshot_exact` — **a document is saved next to the others and read back as it was**;
* `saveSnapshot_inexact` — a front with a slash, an integer that is too long, and a directory that climbs.
-/
import DesignRegistry.Proofs.Storage.Document
import DesignRegistry.Proofs.Storage.FreeName
import DesignRegistry.Proofs.Storage.Listing
import DesignRegistry.Proofs.Workspace.Abort

set_option relaxedAutoImplicit false
set_option autoImplicit false

namespace DesignRegistry

/-- What can be part of a file's name. -/
structure Nameable (front : String) : Prop where
  uncut : '/' ∉ front.toList
  unended : '\x00' ∉ front.toList

/-! ### Directories -/

namespace Action

variable {w : Workspace} {directory : FilePath}

/-- A directory stays the store. -/
theorem store_saveSnapshot (front : String) (doc : Json) (hstore : w.store = .directory directory) :
    (saveSnapshot front doc w).2.store = .directory directory := by
  simp only [saveSnapshot, hstore]
  cases w.files.makeDirectories directory with
  | error problem => exact hstore
  | ok fs =>
      simp only
      cases fs.addSnapshot directory front w.clock.read.1.timestamp doc with
      | error problem => rfl
      | ok saved => rfl

/-- What is loaded from a directory is read from a file. -/
theorem legible_of_loadSnapshot {ref : String} {doc : Json} (hstore : w.store = .directory directory)
    (h : (loadSnapshot ref w).1 = .ok doc) : doc.Legible := by
  simp only [loadSnapshot, hstore] at h
  split at h
  · next found hread => exact Except.ok.inj h ▸ FileSystem.legible_of_documentOf hread
  · exact absurd h (by simp)

end Action

/-! ### Saving -/

/-- A snapshot has come under a reference that led to nothing; nothing else has changed. -/
structure Workspace.Saves (w w' : Workspace) (directory : FilePath) (doc : Json) (ref : String) :
    Prop where
  /-- The reference led to nothing. -/
  fresh : w.files.pathExists (.ofText ref) = false
  /-- Nothing stood at its place. -/
  vacant : w.files.entryAt? (w.files.place (.ofText ref)) = none
  /-- Everywhere else the same files stand, with the same bytes and times. -/
  others : ∀ loc bytes time, loc ≠ w.files.place (.ofText ref) →
    (w'.files.entryAt? loc = some (.file bytes time) ↔ w.files.entryAt? loc = some (.file bytes time))
  /-- A path that led to a file leads to the same bytes. -/
  bytes : ∀ p bytes, w.files.bytesOf p = .ok bytes → w'.files.bytesOf p = .ok bytes
  /-- The listing has one more line, unless the directory climbs out of a missing one. -/
  listing : w.files.Anchored directory → ∃ newer entry older, entry.path = ref ∧
    (Action.listSnapshots w).1 = .ok (newer ++ older) ∧
    (Action.listSnapshots w').1 = .ok (newer ++ entry :: older)
  /-- The document is read back as it was. -/
  loaded : (Action.loadSnapshot ref w').1 = .ok doc

/-- **A document is saved next to the others and read back as it was.**  Wherever the directory is there
or can be made, whatever stands in it and whatever the clock shows. -/
theorem saveSnapshot_exact (w : Workspace) (directory : FilePath) (front : String) (doc : Json)
    (hw : w.Sound) (hstore : w.store = .directory directory)
    (hroom : w.files.isDirectory directory = true ∨
      ∃ fs, w.files.makeDirectories directory = .ok fs)
    (hfront : Nameable front) (hdoc : doc.Legible) :
    ∃ ref w', Action.saveSnapshot front doc w = (.ok ref, w') ∧ w.Saves w' directory doc ref := by
  obtain ⟨fs, hmake⟩ : ∃ fs, w.files.makeDirectories directory = .ok fs :=
    hroom.elim (fun hdir => ⟨_, FileSystem.makeDirectories_of_isDirectory hdir⟩) id
  -- making the directory adds directories only, and then one file comes where nothing stood
  have hgains := FileSystem.gains_makeDirectories hmake
  have hsound := hw.files.makeDirectories hmake
  obtain ⟨loc, hdir⟩ :=
    FileSystem.isDirectory_iff.1 (FileSystem.isDirectory_of_makeDirectories hmake)
  obtain ⟨name, fs', hname, hfree, hcreate, hadd⟩ :=
    FileSystem.create_freePath hfront.uncut hdir w.clock.read.1 doc
  refine ⟨(directory.child name).text, { w with clock := w.clock.read.2, files := fs' }, ?_, ?_⟩
  · simp only [Action.saveSnapshot, hstore, hmake, hadd]
  · have hpath : FilePath.ofText (directory.child name).text = directory.child name :=
      FilePath.ofText_text ((hw.directory directory hstore).child hname.plain)
    obtain ⟨l, hl, habsent, hfs'⟩ := FileSystem.create_eq_ok hcreate
    have hplace : l = w.files.place (directory.child name) :=
      (FileSystem.locate_place hl).trans (hgains.keeps.place _)
    have hvacant : w.files.entryAt? l = none := by
      rcases hgains.entryAt? l with hsame | ⟨hnone, -⟩
      · rwa [← hsame]
      · exact hnone
    refine ⟨?_, ?_, ?_, ?_, ?_, ?_⟩
    · rw [hpath, Bool.eq_false_iff]
      exact fun hexists => absurd (hgains.keeps.pathExists hexists) (by simp [hfree])
    · rwa [hpath, ← hplace]
    · intro loc bytes time hloc
      rw [hpath, ← hplace] at hloc
      dsimp only
      rw [hfs', FileSystem.entryAt?_withEntry_of_ne fs hloc]
      exact hgains.file_iff loc bytes time
    · intro p bytes hbytes
      have hkeeps := hgains.keeps.trans (FileSystem.keeps_create hcreate)
      exact hkeeps.bytesOf List.not_mem_nil hbytes
    · intro hanchored
      obtain ⟨newer, older, hbefore, hafter⟩ := FileSystem.snapshots_create hname hcreate
      refine ⟨newer, ⟨(directory.child name).text, name, fs.now, doc.pretty.toUTF8.size⟩, older, rfl,
        ?_, ?_⟩
      · simp only [Action.listSnapshots, hstore]
        rw [← hbefore, hgains.snapshots hw.files hsound hanchored]
      · simp only [Action.listSnapshots, hstore, hafter]
    · have hread := FileSystem.documentOf_of_create hdoc hcreate
      simp only [Action.loadSnapshot, hstore, hpath, hread]

/-- A snapshot of the same time in the directory of snapshots. -/
def takenWorkspace : Workspace where
  files := ⟨[(["b"], .directory),
    (["b", "dcp-backup-1970-01-01T00-00-00-000Z.json"], .file "\x7b\x7d".toUTF8 0)], [], 0⟩
  clock := ⟨⟨0⟩, 0⟩
  store := .directory ⟨"", ["b"]⟩

theorem sound_takenWorkspace : takenWorkspace.Sound where
  files := FileSystem.sound_of_entries rfl <|
    List.forall_mem_cons.2 ⟨rfl, List.forall_mem_cons.2 ⟨rfl, List.forall_mem_nil _⟩⟩
  memory := fun m hm => absurd hm (by simp [takenWorkspace])
  directory := by
    intro d hd
    obtain rfl := SnapshotStore.directory.inj hd
    exact FilePath.normal_ofText "b"

/-- Another snapshot of that time gets a number. -/
theorem saveSnapshot_exact_taken :
    (Action.saveSnapshot "dcp" (.obj [("n", .int 1)]) takenWorkspace).1 =
        .ok "b/dcp-backup-1970-01-01T00-00-00-000Z-1.json" ∧
      ∃ ref w', Action.saveSnapshot "dcp" (.obj [("n", .int 1)]) takenWorkspace = (.ok ref, w') ∧
        takenWorkspace.Saves w' ⟨"", ["b"]⟩ (.obj [("n", .int 1)]) ref :=
  ⟨rfl, saveSnapshot_exact takenWorkspace ⟨"", ["b"]⟩ "dcp" (.obj [("n", .int 1)])
    sound_takenWorkspace rfl (.inl rfl) ⟨by decide, by decide⟩
    ⟨by decide, show (natDigits 1).length ≤ maxIntegerDigits by decide, trivial⟩⟩

/-- A front with a slash leads into a directory that nobody makes, and an integer with too many digits is
not read back; and a directory that climbs out of a missing one lists nothing before a snapshot is saved,
and an older one with it afterwards. -/
theorem saveSnapshot_inexact :
    (takenWorkspace.Sound ∧ takenWorkspace.files.isDirectory ⟨"", ["b"]⟩ = true ∧
      (Action.saveSnapshot "a/b" (.obj []) takenWorkspace).1 = .error (.file
        ⟨.notFound, ⟨"", ["b", "a", "b-backup-1970-01-01T00-00-00-000Z.json"]⟩⟩) ∧
      ∀ ref w', Action.saveSnapshot "dcp" (.int (10 ^ maxIntegerDigits)) takenWorkspace = (.ok ref, w') →
        (Action.loadSnapshot ref w').1 ≠ .ok (.int (10 ^ maxIntegerDigits))) ∧
    climbingWorkspace.Sound ∧ (Action.saveSnapshot "dcp" (.obj []) climbingWorkspace).1 =
        .ok "a/../b/dcp-backup-1970-01-01T00-00-00-000Z.json" ∧
      (Action.listSnapshots climbingWorkspace).1 = .ok [] ∧
      ∃ ss, (Action.listSnapshots (Action.saveSnapshot "dcp" (.obj []) climbingWorkspace).2).1 =
        .ok ss ∧ ss.length = 2 := by
  refine ⟨⟨sound_takenWorkspace, rfl, rfl, fun ref w' hsave hload => ?_⟩, sound_climbingWorkspace,
    rfl, rfl, _, rfl, ?_⟩
  · have hstore : (Action.saveSnapshot "dcp" (.int (10 ^ maxIntegerDigits)) takenWorkspace).2.store =
        .directory ⟨"", ["b"]⟩ := Action.store_saveSnapshot _ _ rfl
    rw [hsave] at hstore
    exact Json.not_legible_of_le (Nat.le_refl _) (Action.legible_of_loadSnapshot hstore hload)
  have hdir : (Action.saveSnapshot "dcp" (.obj []) climbingWorkspace).2.files.entryAt
      ⟨"", ["a", "..", "b"]⟩ = .ok (["b"], some .directory) := rfl
  rw [FileSystem.snapshots_of_entryAt hdir, List.length_mergeSort]
  rfl

end DesignRegistry
