/-
**Places that stay empty.**

An action that writes files may make the directories on the way to them, and a snapshot gets a name that
nobody chose.  So a place stays empty if it is not on the way to a file that is written, and neither on the
way to the snapshots nor the place of one of their names.  Actions with that in common are closed under
sequence, like those that change certain files at most.

Main definitions:

* `FileSystem.Avoids` — a path that does not come by a location;
* `Workspace.Bypasses` — snapshots and files that do not come by a location;
* `Action.Spares` — an action that comes by no other place than those of some files, and of snapshots if it
  takes any.

Main results:

* `FileSystem.entryAt?_makeDirectories`, `FileSystem.entryAt?_writeDocument` — **what is not on the way stays**;
* `Action.Spares.bind` — actions in sequence;
* `Action.spares_saveSnapshot`, `Action.spares_rollBackByPatches`, `FileRollback.spares_compute` — snapshots,
  and rollbacks until their document is there.
-/
import DesignRegistry.Proofs.Storage.FreeName
import DesignRegistry.Proofs.Workspace.Frame

set_option relaxedAutoImplicit false
set_option autoImplicit false

namespace DesignRegistry

namespace FileSystem

variable {fs fs' : FileSystem} {p : FilePath} {loc : Location}

/-- A path that does not come by a location: neither it nor a directory on its way is there. -/
def Avoids (fs : FileSystem) (p : FilePath) (loc : Location) : Prop :=
  ∀ front, front <+: p.names → fs.place ⟨p.root, front⟩ ≠ loc

theorem Avoids.place (h : fs.Avoids p loc) : fs.place p ≠ loc := h p.names (List.prefix_refl _)

theorem Avoids.parent (h : fs.Avoids p loc) : fs.Avoids p.parent loc := fun front hfront =>
  h front (hfront.trans (List.dropLast_prefix p.names))

theorem Keeps.avoids {changed : List Location} (h : fs.Keeps fs' changed) (hp : fs.Avoids p loc) :
    fs'.Avoids p loc := by
  intro front hfront
  rw [h.place]
  exact hp front hfront

/-- Directories are made on the way only. -/
theorem entryAt?_makeDirectories (h : fs.makeDirectories p = .ok fs') (hp : fs.Avoids p loc) :
    fs'.entryAt? loc = fs.entryAt? loc := by
  refine (makeDirectoriesTo_induction (P := fun made => fs.Gains made ∧ made.entryAt? loc = fs.entryAt? loc)
    p.names.length (fun made made' q hroot hnames hmade hmake => ?_) ⟨.refl fs, rfl⟩ h).2
  refine ⟨hmade.1.trans (gains_makeDirectory hmake), ?_⟩
  obtain ⟨l, hloc, -, rfl⟩ := makeDirectory_eq_ok hmake
  have hplace : l = fs.place ⟨p.root, q.names⟩ := by
    rw [locate_place hloc, hmade.1.keeps.place, ← hroot]
  have hne : loc ≠ l := fun heq => hp q.names hnames (hplace ▸ heq.symm)
  rw [entryAt?_withEntry_of_ne _ hne, hmade.2]

theorem entryAt?_create {bytes : ByteArray} (h : fs.create p bytes = .ok fs') (hp : fs.place p ≠ loc) :
    fs'.entryAt? loc = fs.entryAt? loc := by
  obtain ⟨l, hloc, -, rfl⟩ := create_eq_ok h
  rw [← locate_place hloc] at hp
  exact entryAt?_withEntry_of_ne fs (Ne.symm hp) _

/-- A document is written in its place only. -/
theorem entryAt?_writeDocument {doc : Json} (h : fs.writeDocument p doc = .ok fs')
    (hp : fs.Avoids p loc) : fs'.entryAt? loc = fs.entryAt? loc := by
  rw [writeDocument, writeText] at h
  split at h
  · exact absurd h (by simp)
  · next made hmake =>
      rw [← entryAt?_makeDirectories hmake hp.parent]
      obtain ⟨l, hloc, -, rfl⟩ := write_eq_ok h
      have hplace := ((gains_makeDirectories hmake).keeps.avoids hp).place
      rw [← locate_place hloc] at hplace
      exact entryAt?_withEntry_of_ne made (Ne.symm hplace) _

end FileSystem

/-! ### Workspaces -/

/-- A directory of snapshots that does not come by a location: neither it nor what is on its way is there,
and no snapshot gets a name that leads there. -/
structure FileSystem.Shelters (fs : FileSystem) (directory : FilePath) (loc : Location) : Prop where
  way : fs.Avoids directory loc
  names : ∀ (k : SnapshotKind) (t : Moment) (n : ℕ),
    fs.place (directory.child (snapshotCandidate (snapshotStem k.front t.timestamp) n)) ≠ loc

/-- Files at some paths, and snapshots if any are taken, that do not come by a location. -/
structure Workspace.Bypasses (w : Workspace) (loc : Location) (saves : Bool) (ps : List FilePath) :
    Prop where
  paths : ∀ p ∈ ps, w.files.Avoids p loc
  store : saves = true → ∀ d, w.store = .directory d → w.files.Shelters d loc

theorem Workspace.Keeps.bypasses {w w' : Workspace} {changed : List Location} {loc : Location}
    {saves : Bool} {ps : List FilePath} (h : w.Keeps w' changed) (hw : w.Bypasses loc saves ps) :
    w'.Bypasses loc saves ps where
  paths := fun p hp => h.files.avoids (hw.paths p hp)
  store := by
    intro hsaves d hd
    have hshelter := hw.store hsaves d (h.directory hd)
    refine ⟨h.files.avoids hshelter.way, fun k t n => ?_⟩
    rw [h.files.place]
    exact hshelter.names k t n

/-- An action that comes by no other place than those of the files at some paths, and of snapshots if it
takes any, whether it succeeds or fails. -/
structure Action.Spares {α : Type} (x : Action α) (saves : Bool) (ps : List FilePath) : Prop where
  alters : x.Alters ps
  vacant : ∀ (w : Workspace) (loc : Location), w.Sound → w.Bypasses loc saves ps →
    w.files.entryAt? loc = none → (x w).2.files.entryAt? loc = none

namespace Action

variable {α β : Type} {x : Action α} {next : α → Action β} {saves : Bool} {ps qs : List FilePath}

theorem Prints.spares (h : Prints x) (saves : Bool) : x.Spares saves [] where
  alters := h.alters
  vacant := by
    intro w loc _ _ hnone
    rwa [(h w).files]

/-- Actions in sequence. -/
theorem Spares.bind (hx : x.Spares saves ps) (hnext : ∀ a, (next a).Spares saves qs) :
    (x >>= next).Spares saves (ps ++ qs) where
  alters := hx.alters.bind fun a => (hnext a).alters
  vacant := by
    intro w loc hw hbypass hnone
    have hfirst := hx.vacant w loc hw
      ⟨fun p hp => hbypass.paths p (List.mem_append_left _ hp), hbypass.store⟩ hnone
    refine bind_cases (P := fun r => r.2.files.entryAt? loc = none) (fun f w' hrun => ?_)
      fun a w' hrun => ?_
    · rwa [hrun] at hfirst
    · rw [hrun] at hfirst
      have hkeeps := hx.alters.keeps hw hrun
      refine (hnext a).vacant w' loc hkeeps.sound (hkeeps.bypasses ?_) hfirst
      exact ⟨fun p hp => hbypass.paths p (List.mem_append_right _ hp), hbypass.store⟩

theorem Spares.bind_prints (hx : x.Spares saves ps) (hnext : ∀ a, Prints (next a)) :
    (x >>= next).Spares saves ps := by
  have h := hx.bind fun a => (hnext a).spares saves
  rwa [List.append_nil] at h

theorem Prints.bind_spares (hx : Prints x) (hnext : ∀ a, (next a).Spares saves ps) :
    (x >>= next).Spares saves ps := (hx.spares saves).bind hnext

/-! ### Single actions -/

theorem spares_writeDocument (saves : Bool) (p : FilePath) (doc : Json) :
    (writeDocument p doc).Spares saves [p] where
  alters := alters_writeDocument p doc
  vacant := by
    intro w loc _ hbypass hnone
    rw [writeDocument, changeFiles]
    split
    · next fs hwrite =>
        rw [← hnone]
        exact FileSystem.entryAt?_writeDocument hwrite (hbypass.paths p List.mem_cons_self)
    · exact hnone

theorem spares_writeOptional (e : Engine) (label : String) (saves : Bool) (p : Option FilePath)
    (doc : Json) : (writeOptional e label p doc).Spares saves p.toList := by
  cases p with
  | none => exact (quiet_pure ()).prints.spares saves
  | some p =>
      exact (spares_writeDocument saves p doc).bind_prints fun _ => (quiet_sayMutation e _).prints

/-- A snapshot comes by no other place than those on the way to the snapshots and those of their names. -/
theorem spares_saveSnapshot (k : SnapshotKind) (doc : Json) :
    (saveSnapshot k.front doc).Spares true [] where
  alters := alters_saveSnapshot k.front doc
  vacant := by
    intro w loc _ hbypass hnone
    rw [saveSnapshot]
    split
    · exact hnone
    · next d hstore =>
        have hshelter := hbypass.store rfl d hstore
        split
        · exact hnone
        · next made hmake =>
            have hmade := FileSystem.entryAt?_makeDirectories hmake hshelter.way
            rw [hnone] at hmade
            have hkeeps := (FileSystem.gains_makeDirectories hmake).keeps
            obtain ⟨l, hdir⟩ :=
              FileSystem.isDirectory_iff.1 (FileSystem.isDirectory_of_makeDirectories hmake)
            split
            next t clock hread =>
              split
              · next p fs hadd =>
                  obtain ⟨rfl, hcreate⟩ := FileSystem.addSnapshot_eq_ok hadd
                  obtain ⟨n, hpath, -, -⟩ :=
                    FileSystem.freePath_free hdir (slash_notMem_snapshotStem k t)
                  rw [hpath] at hcreate
                  refine (FileSystem.entryAt?_create hcreate ?_).trans hmade
                  rw [hkeeps.place]
                  exact hshelter.names k t n
              · exact hmade

theorem spares_snapshotBefore (e : Engine) (wanted : Bool) (doc : Json) :
    (snapshotBefore e wanted doc).Spares wanted [] := by
  cases wanted with
  | false => exact (quiet_pure none).prints.spares false
  | true =>
      exact (spares_saveSnapshot .mutation doc).bind_prints fun ref =>
        ((quiet_sayMutation e _).bind fun _ => quiet_pure _).prints

/-! ### Rollbacks -/

theorem spares_snapshotCurrent (e : RollbackEngine) (wanted : Bool) (doc : Json) :
    (snapshotCurrent e wanted doc).Spares wanted [] := by
  by_cases h : wanted = true → doc = .null
  · rw [snapshotCurrent_none h]
    exact (quiet_pure none).prints.spares wanted
  · obtain ⟨rfl, hdoc⟩ := Classical.not_imp.1 h
    rw [snapshotCurrent_some hdoc]
    exact (spares_saveSnapshot .rollback doc).bind_prints fun ref =>
      ((quiet_sayRollback e _).bind fun _ => quiet_pure _).prints

/-- A rollback by patches comes by the places of its snapshot only, also where it takes it back. -/
theorem spares_rollBackByPatches (e : RollbackEngine) (createBackup : Bool) (doc : Json)
    (patches : List Json) : (rollBackByPatches e createBackup doc patches).Spares createBackup [] := by
  refine ⟨alters_rollBackByPatches e createBackup doc patches, fun w loc hw hbypass hnone => ?_⟩
  by_cases hne : patches = []
  · rw [hne]
    exact hnone
  cases hundo : undoAll 0 patches doc with
  | ok state =>
      rw [rollBackByPatches, if_neg (by simpa using hne)]
      refine ((spares_snapshotCurrent e createBackup doc).bind_prints fun backup =>
        (quiet_sayAll _).prints.bind fun _ => ?_).vacant w loc hw hbypass hnone
      simp only [hundo]
      exact (prints_adviseOnRollback e state).bind fun _ => (quiet_pure _).prints
  | error problem =>
      rw [rollBackByPatches_of_error hne hundo]
      have hfirst := (spares_snapshotCurrent e createBackup doc).vacant w loc hw hbypass hnone
      refine bind_cases (P := fun r => r.2.files.entryAt? loc = none) (fun f w₁ hrun => ?_)
        fun backup w₁ hrun => ?_
      · rwa [hrun] at hfirst
      · rw [hrun] at hfirst
        refine (quiet_sayAll _).bind_cases (P := fun r => r.2.files.entryAt? loc = none)
          fun _ w₂ hsaid => ?_
        have htook := (snapshotCurrent_took hrun).1
        cases backup with
        | none =>
            change w₂.files.entryAt? loc = none
            rwa [hsaid.files]
        | some ref =>
            -- the directories that were made for the snapshot are all that is left of it
            obtain ⟨w₀, hsave, hagree⟩ := htook
            obtain ⟨w₃, habandon, hreverted, hroom⟩ :=
              reverted_abandonSnapshot (e := e) hw hsave (hagree.trans hsaid)
            rw [bind_of_ok habandon]
            change w₃.files.entryAt? loc = none
            rcases hreverted.store with ⟨d, hd, -⟩ | ⟨hfiles, -⟩
            · have hwanted : createBackup = true := by
                by_contra hnot
                rw [snapshotCurrent_none fun htrue => absurd htrue hnot] at hrun
                exact absurd (Except.ok.inj (Prod.mk.inj hrun).1) (by simp)
              rw [← hnone]
              exact FileSystem.entryAt?_makeDirectories (hroom d hd) (hbypass.store hwanted d hd).way
            · rwa [hfiles]

theorem spares_rollBackToDocument (e : RollbackEngine) (createBackup : Bool) (doc snapshot : Json) :
    (rollBackToDocument e createBackup doc snapshot).Spares createBackup [] :=
  (spares_snapshotCurrent e createBackup doc).bind_prints fun _ =>
    (prints_adviseOnRollback e snapshot).bind fun _ => (quiet_pure _).prints

end Action

namespace FileRollback

variable (e : RollbackEngine) (o : RollbackOptions) (registry : FilePath)

theorem spares_computeByPatches (undo : FilePath) :
    (computeByPatches e o registry undo).Spares o.createBackup [] :=
  (Action.reads_readRegistry registry).prints.bind_spares fun doc =>
    (Action.reads_readUndoFile undo).prints.bind_spares fun patches =>
      (Action.spares_rollBackByPatches e o.createBackup doc patches).bind_prints fun _ =>
        (Action.quiet_pure _).prints

theorem spares_computeFromSnapshot (ref : String) :
    (computeFromSnapshot e o registry ref).Spares o.createBackup [] :=
  (Action.reads_readSnapshot ref).prints.bind_spares fun snapshot =>
    (reads_currentDocument o registry).prints.bind_spares fun doc =>
      (Action.spares_rollBackToDocument e o.createBackup doc snapshot).bind_prints fun _ =>
        (Action.quiet_pure _).prints

/-- Until its document is there, a rollback comes by the places of its snapshot only. -/
theorem spares_compute (c : FileRollback) : (c.compute e o registry).Spares o.createBackup [] := by
  cases c with
  | patches undo => exact spares_computeByPatches e o registry undo
  | snapshot ref => exact spares_computeFromSnapshot e o registry ref
  | last =>
      refine (Action.reads_lastRollbackPoint e).prints.bind_spares fun found => ?_
      cases found with
      | none => exact (Action.reads_fail _).prints.spares o.createBackup
      | some point =>
          refine (Action.quiet_sayRollback e _).prints.bind_spares fun _ => ?_
          cases point with
          | patch p => exact spares_computeByPatches e o registry (.ofText p)
          | backup ref => exact spares_computeFromSnapshot e o registry ref

end FileRollback

end DesignRegistry
