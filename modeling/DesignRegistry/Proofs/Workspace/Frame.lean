/-
**What an action may change.**

Whether it succeeds or fails, an action that writes files changes these files and makes directories; it
loses no snapshot and replaces no file that it does not write.  Such actions are closed under
sequence, and saving a snapshot is one that writes no file at all: its own is new.  Taking a snapshot
back is none, since it removes a file; but a snapshot that is saved and taken back leaves what was there
before.

Main definitions:

* `Workspace.Keeps` — everything stands where it stood apart from files at some locations, and every
  snapshot in memory is there;
* `Action.Alters` — an action that changes at most the files at some paths;
* `MutationOptions.written` — the files that a mutation writes.

Main results:

* `Action.Alters.bind` — actions in sequence;
* `Action.alters_saveSnapshot`, `Action.alters_writeDocument`, `Action.alters_logRecord` — single
  actions;
* `Action.alters_recordUnlessDry`, `FileRollback.alters_compute`, `FileRollback.alters_finish` — **the
  parts of mutations and rollbacks**.
-/
import DesignRegistry.Proofs.Workspace.Unwritten

set_option relaxedAutoImplicit false
set_option autoImplicit false

namespace DesignRegistry

namespace FileSystem

variable {fs fs' : FileSystem} {p : FilePath}

theorem keeps_writeDocument {doc : Json} (h : fs.writeDocument p doc = .ok fs') :
    fs.Keeps fs' [fs.place p] := by
  rw [writeDocument, writeText] at h
  split at h
  · exact absurd h (by simp)
  · next made hmake =>
      have hmade := (gains_makeDirectories hmake).keeps
      exact hmade.place p ▸ hmade.trans (keeps_write h)

theorem keeps_appendLine {doc : Json} (h : fs.appendLine p doc = .ok fs') :
    fs.Keeps fs' [fs.place p] := by
  rw [appendLine] at h
  split at h
  · exact absurd h (by simp)
  · next made hmake =>
      have hmade := (gains_makeDirectories hmake).keeps
      exact hmade.place p ▸ hmade.trans (keeps_append h)

theorem Sound.writeDocument (hfs : fs.Sound) {doc : Json} (h : fs.writeDocument p doc = .ok fs') :
    fs'.Sound := by
  rw [FileSystem.writeDocument, writeText] at h
  split at h
  · exact absurd h (by simp)
  · next made hmake => exact (hfs.makeDirectories hmake).write h

theorem Sound.appendLine (hfs : fs.Sound) {doc : Json} (h : fs.appendLine p doc = .ok fs') :
    fs'.Sound := by
  rw [FileSystem.appendLine] at h
  split at h
  · exact absurd h (by simp)
  · next made hmake => exact (hfs.makeDirectories hmake).append h

theorem Keeps.mono {a b : List Location} (h : fs.Keeps fs' a) (hsub : a ⊆ b) : fs.Keeps fs' b :=
  ⟨h.current, h.directory, fun l bytes time hnot hl =>
    h.file l bytes time (fun hmem => hnot (hsub hmem)) hl⟩

end FileSystem

/-! ### Workspaces -/

/-- Everything stands where it stood apart from files at some locations, and every snapshot in memory is
there. -/
structure Workspace.Keeps (w w' : Workspace) (changed : List Location) : Prop where
  sound : w'.Sound
  files : w.files.Keeps w'.files changed
  store : (∃ d, w.store = .directory d ∧ w'.store = .directory d) ∨
    ∃ m m', w.store = .memory m ∧ w'.store = .memory m' ∧
      ∀ ref doc, m.load? ref = some doc → m'.load? ref = some doc

namespace Workspace

variable {w w' w'' : Workspace} {a b : List Location}

theorem Sound.of_agrees (hw : w.Sound) (h : w.Agrees w') : w'.Sound where
  files := by rw [h.files]; exact hw.files
  memory := by rw [h.store]; exact hw.memory
  directory := by rw [h.store]; exact hw.directory

theorem Agrees.keeps (hw : w.Sound) (h : w.Agrees w') : w.Keeps w' [] where
  sound := hw.of_agrees h
  files := by
    rw [h.files]
    exact .refl w.files
  store := by
    rw [h.store]
    cases w.store with
    | directory d => exact .inl ⟨d, rfl, rfl⟩
    | memory m => exact .inr ⟨m, m, rfl, rfl, fun _ _ hload => hload⟩

theorem Keeps.mono (h : w.Keeps w' a) (hsub : a ⊆ b) : w.Keeps w' b :=
  ⟨h.sound, h.files.mono hsub, h.store⟩

theorem Keeps.trans (h : w.Keeps w' a) (h' : w'.Keeps w'' b) : w.Keeps w'' (a ++ b) where
  sound := h'.sound
  files := h.files.trans h'.files
  store := by
    rcases h.store with ⟨d, hd, hd'⟩ | ⟨m, m', hm, hm', hload⟩
    · rcases h'.store with ⟨e, he, he'⟩ | ⟨n, n', hn, -, -⟩
      · obtain rfl := SnapshotStore.directory.inj (hd'.symm.trans he)
        exact .inl ⟨d, hd, he'⟩
      · exact absurd (hd'.symm.trans hn) (by simp)
    · rcases h'.store with ⟨e, he, -⟩ | ⟨n, n', hn, hn', hload'⟩
      · exact absurd (hm'.symm.trans he) (by simp)
      · obtain rfl := SnapshotStore.memory.inj (hm'.symm.trans hn)
        exact .inr ⟨m, n', hm, hn', fun ref doc h => hload' ref doc (hload ref doc h)⟩

/-- A store stays a list in memory or the same directory. -/
theorem Keeps.directory (h : w.Keeps w' a) {d : FilePath} (hd : w'.store = .directory d) :
    w.store = .directory d := by
  rcases h.store with ⟨e, he, he'⟩ | ⟨_, m, -, hm, -⟩
  · rw [he, ← hd, he']
  · exact absurd (hd.symm.trans hm) (by simp)

/-- Other files in the place of those that were there, and the same store. -/
theorem Keeps.of_files (hw : w.Sound) {fs : FileSystem} (hsound : fs.Sound)
    (hkeeps : w.files.Keeps fs a) (clock : Clock) :
    w.Keeps { w with files := fs, clock } a where
  sound := ⟨hsound, hw.memory, hw.directory⟩
  files := hkeeps
  store := by
    cases hstore : w.store with
    | directory d => exact .inl ⟨d, rfl, rfl⟩
    | memory m => exact .inr ⟨m, m, rfl, rfl, fun _ _ hload => hload⟩

/-- A snapshot that was saved and taken back leaves everything where it stood. -/
theorem Reverted.keeps (h : w.Reverted w') (hsound : w'.Sound) : w.Keeps w' [] where
  sound := hsound
  files := h.gains.keeps
  store := by
    rcases h.store with hdirectory | ⟨-, m, m', hm, hm', hitems⟩
    · exact .inl hdirectory
    · refine .inr ⟨m, m', hm, hm', fun ref doc hload => ?_⟩
      rwa [MemorySnapshots.load?, hitems]

end Workspace

/-! ### Actions -/

/-- The files that a mutation writes: those it is asked for, and none in a dry run. -/
def MutationOptions.written (o : MutationOptions) (e : Engine) : List FilePath :=
  if o.dryRun then [] else o.requested e

/-- An action that changes at most the files at some paths, and loses no snapshot, whether it succeeds
or fails. -/
def Action.Alters {α : Type} (x : Action α) (ps : List FilePath) : Prop :=
  ∀ w : Workspace, w.Sound → w.Keeps (x w).2 (ps.map w.files.place)

namespace Action

variable {α β : Type} {x : Action α} {next : α → Action β} {ps qs : List FilePath}

theorem Alters.mono (h : x.Alters ps) (hsub : ps ⊆ qs) : x.Alters qs :=
  fun w hw => (h w hw).mono (List.map_subset _ hsub)

theorem Prints.alters (h : Prints x) : x.Alters [] := fun w hw => (h w).keeps hw

/-- What an action that runs from here leads to. -/
theorem Alters.keeps (h : x.Alters ps) {w w' : Workspace} {r : Except Failure α} (hw : w.Sound)
    (hrun : x w = (r, w')) : w.Keeps w' (ps.map w.files.place) := by
  have hkeeps := h w hw
  rwa [hrun] at hkeeps

/-- Actions in sequence. -/
theorem Alters.bind (hx : x.Alters ps) (hnext : ∀ a, (next a).Alters qs) :
    (x >>= next).Alters (ps ++ qs) := by
  intro w hw
  rw [List.map_append]
  refine bind_cases (P := fun r => w.Keeps r.2 _) (fun f w' hrun => ?_) fun a w' hrun => ?_
  · exact (hx.keeps hw hrun).mono (List.subset_append_left _ _)
  · have hkeeps := hx.keeps hw hrun
    have hrest := hnext a w' hkeeps.sound
    rw [funext hkeeps.files.place] at hrest
    exact hkeeps.trans hrest

theorem Alters.bind_prints (hx : x.Alters ps) (hnext : ∀ a, Prints (next a)) :
    (x >>= next).Alters ps := by
  have h := hx.bind fun a => (hnext a).alters
  rwa [List.append_nil] at h

theorem Prints.bind_alters (hx : Prints x) (hnext : ∀ a, (next a).Alters ps) :
    (x >>= next).Alters ps := hx.alters.bind hnext

/-! ### Single actions -/

theorem alters_readClock : readClock.Alters [] := fun w hw =>
  Workspace.Keeps.of_files hw hw.files (.refl w.files) _

theorem alters_changeFiles {change : FileSystem → Except FileProblem FileSystem}
    (h : ∀ fs fs' : FileSystem, fs.Sound → change fs = .ok fs' →
      fs'.Sound ∧ fs.Keeps fs' (ps.map fs.place)) : (changeFiles change).Alters ps := by
  intro w hw
  rw [changeFiles]
  split
  · next fs hchange =>
      obtain ⟨hsound, hkeeps⟩ := h w.files fs hw.files hchange
      exact .of_files hw hsound hkeeps w.clock
  · exact ((Workspace.Agrees.refl w).keeps hw).mono (List.nil_subset _)

theorem alters_writeDocument (p : FilePath) (doc : Json) : (writeDocument p doc).Alters [p] :=
  alters_changeFiles fun _ _ hfs h =>
    ⟨hfs.writeDocument h, FileSystem.keeps_writeDocument h⟩

theorem alters_logRecord (log : FilePath) (r : AuditRecord) : (logRecord log r).Alters [log] := by
  rw [logRecord]
  split
  · refine alters_readClock.bind fun t => Alters.bind_prints ?_ fun _ => (quiet_pure _).prints
    exact alters_changeFiles fun _ _ hfs h => ⟨hfs.appendLine h, FileSystem.keeps_appendLine h⟩
  · exact (reads_fail _).prints.alters.mono (List.nil_subset _)

/-- A snapshot in memory is added to those that are there. -/
theorem load?_save {m : MemorySnapshots} {front timestamp ref : String} {doc found : Json}
    (h : m.load? ref = some found) : (m.save front timestamp doc).2.load? ref = some found := by
  rw [MemorySnapshots.load?] at h
  rw [MemorySnapshots.load?, MemorySnapshots.save, List.lookup_append, h, Option.some_or]

/-- Saving a snapshot writes no file that was there. -/
theorem alters_saveSnapshot (front : String) (doc : Json) : (saveSnapshot front doc).Alters [] := by
  intro w hw
  rw [saveSnapshot]
  split
  · next m hstore =>
      refine ⟨⟨hw.files, fun m' hm' => ?_, fun d hd => absurd hd (by simp)⟩, .refl w.files,
        .inr ⟨m, _, hstore, rfl, fun _ _ => load?_save⟩⟩
      obtain rfl := SnapshotStore.memory.inj hm'
      exact (hw.memory m hstore).save _ _ _
  · next d hstore =>
      split
      · exact (Workspace.Agrees.refl w).keeps hw
      · next made hmake =>
          have hmade := (FileSystem.gains_makeDirectories hmake).keeps
          have hsound := hw.files.makeDirectories hmake
          split
          split
          · next p fs hadd =>
              have hcreate := (FileSystem.addSnapshot_eq_ok hadd).2
              exact .of_files hw (hsound.create hcreate)
                (hmade.trans (FileSystem.keeps_create hcreate)) _
          · exact .of_files hw hsound hmade _

/-- Taking a snapshot back keeps a workspace sound. -/
theorem sound_discardSnapshot {w : Workspace} (hw : w.Sound) (ref : String) :
    (discardSnapshot ref w).2.Sound := by
  rw [discardSnapshot]
  split
  · next m hstore =>
      refine ⟨hw.files, fun m' hm' => ?_, fun d hd => absurd hd (by simp)⟩
      obtain rfl := SnapshotStore.memory.inj hm'
      -- the numbers that were given stay given
      have hnumbered := hw.memory m hstore
      rw [MemorySnapshots.discard]
      split
      · exact fun item hitem => hnumbered item (List.mem_of_mem_filter hitem)
      · exact hnumbered
  · rw [tryDelete, FileSystem.tryDelete]
    split
    next deletion fs heq =>
      refine ⟨?_, hw.memory, hw.directory⟩
      split at heq
      · next fs' hremove =>
          obtain ⟨-, rfl⟩ := Prod.mk.inj heq
          exact hw.files.removeFile hremove
      · obtain ⟨-, rfl⟩ := Prod.mk.inj heq
        exact hw.files

/-- A snapshot that was just saved, and is taken back, leaves everything where it stood. -/
theorem keeps_abandonSnapshot {e : RollbackEngine} {k : SnapshotKind} {doc : Json}
    {w w₁ w₂ : Workspace} {ref : String} (hw : w.Sound)
    (hsave : saveSnapshot k.front doc w = (.ok ref, w₁)) (hagree : w₁.Agrees w₂) :
    ∃ w₃, abandonSnapshot e (some ref) w₂ = (.ok (), w₃) ∧ w.Keeps w₃ [] := by
  obtain ⟨w₃, habandon, hreverted, -⟩ := reverted_abandonSnapshot (e := e) hw hsave hagree
  refine ⟨w₃, habandon, hreverted.keeps ?_⟩
  have hsound₂ := ((alters_saveSnapshot k.front doc).keeps hw hsave).sound.of_agrees hagree
  obtain ⟨d, w', hdiscard, hsay⟩ := bind_ok habandon
  have hsound' := sound_discardSnapshot hsound₂ ref
  rw [hdiscard] at hsound'
  exact hsound'.of_agrees ((quiet_sayRollback e _).prints.agrees hsay)

/-! ### Mutations -/

theorem prints_adviseIf (wanted : Bool) (e : Engine) (stage : String) (doc : Json) :
    Prints (adviseIf wanted e stage doc) := by
  rw [adviseIf]
  split
  · exact (prints_advise e doc).bind fun _ =>
      ((quiet_sayMutation e _).bind fun _ => quiet_pure _).prints
  · exact (quiet_pure _).prints

theorem alters_writeOptional (e : Engine) (label : String) (p : Option FilePath) (doc : Json) :
    (writeOptional e label p doc).Alters p.toList := by
  cases p with
  | none => exact (quiet_pure ()).prints.alters
  | some p =>
      exact (alters_writeDocument p doc).bind_prints fun _ => (quiet_sayMutation e _).prints

theorem alters_snapshotBefore (e : Engine) (wanted : Bool) (doc : Json) :
    (snapshotBefore e wanted doc).Alters [] := by
  rw [snapshotBefore]
  split
  · exact (alters_saveSnapshot _ doc).bind_prints fun ref =>
      ((quiet_sayMutation e _).bind fun _ => quiet_pure _).prints
  · exact (quiet_pure _).prints.alters

/-- Recording a mutation writes the files that it is asked for. -/
theorem alters_recordMutation (e : Engine) (o : MutationOptions) (backup : Option String)
    (b : Batch) (undo : List Json) :
    (recordMutation e o backup b undo).Alters (o.requested e) := by
  rw [MutationOptions.requested, List.append_assoc]
  refine (alters_writeOptional e _ o.target _).bind fun _ =>
    (alters_writeOptional e _ o.undo _).bind fun _ => ?_
  cases e.auditLog with
  | none => exact (quiet_pure ()).prints.alters
  | some log => exact (alters_logRecord log _).bind_prints fun _ => (quiet_pure ()).prints

theorem alters_recordUnlessDry (e : Engine) (o : MutationOptions) (backup : Option String)
    (b : Batch) (undo : List Json) :
    (recordUnlessDry e o backup b undo).Alters (o.written e) := by
  rw [recordUnlessDry, MutationOptions.written]
  split
  · exact (quiet_pure ()).prints.alters
  · exact alters_recordMutation e o backup b undo

/-! ### Rollbacks -/

theorem alters_snapshotCurrent (e : RollbackEngine) (wanted : Bool) (doc : Json) :
    (snapshotCurrent e wanted doc).Alters [] := by
  by_cases h : wanted = true → doc = .null
  · rw [snapshotCurrent_none h]
    exact (quiet_pure none).prints.alters
  · obtain ⟨rfl, hdoc⟩ := Classical.not_imp.1 h
    rw [snapshotCurrent_some hdoc]
    exact (alters_saveSnapshot _ doc).bind_prints fun ref =>
      ((quiet_sayRollback e _).bind fun _ => quiet_pure _).prints

/-- A rollback by patches writes no file: where a patch fails, its snapshot is taken back. -/
theorem alters_rollBackByPatches (e : RollbackEngine) (createBackup : Bool) (doc : Json)
    (patches : List Json) : (rollBackByPatches e createBackup doc patches).Alters [] := by
  by_cases hne : patches = []
  · rw [hne]
    exact (reads_fail _).prints.alters
  cases hundo : undoAll 0 patches doc with
  | ok state =>
      rw [rollBackByPatches, if_neg (by simpa using hne)]
      refine (alters_snapshotCurrent e createBackup doc).bind_prints fun backup =>
        (quiet_sayAll _).prints.bind fun _ => ?_
      simp only [hundo]
      exact (prints_adviseOnRollback e state).bind fun _ => (quiet_pure _).prints
  | error problem =>
      intro w hw
      -- this is no sequence of actions that alter nothing: the snapshot is taken back by removing a
      -- file
      rw [rollBackByPatches_of_error hne hundo]
      refine bind_cases (P := fun r => w.Keeps r.2 []) (fun f w₁ hrun => ?_)
        fun backup w₁ hrun => ?_
      · exact (alters_snapshotCurrent e createBackup doc).keeps hw hrun
      · refine (quiet_sayAll _).bind_cases (P := fun r => w.Keeps r.2 []) fun _ w₂ hsaid => ?_
        have htook := (snapshotCurrent_took hrun).1
        cases backup with
        | none => exact (Workspace.Agrees.trans htook hsaid).keeps hw
        | some ref =>
            obtain ⟨w₀, hsave, hagree⟩ := htook
            obtain ⟨w₃, habandon, hkeeps⟩ :=
              keeps_abandonSnapshot (e := e) hw hsave (hagree.trans hsaid)
            rw [bind_of_ok habandon]
            exact hkeeps

theorem alters_rollBackToDocument (e : RollbackEngine) (createBackup : Bool)
    (doc snapshot : Json) : (rollBackToDocument e createBackup doc snapshot).Alters [] :=
  (alters_snapshotCurrent e createBackup doc).bind_prints fun _ =>
    (prints_adviseOnRollback e snapshot).bind fun _ => (quiet_pure _).prints

end Action

namespace FileRollback

variable (e : RollbackEngine) (o : RollbackOptions) (registry : FilePath)

theorem alters_computeByPatches (undo : FilePath) :
    (computeByPatches e o registry undo).Alters [] :=
  (Action.reads_readRegistry registry).prints.bind_alters fun doc =>
    (Action.reads_readUndoFile undo).prints.bind_alters fun patches =>
      (Action.alters_rollBackByPatches e o.createBackup doc patches).bind_prints fun _ =>
        (Action.quiet_pure _).prints

theorem alters_computeFromSnapshot (ref : String) :
    (computeFromSnapshot e o registry ref).Alters [] :=
  (Action.reads_readSnapshot ref).prints.bind_alters fun snapshot =>
    (reads_currentDocument o registry).prints.bind_alters fun doc =>
      (Action.alters_rollBackToDocument e o.createBackup doc snapshot).bind_prints fun _ =>
        (Action.quiet_pure _).prints

/-- Until its document is there, a rollback writes no file. -/
theorem alters_compute (c : FileRollback) : (c.compute e o registry).Alters [] := by
  cases c with
  | patches undo => exact alters_computeByPatches e o registry undo
  | snapshot ref => exact alters_computeFromSnapshot e o registry ref
  | last =>
      refine (Action.reads_lastRollbackPoint e).prints.bind_alters fun found => ?_
      cases found with
      | none => exact (Action.reads_fail _).prints.alters
      | some point =>
          refine (Action.quiet_sayRollback e _).prints.bind_alters fun _ => ?_
          cases point with
          | patch p => exact alters_computeByPatches e o registry (.ofText p)
          | backup ref => exact alters_computeFromSnapshot e o registry ref

/-- Writing the document of a rollback writes its target and the audit log. -/
theorem alters_finish (computed : RollbackReport × String) :
    (finish e o registry computed).Alters (o.target.getD registry :: e.auditLog.toList) := by
  rw [finish, Action.finishRollback]
  refine (Action.alters_writeDocument _ _).bind fun _ =>
    (Action.quiet_sayRollback e _).prints.bind_alters fun _ => ?_
  split
  · next log hlogged hlog =>
      rw [hlog]
      exact (Action.alters_logRecord log _).bind_prints fun _ => (Action.quiet_pure _).prints
  · exact (Action.quiet_pure _).prints.alters.mono (List.nil_subset _)

end FileRollback

end DesignRegistry
