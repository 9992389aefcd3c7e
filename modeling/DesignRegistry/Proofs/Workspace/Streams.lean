/-
**What actions print.**

The work on documents and files tells its steps in the log only, line by line, and leaves the output to
whoever asked for it.  Such actions are closed under sequence, so it is enough to look at the single steps:
none of them prints.

Main definitions:

* `Workspace.AddsLines` — the output is the same, and whole lines were added to the log;
* `Action.Mute` — an action that adds whole lines to the log at most.

Main results:

* `Action.Mute.bind` — actions in sequence;
* `Action.mute_mutate`, `Action.mute_rollBackFrom`, `Action.mute_cleanUp`, `Action.mute_scanDirectory` —
  **mutations, rollbacks, making room and scans are mute**.
-/
import DesignRegistry.Proofs.Workspace.Action
import DesignRegistry.Proofs.Workspace.Entries
import DesignRegistry.Scan.Directory

set_option relaxedAutoImplicit false
set_option autoImplicit false

namespace DesignRegistry

theorem WholeLines.append {s t : List Char} (hs : WholeLines s) (ht : WholeLines t) :
    WholeLines (s ++ t) := by
  rcases ht with rfl | ⟨front, rfl⟩
  · rwa [List.append_nil]
  · exact .inr ⟨s ++ front, (List.append_assoc s front _).symm⟩

namespace Workspace

/-- The output is the same, and whole lines were added to the log. -/
structure AddsLines (w w' : Workspace) : Prop where
  output : w'.output = w.output
  log : ∃ told : String, WholeLines told.toList ∧ w'.log = w.log ++ told

variable {w w' w'' : Workspace}

theorem AddsLines.of_eq (houtput : w'.output = w.output) (hlog : w'.log = w.log) : w.AddsLines w' :=
  ⟨houtput, "", .inl rfl, by rw [hlog, String.append_empty]⟩

theorem AddsLines.refl (w : Workspace) : w.AddsLines w := .of_eq rfl rfl

theorem AddsLines.trans (h : w.AddsLines w') (h' : w'.AddsLines w'') : w.AddsLines w'' := by
  obtain ⟨told, htold, hlog⟩ := h.log
  obtain ⟨more, hmore, hlog'⟩ := h'.log
  refine ⟨h'.output.trans h.output, told ++ more, ?_, ?_⟩
  · rw [String.toList_append]
    exact htold.append hmore
  · rw [hlog', hlog, String.append_assoc]

end Workspace

namespace Action

variable {α β : Type}

/-! ### Actions that are mute -/

/-- An action that adds whole lines to the log at most. -/
def Mute (x : Action α) : Prop := ∀ w : Workspace, w.AddsLines (x w).2

theorem Reads.mute {x : Action α} (hx : Reads x) : Mute x := by
  intro w
  rw [hx w]
  exact .refl w

theorem mute_pure (a : α) : Mute (pure a : Action α) := (reads_pure a).mute

theorem mute_fail (f : Failure) : Mute (fail f : Action α) := (reads_fail f).mute

theorem mute_ofExcept {ε : Type} (cause : ε → Failure) (r : Except ε α) : Mute (ofExcept cause r) :=
  (reads_ofExcept cause r).mute

theorem Mute.bind {x : Action α} {next : α → Action β} (hx : Mute x) (hnext : ∀ a, Mute (next a)) :
    Mute (x >>= next) := by
  intro w
  have hlines := hx w
  cases hrun : x w with
  | mk r w' =>
      rw [hrun] at hlines
      cases r with
      | error f =>
          rw [bind_of_error hrun]
          exact hlines
      | ok a =>
          rw [bind_of_ok hrun]
          exact hlines.trans (hnext a w')

theorem Mute.inTurn {act : α → Action β} (h : ∀ a, Mute (act a)) (xs : List α) :
    Mute (inTurn act xs) := by
  induction xs with
  | nil => exact mute_pure []
  | cons x xs ih => exact (h x).bind fun _ => ih.bind fun _ => mute_pure _

/-! ### Single steps -/

theorem mute_say (line : String) : Mute (say line) := fun _ =>
  ⟨rfl, line ++ "\n", .inr ⟨line.toList, String.toList_append⟩, String.append_assoc⟩

theorem mute_sayAll (lines : List String) : Mute (sayAll lines) := by
  induction lines with
  | nil => exact mute_pure ()
  | cons l ls ih => exact (mute_say l).bind fun _ => ih

theorem mute_readClock : Mute readClock := fun _ => .of_eq rfl rfl

theorem mute_changeFiles (change : FileSystem → Except FileProblem FileSystem) :
    Mute (changeFiles change) := by
  intro w
  rw [changeFiles]
  split <;> exact .of_eq rfl rfl

theorem reads_readDocument (p : FilePath) : Reads (readDocument p) := by
  intro w
  rw [readDocument]
  split <;> rfl

theorem mute_writeDocument (p : FilePath) (doc : Json) : Mute (writeDocument p doc) :=
  mute_changeFiles _

theorem mute_saveSnapshot (front : String) (doc : Json) : Mute (saveSnapshot front doc) := by
  intro w
  rw [saveSnapshot]
  split
  · exact .of_eq rfl rfl
  · split
    · exact .of_eq rfl rfl
    · dsimp only
      split <;> exact .of_eq rfl rfl

theorem mute_pruneSnapshots (keep : Int) : Mute (pruneSnapshots keep) := by
  intro w
  rw [pruneSnapshots]
  split
  · exact .refl w
  · split <;> exact .of_eq rfl rfl

theorem mute_discardSnapshot (ref : String) : Mute (discardSnapshot ref) := by
  intro w
  rw [discardSnapshot]
  split <;> exact .of_eq rfl rfl

theorem mute_logRecord (log : FilePath) (r : AuditRecord) : Mute (logRecord log r) := by
  rw [logRecord]
  split
  · exact mute_readClock.bind fun _ => (mute_changeFiles _).bind fun _ => mute_pure _
  · exact mute_fail _

/-! ### Mutations -/

theorem mute_advise (e : Engine) (doc : Json) : Mute (advise e doc) := by
  refine (mute_ofExcept _ _).bind fun advice => ?_
  dsimp only
  split
  · exact (mute_sayAll _).bind fun _ => mute_pure _
  · exact mute_pure _

theorem mute_sayMutation (e : Engine) (line : String) : Mute (sayMutation e line) := by
  rw [sayMutation]
  split
  · exact mute_say _
  · exact mute_pure ()

theorem mute_adviseIf (wanted : Bool) (e : Engine) (stage : String) (doc : Json) :
    Mute (adviseIf wanted e stage doc) := by
  rw [adviseIf]
  split
  · exact (mute_advise e doc).bind fun _ => (mute_sayMutation e _).bind fun _ => mute_pure _
  · exact mute_pure _

theorem mute_writeOptional (e : Engine) (label : String) (p : Option FilePath) (doc : Json) :
    Mute (writeOptional e label p doc) := by
  cases p with
  | none => exact mute_pure ()
  | some p => exact (mute_writeDocument p doc).bind fun _ => mute_sayMutation e _

theorem mute_snapshotBefore (e : Engine) (wanted : Bool) (doc : Json) :
    Mute (snapshotBefore e wanted doc) := by
  rw [snapshotBefore]
  split
  · exact (mute_saveSnapshot _ _).bind fun _ => (mute_sayMutation e _).bind fun _ => mute_pure _
  · exact mute_pure _

theorem mute_sayPatches (e : Engine) (doc : Json) (patches : List Json) :
    Mute (sayPatches e doc patches) := by
  rw [sayPatches]
  split
  · exact mute_sayAll _
  · exact mute_pure ()

theorem mute_recordMutation (e : Engine) (o : MutationOptions) (backup : Option String) (b : Batch)
    (undo : List Json) : Mute (recordMutation e o backup b undo) := by
  refine (mute_writeOptional e _ _ _).bind fun _ => (mute_writeOptional e _ _ _).bind fun _ => ?_
  split
  · exact mute_pure ()
  · exact (mute_logRecord _ _).bind fun _ => mute_pure ()

theorem mute_recordUnlessDry (e : Engine) (o : MutationOptions) (backup : Option String) (b : Batch)
    (undo : List Json) : Mute (recordUnlessDry e o backup b undo) := by
  rw [recordUnlessDry]
  split
  · exact mute_pure ()
  · exact mute_recordMutation e o backup b undo

/-- A mutation tells its steps in the log only. -/
theorem mute_mutate (e : Engine) (o : MutationOptions) (doc : Json) (patches : List Json) :
    Mute (mutate e o doc patches) :=
  (mute_sayMutation e _).bind fun _ => (mute_snapshotBefore e _ doc).bind fun _ =>
    (mute_adviseIf _ e _ doc).bind fun _ => (mute_sayPatches e doc patches).bind fun _ =>
      (mute_adviseIf _ e _ _).bind fun _ => (mute_recordUnlessDry e o _ _ _).bind fun _ =>
        (mute_sayMutation e _).bind fun _ => (mute_ofExcept _ _).bind fun _ => mute_pure _

/-! ### Rollbacks -/

theorem mute_sayRollback (e : RollbackEngine) (line : String) : Mute (sayRollback e line) := by
  rw [sayRollback]
  split
  · exact mute_say _
  · exact mute_pure ()

theorem mute_adviseOnRollback (e : RollbackEngine) (doc : Json) : Mute (adviseOnRollback e doc) := by
  rw [adviseOnRollback]
  split
  · refine (mute_advise e.toEngine doc).bind fun problems => ?_
    split
    · exact (mute_sayRollback e _).bind fun _ => mute_pure _
    · exact mute_pure _
  · exact mute_pure _

theorem mute_snapshotCurrent (e : RollbackEngine) (wanted : Bool) (doc : Json) :
    Mute (snapshotCurrent e wanted doc) := by
  rw [snapshotCurrent.eq_def]
  split
  · exact mute_pure _
  · exact mute_pure _
  · exact (mute_saveSnapshot _ _).bind fun _ => (mute_sayRollback e _).bind fun _ => mute_pure _

theorem mute_abandonSnapshot (e : RollbackEngine) (backup : Option String) :
    Mute (abandonSnapshot e backup) := by
  cases backup with
  | none => exact mute_pure ()
  | some ref => exact (mute_discardSnapshot ref).bind fun _ => mute_sayRollback e _

theorem mute_rollBackByPatches (e : RollbackEngine) (createBackup : Bool) (doc : Json)
    (patches : List Json) : Mute (rollBackByPatches e createBackup doc patches) := by
  rw [rollBackByPatches]
  split
  · exact mute_fail _
  · refine (mute_snapshotCurrent e createBackup doc).bind fun backup =>
      (mute_sayAll _).bind fun _ => ?_
    split
    · exact (mute_abandonSnapshot e backup).bind fun _ => mute_fail _
    · exact (mute_adviseOnRollback e _).bind fun _ => mute_pure _

theorem mute_rollBackToDocument (e : RollbackEngine) (createBackup : Bool) (doc snapshot : Json) :
    Mute (rollBackToDocument e createBackup doc snapshot) :=
  (mute_snapshotCurrent e createBackup doc).bind fun _ =>
    (mute_adviseOnRollback e snapshot).bind fun _ => mute_pure _

theorem mute_finishRollback (e : RollbackEngine) (o : RollbackOptions) (registry : FilePath)
    (origin : String) (r : RollbackReport) : Mute (finishRollback e o registry origin r) := by
  refine (mute_writeDocument _ _).bind fun _ => (mute_sayRollback e _).bind fun _ => ?_
  split
  · exact (mute_logRecord _ _).bind fun _ => mute_pure _
  · exact mute_pure _

theorem mute_rollBackFileByPatches (e : RollbackEngine) (o : RollbackOptions)
    (registry undo : FilePath) : Mute (rollBackFileByPatches e o registry undo) :=
  (reads_readRegistry registry).mute.bind fun doc => (reads_readUndoFile undo).mute.bind fun patches =>
    (mute_rollBackByPatches e o.createBackup doc patches).bind fun r =>
      mute_finishRollback e o registry undo.text r

theorem mute_rollBackFileToSnapshot (e : RollbackEngine) (o : RollbackOptions) (registry : FilePath)
    (ref : String) : Mute (rollBackFileToSnapshot e o registry ref) := by
  refine (reads_readSnapshot ref).mute.bind fun snapshot => ?_
  have hrest : ∀ doc, Mute (rollBackToDocument e o.createBackup doc snapshot >>= fun r =>
      finishRollback e o registry ref r) := fun doc =>
    (mute_rollBackToDocument e o.createBackup doc snapshot).bind fun r =>
      mute_finishRollback e o registry ref r
  split
  · exact (reads_readRegistry registry).mute.bind hrest
  · exact (mute_pure _).bind hrest

theorem mute_rollBackLast (e : RollbackEngine) (o : RollbackOptions) (registry : FilePath) :
    Mute (rollBackLast e o registry) := by
  refine (reads_lastRollbackPoint e).mute.bind fun point => ?_
  split
  · exact mute_fail _
  · refine (mute_sayRollback e _).bind fun _ => ?_
    split
    · exact mute_rollBackFileByPatches e o registry _
    · exact mute_rollBackFileToSnapshot e o registry _

/-- A rollback tells its steps in the log only. -/
theorem mute_rollBackFrom (e : RollbackEngine) (o : RollbackOptions) (registry : FilePath)
    (source : Option String) : Mute (rollBackFrom e o registry source) := by
  rw [rollBackFrom.eq_def]
  split
  · exact mute_rollBackLast e o registry
  · split
    · exact mute_rollBackLast e o registry
    · split
      · dsimp only
        split
        · exact mute_rollBackFileToSnapshot e o registry _
        · exact mute_rollBackFileByPatches e o registry _
      · exact mute_fail _

/-- Making room tells its steps in the log only. -/
theorem mute_cleanUp (e : RollbackEngine) (keep : Int) : Mute (cleanUp e keep) := by
  refine (mute_pruneSnapshots keep).bind fun ds =>
    (Mute.inTurn (mute_sayRollback e) _).bind fun _ => ?_
  dsimp only
  split
  · exact (mute_sayRollback e _).bind fun _ => mute_pure _
  · exact mute_pure _

/-! ### Registries and scans -/

theorem reads_load (p : FilePath) : Reads (Registry.load p) := by
  refine reads_files.bind fun fs => ?_
  dsimp only
  split
  · split
    · split
      · exact reads_fail _
      · exact reads_fail _
    · exact reads_pure _
    · exact reads_fail _
  · exact reads_fail _

theorem mute_sayScan (verbose : Bool) (line : String) : Mute (sayScan verbose line) := by
  rw [sayScan]
  split
  · exact mute_say _
  · exact mute_pure ()

theorem mute_scanFiles [Script.Parser] (d : Declared) (rules : List Rule) (s : ScanSettings)
    (r : ScanResult) (paths : List FilePath) : Mute (scanFiles d rules s r paths) := by
  induction paths generalizing r with
  | nil => exact mute_pure r
  | cons p paths ih =>
      have hfile : Mute (scanFile d rules s r p) :=
        reads_files.mute.bind fun _ => (mute_ofExcept _ _).bind fun _ =>
          (mute_sayAll _).bind fun _ => mute_pure _
      exact hfile.bind fun r => ih r

/-- A scan tells its steps in the log only. -/
theorem mute_scanDirectory [Script.Parser] (registry : Json) (s : ScanSettings)
    (source : FilePath) :
    Mute (scanDirectory registry s source) := by
  refine reads_files.mute.bind fun fs => ?_
  split
  case' isTrue => refine (mute_fail _).bind fun _ => ?_
  all_goals
    exact (mute_ofExcept _ _).bind fun rules => (mute_sayScan _ _).bind fun _ =>
      reads_files.mute.bind fun fs => (mute_ofExcept _ _).bind fun paths =>
        (mute_sayScan _ _).bind fun _ => mute_scanFiles _ rules s {} paths

end Action

end DesignRegistry
