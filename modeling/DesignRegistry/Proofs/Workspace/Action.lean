/-
**What actions leave alone.**

An action is a function of the workspace, and a sequence of actions ends with the first failure.
Telling what is done, and asking the schemas for advice, adds to the log at most: such an action is
quiet, and what follows it finds the same files, the same clock and the same snapshots.

Main definitions:

* `Workspace.Agrees` — two workspaces with the same files, clock and snapshots;
* `Engine.Advises` — the schemas of an engine give advice on every document;
* `Action.Reads` — an action that leaves the workspace as it is;
* `Action.Quiet` — an action that gives a result and adds to what is printed at most;
* `Action.Prints` — an action that adds to what is printed at most.

Main results:

* `Action.bind_cases`, `Action.Quiet.bind_cases` — what a sequence of actions does, and one that
  starts with a quiet action;
* `Action.quiet_adviseIf` — **asking the bundled schemas for advice is quiet**.
-/
import DesignRegistry.Proofs.Schema.Total
import DesignRegistry.Proofs.Storage.FileSystem
import DesignRegistry.Workspace.Rollback

set_option relaxedAutoImplicit false
set_option autoImplicit false

namespace DesignRegistry

/-! ### Agreement -/

/-- Two workspaces with the same files, clock and snapshots. -/
structure Workspace.Agrees (w w' : Workspace) : Prop where
  files : w'.files = w.files
  clock : w'.clock = w.clock
  store : w'.store = w.store

theorem Workspace.Agrees.refl (w : Workspace) : w.Agrees w := ⟨rfl, rfl, rfl⟩

theorem Workspace.Agrees.trans {w₁ w₂ w₃ : Workspace} (h : w₁.Agrees w₂) (h' : w₂.Agrees w₃) :
    w₁.Agrees w₃ :=
  ⟨h'.files.trans h.files, h'.clock.trans h.clock, h'.store.trans h.store⟩

/-- The schemas of an engine give advice on every document. -/
def Engine.Advises (e : Engine) : Prop :=
  ∀ doc, ∃ advice, advisoryReport e.validator doc = .ok advice

theorem Engine.advises_of_standard {e : Engine} (h : e.validator = .standard) : e.Advises := by
  intro doc
  rw [h]
  exact advisoryReport_standard doc

namespace Action

variable {α β γ : Type}

/-! ### Sequences -/

theorem bind_assoc (x : Action α) (f : α → Action β) (g : β → Action γ) :
    (x >>= f) >>= g = x >>= fun a => f a >>= g := by
  funext w
  change andThen (andThen x f) g w = andThen x (fun a => andThen (f a) g) w
  rw [andThen, andThen, andThen]
  cases x w with
  | mk r w' => cases r <;> rfl

theorem pure_bind (a : α) (f : α → Action β) : (pure a : Action α) >>= f = f a := rfl

theorem bind_of_ok {x : Action α} {next : α → Action β} {a : α} {w w' : Workspace}
    (h : x w = (.ok a, w')) : (x >>= next) w = next a w' := by
  change andThen x next w = _
  rw [andThen, h]

theorem bind_of_error {x : Action α} {next : α → Action β} {f : Failure} {w w' : Workspace}
    (h : x w = (.error f, w')) : (x >>= next) w = (.error f, w') := by
  change andThen x next w = _
  rw [andThen, h]

/-- Where the result of an action is dropped, what it does is not. -/
theorem bind_unit_snd {α : Type} (x : Action α) (w : Workspace) :
    ((x >>= fun _ => (pure () : Action Unit)) w).2 = (x w).2 := by
  cases hrun : x w with
  | mk r w' =>
      cases r with
      | error f => rw [bind_of_error hrun]
      | ok a =>
          rw [bind_of_ok hrun]
          rfl

/-- A failure of a sequence is one of its first action, or of what follows its result. -/
theorem bind_error {x : Action α} {next : α → Action β} {f : Failure} {w w' : Workspace}
    (h : (x >>= next) w = (.error f, w')) :
    x w = (.error f, w') ∨ ∃ a w₁, x w = (.ok a, w₁) ∧ next a w₁ = (.error f, w') := by
  cases hx : x w with
  | mk r w₁ =>
      cases r with
      | error g =>
          rw [bind_of_error hx] at h
          obtain rfl := Except.error.inj (congrArg Prod.fst h)
          obtain rfl := congrArg Prod.snd h
          exact .inl rfl
      | ok a =>
          rw [bind_of_ok hx] at h
          exact .inr ⟨a, w₁, rfl, h⟩

/-- A result of a sequence is one of what follows a result of its first action. -/
theorem bind_ok {x : Action α} {next : α → Action β} {b : β} {w w' : Workspace}
    (h : (x >>= next) w = (.ok b, w')) : ∃ a w₁, x w = (.ok a, w₁) ∧ next a w₁ = (.ok b, w') := by
  cases hx : x w with
  | mk r w₁ =>
      cases r with
      | error f =>
          rw [bind_of_error hx] at h
          exact absurd (congrArg Prod.fst h) (by simp)
      | ok a =>
          rw [bind_of_ok hx] at h
          exact ⟨a, w₁, rfl, h⟩

/-- What holds of each failure of the first action, and of what follows each of its results, holds of
a sequence. -/
theorem bind_cases {x : Action α} {next : α → Action β} {w : Workspace}
    {P : Except Failure β × Workspace → Prop}
    (herror : ∀ f w', x w = (.error f, w') → P (.error f, w'))
    (hok : ∀ a w', x w = (.ok a, w') → P (next a w')) : P ((x >>= next) w) := by
  cases hx : x w with
  | mk r w' =>
      cases r with
      | error f =>
          rw [bind_of_error hx]
          exact herror f w' hx
      | ok a =>
          rw [bind_of_ok hx]
          exact hok a w' hx

theorem pure_eq (a : α) (w : Workspace) : (pure a : Action α) w = (.ok a, w) := rfl

/-- A change of the files fails only as the change does. -/
theorem changeFiles_error {change : FileSystem → Except FileProblem FileSystem} {f : Failure}
    {w w' : Workspace} (h : changeFiles change w = (.error f, w')) :
    ∃ problem, f = .file problem ∧ change w.files = .error problem := by
  rw [changeFiles] at h
  split at h
  · exact absurd (congrArg Prod.fst h) (by simp)
  · next problem hchange =>
      exact ⟨problem, (Except.error.inj (congrArg Prod.fst h)).symm, hchange⟩

/-- A change of the files that is made changes the files alone. -/
theorem changeFiles_eq_ok {change : FileSystem → Except FileProblem FileSystem} {w w' : Workspace}
    (h : changeFiles change w = (.ok (), w')) :
    change w.files = .ok w'.files ∧ w'.clock = w.clock ∧ w'.store = w.store := by
  rw [changeFiles] at h
  split at h
  · next fs hchange =>
      obtain ⟨-, rfl⟩ := Prod.mk.inj h
      exact ⟨hchange, rfl, rfl⟩
  · exact absurd (congrArg Prod.fst h) (by simp)

/-- An action that leaves the workspace as it is. -/
def Reads (x : Action α) : Prop := ∀ w, (x w).2 = w

theorem reads_pure (a : α) : Reads (pure a) := fun _ => rfl

theorem reads_fail (f : Failure) : Reads (fail f : Action α) := fun _ => rfl

theorem reads_files : Reads files := fun _ => rfl

theorem reads_ofExcept {ε : Type} (cause : ε → Failure) (r : Except ε α) :
    Reads (ofExcept cause r) := by
  cases r with
  | ok a => exact fun _ => rfl
  | error e => exact fun _ => rfl

/-- A computation that gives a result leaves the workspace as it is. -/
theorem ofExcept_eq_ok {ε : Type} {cause : ε → Failure} {r : Except ε α} {a : α} {w w' : Workspace}
    (h : ofExcept cause r w = (.ok a, w')) : r = .ok a ∧ w' = w := by
  cases r with
  | error e => exact absurd (congrArg Prod.fst h) (by simp [ofExcept, fail])
  | ok b =>
      obtain ⟨hb, rfl⟩ := Prod.mk.inj h
      exact ⟨congrArg Except.ok (Except.ok.inj hb), rfl⟩

theorem Reads.bind {x : Action α} {next : α → Action β} (hx : Reads x)
    (hnext : ∀ a, Reads (next a)) : Reads (x >>= next) := by
  intro w
  cases hrun : x w with
  | mk r w' =>
      have hw : w' = w := by
        have hsame := hx w
        rwa [hrun] at hsame
      cases r with
      | error f => rw [bind_of_error hrun, hw]
      | ok a => rw [bind_of_ok hrun, hw, hnext a w]

/-- A result of a sequence that starts with an action that only reads. -/
theorem Reads.bind_ok {x : Action α} (hx : Reads x) {next : α → Action β} {b : β}
    {w w' : Workspace} (h : (x >>= next) w = (.ok b, w')) :
    ∃ a, x w = (.ok a, w) ∧ next a w = (.ok b, w') := by
  obtain ⟨a, w₁, hrun, hnext⟩ := Action.bind_ok h
  have hsame := hx w
  rw [hrun] at hsame
  obtain rfl : w₁ = w := hsame
  exact ⟨a, hrun, hnext⟩

/-- The outcome of an action that only reads. -/
theorem Reads.outcome {x : Action α} (hx : Reads x) : Reads (outcome x) := fun w => hx w

theorem Reads.eq_of_fst {x : Action α} (hx : Reads x) {w : Workspace} {r : Except Failure α}
    (h : (x w).1 = r) : x w = (r, w) := Prod.ext h (hx w)

theorem reads_loadPatches (p : FilePath) : Reads (loadPatches p) := by
  refine reads_files.bind fun fs => ?_
  split
  · split
    · exact reads_ofExcept _ _
    · split
      · exact reads_fail _
      · exact reads_fail _
  · exact reads_fail _

theorem reads_readRegistry (p : FilePath) : Reads (readRegistry p) := by
  refine reads_files.bind fun fs => ?_
  split
  · split
    · exact reads_pure _
    · split
      · exact reads_fail _
      · exact reads_fail _
  · exact reads_fail _

/-- The document of a registry's file is read. -/
theorem readRegistry_eq_ok {p : FilePath} {doc : Json} {w : Workspace}
    (h : w.files.documentOf p = .ok doc) : readRegistry p w = (.ok doc, w) := by
  rw [readRegistry, bind_of_ok (show files w = (.ok w.files, w) from rfl),
    if_pos (FileSystem.pathExists_of_documentOf h)]
  simp only [h]
  rfl

theorem reads_readUndoFile (p : FilePath) : Reads (readUndoFile p) := by
  refine (reads_loadPatches p).outcome.bind fun r => ?_
  split
  · exact reads_pure _
  · exact reads_fail _
  · exact reads_fail _

/-- The patches of an undo file are read. -/
theorem readUndoFile_eq_ok {p : FilePath} {patches : List Json} {w : Workspace}
    (h : (loadPatches p w).1 = .ok patches) : readUndoFile p w = (.ok patches, w) := by
  have hload := (reads_loadPatches p).eq_of_fst h
  have houtcome : Action.outcome (loadPatches p) w = (.ok (.ok patches), w) := by
    rw [Action.outcome, hload]
  rw [readUndoFile, bind_of_ok houtcome]
  rfl

theorem reads_loadSnapshot (ref : String) : Reads (loadSnapshot ref) := by
  intro w
  rw [loadSnapshot]
  split
  · split <;> rfl
  · split <;> rfl

theorem reads_readSnapshot (ref : String) : Reads (readSnapshot ref) := by
  refine (reads_loadSnapshot ref).outcome.bind fun r => ?_
  split
  · exact reads_pure _
  · exact reads_fail _
  · split
    · exact reads_fail _
    · exact reads_fail _
  · exact reads_fail _

theorem reads_listSnapshots : Reads listSnapshots := by
  intro w
  rw [listSnapshots]
  split <;> rfl

theorem reads_lastRollbackPoint (e : RollbackEngine) : Reads (lastRollbackPoint e) := by
  refine reads_listSnapshots.bind fun ss => ?_
  split
  · exact reads_pure _
  · exact reads_files.bind fun fs => reads_pure _

/-! ### Quiet actions -/

/-- An action that gives a result and adds to what is printed at most. -/
def Quiet (x : Action α) : Prop := ∀ w, ∃ a w', x w = (.ok a, w') ∧ w.Agrees w'

theorem quiet_pure (a : α) : Quiet (pure a) := fun w => ⟨a, w, rfl, .refl w⟩

theorem Quiet.bind {x : Action α} {next : α → Action β} (hx : Quiet x)
    (hnext : ∀ a, Quiet (next a)) : Quiet (x >>= next) := by
  intro w
  obtain ⟨a, w₁, hrun, hagree⟩ := hx w
  obtain ⟨b, w₂, hrun', hagree'⟩ := hnext a w₁
  exact ⟨b, w₂, (bind_of_ok hrun).trans hrun', hagree.trans hagree'⟩

/-- What follows a quiet action starts from a workspace that agrees. -/
theorem Quiet.bind_cases {x : Action α} (hx : Quiet x) {next : α → Action β} {w : Workspace}
    {P : Except Failure β × Workspace → Prop} (h : ∀ a w', w.Agrees w' → P (next a w')) :
    P ((x >>= next) w) := by
  obtain ⟨a, w', hrun, hagree⟩ := hx w
  rw [bind_of_ok hrun]
  exact h a w' hagree

/-- A quiet action does not fail. -/
theorem Quiet.not_error {x : Action α} (hx : Quiet x) {f : Failure} {w w' : Workspace}
    (h : x w = (.error f, w')) : False := by
  obtain ⟨a, w₁, hrun, -⟩ := hx w
  rw [hrun] at h
  exact absurd (congrArg Prod.fst h) (by simp)

/-- An action that adds to what is printed at most; unlike a quiet one it may fail. -/
def Prints (x : Action α) : Prop := ∀ w : Workspace, w.Agrees (x w).2

/-- Where it gives a result, an action that prints leaves the files and the snapshots alone. -/
theorem Prints.agrees {x : Action α} (hx : Prints x) {w w' : Workspace} {r : Except Failure α}
    (h : x w = (r, w')) : w.Agrees w' := by
  have hagree := hx w
  rwa [h] at hagree

theorem Quiet.prints {x : Action α} (hx : Quiet x) : Prints x := by
  intro w
  obtain ⟨a, w', hrun, hagree⟩ := hx w
  rw [hrun]
  exact hagree

theorem Reads.prints {x : Action α} (hx : Reads x) : Prints x := by
  intro w
  rw [hx w]
  exact .refl w

theorem Prints.bind {x : Action α} {next : α → Action β} (hx : Prints x)
    (hnext : ∀ a, Prints (next a)) : Prints (x >>= next) := by
  intro w
  have hagree := hx w
  cases hrun : x w with
  | mk r w' =>
      rw [hrun] at hagree
      cases r with
      | error f =>
          rw [bind_of_error hrun]
          exact hagree
      | ok a =>
          rw [bind_of_ok hrun]
          exact hagree.trans (hnext a w')

theorem quiet_say (line : String) : Quiet (say line) := fun _ =>
  ⟨(), _, rfl, rfl, rfl, rfl⟩

theorem quiet_sayAll (lines : List String) : Quiet (sayAll lines) := by
  induction lines with
  | nil => exact quiet_pure ()
  | cons l ls ih => exact (quiet_say l).bind fun _ => ih

theorem quiet_sayMutation (e : Engine) (line : String) : Quiet (sayMutation e line) := by
  rw [sayMutation]
  split
  · exact quiet_say _
  · exact quiet_pure ()

theorem quiet_sayPatches (e : Engine) (doc : Json) (patches : List Json) :
    Quiet (sayPatches e doc patches) := by
  rw [sayPatches]
  split
  · exact quiet_sayAll _
  · exact quiet_pure ()

theorem quiet_sayRollback (e : RollbackEngine) (line : String) : Quiet (sayRollback e line) := by
  rw [sayRollback]
  split
  · exact quiet_say _
  · exact quiet_pure ()

/-! ### Advice -/

theorem quiet_advise {e : Engine} (he : e.Advises) (doc : Json) : Quiet (advise e doc) := by
  obtain ⟨⟨problems, lines⟩, hadvice⟩ := he doc
  rw [advise, hadvice]
  refine (quiet_pure (problems, lines)).bind fun _ => ?_
  dsimp only
  split
  · exact (quiet_sayAll _).bind fun _ => quiet_pure _
  · exact quiet_pure _

theorem prints_advise (e : Engine) (doc : Json) : Prints (advise e doc) := by
  refine (reads_ofExcept _ _).prints.bind fun advice => ?_
  dsimp only
  split
  · exact ((quiet_sayAll _).bind fun _ => quiet_pure _).prints
  · exact (quiet_pure _).prints

/-- Asking the bundled schemas for advice is quiet. -/
theorem quiet_adviseIf {e : Engine} (he : e.validator = .standard) (wanted : Bool)
    (stage : String) (doc : Json) : Quiet (adviseIf wanted e stage doc) := by
  rw [adviseIf]
  split
  · exact (quiet_advise (Engine.advises_of_standard he) doc).bind fun _ =>
      (quiet_sayMutation e _).bind fun _ => quiet_pure _
  · exact quiet_pure _

theorem quiet_adviseOnRollback {e : RollbackEngine} (he : e.validate = true → e.toEngine.Advises)
    (doc : Json) : Quiet (adviseOnRollback e doc) := by
  rw [adviseOnRollback]
  split
  · next hvalidate =>
      refine (quiet_advise (he hvalidate) doc).bind fun problems => ?_
      split
      · exact (quiet_sayRollback e _).bind fun _ => quiet_pure _
      · exact quiet_pure _
  · exact quiet_pure _

theorem prints_adviseOnRollback (e : RollbackEngine) (doc : Json) :
    Prints (adviseOnRollback e doc) := by
  rw [adviseOnRollback]
  split
  · refine (prints_advise e.toEngine doc).bind fun problems => ?_
    split
    · exact ((quiet_sayRollback e _).bind fun _ => quiet_pure _).prints
    · exact (quiet_pure _).prints
  · exact (quiet_pure _).prints

end Action

end DesignRegistry
