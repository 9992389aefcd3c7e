/-
**A batch skips what fails.**

The outcome of a batch is the outcome of its patches: the document that they reach when those that
fail are passed over, and a list of the failures.  Only files that cannot be written, and a document
without a text, keep a mutation from giving its report; nothing else that a patch holds does.

Main definitions:

* `reached` — the document that patches reach when those that fail are passed over;
* `failures`, `survivors` — the patches that fail, with their positions, and the others;
* `Workspace.CanSave` — the store can save a document;
* `FailsToWrite` — a failure to write one of the files that a mutation is asked for;
* `MutationReport.Exact` — a report that tells exactly which patches fail.

Main results:

* `Batch.run_eq` — the outcome of a batch by `reached` and `failures`;
* `Action.mutate_run` — all that a mutation does to a workspace;
* `mutate_exact` — **a mutation applies the patches that succeed and reports the others**.
-/
import DesignRegistry.Proofs.Patch.Summary
import DesignRegistry.Proofs.Workspace.Action

set_option relaxedAutoImplicit false
set_option autoImplicit false

namespace DesignRegistry

/-! ### Patches in turn -/

/-- The document that patches reach when those that fail are passed over. -/
def reached (doc : Json) (patches : List Json) : Json :=
  patches.foldl (fun d p => (applyPatch d p).toOption.getD d) doc

/-- The patches that fail, the first of all patches being the `i`-th. -/
def failures (doc : Json) (i : ℕ) : List Json → List FailedPatch
  | [] => []
  | p :: ps =>
    match applyPatch doc p with
    | .ok d => failures d (i + 1) ps
    | .error e => ⟨i, p, e⟩ :: failures doc (i + 1) ps

/-- The patches that succeed. -/
def survivors (doc : Json) : List Json → List Json
  | [] => []
  | p :: ps =>
    match applyPatch doc p with
    | .ok d => p :: survivors d ps
    | .error _ => survivors doc ps

theorem reached_cons_ok {doc d p : Json} (h : applyPatch doc p = .ok d) (ps : List Json) :
    reached doc (p :: ps) = reached d ps := by
  rw [reached, List.foldl_cons, h]
  rfl

theorem reached_cons_error {doc p : Json} {e : PatchError} (h : applyPatch doc p = .error e)
    (ps : List Json) : reached doc (p :: ps) = reached doc ps := by
  rw [reached, List.foldl_cons, h]
  rfl

/-- The outcome of more patches, given the outcome so far. -/
theorem Batch.steps_eq (b : Batch) (i : ℕ) (ps : List Json) :
    b.steps i ps = ⟨reached b.document ps, b.successful + (survivors b.document ps).length,
      b.failed ++ failures b.document i ps⟩ := by
  induction ps generalizing b i with
  | nil => simp [steps, reached, survivors, failures]
  | cons p ps ih =>
      rw [steps, ih, step]
      cases h : applyPatch b.document p with
      | ok d =>
          rw [reached_cons_ok h]
          simp only [survivors, failures, h, List.length_cons]
          rw [Nat.add_assoc, Nat.add_comm 1]
      | error e =>
          rw [reached_cons_error h]
          simp only [survivors, failures, h, List.append_assoc, List.singleton_append]

/-- The outcome of a batch. -/
theorem Batch.run_eq (doc : Json) (ps : List Json) :
    run doc ps = ⟨reached doc ps, (survivors doc ps).length, failures doc 0 ps⟩ := by
  rw [run, steps_eq]
  simp

/-- Each patch succeeds or fails. -/
theorem length_survivors_add_failures (doc : Json) (i : ℕ) (ps : List Json) :
    (survivors doc ps).length + (failures doc i ps).length = ps.length := by
  induction ps generalizing doc i with
  | nil => rfl
  | cons p ps ih =>
      cases h : applyPatch doc p with
      | ok d =>
          have hrest := ih d (i + 1)
          simp only [survivors, failures, h, List.length_cons]
          omega
      | error e =>
          have hrest := ih doc (i + 1)
          simp only [survivors, failures, h, List.length_cons]
          omega

/-- A failure is listed exactly if its patch stands at its position and fails there. -/
theorem mem_failures_iff {doc : Json} {i : ℕ} {ps : List Json} {f : FailedPatch} :
    f ∈ failures doc i ps ↔ ∃ j, f.index = i + j ∧ ps[j]? = some f.patch ∧
      applyPatch (reached doc (ps.take j)) f.patch = .error f.error := by
  -- what stands at `j` behind the first patch stands at `j + 1` in the list
  induction ps generalizing doc i with
  | nil => simp [failures]
  | cons p ps ih =>
      cases h : applyPatch doc p with
      | ok d =>
          simp only [failures, h]
          rw [ih]
          constructor
          · rintro ⟨j, hindex, hget, hfail⟩
            exact ⟨j + 1, by omega, hget, by rwa [List.take_succ_cons, reached_cons_ok h]⟩
          · rintro ⟨j, hindex, hget, hfail⟩
            cases j with
            | zero =>
                obtain rfl : p = f.patch := Option.some.inj hget
                rw [List.take_zero, show reached doc [] = doc from rfl, h] at hfail
                exact absurd hfail (by simp)
            | succ j =>
                rw [List.take_succ_cons, reached_cons_ok h] at hfail
                exact ⟨j, by omega, hget, hfail⟩
      | error e =>
          simp only [failures, h, List.mem_cons]
          rw [ih]
          constructor
          · rintro (rfl | ⟨j, hindex, hget, hfail⟩)
            · exact ⟨0, rfl, rfl, h⟩
            · exact ⟨j + 1, by omega, hget, by rwa [List.take_succ_cons, reached_cons_error h]⟩
          · rintro ⟨j, hindex, hget, hfail⟩
            cases j with
            | zero =>
                obtain ⟨index, patch, error⟩ := f
                obtain rfl : p = patch := Option.some.inj hget
                rw [List.take_zero, show reached doc [] = doc from rfl, h] at hfail
                obtain rfl : e = error := Except.error.inj hfail
                obtain rfl : index = i := hindex
                exact .inl rfl
            | succ j =>
                rw [List.take_succ_cons, reached_cons_error h] at hfail
                exact .inr ⟨j, by omega, hget, hfail⟩

theorem le_index_of_mem_failures {doc : Json} {i : ℕ} {ps : List Json} {f : FailedPatch}
    (h : f ∈ failures doc i ps) : i ≤ f.index := by
  obtain ⟨j, hindex, -⟩ := mem_failures_iff.1 h
  omega

/-- The positions of failures increase. -/
theorem pairwise_index_failures (doc : Json) (i : ℕ) (ps : List Json) :
    ((failures doc i ps).map FailedPatch.index).Pairwise (· < ·) := by
  induction ps generalizing doc i with
  | nil => exact List.Pairwise.nil
  | cons p ps ih =>
      cases h : applyPatch doc p with
      | ok d =>
          simp only [failures, h]
          exact ih d (i + 1)
      | error e =>
          simp only [failures, h, List.map_cons]
          refine List.pairwise_cons.2 ⟨fun j hj => ?_, ih doc (i + 1)⟩
          obtain ⟨f, hf, rfl⟩ := List.mem_map.1 hj
          exact le_index_of_mem_failures hf

/-- The patches that succeed all succeed in a row, and reach the same document. -/
theorem run_survivors (doc : Json) (i : ℕ) (ps : List Json) :
    reached doc (survivors doc ps) = reached doc ps ∧ failures doc i (survivors doc ps) = [] := by
  induction ps generalizing doc i with
  | nil => exact ⟨rfl, rfl⟩
  | cons p ps ih =>
      cases h : applyPatch doc p with
      | ok d =>
          obtain ⟨hreached, hnone⟩ := ih d (i + 1)
          simp only [survivors, h]
          refine ⟨?_, by simp only [failures, h, hnone]⟩
          rw [reached_cons_ok h, reached_cons_ok h, hreached]
      | error e =>
          simp only [survivors, h]
          rw [reached_cons_error h]
          exact ih doc i

/-- The patches that are not listed as failures are those that succeed. -/
theorem filter_failures_eq_survivors (doc : Json) (i : ℕ) (ps : List Json) :
    ((ps.zipIdx i).filter fun m =>
      !((failures doc i ps).map FailedPatch.index).contains m.2).map Prod.fst =
      survivors doc ps := by
  induction ps generalizing doc i with
  | nil => rfl
  | cons p ps ih =>
      rw [List.zipIdx_cons]
      cases h : applyPatch doc p with
      | ok d =>
          simp only [survivors, failures, h]
          have hnot : ((failures d (i + 1) ps).map FailedPatch.index).contains i = false := by
            rw [List.contains_eq_mem, decide_eq_false_iff_not]
            intro hmem
            obtain ⟨f, hf, hindex⟩ := List.mem_map.1 hmem
            have hle := le_index_of_mem_failures hf
            omega
          rw [List.filter_cons_of_pos (by simp only [hnot, Bool.not_false]), List.map_cons, ih d (i + 1)]
      | error e =>
          simp only [survivors, failures, h, List.map_cons]
          rw [List.filter_cons_of_neg (by simp), ← ih doc (i + 1)]
          refine congrArg (List.map Prod.fst) (List.filter_congr fun m hm => ?_)
          have hle := (List.mem_zipIdx hm).1
          have hne : m.2 ≠ i := by omega
          simp [hne]

/-! ### Files and snapshots -/

/-- The store can save a document. -/
def Workspace.CanSave (w : Workspace) (front : String) (doc : Json) : Prop :=
  ∃ ref, (Action.saveSnapshot front doc w).1 = .ok ref

/-- The files that a mutation is asked for. -/
def MutationOptions.requested (o : MutationOptions) (e : Engine) : List FilePath :=
  o.target.toList ++ o.undo.toList ++ e.auditLog.toList

/-- A failure to write one of the files that a mutation is asked for. -/
def FailsToWrite (e : Engine) (o : MutationOptions) (f : Failure) : Prop :=
  o.dryRun = false ∧ ∃ p ∈ o.requested e, ∃ fs problem, f = .file problem ∧
    ((∃ doc, FileSystem.writeDocument fs p doc = .error problem) ∨
      ∃ doc, FileSystem.appendLine fs p doc = .error problem)

namespace Action

/-- Saving depends on nothing that is printed. -/
theorem saveSnapshot_agrees (front : String) (doc : Json) {w w' : Workspace}
    (h : w.Agrees w') : (saveSnapshot front doc w').1 = (saveSnapshot front doc w).1 ∧
      (saveSnapshot front doc w).2.Agrees (saveSnapshot front doc w').2 := by
  obtain ⟨files, clock, store, output, log⟩ := w
  obtain ⟨files', clock', store', output', log'⟩ := w'
  obtain ⟨rfl, rfl, rfl⟩ := h
  cases store' with
  | memory m => exact ⟨rfl, rfl, rfl, rfl⟩
  | directory dir =>
      simp only [saveSnapshot]
      cases FileSystem.makeDirectories files' dir with
      | error problem => exact ⟨rfl, rfl, rfl, rfl⟩
      | ok fs =>
          simp only
          cases fs.addSnapshot dir front clock'.read.1.timestamp doc with
          | error problem => exact ⟨rfl, rfl, rfl, rfl⟩
          | ok saved => exact ⟨rfl, rfl, rfl, rfl⟩

/-- A snapshot before a mutation is what the store saves. -/
theorem snapshotBefore_run (e : Engine) (doc : Json) (w : Workspace) :
    match saveSnapshot SnapshotKind.mutation.front doc w with
    | (.error f, w') => snapshotBefore e true doc w = (.error f, w')
    | (.ok ref, w') => ∃ w'', w'.Agrees w'' ∧ snapshotBefore e true doc w = (.ok (some ref), w'') := by
  cases hsave : saveSnapshot SnapshotKind.mutation.front doc w with
  | mk r w' =>
      cases r with
      | error f => exact bind_of_error hsave
      | ok ref =>
          obtain ⟨a, w'', hrun, hagree⟩ := quiet_sayMutation e ("backup: " ++ ref) w'
          exact ⟨w'', hagree, (bind_of_ok hsave).trans (bind_of_ok hrun)⟩

/-- A document that cannot be put into a file is the only failure of an optional file. -/
theorem writeOptional_error {e : Engine} {label : String} {p : Option FilePath} {doc : Json}
    {w w' : Workspace} {f : Failure} (h : writeOptional e label p doc w = (.error f, w')) :
    ∃ q ∈ p, ∃ fs problem, f = .file problem ∧
      FileSystem.writeDocument fs q doc = .error problem := by
  cases p with
  | none => exact ((quiet_pure ()).not_error h).elim
  | some q =>
      rcases bind_error h with h | ⟨_, _, _, h⟩
      · obtain ⟨problem, hf, hwrite⟩ := changeFiles_error h
        exact ⟨q, rfl, w.files, problem, hf, hwrite⟩
      · exact ((quiet_sayMutation e _).not_error h).elim

/-- An entry that cannot be added is the only failure of the audit log. -/
theorem logRecord_error {log : FilePath} {r : AuditRecord} {w w' : Workspace} {f : Failure}
    (hr : AuditRecord.types.contains r.type = true) (h : logRecord log r w = (.error f, w')) :
    ∃ fs problem, f = .file problem ∧
      ∃ doc, FileSystem.appendLine fs log doc = .error problem := by
  rw [logRecord, if_pos hr] at h
  rcases bind_error h with h | ⟨t, w₁, _, h⟩
  · exact absurd (congrArg Prod.fst h) (by simp [readClock])
  rcases bind_error h with h | ⟨_, _, _, h⟩
  · obtain ⟨problem, hf, hadd⟩ := changeFiles_error h
    exact ⟨w₁.files, problem, hf, _, hadd⟩
  · exact ((quiet_pure _).not_error h).elim

/-- An entry that is added tells when it was, and nothing but the log and the clock changes. -/
theorem logRecord_eq_ok {log : FilePath} {r : AuditRecord} {w w' : Workspace} {entry : Json}
    (h : logRecord log r w = (.ok entry, w')) : entry = r.entry w.clock.read.1.timestamp ∧
      w.files.appendLine log entry = .ok w'.files ∧ w'.store = w.store := by
  rw [logRecord] at h
  split at h
  · obtain ⟨t, w₁, hread, h⟩ := bind_ok h
    obtain ⟨ht, rfl⟩ := Prod.mk.inj hread
    obtain rfl := Except.ok.inj ht
    obtain ⟨_, w₂, hadd, h⟩ := bind_ok h
    obtain ⟨hentry, rfl⟩ := Prod.mk.inj h
    obtain ⟨hfiles, -, hstore⟩ := changeFiles_eq_ok hadd
    rw [← Except.ok.inj hentry]
    exact ⟨rfl, hfiles, hstore⟩
  · exact absurd (congrArg Prod.fst h) (by simp [fail])

/-- Recording a mutation fails only where one of the files it is asked for cannot be written. -/
theorem recordUnlessDry_error {e : Engine} {o : MutationOptions} {backup : Option String}
    {b : Batch} {undo : List Json} {w w' : Workspace} {f : Failure}
    (h : recordUnlessDry e o backup b undo w = (.error f, w')) : FailsToWrite e o f := by
  cases hdry : o.dryRun with
  | true =>
      rw [recordUnlessDry, if_pos hdry] at h
      exact ((quiet_pure ()).not_error h).elim
  | false =>
      rw [recordUnlessDry, if_neg (by simp [hdry])] at h
      refine ⟨hdry, ?_⟩
      rcases bind_error h with h | ⟨_, w₁, _, h⟩
      · obtain ⟨p, hp, fs, problem, hf, hwrite⟩ := writeOptional_error h
        refine ⟨p, ?_, fs, problem, hf, .inl ⟨_, hwrite⟩⟩
        exact List.mem_append_left _ (List.mem_append_left _ (Option.mem_toList.2 hp))
      rcases bind_error h with h | ⟨_, w₂, _, h⟩
      · obtain ⟨p, hp, fs, problem, hf, hwrite⟩ := writeOptional_error h
        refine ⟨p, ?_, fs, problem, hf, .inl ⟨_, hwrite⟩⟩
        exact List.mem_append_left _ (List.mem_append_right _ (Option.mem_toList.2 hp))
      cases hlog : e.auditLog with
      | none =>
          rw [hlog] at h
          exact ((quiet_pure ()).not_error h).elim
      | some log =>
          rw [hlog] at h
          rcases bind_error h with h | ⟨_, _, _, h⟩
          · obtain ⟨fs, problem, hf, hadd⟩ := logRecord_error rfl h
            refine ⟨log, ?_, fs, problem, hf, .inr hadd⟩
            exact List.mem_append_right _ (Option.mem_toList.2 hlog)
          · exact ((quiet_pure ()).not_error h).elim

end Action

/-! ### Mutations -/

/-- What a report of a mutation tells of its patches. -/
structure MutationReport.Tells (r : MutationReport) (doc : Json) (patches : List Json) : Prop where
  mutations : r.mutations = patches.length
  successful : r.successful = (survivors doc patches).length
  failed : r.failed = failures doc 0 patches
  document : r.document = reached doc patches
  undo : r.undo = undoPatches (reached doc patches) doc

namespace Action

/-- A mutation that gives a report tells of its patches. -/
theorem tells_of_mutate {e : Engine} {o : MutationOptions} {doc : Json} {patches : List Json}
    {w w' : Workspace} {r : MutationReport} (h : mutate e o doc patches w = (.ok r, w')) :
    r.Tells doc patches := by
  obtain ⟨_, _, -, h⟩ := bind_ok h
  obtain ⟨backup, _, -, h⟩ := bind_ok h
  obtain ⟨before, _, -, h⟩ := bind_ok h
  obtain ⟨_, _, -, h⟩ := bind_ok h
  obtain ⟨after, _, -, h⟩ := bind_ok h
  obtain ⟨_, _, -, h⟩ := bind_ok h
  obtain ⟨_, _, -, h⟩ := bind_ok h
  obtain ⟨change, _, -, h⟩ := bind_ok h
  obtain rfl := Except.ok.inj (congrArg Prod.fst h)
  refine ⟨rfl, ?_, ?_, ?_, ?_⟩ <;> simp only [Batch.run_eq]

/-- All that a mutation does: it takes a snapshot unless that fails, asks for advice, records what it
did unless that fails, and compares the documents as texts unless one of them has none. -/
inductive MutationRun (e : Engine) (o : MutationOptions) (doc : Json) (patches : List Json)
    (w : Workspace) : Except Failure MutationReport × Workspace → Prop
  | unsaved {w₁ w₂ : Workspace} {f : Failure} : w.Agrees w₁ →
      snapshotBefore e (o.createBackup && !o.dryRun) doc w₁ = (.error f, w₂) →
      MutationRun e o doc patches w (.error f, w₂)
  | unrecorded {w₁ w₂ w₃ w₄ : Workspace} {backup : Option String} {f : Failure} : w.Agrees w₁ →
      snapshotBefore e (o.createBackup && !o.dryRun) doc w₁ = (.ok backup, w₂) →
      w₂.Agrees w₃ →
      recordUnlessDry e o backup (Batch.run doc patches)
        (undoPatches (Batch.run doc patches).document doc) w₃ = (.error f, w₄) →
      MutationRun e o doc patches w (.error f, w₄)
  | untold {w₁ w₂ w₃ w₄ w₅ : Workspace} {backup : Option String} : w.Agrees w₁ →
      snapshotBefore e (o.createBackup && !o.dryRun) doc w₁ = (.ok backup, w₂) →
      w₂.Agrees w₃ →
      recordUnlessDry e o backup (Batch.run doc patches)
        (undoPatches (Batch.run doc patches).document doc) w₃ = (.ok (), w₄) →
      w₄.Agrees w₅ → (doc.hasText = false ∨ (reached doc patches).hasText = false) →
      MutationRun e o doc patches w (.error (.text .tooManyDigits), w₅)
  | done {w₁ w₂ w₃ w₄ w₅ : Workspace} {backup : Option String} {r : MutationReport} :
      w.Agrees w₁ →
      snapshotBefore e (o.createBackup && !o.dryRun) doc w₁ = (.ok backup, w₂) →
      w₂.Agrees w₃ →
      recordUnlessDry e o backup (Batch.run doc patches)
        (undoPatches (Batch.run doc patches).document doc) w₃ = (.ok (), w₄) →
      w₄.Agrees w₅ → doc.hasText = true ∧ (reached doc patches).hasText = true →
      r.Tells doc patches → r.backup = backup →
      MutationRun e o doc patches w (.ok r, w₅)

/-- A mutation with the bundled schemas runs in one of these ways. -/
theorem mutate_run {e : Engine} (he : e.validator = .standard) (o : MutationOptions) (doc : Json)
    (patches : List Json) (w : Workspace) :
    MutationRun e o doc patches w (mutate e o doc patches w) := by
  rw [mutate]
  refine (quiet_sayMutation e _).bind_cases fun _ w₁ hw₁ => ?_
  refine bind_cases (fun f w₂ hsave => .unsaved hw₁ hsave) fun backup w₂ hsave => ?_
  refine (quiet_adviseIf he _ _ _).bind_cases fun before w₃ hw₃ => ?_
  refine (quiet_sayPatches e doc patches).bind_cases fun _ w₄ hw₄ => ?_
  refine (quiet_adviseIf he _ _ _).bind_cases fun after w₅ hw₅ => ?_
  have hagree := (hw₃.trans hw₄).trans hw₅
  refine bind_cases (fun f w₆ hrecord => .unrecorded hw₁ hsave hagree hrecord)
    fun _ w₆ hrecord => ?_
  refine (quiet_sayMutation e _).bind_cases fun _ w₇ hw₇ => ?_
  have hdocument : (Batch.run doc patches).document = reached doc patches := by rw [Batch.run_eq]
  cases hchange : sizeChange doc (Batch.run doc patches).document with
  | error fault =>
      rw [hdocument] at hchange
      exact .untold hw₁ hsave hagree hrecord hw₇ (sizeChange_eq_error_iff.1 hchange)
  | ok change =>
      rw [hdocument] at hchange
      refine .done hw₁ hsave hagree hrecord hw₇ (hasText_of_sizeChange hchange)
        ⟨rfl, ?_, ?_, ?_, ?_⟩ rfl <;> simp only [Batch.run_eq]

end Action

/-! ### Exact reports -/

/-- The patches that a report does not list as failures. -/
def MutationReport.kept (r : MutationReport) (patches : List Json) : List Json :=
  (patches.zipIdx.filter fun m => !(r.failed.map FailedPatch.index).contains m.2).map Prod.fst

/-- A report that tells exactly which patches fail. -/
structure MutationReport.Exact (r : MutationReport) (doc : Json) (patches : List Json) : Prop where
  /-- Each patch succeeds or is listed. -/
  count : r.successful + r.failed.length = patches.length
  /-- The positions in the list increase. -/
  increasing : (r.failed.map FailedPatch.index).Pairwise (· < ·)
  /-- A position is listed exactly if its patch fails on the document that the patches before it
  reach. -/
  listed : ∀ i, i ∈ r.failed.map FailedPatch.index ↔
    ∃ p error, patches[i]? = some p ∧ applyPatch (reached doc (patches.take i)) p = .error error
  /-- Each entry has the patch of its position. -/
  patch : ∀ f ∈ r.failed, patches[f.index]? = some f.patch
  /-- The document is the one that the patches reach. -/
  document : r.document = reached doc patches

theorem MutationReport.Tells.exact {r : MutationReport} {doc : Json} {patches : List Json}
    (h : r.Tells doc patches) : r.Exact doc patches where
  count := by rw [h.successful, h.failed, length_survivors_add_failures]
  increasing := by
    rw [h.failed]
    exact pairwise_index_failures doc 0 patches
  listed := by
    intro i
    rw [h.failed, List.mem_map]
    constructor
    · rintro ⟨f, hf, rfl⟩
      obtain ⟨j, hindex, hget, hfail⟩ := mem_failures_iff.1 hf
      obtain rfl : f.index = j := by omega
      exact ⟨f.patch, f.error, hget, hfail⟩
    · rintro ⟨p, error, hget, hfail⟩
      exact ⟨⟨i, p, error⟩, mem_failures_iff.2 ⟨i, by simp, hget, hfail⟩, rfl⟩
  patch := by
    intro f hf
    rw [h.failed] at hf
    obtain ⟨j, hindex, hget, -⟩ := mem_failures_iff.1 hf
    obtain rfl : f.index = j := by omega
    exact hget
  document := h.document

theorem MutationReport.Tells.kept_eq {r : MutationReport} {doc : Json} {patches : List Json}
    (h : r.Tells doc patches) : r.kept patches = survivors doc patches := by
  rw [kept, h.failed, filter_failures_eq_survivors]

/-- The engine advises by the bundled schemas, and the store can save the document if a mutation
takes a snapshot. -/
structure MutationReady (e : Engine) (o : MutationOptions) (doc : Json) (w : Workspace) : Prop where
  standard : e.validator = .standard
  saves : o.createBackup = true → o.dryRun = false → w.CanSave SnapshotKind.mutation.front doc

/-- Where the store can save, the snapshot before a mutation does not fail. -/
theorem MutationReady.snapshot_saved {e : Engine} {o : MutationOptions} {doc : Json}
    {w w₁ w₂ : Workspace} {f : Failure} (h : MutationReady e o doc w) (hagree : w.Agrees w₁)
    (hsave : Action.snapshotBefore e (o.createBackup && !o.dryRun) doc w₁ = (.error f, w₂)) :
    False := by
  cases hwanted : (o.createBackup && !o.dryRun) with
  | false =>
      rw [hwanted] at hsave
      exact (Action.quiet_pure none).not_error hsave
  | true =>
      obtain ⟨hbackup, hdry⟩ := Bool.and_eq_true_iff.1 hwanted
      obtain ⟨ref, href⟩ := h.saves hbackup (by simpa using hdry)
      have hrun := Action.snapshotBefore_run e doc w₁
      rw [hwanted] at hsave
      have hsaved := (Action.saveSnapshot_agrees SnapshotKind.mutation.front doc hagree).1.trans href
      cases hstore : Action.saveSnapshot SnapshotKind.mutation.front doc w₁ with
      | mk r w' =>
          rw [hstore] at hrun hsaved
          obtain rfl : r = .ok ref := hsaved
          obtain ⟨w'', -, hok⟩ := hrun
          rw [hok] at hsave
          exact absurd (congrArg Prod.fst hsave) (by simp)

/-- Where the store can save and both documents have a text, a mutation gives its report or fails to
write a file that it is asked for. -/
theorem MutationReady.outcome {e : Engine} {o : MutationOptions} {doc : Json} {w : Workspace}
    {patches : List Json} (h : MutationReady e o doc w) (hdoc : doc.hasText = true)
    (hreached : (reached doc patches).hasText = true) :
    (∃ r, (Action.mutate e o doc patches w).1 = .ok r ∧ r.Tells doc patches) ∨
      ∃ f, (Action.mutate e o doc patches w).1 = .error f ∧ FailsToWrite e o f := by
  cases hrun : Action.mutate e o doc patches w with
  | mk outcome w' =>
      have hcases := Action.mutate_run h.standard o doc patches w
      rw [hrun] at hcases
      cases hcases with
      | @unsaved w₁ _ f hagree hsave => exact (h.snapshot_saved hagree hsave).elim
      | @unrecorded _ _ _ _ _ f _ _ _ hrecord =>
          exact .inr ⟨f, rfl, Action.recordUnlessDry_error hrecord⟩
      | untold _ _ _ _ _ hnone => exact absurd hnone (by simp [hdoc, hreached])
      | @done _ _ _ _ _ _ r _ _ _ _ _ _ htells _ => exact .inl ⟨r, rfl, htells⟩

/-- **A mutation applies the patches that succeed and reports exactly the others.**  Nothing that a
patch holds makes it fail as long as the documents before and after have a text: where the store can save,
it gives its report unless one of the files it is asked for cannot be written.  Run with the patches that
it does not list as failures, it reports no failure and the same document. -/
theorem mutate_exact (e : Engine) (o : MutationOptions) (doc : Json) (patches : List Json)
    (w : Workspace) (h : MutationReady e o doc w) (hdoc : doc.hasText = true)
    (hreached : (reached doc patches).hasText = true) :
    (∃ r, (Action.mutate e o doc patches w).1 = .ok r ∧ r.Exact doc patches ∧
      ∀ e' o' w', MutationReady e' o' doc w' →
        (∃ r', (Action.mutate e' o' doc (r.kept patches) w').1 = .ok r' ∧ r'.failed = [] ∧
          r'.document = r.document) ∨
        ∃ f, (Action.mutate e' o' doc (r.kept patches) w').1 = .error f ∧ FailsToWrite e' o' f) ∨
      ∃ f, (Action.mutate e o doc patches w).1 = .error f ∧ FailsToWrite e o f := by
  rcases h.outcome hdoc hreached with ⟨r, hrun, htells⟩ | hfail
  · refine .inl ⟨r, hrun, htells.exact, fun e' o' w' h' => ?_⟩
    rw [htells.kept_eq]
    obtain ⟨hsame, hnone⟩ := run_survivors doc 0 patches
    rcases h'.outcome hdoc (hsame.symm ▸ hreached) with ⟨r', hrun', htells'⟩ | hfail'
    · refine .inl ⟨r', hrun', ?_, ?_⟩
      · rw [htells'.failed, hnone]
      · rw [htells'.document, htells.document, hsame]
    · exact .inr hfail'
  · exact .inr hfail

/-- Where one of the documents has no text, a mutation fails. -/
theorem MutationReady.fails {e : Engine} {o : MutationOptions} {doc : Json} {w : Workspace}
    (h : MutationReady e o doc w) (patches : List Json)
    (hnone : doc.hasText = false ∨ (reached doc patches).hasText = false) :
    ∃ f, (Action.mutate e o doc patches w).1 = .error f ∧
      (f = .text .tooManyDigits ∨ FailsToWrite e o f) := by
  cases hrun : Action.mutate e o doc patches w with
  | mk outcome w' =>
      have hcases := Action.mutate_run h.standard o doc patches w
      rw [hrun] at hcases
      cases hcases with
      | @unsaved w₁ _ f hagree hsave => exact (h.snapshot_saved hagree hsave).elim
      | @unrecorded _ _ _ _ _ f _ _ _ hrecord =>
          exact ⟨f, rfl, .inr (Action.recordUnlessDry_error hrecord)⟩
      | untold => exact ⟨_, rfl, .inl rfl⟩
      | done _ _ _ _ _ htexts => exact absurd hnone (by simp [htexts])

/-- A value that is no patch and a patch without its place are skipped; the patch between them is
applied. -/
theorem mutate_exact_skips :
    ((failures (.obj [("a", .int 1)]) 0
        [.null, (Operation.replace "/a" (.int 2)).toJson, (Operation.remove "/b").toJson]).map
          FailedPatch.index = [0, 2]) ∧
      ∃ r, (Action.mutate {} {} (.obj [("a", .int 1)])
          [.null, (Operation.replace "/a" (.int 2)).toJson, (Operation.remove "/b").toJson]
          ⟨.empty [] 0, ⟨⟨0⟩, 0⟩, .memory {}, "", ""⟩).1 = .ok r ∧
        r.Exact (.obj [("a", .int 1)])
          [.null, (Operation.replace "/a" (.int 2)).toJson, (Operation.remove "/b").toJson] := by
  refine ⟨rfl, ?_⟩
  rcases mutate_exact {} {} (.obj [("a", .int 1)])
      [.null, (Operation.replace "/a" (.int 2)).toJson, (Operation.remove "/b").toJson]
      ⟨.empty [] 0, ⟨⟨0⟩, 0⟩, .memory {}, "", ""⟩ ⟨rfl, fun _ _ => ⟨_, rfl⟩⟩ (by decide) (by decide) with
    ⟨r, hrun, hexact, -⟩ | ⟨f, -, -, p, hp, -⟩
  · exact ⟨r, hrun, hexact⟩
  · exact absurd hp (by simp [MutationOptions.requested])

/-- A patch can put an integer of more than 4300 digits into an empty document. -/
theorem applyPatch_long : applyPatch (.obj []) (Operation.add "/x" (.int (10 ^ 5000))).toJson =
    .ok (.obj [("x", .int (10 ^ 5000))]) := rfl

/-- The document that it leads to has no text. -/
theorem hasText_reached_long :
    (reached (.obj []) [(Operation.add "/x" (.int (10 ^ 5000))).toJson]).hasText = false := by
  rw [reached_cons_ok applyPatch_long]
  exact Json.hasText_obj_int_pow (by decide)

/-- The only patch succeeds, no file is asked for, and there is no report: the value that is put in has
more than 4300 digits. -/
theorem mutate_exact_long :
    MutationReady {} {} (.obj []) ⟨.empty [] 0, ⟨⟨0⟩, 0⟩, .memory {}, "", ""⟩ ∧
      failures (.obj []) 0 [(Operation.add "/x" (.int (10 ^ 5000))).toJson] = [] ∧
      (Action.mutate {} {} (.obj []) [(Operation.add "/x" (.int (10 ^ 5000))).toJson]
        ⟨.empty [] 0, ⟨⟨0⟩, 0⟩, .memory {}, "", ""⟩).1 = .error (.text .tooManyDigits) := by
  have hready : MutationReady {} {} (.obj []) ⟨.empty [] 0, ⟨⟨0⟩, 0⟩, .memory {}, "", ""⟩ :=
    ⟨rfl, fun _ _ => ⟨_, rfl⟩⟩
  refine ⟨hready, by simp only [failures, applyPatch_long], ?_⟩
  obtain ⟨f, hrun, rfl | ⟨-, p, hp, -⟩⟩ := hready.fails _ (.inr hasText_reached_long)
  · exact hrun
  · exact absurd hp (by simp [MutationOptions.requested])

end DesignRegistry
