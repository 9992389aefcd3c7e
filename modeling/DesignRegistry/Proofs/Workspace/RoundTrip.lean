/-
**A mutation is rolled back by its own undo patches.**

A mutation computes its undo patches from the document that it started with and the one that it
reached; a rollback applies such patches to the document that is there now.  The two fit together:
the documents have their keys apart, as patches keep them so, and the undo patches apply one after
the other and lead back.

A rollback wants something to do, though, and refuses an empty list of patches.  A batch without a net
effect has no undo patches, so that its rollback is refused; the document is then the earlier one
already.

Main results:

* `reached_uniqueKeys` — a batch keeps the keys of objects apart;
* `Action.rollBackByPatches_of_undoAll` — a rollback with patches that apply succeeds;
* `rollback_of_mutate` — **a mutation is rolled back by its undo patches**;
* `rollback_of_mutate_refused` — a batch of which nothing is left to undo.
-/
import DesignRegistry.Proofs.Patch.Keys
import DesignRegistry.Proofs.Patch.Undo
import DesignRegistry.Proofs.Workspace.Abort

set_option relaxedAutoImplicit false
set_option autoImplicit false

namespace DesignRegistry

/-- A batch keeps the keys of objects apart, whether or not some of its patches fail. -/
theorem reached_uniqueKeys {doc : Json} {patches : List Json} (hdoc : doc.UniqueKeys)
    (hpatches : ∀ p ∈ patches, p.UniqueKeys) : (reached doc patches).UniqueKeys := by
  induction patches generalizing doc with
  | nil => exact hdoc
  | cons p ps ih =>
      rw [List.forall_mem_cons] at hpatches
      cases h : applyPatch doc p with
      | ok d =>
          rw [reached_cons_ok h]
          exact ih (applyPatch_uniqueKeys hdoc hpatches.1 h) hpatches.2
      | error error =>
          rw [reached_cons_error h]
          exact ih hdoc hpatches.2

/-- An undoing whose patches apply one after the other ends in the document that they lead to. -/
theorem undoAll_of_foldlM {patches : List Json} {doc state : Json}
    (h : patches.foldlM applyPatch doc = .ok state) (position : ℕ) :
    undoAll position patches doc = .ok state := by
  induction patches generalizing doc position with
  | nil => rw [undoAll, show doc = state from Except.ok.inj h]
  | cons p ps ih =>
      rw [List.foldlM_cons] at h
      obtain ⟨d, hp, hps⟩ := exists_of_bind_eq_ok h
      rw [undoAll, hp]
      exact ih hps (position + 1)

namespace Action

/-- Where the store can save, the snapshot before a rollback does not fail. -/
theorem snapshotCurrent_ok {e : RollbackEngine} {createBackup : Bool} {doc : Json} {w : Workspace}
    (hsave : createBackup = true → doc ≠ .null → w.CanSave SnapshotKind.rollback.front doc) :
    ∃ backup w', snapshotCurrent e createBackup doc w = (.ok backup, w') := by
  by_cases hwanted : createBackup = true ∧ doc ≠ .null
  · obtain ⟨rfl, hdoc⟩ := hwanted
    obtain ⟨ref, href⟩ := hsave rfl hdoc
    obtain ⟨w₁, hrun⟩ : ∃ w₁, saveSnapshot SnapshotKind.rollback.front doc w = (.ok ref, w₁) :=
      ⟨_, Prod.ext href rfl⟩
    obtain ⟨_, w₂, hsay, -⟩ := quiet_sayRollback e ("pre-rollback backup: " ++ ref) w₁
    exact ⟨some ref, w₂, by rw [snapshotCurrent_some hdoc, bind_of_ok hrun, bind_of_ok hsay, pure_eq]⟩
  · rw [not_and_not_right] at hwanted
    exact ⟨none, w, by rw [snapshotCurrent_none hwanted]; rfl⟩

/-- A rollback whose undoing succeeds brings back the document that it ends in. -/
theorem rollBackByPatches_of_undoAll {e : RollbackEngine} {createBackup : Bool}
    {doc state : Json} {patches : List Json} {w : Workspace}
    (hadvice : e.validate = true → e.toEngine.Advises)
    (hsave : createBackup = true → doc ≠ .null → w.CanSave SnapshotKind.rollback.front doc)
    (hne : patches ≠ []) (h : undoAll 0 patches doc = .ok state) :
    ∃ report w', rollBackByPatches e createBackup doc patches w = (.ok report, w') ∧
      report.document = state ∧ report.applied = some patches.length := by
  obtain ⟨backup, w₁, hsnapshot⟩ := snapshotCurrent_ok (e := e) hsave
  obtain ⟨_, w₂, hlog, -⟩ := quiet_sayAll
    (if e.verbose then (undoLines 0 patches doc).map ("[dsgate rollback] " ++ ·) else []) w₁
  obtain ⟨warnings, w₃, hadvised, -⟩ := quiet_adviseOnRollback hadvice state w₂
  refine ⟨⟨.patch, state, backup, some patches.length, warnings⟩, w₃, ?_, rfl, rfl⟩
  rw [rollBackByPatches, if_neg (by simpa using hne), bind_of_ok hsnapshot, bind_of_ok hlog]
  simp only [h]
  exact bind_of_ok hadvised

/-- A rollback without patches is refused before anything is done. -/
theorem rollBackByPatches_nil (e : RollbackEngine) (createBackup : Bool) (doc : Json)
    (w : Workspace) :
    rollBackByPatches e createBackup doc [] w = (.error (.rollback .noPatches), w) := rfl

end Action

/-- **A mutation is rolled back by its undo patches.**  Whatever patches a mutation applied, a rollback
of the document that it reports, with the undo patches that it reports, brings back a document that
equals the earlier one up to the order of members.  Only where the mutation reached such a document
itself are there no undo patches, and then the rollback is refused and changes nothing. -/
theorem rollback_of_mutate (m : Engine) (o : MutationOptions) (doc : Json) (patches : List Json)
    (w w' : Workspace) (r : MutationReport) (hdoc : doc.UniqueKeys)
    (hpatches : ∀ p ∈ patches, p.UniqueKeys)
    (hrun : Action.mutate m o doc patches w = (.ok r, w')) :
    (r.undo = [] ↔ r.document.alike doc = true) ∧
      ∀ (e : RollbackEngine) (createBackup : Bool) (w₁ : Workspace),
        (r.undo = [] → Action.rollBackByPatches e createBackup r.document r.undo w₁ =
          (.error (.rollback .noPatches), w₁)) ∧
        (r.undo ≠ [] → (e.validate = true → e.toEngine.Advises) →
          (createBackup = true → r.document ≠ .null →
            w₁.CanSave SnapshotKind.rollback.front r.document) →
          ∃ report w₂, Action.rollBackByPatches e createBackup r.document r.undo w₁ =
              (.ok report, w₂) ∧
            report.document.alike doc = true ∧ report.applied = some r.undo.length) := by
  have htells := Action.tells_of_mutate hrun
  have hreached : r.document.UniqueKeys := by
    rw [htells.document]
    exact reached_uniqueKeys hdoc hpatches
  have hundo : r.undo = undoPatches r.document doc := by rw [htells.undo, htells.document]
  rw [hundo]
  refine ⟨undoPatches_eq_nil_iff hreached hdoc, fun e createBackup w₁ => ⟨?_, ?_⟩⟩
  · intro hnil
    rw [hnil]
    exact Action.rollBackByPatches_nil e createBackup r.document w₁
  · intro hne hadvice hsave
    obtain ⟨state, hfold, halike⟩ := exists_foldlM_undoPatches hreached hdoc
    obtain ⟨report, w₂, hrollback, hstate, happlied⟩ :=
      Action.rollBackByPatches_of_undoAll hadvice hsave hne (undoAll_of_foldlM hfold 0)
    exact ⟨report, w₂, hrollback, by rw [hstate]; exact halike, happlied⟩

/-- A member is added and another moved; the snapshot of the rollback is the second of the store. -/
theorem rollback_of_mutate_moves :
    ∃ r w' report w₂, Action.mutate {} {} (.obj [("a", .int 1)])
        [(Operation.add "/b" .null).toJson, (Operation.move "/a" "/c").toJson]
        ⟨.empty [] 0, ⟨⟨0⟩, 0⟩, .memory {}, "", ""⟩ = (.ok r, w') ∧
      r.document = .obj [("b", .null), ("c", .int 1)] ∧
      Action.rollBackByPatches {} true r.document r.undo w' = (.ok report, w₂) ∧
      report.document.alike (.obj [("a", .int 1)]) = true := by
  obtain ⟨r, w', hrun, hdocument, hne, hsave⟩ : ∃ r w',
      Action.mutate {} {} (.obj [("a", .int 1)])
        [(Operation.add "/b" .null).toJson, (Operation.move "/a" "/c").toJson]
        ⟨.empty [] 0, ⟨⟨0⟩, 0⟩, .memory {}, "", ""⟩ = (.ok r, w') ∧
      r.document = .obj [("b", .null), ("c", .int 1)] ∧ r.undo ≠ [] ∧
      w'.CanSave SnapshotKind.rollback.front r.document :=
    ⟨_, _, rfl, rfl, List.cons_ne_nil _ _, _, rfl⟩
  have hundone := rollback_of_mutate {} {} (.obj [("a", .int 1)])
    [(Operation.add "/b" .null).toJson, (Operation.move "/a" "/c").toJson] _ w' r
    (by simp [Json.UniqueKeys, Json.UniqueKeysMembers])
    (by simp [Operation.toJson, Json.UniqueKeys, Json.UniqueKeysMembers]) hrun
  obtain ⟨report, w₂, hrollback, halike, -⟩ := (hundone.2 {} true w').2 hne
    (fun _ => Engine.advises_of_standard rfl) fun _ _ => hsave
  exact ⟨r, w', report, w₂, hrun, hdocument, hrollback, halike⟩

/-- Nothing is left to undo of a test that succeeds: its rollback is refused. -/
theorem rollback_of_mutate_refused :
    ∃ r w', Action.mutate {} {} (.obj [("a", .int 1)]) [(Operation.test "/a" (.int 1)).toJson]
        ⟨.empty [] 0, ⟨⟨0⟩, 0⟩, .memory {}, "", ""⟩ = (.ok r, w') ∧ r.failed = [] ∧
      ∀ (e : RollbackEngine) (createBackup : Bool) (w₁ : Workspace),
        Action.rollBackByPatches e createBackup r.document r.undo w₁ =
          (.error (.rollback .noPatches), w₁) :=
  ⟨_, _, rfl, rfl, fun _ _ _ => rfl⟩

end DesignRegistry
