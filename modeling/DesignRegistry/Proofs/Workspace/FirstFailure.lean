/-
**A rollback ends where a mutation first fails.**

A mutation passes over the patches that fail, and a rollback ends with the first of them.  Up to there
both go through the same documents and tell failures apart in the same way.  So the report of a mutation
says what a rollback with the same patches comes to: the document that they reach if no failure is
listed, and otherwise the first failure, counted from one.

Main definitions:

* `MutationReport.Foretells` — an outcome of a rollback that the report of a mutation tells.

Main results:

* `undoAll_eq` — an undoing by the failures that a mutation lists;
* `PatchError.message_ne_empty` — no patch fails without a text;
* `Action.rollBackByPatches_fst` — the outcome of a rollback is that of its undoing;
* `rollback_follows_mutate` — **a rollback succeeds where a mutation lists no failure, and ends with the
  first one that it lists otherwise**.
-/
import DesignRegistry.Proofs.Workspace.RoundTrip

set_option relaxedAutoImplicit false
set_option autoImplicit false

namespace DesignRegistry

/-! ### The same documents -/

/-- An undoing reaches the document that a mutation reaches, or ends with the first failure that a
mutation lists. -/
theorem undoAll_eq (position : ℕ) (patches : List Json) (doc : Json) :
    undoAll position patches doc =
      match (failures doc position patches).head? with
      | none => .ok (reached doc patches)
      | some f => .error (.patchFails (f.index + 1) f.error) := by
  induction patches generalizing doc position with
  | nil => rfl
  | cons p ps ih =>
      cases h : applyPatch doc p with
      | ok d =>
          rw [reached_cons_ok h]
          simp only [undoAll, failures, h]
          exact ih (position + 1) d
      | error e => simp only [undoAll, failures, h, List.head?_cons]

/-- Where no patch fails, all of them succeed. -/
theorem length_survivors_of_failures_eq_nil {doc : Json} {i : ℕ} {patches : List Json}
    (h : failures doc i patches = []) : (survivors doc patches).length = patches.length := by
  rw [← length_survivors_add_failures doc i patches, h, List.length_nil, Nat.add_zero]

/-! ### Texts of failures -/

section Texts

variable {a b : String}

theorem append_ne_empty_left (h : a ≠ "") : a ++ b ≠ "" := fun hab =>
  h (String.append_eq_empty_iff.1 hab).1

theorem append_ne_empty_right (h : b ≠ "") : a ++ b ≠ "" := fun hab =>
  h (String.append_eq_empty_iff.1 hab).2

theorem quoted_ne_empty (s : String) : quoted s ≠ "" := by
  intro h
  have hchars := congrArg String.toList h
  rw [quoted, String.toList_ofList, quotedChars] at hchars
  exact absurd hchars (List.cons_ne_nil _ _)

theorem Json.showing_ne_empty (values : List Json) {text : String} (h : text ≠ "") :
    showing values text ≠ "" := by
  rw [showing]
  split
  · exact h
  · exact append_ne_empty_right (by decide)

theorem Json.PointerFault.message_ne_empty (f : PointerFault) : f.message ≠ "" := by
  cases f with
  | invalidEscape text => exact append_ne_empty_left (by decide)
  | noSlash => exact (by decide : "Location must start with /" ≠ "")

theorem Json.StepFault.message_ne_empty (f : StepFault) : f.message ≠ "" := by
  cases f with
  | missingMember key ms =>
      exact showing_ne_empty _ (append_ne_empty_left (append_ne_empty_right (by decide)))
  | notIndex token => exact append_ne_empty_right (by decide)
  | outOfBounds index => exact append_ne_empty_right (by decide)
  | insideText token => exact append_ne_empty_right (by decide)
  | insideScalar label => exact append_ne_empty_right (by decide)

/-- No patch fails without a text. -/
theorem PatchError.message_ne_empty (e : PatchError) : e.message ≠ "" := by
  cases e with
  | malformed problem patch =>
      exact Json.showing_ne_empty _ (append_ne_empty_left (append_ne_empty_right (by decide)))
  | badPointer fault => exact fault.message_ne_empty
  | unreachable fault => exact fault.message_ne_empty
  | removesMissing token => exact append_ne_empty_right (by decide)
  | replacesMissing token => exact append_ne_empty_right (by decide)
  | takesMissingKey key => exact quoted_ne_empty key
  | testUnreachable fault => exact fault.message_ne_empty
  | testDiffers found expected =>
      exact Json.showing_ne_empty _ (append_ne_empty_left (append_ne_empty_right (by decide)))
  | testAtEnd items expected =>
      exact Json.showing_ne_empty _ (append_ne_empty_left (append_ne_empty_right (by decide)))
  | _ => exact of_decide_eq_true rfl

end Texts

/-! ### Rollbacks -/

namespace Action

/-- Taking a snapshot back ends in any case, if only with a deletion that failed. -/
theorem abandonSnapshot_ok (e : RollbackEngine) (backup : Option String) (w : Workspace) :
    ∃ w', abandonSnapshot e backup w = (.ok (), w') := by
  cases backup with
  | none => exact ⟨w, rfl⟩
  | some ref =>
      obtain ⟨d, w₁, hdiscard⟩ : ∃ d w₁, discardSnapshot ref w = (.ok d, w₁) := by
        rw [discardSnapshot]
        cases w.store <;> exact ⟨_, _, rfl⟩
      obtain ⟨message, hrun⟩ :
          ∃ message, abandonSnapshot e (some ref) w = sayRollback e message w₁ :=
        ⟨_, bind_of_ok hdiscard⟩
      obtain ⟨_, w₂, hsay, -⟩ := quiet_sayRollback e message w₁
      exact ⟨w₂, hrun.trans hsay⟩

/-- Where the store can save, the outcome of a rollback is that of its undoing. -/
theorem rollBackByPatches_fst {e : RollbackEngine} {createBackup : Bool} {doc : Json}
    {patches : List Json} {w : Workspace} (hadvice : e.validate = true → e.toEngine.Advises)
    (hsave : createBackup = true → doc ≠ .null → w.CanSave SnapshotKind.rollback.front doc)
    (hne : patches ≠ []) :
    match undoAll 0 patches doc with
    | .ok state => ∃ report, (rollBackByPatches e createBackup doc patches w).1 = .ok report ∧
        report.document = state ∧ report.applied = some patches.length
    | .error problem =>
        (rollBackByPatches e createBackup doc patches w).1 = .error (.rollback problem) := by
  cases hundo : undoAll 0 patches doc with
  | ok state =>
      obtain ⟨report, w', hrun, hreport⟩ := rollBackByPatches_of_undoAll hadvice hsave hne hundo
      exact ⟨report, congrArg Prod.fst hrun, hreport⟩
  | error problem =>
      obtain ⟨backup, w₁, hsnapshot⟩ := snapshotCurrent_ok (e := e) hsave
      obtain ⟨_, w₂, hlog, -⟩ := quiet_sayAll
        (if e.verbose then (undoLines 0 patches doc).map ("[dsgate rollback] " ++ ·) else []) w₁
      obtain ⟨w₃, habandon⟩ := abandonSnapshot_ok e backup w₂
      simp only
      rw [rollBackByPatches_of_error hne hundo, bind_of_ok hsnapshot, bind_of_ok hlog,
        bind_of_ok habandon]
      rfl

end Action

/-! ### Mutations and rollbacks -/

/-- An outcome of a rollback that the report of a mutation tells: it succeeds exactly if no failure is
listed, with the same document, and otherwise ends with the first failure of the list. -/
structure MutationReport.Foretells (r : MutationReport)
    (outcome : Except Failure RollbackReport) : Prop where
  succeeds_iff : (∃ report, outcome = .ok report) ↔ r.failed = []
  /-- All patches are applied, and they lead to the same document. -/
  same : ∀ report, outcome = .ok report →
    report.document = r.document ∧ report.applied = some r.successful
  /-- The patch is counted from one, and its text, which is not empty, is the one that is listed. -/
  first : ∀ problem, outcome = .error problem → ∃ f ∈ r.failed.head?,
    problem = .rollback (.patchFails (f.index + 1) f.error) ∧
    problem.message =
      "Failed to apply undo patch " ++ natText (f.index + 1) ++ ": " ++ f.error.message ∧
    f.error.message ≠ ""

/-- **A rollback follows a mutation with the same patches up to the first failure.**  Where the stores
can save and the documents before and after have a text, the mutation gives its report unless one of the
files it is asked for cannot be written, and the report tells what the rollback comes to. -/
theorem rollback_follows_mutate (m : Engine) (o : MutationOptions) (e : RollbackEngine)
    (createBackup : Bool) (doc : Json) (patches : List Json) (w w₁ : Workspace)
    (hm : MutationReady m o doc w) (he : e.validate = true → e.validator = .standard)
    (hsave : createBackup = true → doc ≠ .null → w₁.CanSave SnapshotKind.rollback.front doc)
    (hne : patches ≠ []) (hdoc : doc.hasText = true)
    (hreached : (reached doc patches).hasText = true) :
    (∃ r, (Action.mutate m o doc patches w).1 = .ok r ∧
      r.Foretells (Action.rollBackByPatches e createBackup doc patches w₁).1) ∨
    ∃ f, (Action.mutate m o doc patches w).1 = .error f ∧ FailsToWrite m o f := by
  refine (hm.outcome hdoc hreached).imp_left ?_
  rintro ⟨r, hrun, htells⟩
  have houtcome := Action.rollBackByPatches_fst
    (fun hvalidate => Engine.advises_of_standard (he hvalidate)) hsave hne
  rw [undoAll_eq, ← htells.failed] at houtcome
  refine ⟨r, hrun, ?_⟩
  cases hfailed : r.failed with
  | nil =>
      rw [hfailed] at houtcome
      obtain ⟨report, hreport, hdocument, happlied⟩ := houtcome
      have hall : r.successful = patches.length := by
        rw [htells.successful, length_survivors_of_failures_eq_nil (htells.failed.symm.trans hfailed)]
      rw [hreport]
      refine ⟨iff_of_true ⟨report, rfl⟩ hfailed, ?_, fun problem h => absurd h (by simp)⟩
      intro report' h
      rw [← Except.ok.inj h, hdocument, happlied, htells.document, hall]
      exact ⟨rfl, rfl⟩
  | cons f fs =>
      rw [hfailed] at houtcome
      rw [houtcome]
      refine ⟨iff_of_false (by simp) (by simp [hfailed]), fun report h => absurd h (by simp), ?_⟩
      intro problem h
      rw [← Except.error.inj h]
      exact ⟨f, by simp [hfailed], rfl, rfl, f.error.message_ne_empty⟩

/-- Of two patches the second removes what is not there: the mutation lists it, and the rollback ends
with it. -/
theorem rollback_follows_mutate_missing :
    ∃ r, (Action.mutate {} {} (.obj [("a", .int 1)])
          [(Operation.add "/b" .null).toJson, (Operation.remove "/c").toJson]
          ⟨.empty [] 0, ⟨⟨0⟩, 0⟩, .memory {}, "", ""⟩).1 = .ok r ∧
      r.failed.map FailedPatch.index = [1] ∧
      r.Foretells (Action.rollBackByPatches {} false (.obj [("a", .int 1)])
        [(Operation.add "/b" .null).toJson, (Operation.remove "/c").toJson]
        ⟨.empty [] 0, ⟨⟨0⟩, 0⟩, .memory {}, "", ""⟩).1 := by
  rcases rollback_follows_mutate {} {} {} false (.obj [("a", .int 1)])
      [(Operation.add "/b" .null).toJson, (Operation.remove "/c").toJson]
      ⟨.empty [] 0, ⟨⟨0⟩, 0⟩, .memory {}, "", ""⟩ ⟨.empty [] 0, ⟨⟨0⟩, 0⟩, .memory {}, "", ""⟩
      ⟨rfl, fun _ _ => ⟨_, rfl⟩⟩ (fun _ => rfl) (fun hwanted => absurd hwanted (by simp))
      (List.cons_ne_nil _ _) (by decide) (by decide) with ⟨r, hrun, hforetells⟩ | ⟨f, -, -, p, hp, -⟩
  · have htells := Action.tells_of_mutate (Prod.ext hrun rfl)
    exact ⟨r, hrun, by rw [htells.failed]; rfl, hforetells⟩
  · exact absurd hp (by simp [MutationOptions.requested])

/-- A value of more than 4300 digits is put in: the rollback succeeds, and the mutation fails, though it
is asked for no file. -/
theorem rollback_follows_mutate_long :
    (∃ report, (Action.rollBackByPatches {} false (.obj [])
        [(Operation.add "/x" (.int (10 ^ 5000))).toJson]
        ⟨.empty [] 0, ⟨⟨0⟩, 0⟩, .memory {}, "", ""⟩).1 = .ok report) ∧
      ∃ f, (Action.mutate {} {} (.obj []) [(Operation.add "/x" (.int (10 ^ 5000))).toJson]
        ⟨.empty [] 0, ⟨⟨0⟩, 0⟩, .memory {}, "", ""⟩).1 = .error f ∧ ¬ FailsToWrite {} {} f := by
  constructor
  · have houtcome := @Action.rollBackByPatches_fst {} false (.obj [])
      [(Operation.add "/x" (.int (10 ^ 5000))).toJson]
      ⟨.empty [] 0, ⟨⟨0⟩, 0⟩, .memory {}, "", ""⟩ (fun _ => Engine.advises_of_standard rfl)
      (fun hwanted => absurd hwanted (by simp))
      (List.cons_ne_nil _ _)
    rw [undoAll, applyPatch_long] at houtcome
    obtain ⟨report, hreport, -⟩ := houtcome
    exact ⟨report, hreport⟩
  · have hready : MutationReady {} {} (.obj []) ⟨.empty [] 0, ⟨⟨0⟩, 0⟩, .memory {}, "", ""⟩ :=
      ⟨rfl, fun _ _ => ⟨_, rfl⟩⟩
    obtain ⟨f, hrun, -⟩ := hready.fails _ (.inr hasText_reached_long)
    refine ⟨f, hrun, ?_⟩
    rintro ⟨-, p, hp, -⟩
    exact absurd hp (by simp [MutationOptions.requested])

end DesignRegistry
