/-
**A dry run is a preview.**

The report of a mutation comes from the document, the patches and the advice of the schemas alone; of the
workspace it has no more than the reference of the snapshot.  A dry run gives this report and writes
nothing.  So it says beforehand what the same mutation reports when it is run for real, whatever the
files, the snapshots and the other settings are.

Main definitions:

* `Action.Yields` — an action with one outcome in every workspace, which adds to what is printed at most;
* `Engine.adviceAt`, `Engine.preview` — the advice at a stage of a mutation, and the report of a mutation,
  both without a workspace.

Main results:

* `Action.Yields.bind` — such actions in sequence;
* `Action.yields_mutate_dry` — **a dry run yields the preview**;
* `Action.preview_of_mutate` — a mutation that gives a report gives the preview, its snapshot aside;
* `mutate_dry_run` — **a dry run changes nothing and tells what every run of the mutation reports**.
-/
import DesignRegistry.Proofs.Workspace.Mutation

set_option relaxedAutoImplicit false
set_option autoImplicit false

namespace DesignRegistry

/-! ### Actions with one outcome -/

namespace Action

variable {α β : Type}

/-- An action with one outcome in every workspace, which adds to what is printed at most. -/
def Yields (x : Action α) (r : Except Failure α) : Prop := ∀ w, ∃ w', x w = (r, w') ∧ w.Agrees w'

theorem yields_pure (a : α) : Yields (pure a) (.ok a) := fun w => ⟨w, rfl, .refl w⟩

theorem Yields.bind {x : Action α} {next : α → Action β} {r : Except Failure α}
    {s : α → Except Failure β} (hx : Yields x r) (hnext : ∀ a, Yields (next a) (s a)) :
    Yields (x >>= next) (r >>= s) := by
  intro w
  obtain ⟨w₁, hrun, hagree⟩ := hx w
  cases r with
  | error f => exact ⟨w₁, bind_of_error hrun, hagree⟩
  | ok a =>
      obtain ⟨w₂, hrun', hagree'⟩ := hnext a w₁
      exact ⟨w₂, (bind_of_ok hrun).trans hrun', hagree.trans hagree'⟩

/-- Behind an action that is known to give a result comes what follows this result. -/
theorem Yields.next {x : Action α} {next : α → Action β} {a : α} {s : Except Failure β}
    (hx : Yields x (.ok a)) (hnext : Yields (next a) s) : Yields (x >>= next) s := by
  intro w
  obtain ⟨w₁, hrun, hagree⟩ := hx w
  obtain ⟨w₂, hrun', hagree'⟩ := hnext w₁
  exact ⟨w₂, (bind_of_ok hrun).trans hrun', hagree.trans hagree'⟩

theorem yields_ofExcept {ε : Type} (cause : ε → Failure) (r : Except ε α) :
    Yields (ofExcept cause r) (r.mapError cause) := by
  cases r with
  | error e => exact fun w => ⟨w, rfl, .refl w⟩
  | ok a => exact yields_pure a

theorem Quiet.yields {x : Action Unit} (hx : Quiet x) : Yields x (.ok ()) := by
  intro w
  obtain ⟨_, w', hrun⟩ := hx w
  exact ⟨w', hrun⟩

/-- What an action yields is its outcome wherever it is run. -/
theorem Yields.eq_of_run {x : Action α} {r s : Except Failure α} (hx : Yields x r) {w w' : Workspace}
    (h : x w = (s, w')) : r = s := by
  obtain ⟨w₁, hrun, -⟩ := hx w
  exact congrArg Prod.fst (hrun.symm.trans h)

end Action

/-! ### Reports without a workspace -/

/-- The advice of the schemas at a stage of a mutation, if advice is wanted. -/
def Engine.adviceAt (e : Engine) (wanted : Bool) (stage : String) (doc : Json) :
    Except Failure (List String) :=
  if wanted then do
    let problems ← (advisoryProblems e.validator doc).mapError .validation
    return problems.map fun p => stage ++ ": " ++ p
  else .ok []

/-- The report of a batch with how it changes the document as a file and with the advice that was given,
and without a snapshot. -/
def Batch.preview (b : Batch) (doc : Json) (count : ℕ) (change : Option SizeChange)
    (warnings : List String) : MutationReport :=
  { mutations := count
    successful := b.successful
    failed := b.failed
    document := b.document
    change
    undo := undoPatches b.document doc
    backup := none
    dryRun := true
    warnings }

/-- The report of a mutation without a workspace. -/
def Engine.preview (e : Engine) (validate : Bool) (doc : Json) (patches : List Json) :
    Except Failure MutationReport := do
  let before ← e.adviceAt validate "pre-mutation" doc
  let after ← e.adviceAt validate "post-mutation" (Batch.run doc patches).document
  let change ← (sizeChange doc (Batch.run doc patches).document).mapError .text
  return (Batch.run doc patches).preview doc patches.length change (before ++ after)

/-- Previews of one mutation differ in their advice at most, and compare the documents as texts. -/
theorem Engine.preview_eq_ok {e : Engine} {validate : Bool} {doc : Json} {patches : List Json}
    {r : MutationReport} (h : e.preview validate doc patches = .ok r) :
    sizeChange doc (reached doc patches) = .ok r.change ∧
      r = (Batch.run doc patches).preview doc patches.length r.change r.warnings := by
  obtain ⟨before, -, h⟩ := exists_of_bind_eq_ok h
  obtain ⟨after, -, h⟩ := exists_of_bind_eq_ok h
  obtain ⟨change, hchange, h⟩ := exists_of_bind_eq_ok h
  rw [← Except.ok.inj h]
  refine ⟨?_, rfl⟩
  rw [Batch.run_eq] at hchange
  cases hsize : sizeChange doc (reached doc patches) with
  | error fault =>
      rw [hsize] at hchange
      exact nomatch hchange
  | ok found =>
      rw [hsize] at hchange
      exact congrArg Except.ok (Except.ok.inj hchange)

/-- The bundled schemas give advice on every document, so a mutation has a preview just if both documents
have a text. -/
theorem Engine.exists_preview_iff {e : Engine} (he : e.validator = .standard) (validate : Bool)
    (doc : Json) (patches : List Json) : (∃ r, e.preview validate doc patches = .ok r) ↔
      doc.hasText = true ∧ (reached doc patches).hasText = true := by
  have hadvice : ∀ stage doc, ∃ warnings, e.adviceAt validate stage doc = .ok warnings := by
    intro stage doc
    obtain ⟨advice, h⟩ := Engine.advises_of_standard he doc
    rw [adviceAt, advisoryProblems, h]
    cases validate <;> exact ⟨_, rfl⟩
  constructor
  · rintro ⟨r, hr⟩
    exact hasText_of_sizeChange (Engine.preview_eq_ok hr).1
  · rintro ⟨hdoc, hreached⟩
    obtain ⟨before, hbefore⟩ := hadvice "pre-mutation" doc
    obtain ⟨after, hafter⟩ := hadvice "post-mutation" (Batch.run doc patches).document
    rw [preview, hbefore, hafter, Batch.run_eq, sizeChange_eq_ok hdoc hreached]
    exact ⟨_, rfl⟩

namespace Action

/-! ### Mutations -/

theorem yields_advise (e : Engine) (doc : Json) :
    Yields (advise e doc) ((advisoryProblems e.validator doc).mapError .validation) := by
  rw [advise, advisoryProblems]
  cases advisoryReport e.validator doc with
  | error problem => exact fun w => ⟨w, rfl, .refl w⟩
  | ok advice =>
      refine (yields_pure advice).next ?_
      dsimp only
      split
      · exact (quiet_sayAll _).yields.next (yields_pure _)
      · exact yields_pure _

/-- The advice does not depend on the workspace. -/
theorem yields_adviseIf (wanted : Bool) (e : Engine) (stage : String) (doc : Json) :
    Yields (adviseIf wanted e stage doc) (e.adviceAt wanted stage doc) := by
  rw [adviseIf, Engine.adviceAt]
  split
  · exact (yields_advise e doc).bind fun _ => (quiet_sayMutation e _).yields.next (yields_pure _)
  · exact yields_pure _

/-- **A dry run yields the preview.** -/
theorem yields_mutate_dry (e : Engine) (o : MutationOptions) (doc : Json) (patches : List Json) :
    Yields (mutate e { o with dryRun := true } doc patches) (e.preview o.validate doc patches) := by
  have hsnapshot : snapshotBefore e (o.createBackup && !true) doc = pure none := by
    rw [Bool.not_true, Bool.and_false]
    rfl
  rw [mutate, hsnapshot]
  refine (quiet_sayMutation e _).yields.next ?_
  refine (yields_pure none).next ?_
  refine (yields_adviseIf _ e _ doc).bind fun before => ?_
  refine (quiet_sayPatches e doc patches).yields.next ?_
  refine (yields_adviseIf _ e _ _).bind fun after => ?_
  refine (yields_pure ()).next ?_
  refine (quiet_sayMutation e _).yields.next ?_
  exact (yields_ofExcept .text _).bind fun _ => yields_pure _

/-- A mutation that gives a report gives the preview, its snapshot aside. -/
theorem preview_of_mutate {e : Engine} {o : MutationOptions} {doc : Json} {patches : List Json}
    {w w' : Workspace} {r : MutationReport} (h : mutate e o doc patches w = (.ok r, w')) :
    e.preview o.validate doc patches = .ok { r with backup := none, dryRun := true } := by
  obtain ⟨_, _, -, h⟩ := bind_ok h
  obtain ⟨backup, _, -, h⟩ := bind_ok h
  obtain ⟨before, _, hbefore, h⟩ := bind_ok h
  obtain ⟨_, _, -, h⟩ := bind_ok h
  obtain ⟨after, _, hafter, h⟩ := bind_ok h
  obtain ⟨_, _, -, h⟩ := bind_ok h
  obtain ⟨_, _, -, h⟩ := bind_ok h
  obtain ⟨change, _, hchange, h⟩ := bind_ok h
  obtain rfl := Except.ok.inj (congrArg Prod.fst h)
  rw [Engine.preview, (yields_adviseIf _ e _ _).eq_of_run hbefore,
    (yields_adviseIf _ e _ _).eq_of_run hafter, (yields_ofExcept .text _).eq_of_run hchange]
  rfl

end Action

/-- **A dry run changes nothing and tells what every run of the mutation reports.**  The files, the
snapshots and the clock stay as they are, whatever comes of it, and with the bundled schemas there is a
report just if the documents before and after have a text.  Whenever the mutation is run in any workspace, with any settings, and gives a report, the dry run
gives the same one but for the reference of the snapshot, and but for the advice of the schemas where only
one of the two asks for it. -/
theorem mutate_dry_run (e : Engine) (o : MutationOptions) (doc : Json) (patches : List Json)
    (w : Workspace) :
    w.Agrees (Action.mutate e { o with dryRun := true } doc patches w).2 ∧
      (e.validator = .standard → ((∃ preview,
        (Action.mutate e { o with dryRun := true } doc patches w).1 = .ok preview) ↔
          doc.hasText = true ∧ (reached doc patches).hasText = true)) ∧
      ∀ (o' : MutationOptions) (w₁ w₂ : Workspace) (r : MutationReport),
        Action.mutate e o' doc patches w₁ = (.ok r, w₂) →
        (o'.validate = o.validate →
          (Action.mutate e { o with dryRun := true } doc patches w).1 =
            .ok { r with backup := none, dryRun := true }) ∧
        ∀ preview, (Action.mutate e { o with dryRun := true } doc patches w).1 = .ok preview →
          preview = { r with backup := none, dryRun := true, warnings := preview.warnings } := by
  obtain ⟨w', hrun, hagree⟩ := Action.yields_mutate_dry e o doc patches w
  rw [hrun]
  refine ⟨hagree, fun he => Engine.exists_preview_iff he _ doc patches, fun o' w₁ w₂ r h => ⟨?_, ?_⟩⟩
  · intro hvalidate
    rw [← hvalidate]
    exact Action.preview_of_mutate h
  · intro preview hpreview
    obtain ⟨hchange, hdry⟩ := Engine.preview_eq_ok hpreview
    obtain ⟨hchange', hreal⟩ := Engine.preview_eq_ok (Action.preview_of_mutate h)
    -- both compare the same documents
    have hsame : preview.change = r.change := Except.ok.inj (hchange.symm.trans hchange')
    rw [hsame] at hdry
    exact hdry.trans
      (congrArg (fun report => { report with warnings := preview.warnings }) hreal).symm

/-- A mutation that takes a snapshot and writes its document, and the dry run beforehand. -/
theorem mutate_dry_run_written :
    ∃ r w', Action.mutate {} { target := some ⟨"", ["out.json"]⟩ } (.obj [("a", .int 1)])
        [(Operation.add "/b" .null).toJson] ⟨.empty [] 0, ⟨⟨0⟩, 0⟩, .memory {}, "", ""⟩ =
          (.ok r, w') ∧
      r.backup ≠ none ∧ w'.files.isFile ⟨"", ["out.json"]⟩ = true ∧
      (Action.mutate {} { target := some ⟨"", ["out.json"]⟩, dryRun := true } (.obj [("a", .int 1)])
        [(Operation.add "/b" .null).toJson] ⟨.empty [] 0, ⟨⟨0⟩, 0⟩, .memory {}, "", ""⟩).1 =
          .ok { r with backup := none, dryRun := true } ∧
      Workspace.Agrees ⟨.empty [] 0, ⟨⟨0⟩, 0⟩, .memory {}, "", ""⟩
        (Action.mutate {} { target := some ⟨"", ["out.json"]⟩, dryRun := true }
          (.obj [("a", .int 1)]) [(Operation.add "/b" .null).toJson]
          ⟨.empty [] 0, ⟨⟨0⟩, 0⟩, .memory {}, "", ""⟩).2 := by
  obtain ⟨r, w', hrun, hbackup, hfile⟩ : ∃ r w',
      Action.mutate {} { target := some ⟨"", ["out.json"]⟩ } (.obj [("a", .int 1)])
        [(Operation.add "/b" .null).toJson] ⟨.empty [] 0, ⟨⟨0⟩, 0⟩, .memory {}, "", ""⟩ =
          (.ok r, w') ∧
      r.backup ≠ none ∧ w'.files.isFile ⟨"", ["out.json"]⟩ = true :=
    ⟨_, _, rfl, Option.some_ne_none _, rfl⟩
  obtain ⟨hagree, -, hpreview⟩ := mutate_dry_run {} { target := some ⟨"", ["out.json"]⟩ }
    (.obj [("a", .int 1)]) [(Operation.add "/b" .null).toJson]
    ⟨.empty [] 0, ⟨⟨0⟩, 0⟩, .memory {}, "", ""⟩
  exact ⟨r, w', hrun, hbackup, hfile, (hpreview _ _ _ _ hrun).1 rfl, hagree⟩

end DesignRegistry
