/-
**What a command shows.**

A command that is asked for JSON does its work without printing, and prints one document as its last step.
Whatever fails before has printed nothing, and is told by one object on the last line of the log.

Main definitions:

* `Json.Denotes`, `Json.DenotesLoosely` — a text that is one document, of JSON or with words for numbers that
  are not finite;
* `Workspace.Shows` — a text was put behind the output;
* `Action.ShowsOne` — an action that is mute if it fails, and otherwise shows one document of a kind;
* `Task.Quotes` — the tasks whose outcome holds values of the files they read;
* `Workspace.TellsLast` — the last line of a log is the text of a document.

Main results:

* `Json.denotesLoosely_render`, `Json.denotes_render` — the text of a document is one document;
* `Command.showsOne_run` — **a command that is asked for JSON shows one document or nothing**;
* `Command.output_of_ok`, `Command.streams_of_error` — the two streams after it.
-/
import DesignRegistry.Command.Run
import DesignRegistry.Proofs.Json.Dialect
import DesignRegistry.Proofs.Number.Integers
import DesignRegistry.Proofs.Workspace.Streams

set_option relaxedAutoImplicit false
set_option autoImplicit false

namespace DesignRegistry

/-! ### Texts of documents -/

namespace Json

namespace Layout

theorem plain_prettyAscii : Plain prettyAscii := ⟨plain_pretty.separator, plain_pretty.colon⟩

theorem plain_lineAscii : Plain lineAscii :=
  ⟨⟨[' '], rfl, List.all_eq_true.1 (by decide)⟩, ⟨[' '], rfl, List.all_eq_true.1 (by decide)⟩⟩

/-- The layouts in which commands print documents. -/
def printed : List Layout := [pretty, prettyAscii, lineAscii]

theorem pretty_mem_printed : pretty ∈ printed := List.mem_cons_self

theorem prettyAscii_mem_printed : prettyAscii ∈ printed := List.mem_cons_of_mem _ List.mem_cons_self

theorem lineAscii_mem_printed : lineAscii ∈ printed :=
  List.mem_cons_of_mem _ (List.mem_cons_of_mem _ List.mem_cons_self)

theorem plain_of_mem_printed {f : Layout} (h : f ∈ printed) : f.Plain := by
  simp only [printed, List.mem_cons, List.not_mem_nil, or_false] at h
  rcases h with rfl | rfl | rfl
  · exact plain_pretty
  · exact plain_prettyAscii
  · exact plain_lineAscii

end Layout

/-- A text that is one document of JSON and nothing else; where it can be read, it is read as this
document. -/
structure Denotes (text : String) (doc : Json) : Prop where
  grammar : IsDocument [] text.toList
  legible : doc.Legible → parse text = .ok doc

/-- A text that is one document and nothing else, in which words may stand for numbers that are not
finite. -/
structure DenotesLoosely (text : String) (doc : Json) : Prop where
  grammar : IsDocument boundlessWords text.toList
  legible : doc.Legible → parse text = .ok doc

/-- The text of a document is read as this document. -/
theorem parse_render_append {f : Layout} (hf : f.Plain) {doc : Json} (hdoc : doc.Legible)
    {blanks : String} (hblanks : IsBlank blanks.toList) : parse (render f doc ++ blanks) = .ok doc := by
  rw [← String.ofList_toList (s := render f doc ++ blanks), String.toList_append, render,
    String.toList_ofList]
  exact parse_renderAt hf hdoc hblanks

/-- The text of a document, with blanks behind it, is one document. -/
theorem denotesLoosely_render {f : Layout} (hf : f.Plain) (doc : Json) {blanks : String}
    (hblanks : IsBlank blanks.toList) : DenotesLoosely (render f doc ++ blanks) doc :=
  ⟨isDocument_render hf (.inr rfl) hblanks, fun hdoc => parse_render_append hf hdoc hblanks⟩

/-- If its numbers are finite, it is one document of JSON. -/
theorem denotes_render {f : Layout} (hf : f.Plain) {doc : Json} (h : doc.Bounded) {blanks : String}
    (hblanks : IsBlank blanks.toList) : Denotes (render f doc ++ blanks) doc :=
  ⟨isDocument_render hf (.inl h) hblanks, fun hdoc => parse_render_append hf hdoc hblanks⟩

/-- A text in ASCII on one line has no line feed. -/
theorem lineFeed_notMem_lineAscii {doc : Json} (h : doc.Legible) :
    '\n' ∉ (render .lineAscii doc).toList := by
  rw [render, String.toList_ofList]
  intro hmem
  have hvisible : Visible '\n' :=
    forall_mem_renderAt (fun _ hc => hc) (visible_of_all (by decide)) (visible_of_all (by decide))
      (fun _ _ hc => absurd hc List.not_mem_nil) 0 doc h _ hmem
  exact absurd hvisible (by decide)

end Json

/-! ### Actions that show a document -/

/-- A text was put behind the output, and whole lines were added to the log. -/
structure Workspace.Shows (w w' : Workspace) (text : String) : Prop where
  output : w'.output = w.output ++ text
  log : ∃ told : String, WholeLines told.toList ∧ w'.log = w.log ++ told

theorem Workspace.AddsLines.shows {w w' w'' : Workspace} {text : String} (h : w.AddsLines w')
    (h' : w'.Shows w'' text) : w.Shows w'' text := by
  have hlog : w'.AddsLines { w'' with output := w'.output } := ⟨rfl, h'.log⟩
  exact ⟨by rw [h'.output, h.output], (h.trans hlog).log⟩

namespace Action

variable {α β : Type}

/-- An action that is mute if it fails, and otherwise shows the text of one document of a kind. -/
def ShowsOne (kind : Json → Prop) (x : Action α) : Prop :=
  ∀ w : Workspace, match x w with
    | (.error _, w') => w.AddsLines w'
    | (.ok _, w') => ∃ layout ∈ Json.Layout.printed, ∃ doc : Json, kind doc ∧
        w.Shows w' (Json.render layout doc ++ "\n")

variable {kind : Json → Prop}

theorem ShowsOne.of_ok {x : Action α} (hx : ShowsOne kind x) {w : Workspace} {a : α}
    (h : (x w).1 = .ok a) : ∃ layout ∈ Json.Layout.printed, ∃ doc : Json, kind doc ∧
      w.Shows (x w).2 (Json.render layout doc ++ "\n") := by
  have hshows := hx w
  cases hrun : x w with
  | mk r w' =>
      rw [hrun] at h hshows
      obtain rfl : r = .ok a := h
      exact hshows

theorem ShowsOne.of_error {x : Action α} (hx : ShowsOne kind x) {w : Workspace} {f : Failure}
    (h : (x w).1 = .error f) : w.AddsLines (x w).2 := by
  have hlines := hx w
  cases hrun : x w with
  | mk r w' =>
      rw [hrun] at h hlines
      obtain rfl : r = .error f := h
      exact hlines

theorem showsOne_fail (f : Failure) : ShowsOne kind (fail f : Action α) := fun w => .refl w

/-- What is mute and ends with showing a document shows one document. -/
theorem Mute.showsOne {x : Action α} {next : α → Action β} (hx : Mute x)
    (hnext : ∀ a, ShowsOne kind (next a)) : ShowsOne kind (x >>= next) := by
  intro w
  have hlines := hx w
  cases hrun : x w with
  | mk r w' =>
      rw [hrun] at hlines
      cases r with
      | error f =>
          rw [bind_of_error hrun]
          exact hlines
      | ok a =>
          rw [bind_of_ok hrun]
          have hshows := hnext a w'
          cases hlast : next a w' with
          | mk r' w'' =>
              rw [hlast] at hshows
              cases r' with
              | error f => exact hlines.trans hshows
              | ok b =>
                  obtain ⟨layout, hlayout, doc, hdoc, hshown⟩ := hshows
                  exact ⟨layout, hlayout, doc, hdoc, hlines.shows hshown⟩

/-- A step that is made only sometimes. -/
theorem Mute.showsOne_if {x : Action α} {next : α → Action β} (hx : Mute x) (wanted : Prop)
    [Decidable wanted] (a : α) (hnext : ∀ a, ShowsOne kind (next a)) :
    ShowsOne kind (if wanted then x >>= next else next a) := by
  split
  · exact hx.showsOne hnext
  · exact hnext a

/-- A document that is printed as the last step. -/
theorem showsOne_printDocument {layout : Json.Layout} (h : layout ∈ Json.Layout.printed) {doc : Json}
    (hdoc : kind doc) (a : α) : ShowsOne kind (printDocument layout doc >>= fun _ => pure a) := fun _ =>
  ⟨layout, h, doc, hdoc, rfl, "", .inl rfl, String.append_empty.symm⟩

theorem ShowsOne.mono {kind' : Json → Prop} {x : Action α} (hx : ShowsOne kind x)
    (h : ∀ doc, kind doc → kind' doc) : ShowsOne kind' x := by
  intro w
  have hshows := hx w
  cases hrun : x w with
  | mk r w' =>
      rw [hrun] at hshows
      cases r with
      | error f => exact hshows
      | ok a =>
          obtain ⟨layout, hlayout, doc, hdoc, hshown⟩ := hshows
          exact ⟨layout, hlayout, doc, h doc hdoc, hshown⟩

theorem ShowsOne.inStore {x : Action α} (hx : ShowsOne kind x) (store : SnapshotStore) :
    ShowsOne kind (inStore store x) := by
  intro w
  have hshows := hx { w with store }
  rw [Action.inStore]
  cases hrun : x { w with store } with
  | mk r w' =>
      rw [hrun] at hshows
      cases r with
      | error f => exact ⟨hshows.output, hshows.log⟩
      | ok a =>
          obtain ⟨layout, hlayout, doc, hdoc, hshown⟩ := hshows
          exact ⟨layout, hlayout, doc, hdoc, hshown.output, hshown.log⟩

/-! ### Documents that are shown -/

theorem bounded_ofText? (t : Option String) : (Json.ofText? t).Bounded := by
  cases t with
  | none => exact Json.bounded_null
  | some s => exact Json.bounded_str s

theorem bounded_snapshotDocument (s : SnapshotEntry) : (snapshotDocument s).Bounded := by
  have htime : (((Binary64.ofInt? s.created).map Json.float).getD .null).Bounded := by
    rcases Binary64.ofInt?_cases s.created with ⟨-, hnone⟩ | ⟨-, m, e, hsome, -⟩
    · rw [hnone]
      exact Json.bounded_null
    · rw [hsome]
      exact ⟨_, m, e, rfl⟩
  simp [snapshotDocument, htime]

theorem bounded_deletions (ds : List Deletion) (keep : Int) :
    (Json.obj [("deleted", .arr ((ds.filter Deletion.ok).map fun d => .str d.path)),
      ("failed", .arr ((ds.filter fun d => !d.ok).map deletionDocument)),
      ("kept", .int keep)]).Bounded := by
  have hdeletion : ∀ d : Deletion, (deletionDocument d).Bounded := by
    simp [deletionDocument, bounded_ofText?]
  simp only [Json.bounded_obj, List.forall_mem_cons, Json.bounded_arr, List.forall_mem_map]
  exact ⟨fun d _ => Json.bounded_str d.path, fun d _ => hdeletion d, by simp⟩

theorem bounded_rollback (r : RollbackReport) (target : FilePath) :
    (Json.obj (r.members ++ [("output", .str target.text),
      ("validationWarnings", .arr (r.warnings.map .str))])).Bounded := by
  simp only [RollbackReport.members, List.append_assoc, Json.bounded_obj, List.forall_mem_append]
  refine ⟨by simp [bounded_ofText?], ?_, by simp⟩
  cases r.applied <;> simp

theorem bounded_registryReport (r : RegistryReport) : r.toJson.Bounded := by
  simp [RegistryReport.toJson]

theorem bounded_violation (v : Violation) : v.toJson.Bounded := by
  have hdetail : ∀ key value, ∀ m ∈ Violation.detail key value, m.2.Bounded := by
    intro key value
    cases value <;> simp [Violation.detail]
  simp only [Violation.toJson, Json.bounded_obj, List.forall_mem_append]
  exact ⟨⟨⟨⟨⟨by simp, hdetail _ _⟩, hdetail _ _⟩, hdetail _ _⟩, hdetail _ _⟩, hdetail _ _⟩

theorem bounded_scanDocument (r : ScanResult) : (scanDocument r).Bounded := by
  simp [scanDocument, ScanResult.violationsMember, bounded_violation, ScanStats.toJson]

/-! ### Commands that are asked for JSON -/

theorem mute_loadSchemas (verbose : Bool) : Mute (loadSchemas verbose) := by
  rw [loadSchemas]
  split
  · exact (mute_sayAll _).bind fun _ => mute_pure _
  · exact mute_pure _

theorem mute_writeReport {c : Command} (hjson : c.json = true) (p : FilePath) (text : String) :
    Mute (writeReport c p text) := by
  refine (mute_changeFiles _).bind fun _ => (mute_changeFiles _).bind fun _ => ?_
  rw [hjson]
  exact mute_pure ()

variable {c : Command}

theorem showsOne_runMutation (hjson : c.json = true) (registry patches target : FilePath)
    (undo : Option FilePath) (dryRun backup : Bool) :
    ShowsOne (fun _ => True) (runMutation c registry patches target undo dryRun backup) := by
  refine reads_files.mute.showsOne fun fs => ?_
  rw [hjson]
  exact (mute_fail _).showsOne_if _ () fun _ => (reads_readDocument registry).mute.showsOne fun doc =>
    (reads_loadPatches patches).mute.showsOne fun ps => (mute_loadSchemas _).showsOne fun v =>
      (mute_mutate _ _ doc ps).showsOne fun r =>
        showsOne_printDocument Json.Layout.pretty_mem_printed trivial _

theorem showsOne_runList (hjson : c.json = true) : ShowsOne Json.Bounded (runList c) := by
  refine reads_listSnapshots.mute.showsOne fun points => ?_
  rw [hjson]
  exact showsOne_printDocument Json.Layout.prettyAscii_mem_printed
    (by simp [bounded_snapshotDocument]) _

theorem showsOne_runCleanUp (hjson : c.json = true) (keep : Int) :
    ShowsOne Json.Bounded (runCleanUp c keep) := by
  rw [runCleanUp, hjson]
  exact (mute_fail _).showsOne_if _ () fun _ => (mute_loadSchemas _).showsOne fun v =>
    (mute_cleanUp _ keep).showsOne fun ds =>
      showsOne_printDocument Json.Layout.prettyAscii_mem_printed (bounded_deletions ds keep) _

theorem showsOne_runRollback (hjson : c.json = true) (registry : Option FilePath) (source : String)
    (target : Option FilePath) (backup validate : Bool) :
    ShowsOne Json.Bounded (runRollback c registry source target backup validate) := by
  cases registry with
  | none => exact showsOne_fail _
  | some registry =>
      refine (mute_loadSchemas _).showsOne fun v =>
        (mute_rollBackFrom _ _ registry _).showsOne fun r => ?_
      rw [hjson]
      exact showsOne_printDocument Json.Layout.pretty_mem_printed (bounded_rollback r _) _

theorem showsOne_runValidation (hjson : c.json = true) (registry : FilePath)
    (checks : RegistryChecks) : ShowsOne Json.Bounded (runValidation c registry checks) := by
  refine (reads_load registry).mute.showsOne fun doc => ?_
  rw [hjson]
  exact (mute_say _).showsOne_if _ () fun _ => (mute_loadSchemas _).showsOne fun v =>
    (mute_ofExcept _ _).showsOne fun r => (mute_sayAll _).showsOne_if _ () fun _ =>
      (mute_ofExcept _ _).showsOne fun report =>
        showsOne_printDocument Json.Layout.pretty_mem_printed (bounded_registryReport report) _

theorem showsOne_runScan [Script.Parser] (hjson : c.json = true) (colours : Bool)
    (source registry : FilePath) (settings : ScanSettings) (format : ReportFormat) (output : Option FilePath) (field : String)
    (failing : Bool) : ShowsOne Json.Bounded
      (runScan c colours source registry settings format output field failing) := by
  refine (mute_sayScan _ _).showsOne fun _ => (mute_sayScan _ _).showsOne fun _ =>
    (reads_load registry).mute.showsOne fun doc => (mute_scanDirectory doc settings source).showsOne
      fun r => ?_
  cases output with
  | none =>
      rw [hjson]
      exact showsOne_printDocument Json.Layout.pretty_mem_printed (bounded_scanDocument r) _
  | some p =>
      refine (mute_writeReport hjson p _).showsOne fun _ => ?_
      rw [hjson]
      exact showsOne_printDocument Json.Layout.pretty_mem_printed (bounded_scanDocument r) _

theorem showsOne_runSchemas (hjson : c.json = true) : ShowsOne Json.Bounded (runSchemas c) := by
  rw [runSchemas, hjson]
  exact showsOne_printDocument Json.Layout.lineAscii_mem_printed (by simp) _

theorem showsOne_runCheck (hjson : c.json = true) (document : Option FilePath)
    (schema : Option String) : ShowsOne (fun _ => True) (runCheck c document schema) := by
  cases document with
  | none => exact showsOne_fail _
  | some p =>
      refine reads_files.mute.showsOne fun fs => ?_
      rw [hjson]
      exact (mute_fail _).showsOne_if _ () fun _ => (reads_readDocument p).mute.showsOne fun doc =>
        (mute_loadSchemas _).showsOne fun v => (mute_ofExcept _ _).showsOne fun r =>
          (mute_sayAll _).showsOne_if _ () fun _ =>
            showsOne_printDocument Json.Layout.pretty_mem_printed trivial _

end Action

/-- The tasks whose outcome holds values of the documents that they read. -/
def Task.Quotes : Task → Prop
  | .mutate .. => True
  | .checkDocument .. => True
  | _ => False

/-- **A command that is asked for JSON shows one document or nothing**, and unless its outcome holds values
of the documents it read, the numbers of that document are finite. -/
theorem Command.showsOne_run [Script.Parser] {c : Command} (hjson : c.json = true)
    (terminal : Bool) :
    Action.ShowsOne (fun doc => ¬ c.task.Quotes → doc.Bounded) (c.run terminal) := by
  refine Action.ShowsOne.inStore ?_ _
  have hfinite : ∀ doc : Json, doc.Bounded → ¬ c.task.Quotes → doc.Bounded := fun _ hdoc _ => hdoc
  split
  · next htask =>
      exact (Action.showsOne_runMutation hjson _ _ _ _ _ _).mono
        fun doc _ hquotes => absurd (by rw [htask]; trivial) hquotes
  · exact (Action.showsOne_runList hjson).mono hfinite
  · exact (Action.showsOne_runCleanUp hjson _).mono hfinite
  · exact (Action.showsOne_runRollback hjson _ _ _ _ _).mono hfinite
  · exact (Action.showsOne_runValidation hjson _ _).mono hfinite
  · exact (Action.showsOne_runScan hjson _ _ _ _ _ _ _ _).mono hfinite
  · exact (Action.showsOne_runSchemas hjson).mono hfinite
  · next htask =>
      exact (Action.showsOne_runCheck hjson _ _).mono
        fun doc _ hquotes => absurd (by rw [htask]; trivial) hquotes

/-! ### The two streams -/

/-- The last line of the log is the text of a document. -/
def Workspace.TellsLast (w : Workspace) (doc : Json) : Prop :=
  ∃ front line : String, w.log = front ++ line ++ "\n" ∧ WholeLines front.toList ∧
    '\n' ∉ line.toList ∧ Json.Denotes line doc

namespace Command

variable {c : Command} {terminal : Bool} {w : Workspace}

/-- The document that describes a failure. -/
def failureDocument (f : Failure) : Json := .obj [("error", .str f.message)]

theorem execute_of_ok [Script.Parser] {code : ℕ} (h : (c.run terminal w).1 = .ok code) :
    c.execute terminal w = (code, (c.run terminal w).2) := by
  cases hrun : c.run terminal w with
  | mk r w' =>
      rw [hrun] at h
      obtain rfl : r = .ok code := h
      rw [execute, hrun]

theorem execute_of_error [Script.Parser] {f : Failure} (h : (c.run terminal w).1 = .error f) :
    c.execute terminal w = (1, { (c.run terminal w).2 with
      log := (c.run terminal w).2.log ++ failureLine c.json f ++ "\n" }) := by
  cases hrun : c.run terminal w with
  | mk r w' =>
      rw [hrun] at h
      obtain rfl : r = .error f := h
      rw [execute, hrun]

/-- The line about a failure is one document. -/
theorem denotes_failureLine (f : Failure) : Json.Denotes (failureLine true f) (failureDocument f) := by
  have hline := Json.denotes_render Json.Layout.plain_lineAscii
    (show (failureDocument f).Bounded from ⟨trivial, trivial⟩)
    (show Json.IsBlank "".toList from Json.isBlank_nil)
  rwa [String.append_empty] at hline

theorem lineFeed_notMem_failureLine (f : Failure) : '\n' ∉ (failureLine true f).toList :=
  Json.lineFeed_notMem_lineAscii (by simp [Json.Legible, Json.LegibleMembers])

/-- A command that is asked for JSON and gives a result has shown one document, which is JSON exactly if its
numbers are finite. -/
theorem output_of_ok [Script.Parser] (hjson : c.json = true) (houtput : w.output = "")
    {code : ℕ} (h : (c.run terminal w).1 = .ok code) :
    ∃ doc, Json.DenotesLoosely (c.execute terminal w).2.output doc ∧
      (Json.IsDocument [] (c.execute terminal w).2.output.toList ↔ doc.Bounded) ∧
      (¬ c.task.Quotes → doc.Bounded) := by
  obtain ⟨layout, hlayout, doc, hkind, hdoc⟩ := (showsOne_run hjson terminal).of_ok h
  have hplain := Json.Layout.plain_of_mem_printed hlayout
  have hblanks : Json.IsBlank "\n".toList := List.all_eq_true.1 (by decide)
  refine ⟨doc, ?_⟩
  rw [execute_of_ok h, hdoc.output, houtput, String.empty_append]
  exact ⟨Json.denotesLoosely_render hplain doc hblanks, Json.isDocument_render_iff hplain hblanks, hkind⟩

/-- A command that is asked for JSON and fails has shown nothing, and tells its failure last. -/
theorem streams_of_error [Script.Parser] (hjson : c.json = true) (houtput : w.output = "")
    (hlog : w.log = "") {f : Failure} (h : (c.run terminal w).1 = .error f) :
    (c.execute terminal w).2.output = "" ∧
      (c.execute terminal w).2.TellsLast (failureDocument f) := by
  have hlines := (showsOne_run hjson terminal).of_error h
  obtain ⟨front, hfront, htold⟩ := hlines.log
  rw [execute_of_error h]
  refine ⟨hlines.output.trans houtput, front, failureLine true f, ?_, hfront,
    lineFeed_notMem_failureLine f, denotes_failureLine f⟩
  dsimp only
  rw [htold, hlog, String.empty_append, hjson]

end Command

end DesignRegistry
