/-
**What an exit code tells.**

The exit code of a command that gives a result tells what was found and nothing else.  A scan asks whether
some violation is an error, and a check whether anything is reported; the others end with zero.  What is
found is a matter of the files: how it is shown, and whether the steps are told, does not count.

Main definitions:

* `Scan.Finds` — what a scan finds in the files;
* `ExitTells` — an exit code that is one exactly if something holds, and zero otherwise;
* `Task.Verdict` — the exit code of a task, from the files.

Main results:

* `Task.Verdict.unique` — the files and the task decide the exit code;
* `Command.verdict_of_ok` — **the exit code of a command tells what was found**;
* `command_contract` — **what a caller can rely on**.
-/
import DesignRegistry.Proofs.Command.Outcome
import DesignRegistry.Proofs.Scan.Sum

set_option relaxedAutoImplicit false
set_option autoImplicit false

namespace DesignRegistry

/-! ### Exit codes -/

/-- What a scan finds: the results for the files that are collected, each scanned alone, added up.  Which
steps are told in the log does not matter. -/
def Scan.Finds [Script.Parser] (fs : FileSystem) (registry : Json) (s : ScanSettings)
    (source : FilePath) (r : ScanResult) : Prop :=
  ∃ rules paths results, s.selectedRules = .ok rules ∧
    Glob.collect fs source s.pattern s.ignored = .ok paths ∧
    List.Forall₂ (fun p one => ∃ text, fs.lossyTextOf p = .ok text ∧
      one = Scan.into (.ofRegistry registry) rules s.options {} p.text text) paths results ∧
    r = .sum results

/-- The exit code is one exactly if something holds, and zero otherwise. -/
def ExitTells (code : ℕ) (p : Prop) : Prop := (code = 1 ↔ p) ∧ (code = 0 ↔ ¬ p)

theorem exitTells_verdict (valid : Bool) : ExitTells (Action.verdict valid) (valid = false) := by
  cases valid <;> simp [ExitTells, Action.verdict]

/-- The report on a document by a schema, or by the one that its members suggest. -/
def Validator.checked (v : Validator) (doc : Json) :
    Option String → Except ValidationProblem ValidationReport
  | some name => v.validate doc name
  | none => v.validateDetected doc

/-- The exit code of a task that gives a result, from the files that it found.  How the outcome is shown, and
where a report goes, does not count. -/
def Task.Verdict [Script.Parser] (fs : FileSystem) (code : ℕ) : Task → Prop
  | .validate registry checks => ∃ doc r, fs.documentOf (Registry.fileOf fs registry) = .ok doc ∧
      Registry.validate .standard checks doc = .ok r ∧ ExitTells code (r.valid = false)
  | .scan source registry settings _ _ _ failing _ =>
      ∃ doc r, fs.documentOf (Registry.fileOf fs registry) = .ok doc ∧
        Scan.Finds fs doc settings source r ∧
        ExitTells code (failing = true ∧ ∃ v ∈ r.violations, v.severity = .error)
  | .checkDocument document schema => ∃ p doc r, document = some p ∧ fs.documentOf p = .ok doc ∧
      Validator.standard.checked doc schema = .ok r ∧ ExitTells code (r.valid = false)
  | _ => code = 0

theorem ExitTells.unique {code code' : ℕ} {p : Prop} (h : ExitTells code p)
    (h' : ExitTells code' p) : code = code' := by
  by_cases hp : p
  · rw [h.1.2 hp, h'.1.2 hp]
  · rw [h.2.2 hp, h'.2.2 hp]

/-- The files decide what a scan finds. -/
theorem Scan.Finds.unique [Script.Parser] {fs : FileSystem} {registry : Json} {s : ScanSettings}
    {source : FilePath} {r r' : ScanResult} (h : Finds fs registry s source r) (h' : Finds fs registry s source r') :
    r = r' := by
  obtain ⟨rules, paths, results, hrules, hpaths, hresults, rfl⟩ := h
  obtain ⟨rules', paths', results', hrules', hpaths', hresults', rfl⟩ := h'
  obtain rfl := Except.ok.inj (hrules.symm.trans hrules')
  obtain rfl := Except.ok.inj (hpaths.symm.trans hpaths')
  congr 1
  clear hpaths hpaths'
  -- the same files in the same order, so the texts agree one by one
  induction hresults generalizing results' with
  | nil => cases hresults'; rfl
  | cons hone _ ih =>
      cases hresults' with
      | cons hone' hrest' =>
          obtain ⟨text, htext, rfl⟩ := hone
          obtain ⟨text', htext', rfl⟩ := hone'
          obtain rfl := Except.ok.inj (htext.symm.trans htext')
          rw [ih _ hrest']

/-- The files and the task decide the exit code. -/
theorem Task.Verdict.unique [Script.Parser] {fs : FileSystem} {code code' : ℕ} {task : Task}
    (h : task.Verdict fs code) (h' : task.Verdict fs code') : code = code' := by
  cases task with
  | mutate | listSnapshots | cleanUp | rollBack | listSchemas => exact Eq.trans h (Eq.symm h')
  | validate registry checks =>
      obtain ⟨doc, r, hdoc, hr, htells⟩ := h
      obtain ⟨doc', r', hdoc', hr', htells'⟩ := h'
      obtain rfl := Except.ok.inj (hdoc.symm.trans hdoc')
      obtain rfl := Except.ok.inj (hr.symm.trans hr')
      exact htells.unique htells'
  | scan source registry settings =>
      obtain ⟨doc, r, hdoc, hr, htells⟩ := h
      obtain ⟨doc', r', hdoc', hr', htells'⟩ := h'
      obtain rfl := Except.ok.inj (hdoc.symm.trans hdoc')
      obtain rfl := hr.unique hr'
      exact htells.unique htells'
  | checkDocument document schema =>
      obtain ⟨p, doc, r, rfl, hdoc, hr, htells⟩ := h
      obtain ⟨p', doc', r', hp, hdoc', hr', htells'⟩ := h'
      obtain rfl := Option.some.inj hp
      obtain rfl := Except.ok.inj (hdoc.symm.trans hdoc')
      obtain rfl := Except.ok.inj (hr.symm.trans hr')
      exact htells.unique htells'

namespace Action

variable {α β : Type} {w w' : Workspace}

/-! ### Results of sequences -/

/-- All results of an action are the same. -/
def Gives (x : Action α) (a : α) : Prop := ∀ w b w', x w = (.ok b, w') → b = a

theorem gives_pure (a : α) : Gives (pure a) a := fun _ _ _ h =>
  (Except.ok.inj (congrArg Prod.fst h)).symm

/-- The last step of a sequence gives the result. -/
theorem Gives.after {x : Action α} {next : α → Action β} {b : β} (h : ∀ a, Gives (next a) b) :
    Gives (x >>= next) b := by
  intro w b' w' hrun
  obtain ⟨a, w₁, -, hnext⟩ := bind_ok hrun
  exact h a w₁ b' w' hnext

theorem Gives.ite {x y : Action α} {a : α} (hx : Gives x a) (hy : Gives y a) (wanted : Prop)
    [Decidable wanted] : Gives (if wanted then x else y) a := by
  split
  · exact hx
  · exact hy

/-- A step that is made only sometimes. -/
theorem Gives.after_if {x : Action Unit} {next : Unit → Action β} {b : β} (wanted : Prop)
    [Decidable wanted] (h : ∀ u, Gives (next u) b) :
    Gives (if wanted then x >>= next else next ()) b :=
  .ite (.after h) (h ()) wanted

/-- What shows an outcome in one of two ways gives the same result in both. -/
theorem gives_shown {x y : Action Unit} (a : α) (wanted : Prop) [Decidable wanted] :
    Gives (if wanted then x >>= fun _ => pure a else y >>= fun _ => pure a) a :=
  .ite (.after fun _ => gives_pure a) (.after fun _ => gives_pure a) wanted

/-- Where a test may end a sequence with a failure, results come from what follows the test. -/
theorem ok_of_unless_fail {f : Failure} {wanted : Prop} [Decidable wanted] {next : Unit → Action β}
    {b : β} (h : (if wanted then fail f >>= next else next ()) w = (.ok b, w')) :
    next () w = (.ok b, w') := by
  split at h
  · obtain ⟨_, w₁, hfail, -⟩ := bind_ok h
    exact absurd (congrArg Prod.fst hfail) (by simp [fail])
  · exact h

/-- What follows a step that is made only sometimes. -/
theorem ok_of_optional {x : Action Unit} {wanted : Prop} [Decidable wanted] {next : Unit → Action β}
    {b : β} (h : (if wanted then x >>= next else next ()) w = (.ok b, w')) :
    ∃ w₁, next () w₁ = (.ok b, w') := by
  split at h
  · obtain ⟨_, w₁, -, hnext⟩ := bind_ok h
    exact ⟨w₁, hnext⟩
  · exact ⟨w, h⟩

theorem loadSchemas_eq_ok {verbose : Bool} {v : Validator}
    (h : loadSchemas verbose w = (.ok v, w')) : v = .standard :=
  Gives.ite (Gives.after fun _ => gives_pure _) (gives_pure _) _ w v w' h

theorem load_eq_ok {p : FilePath} {doc : Json} (h : Registry.load p w = (.ok doc, w')) :
    w.files.documentOf (Registry.fileOf w.files p) = .ok doc := by
  rw [Registry.load, bind_of_ok (show files w = (.ok w.files, w) from rfl)] at h
  split at h
  · cases hdoc : w.files.documentOf (Registry.fileOf w.files p) with
    | error cause =>
        simp only [hdoc] at h
        split at h <;> exact absurd (congrArg Prod.fst h) (by simp [fail])
    | ok v =>
        simp only [hdoc] at h
        cases v with
        | obj ms => exact congrArg Except.ok (Except.ok.inj (congrArg Prod.fst h))
        | null | bool | int | float | str | arr =>
            exact absurd (congrArg Prod.fst h) (by simp [fail])
  · exact absurd (congrArg Prod.fst h) (by simp [fail])

theorem readDocument_eq_ok {p : FilePath} {doc : Json} (h : readDocument p w = (.ok doc, w')) :
    w.files.documentOf p = .ok doc := by
  rw [readDocument] at h
  split at h
  · next v hdoc => exact hdoc.trans (congrArg Except.ok (Except.ok.inj (congrArg Prod.fst h)))
  · exact absurd (congrArg Prod.fst h) (by simp)

theorem finds_of_scanDirectory [Script.Parser] {registry : Json} {s : ScanSettings}
    {source : FilePath} {r : ScanResult} (h : scanDirectory registry s source w = (.ok r, w')) :
    Scan.Finds w.files registry s source r := by
  obtain ⟨rules, paths, w₁, hrules, hpaths, hagree, hscan⟩ := scanDirectory_eq_ok h
  obtain ⟨results, hresults, hr⟩ := scanFiles_eq_ok hscan
  rw [hagree.files] at hresults
  exact ⟨rules, paths, results, hrules, hpaths, hresults, hr.trans (ScanResult.empty_join _)⟩

/-! ### Commands -/

variable {c : Command} {code : ℕ}

theorem gives_runMutation (registry patches target : FilePath) (undo : Option FilePath)
    (dryRun backup : Bool) : Gives (runMutation c registry patches target undo dryRun backup) 0 :=
  .after fun _ => .after_if _ fun _ => .after fun _ => .after fun _ => .after fun _ => .after fun _ =>
    .ite (.after fun _ => gives_pure _) (.after fun _ => .after fun _ => gives_pure _) _

theorem gives_runList : Gives (runList c) 0 :=
  .after fun _ => .ite (.after fun _ => gives_pure 0) (gives_shown 0 _) _

theorem gives_runCleanUp (keep : Int) : Gives (runCleanUp c keep) 0 := by
  rw [runCleanUp]
  exact .after_if _ fun _ => .after fun _ => .after fun _ => gives_shown 0 _

theorem gives_runRollback (registry : Option FilePath) (source : String) (target : Option FilePath)
    (backup validate : Bool) : Gives (runRollback c registry source target backup validate) 0 := by
  cases registry with
  | none => exact fun _ _ _ h => absurd (congrArg Prod.fst h) (by simp [runRollback, fail])
  | some registry => exact .after fun _ => .after fun _ => gives_shown 0 _

theorem gives_runSchemas : Gives (runSchemas c) 0 := gives_shown 0 _

theorem verdict_of_runValidation [Script.Parser] {registry : FilePath} {checks : RegistryChecks}
    (h : runValidation c registry checks w = (.ok code, w')) :
    Task.Verdict w.files code (.validate registry checks) := by
  obtain ⟨doc, w₁, hload, h⟩ := bind_ok h
  have hdoc := load_eq_ok hload
  obtain ⟨w₂, h⟩ := ok_of_optional h
  obtain ⟨v, w₃, hschemas, h⟩ := bind_ok h
  obtain rfl := loadSchemas_eq_ok hschemas
  obtain ⟨r, w₄, hreport, h⟩ := bind_ok h
  obtain ⟨hvalid, -⟩ := ofExcept_eq_ok hreport
  obtain ⟨w₅, h⟩ := ok_of_optional h
  obtain ⟨report, w₆, hreported, h⟩ := bind_ok h
  obtain ⟨hgiven, -⟩ := ofExcept_eq_ok hreported
  have hcode : code = verdict report.valid := gives_shown _ _ _ _ _ h
  rw [hcode]
  exact ⟨doc, report, hdoc, by rw [Registry.validate, hvalid]; exact hgiven, exitTells_verdict _⟩

theorem verdict_of_runScan [Script.Parser] {colours : Bool} {source registry : FilePath}
    {settings : ScanSettings} {format : ReportFormat} {output : Option FilePath} {field : String} {failing plain : Bool}
    (h : runScan c colours source registry settings format output field failing w = (.ok code, w')) :
    Task.Verdict w.files code
      (.scan source registry settings format output field failing plain) := by
  obtain ⟨_, w₁, hsay, h⟩ := bind_ok h
  obtain ⟨_, w₂, hsay', h⟩ := bind_ok h
  obtain ⟨doc, hload, h⟩ := (reads_load registry).bind_ok h
  obtain ⟨r, w₃, hscan, h⟩ := bind_ok h
  have hagree := ((quiet_sayScan _ _).prints.agrees hsay).trans
    ((quiet_sayScan _ _).prints.agrees hsay')
  have hdoc := load_eq_ok hload
  have hfinds := finds_of_scanDirectory hscan
  rw [hagree.files] at hdoc hfinds
  -- whatever is written and shown after the scan, the last step gives its verdict
  have hlast : ∀ u : Unit, Gives
      (if c.json then printDocument .pretty (scanDocument r) >>= fun _ =>
        pure (verdict (!failing || r.isValid))
      else pure (verdict (!failing || r.isValid)))
      (verdict (!failing || r.isValid)) :=
    fun _ => .ite (.after fun _ => gives_pure _) (gives_pure _) _
  have hcode : code = verdict (!failing || r.isValid) := by
    cases output with
    | none => exact Gives.after_if _ hlast _ _ _ h
    | some p => exact Gives.after hlast _ _ _ h
  rw [hcode]
  have hfailed : (!failing || r.isValid) = false ↔
      failing = true ∧ ∃ v ∈ r.violations, v.severity = .error := by
    simp [ScanResult.isValid, Violation.isError]
  have htells := exitTells_verdict (!failing || r.isValid)
  rw [hfailed] at htells
  exact ⟨doc, r, hdoc, hfinds, htells⟩

theorem verdict_of_runCheck [Script.Parser] {document : Option FilePath} {schema : Option String}
    (h : runCheck c document schema w = (.ok code, w')) :
    Task.Verdict w.files code (.checkDocument document schema) := by
  cases document with
  | none => exact absurd (congrArg Prod.fst h) (by simp [runCheck, fail])
  | some p =>
      rw [runCheck, bind_of_ok (show files w = (.ok w.files, w) from rfl)] at h
      have h := ok_of_unless_fail h
      obtain ⟨doc, w₁, hread, h⟩ := bind_ok h
      have hdoc := readDocument_eq_ok hread
      obtain ⟨v, w₂, hschemas, h⟩ := bind_ok h
      obtain rfl := loadSchemas_eq_ok hschemas
      obtain ⟨r, w₃, hreport, h⟩ := bind_ok h
      obtain ⟨hvalid, -⟩ := ofExcept_eq_ok hreport
      obtain ⟨w₄, h⟩ := ok_of_optional h
      have hcode : code = verdict r.valid := gives_shown _ _ _ _ _ h
      rw [hcode]
      exact ⟨p, doc, r, rfl, hdoc, hvalid, exitTells_verdict _⟩

/-- With another store of snapshots an action works on the same files. -/
theorem inStore_eq_ok {x : Action α} {store : SnapshotStore} {a : α}
    (h : (inStore store x w).1 = .ok a) : ∃ w₁ w', w₁.files = w.files ∧ x w₁ = (.ok a, w') :=
  ⟨{ w with store }, _, rfl, Prod.ext h rfl⟩

end Action

namespace Command

variable {c : Command} {terminal : Bool} {w : Workspace} {code : ℕ}

/-- **The exit code of a command tells what was found.** -/
theorem verdict_of_ok [Script.Parser] (h : (c.run terminal w).1 = .ok code) :
    c.task.Verdict w.files code := by
  obtain ⟨task, json, verbose, backups, auditLog⟩ := c
  obtain ⟨w₁, w', hfiles, h⟩ := Action.inStore_eq_ok h
  rw [← hfiles]
  cases task with
  | mutate registry patches target undo dryRun backup =>
      exact Action.gives_runMutation registry patches target undo dryRun backup _ _ _ h
  | listSnapshots => exact Action.gives_runList _ _ _ h
  | cleanUp keep => exact Action.gives_runCleanUp keep _ _ _ h
  | rollBack registry source target backup validate =>
      exact Action.gives_runRollback registry source target backup validate _ _ _ h
  | validate registry checks => exact Action.verdict_of_runValidation h
  | scan source registry settings format output field failing plain =>
      exact Action.verdict_of_runScan h
  | listSchemas => exact Action.gives_runSchemas _ _ _ h
  | checkDocument document schema => exact Action.verdict_of_runCheck h

/-! ### Command lines -/

/-- The words from the name of a command on are the last ones of the command line. -/
theorem nameOnwards_suffix {surplus surplus' : Bool} {ws : List Word} {texts rest : List String}
    (h : nameOnwards surplus ws texts = .ok (surplus', rest)) : rest <:+ texts := by
  fun_induction nameOnwards surplus ws texts with
  | case1 surplus ws t texts ih => exact (ih h).trans (List.suffix_cons t texts)
  | case2 | case3 | case4 | case5 => cases h
  | case6 =>
      obtain ⟨-, rfl⟩ := Prod.mk.inj (Except.ok.inj h)
      exact List.suffix_rfl

theorem text_of_ofText? {t : String} {name : CommandName} (h : CommandName.ofText? t = some name) :
    name.text = t := by
  simpa using List.find?_some h

/-- A command line that is accepted ends with the name of a command and its arguments. -/
theorem exists_of_read {texts : List String} (h : Command.read texts = .ok c) :
    ∃ name rest a, CommandName.text name :: rest <:+ texts ∧ name.rules.read rest = .ok a ∧
      c = .ofArguments name a := by
  rw [Command.read] at h
  obtain ⟨ws, -, h⟩ := exists_of_bind_eq_ok h
  obtain ⟨⟨surplus, onwards⟩, hname, h⟩ := exists_of_bind_eq_ok h
  have hsuffix := nameOnwards_suffix hname
  cases onwards with
  | nil => cases h
  | cons t rest =>
      cases hcommand : CommandName.ofText? t with
      | none =>
          simp only [hcommand] at h
          cases h
      | some name =>
          simp only [hcommand] at h
          obtain ⟨a, hread, h⟩ := exists_of_bind_eq_ok h
          split at h
          · cases h
          · refine ⟨name, rest, a, ?_, hread, (Except.ok.inj h).symm⟩
            rwa [text_of_ofText? hcommand]

end Command

/-- **What a caller can rely on.**  A command line that is accepted names a command and gives its
arguments.  A command that fails exits with one; any other exits with the code that tells what was found in
the files.  Asked for JSON, it puts one document and nothing else on its output, or it fails, leaves the
output empty, and tells the failure by one object on the last line of the log.  The one document is JSON
exactly if all its numbers are finite, as they are unless it holds values of the files that were read. -/
theorem command_contract [Script.Parser] (texts : List String) (c : Command)
    (hread : Command.read texts = .ok c) (terminal : Bool) (w : Workspace) (houtput : w.output = "") (hlog : w.log = "") :
    ∃ name rest a, CommandName.text name :: rest <:+ texts ∧ name.rules.read rest = .ok a ∧
      c = .ofArguments name a ∧
      (∀ f, (c.run terminal w).1 = .error f → (c.execute terminal w).1 = 1) ∧
      (∀ code, (c.run terminal w).1 = .ok code →
        (c.execute terminal w).1 = code ∧ c.task.Verdict w.files code) ∧
      (a.has "--json" = true →
        (∃ code doc, (c.run terminal w).1 = .ok code ∧
          Json.DenotesLoosely (c.execute terminal w).2.output doc ∧
          (Json.IsDocument [] (c.execute terminal w).2.output.toList ↔ doc.Bounded) ∧
          (¬ c.task.Quotes → Json.Denotes (c.execute terminal w).2.output doc)) ∨
        (∃ f, (c.run terminal w).1 = .error f ∧ (c.execute terminal w).1 = 1 ∧
          (c.execute terminal w).2.output = "" ∧
          (c.execute terminal w).2.TellsLast (.obj [("error", .str f.message)]))) := by
  obtain ⟨name, rest, a, hname, hrules, hc⟩ := Command.exists_of_read hread
  refine ⟨name, rest, a, hname, hrules, hc, fun f h => ?_, fun code h => ⟨?_, Command.verdict_of_ok h⟩,
    fun hjson => ?_⟩
  · rw [Command.execute_of_error h]
  · rw [Command.execute_of_ok h]
  · have hasked : c.json = true := by rw [hc]; exact hjson
    cases hrun : (c.run terminal w).1 with
    | ok code =>
        obtain ⟨doc, hdoc, hproper, hfinite⟩ := Command.output_of_ok hasked houtput hrun
        exact .inl ⟨code, doc, rfl, hdoc, hproper,
          fun hquotes => ⟨hproper.2 (hfinite hquotes), hdoc.legible⟩⟩
    | error f =>
        obtain ⟨hempty, htold⟩ := Command.streams_of_error hasked houtput hlog hrun
        exact .inr ⟨f, rfl, by rw [Command.execute_of_error hrun], hempty, htold⟩

/-- A directory with one document in it. -/
def directoryOf (text : String) : Workspace where
  files := ⟨[(["r.json"], .file text.toUTF8 0)], [], 1⟩
  clock := ⟨⟨0⟩, 0⟩
  store := .directory ⟨"", ["backups"]⟩

/-- A document that has the members of a registry, and no list of components. -/
def brokenRegistry : Workspace := directoryOf "\x7b\"name\":\"r\",\"components\":7\x7d"

/-- The command that checks it and gives the outcome as JSON. -/
def brokenCheck : Command :=
  .ofArguments .validate { given := ["r.json"], settings := [("--json", "")] }

/-- The document is found invalid: one document of JSON is shown, and the exit code is one. -/
theorem command_contract_broken :
    Command.read ["validate", "r.json", "--json"] = .ok brokenCheck ∧
      (brokenCheck.execute false brokenRegistry).1 = 1 ∧
      brokenCheck.task.Verdict brokenRegistry.files 1 ∧
      ∃ doc, Json.Denotes (brokenCheck.execute false brokenRegistry).2.output doc := by
  have hread : Command.read ["validate", "r.json", "--json"] = .ok brokenCheck := rfl
  have hseen : (brokenCheck.run false brokenRegistry).1.toOption.map (fun code => code) = some 1 := by
    decide +kernel
  obtain ⟨code, hrun, rfl⟩ := exists_ok_of_seen hseen
  obtain ⟨name, rest, a, -, -, hc, -, hcode, hjson⟩ :=
    command_contract _ _ hread false brokenRegistry rfl rfl
  obtain ⟨hexit, hverdict⟩ := hcode _ hrun
  refine ⟨hread, hexit, hverdict, ?_⟩
  have hasked : a.has "--json" = true := (congrArg Command.json hc).symm
  rcases hjson hasked with ⟨_, doc, -, -, -, hdoc⟩ | ⟨f, herror, -⟩
  · exact ⟨doc, hdoc id⟩
  · exact absurd (hrun.symm.trans herror) (by simp)

/-- A registry whose version is a number beyond all that are finite. -/
def boundlessRegistry : Workspace :=
  directoryOf "\x7b\"name\":\"r\",\"version\":1e400,\"components\":[]\x7d"

/-- The command that checks it against the schema that its members suggest. -/
def boundlessCheck : Command :=
  .ofArguments .schema { given := ["r.json"], settings := [("--json", "")] }

/-- What is shown about a number that is not finite is no document of JSON. -/
theorem command_contract_boundless :
    Command.read ["schema", "r.json", "--json"] = .ok boundlessCheck ∧
      (boundlessCheck.execute false boundlessRegistry).1 = 1 ∧
      (boundlessCheck.execute false boundlessRegistry).2.output ≠ "" ∧
      ¬ Json.IsDocument [] (boundlessCheck.execute false boundlessRegistry).2.output.toList := by
  have hletter : 'I' ∈
      Json.outside false (boundlessCheck.execute false boundlessRegistry).2.output.toList := by
    decide +kernel
  refine ⟨rfl, by decide +kernel, fun hempty => ?_, fun hdoc => ?_⟩
  · rw [hempty] at hletter
    exact absurd hletter (by decide)
  · exact (Json.wordFree_of_isDocument hdoc).letters.2 trivial 'I' hletter (by decide)

end DesignRegistry
