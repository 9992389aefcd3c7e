/-
**The audit log is a history.**

Mutations and rollbacks of files that share an audit log write their entry when all else is written: what
fails before has left the log alone.  Behind its entry a rollback does nothing more, and a mutation compares
two documents as texts, which fails just if one of them has none.  So a log that consists of whole lines
gets one more line for each of them that ends well and is to be logged, in the order in which they run, and
what was there before stays in front.  That takes a log that nothing else writes: neither the documents nor
the snapshots come by its place.

Main definitions:

* `Workspace.LogHolds` — the entries that a log holds;
* `Workspace.LeavesLog` — a log that stays as it is;
* `Workspace.Clear` — files and snapshots that do not come by the place of the log;
* `LoggedOp`, `LoggedOp.run` — an operation, and what the log is to tell of it;
* `LoggedOp.HasTexts` — an operation that does not fail behind its entry;
* `Chronicle` — operations one after the other.

Main results:

* `Workspace.LogHolds.auditEntries` — the entries that a log holds are those that are read;
* `Workspace.LogHolds.logRecord` — **an entry that is added comes after the others**;
* `LoggedOp.records` — **one operation** leaves the log alone or adds its entry;
* `log_tells_history` — **the log tells the operations that ended well, in order**.
-/
import DesignRegistry.Proofs.Storage.Rewrite
import DesignRegistry.Proofs.Workspace.Entries
import DesignRegistry.Proofs.Workspace.Footprint

set_option relaxedAutoImplicit false
set_option autoImplicit false

namespace DesignRegistry

namespace Workspace

variable {w w' w'' : Workspace} {log : FilePath} {es : List Json}

/-! ### What a log holds -/

/-- The entries that a log holds: none where nothing stands in its place, and otherwise those on the whole
lines that it consists of. -/
inductive LogHolds (w : Workspace) (log : FilePath) : List Json → Prop
  | absent : w.files.entryAt? (w.files.place log) = none → LogHolds w log []
  | lines {s : String} {es : List Json} : w.files.bytesOf log = .ok s.toUTF8 → WholeLines s.toList →
      entriesOf s.toList = .ok es → LogHolds w log es

/-- The entries that a log holds are those that are read. -/
theorem LogHolds.auditEntries (h : w.LogHolds log es) :
    Action.auditEntries log w = (.ok es, w) := by
  rw [Action.auditEntries, Action.bind_of_ok (show Action.files w = (.ok w.files, w) from rfl)]
  cases h with
  | absent hnone =>
      have hmissing : w.files.pathExists log = false := by
        by_contra hthere
        rw [Bool.not_eq_false, FileSystem.pathExists, Option.isSome_iff_exists] at hthere
        obtain ⟨e, he⟩ := hthere
        obtain ⟨l, hloc, hentry⟩ := FileSystem.at?_eq_some.1 he
        rw [FileSystem.locate_place hloc, hnone] at hentry
        exact absurd hentry (by simp)
      rw [hmissing]
      rfl
  | @lines s _ hbytes _ hes =>
      obtain ⟨time, hat⟩ := FileSystem.bytesOf_eq_ok.1 hbytes
      have hthere : w.files.pathExists log = true := by rw [FileSystem.pathExists, hat, Option.isSome_some]
      have htext : w.files.textOf log = .ok (withPlainLineEnds s) := by
        rw [FileSystem.textOf, hbytes]
        simp only [decodeText_toUTF8]
      have hread : Action.ofExcept Failure.read (w.files.textOf log) w = (.ok (withPlainLineEnds s), w) := by
        rw [htext]
        rfl
      rw [entriesOf] at hes
      rw [if_pos hthere, Action.bind_of_ok hread, withPlainLineEnds, String.toList_ofList, hes]
      rfl

/-- The bytes that a log has are the first of those that it has afterwards. -/
def LogExtends (w w' : Workspace) (log : FilePath) : Prop :=
  ∀ old, w.files.bytesOf log = .ok old → ∃ more, w'.files.bytesOf log = .ok (old ++ more)

theorem LogExtends.trans (h : w.LogExtends w' log) (h' : w'.LogExtends w'' log) :
    w.LogExtends w'' log := by
  intro old hold
  obtain ⟨more, hmore⟩ := h old hold
  obtain ⟨rest, hrest⟩ := h' _ hmore
  exact ⟨more ++ rest, by rw [hrest, ByteArray.append_assoc]⟩

/-- **An entry that is added comes after the others.** -/
theorem LogHolds.logRecord (h : w.LogHolds log es) {r : AuditRecord} {entry : Json}
    (hrun : Action.logRecord log r w = (.ok entry, w')) (hcount : (Json.int r.count).Legible)
    (hextra : ∀ m ∈ r.extra, m.2.Legible) :
    w'.LogHolds log (es ++ [entry.sortKeys]) ∧ w.LogExtends w' log := by
  obtain ⟨hentry, hadd, -⟩ := Action.logRecord_eq_ok hrun
  obtain ⟨hold, hnew⟩ := FileSystem.bytesOf_of_appendLine hadd
  refine ⟨?_, fun old hbytes => ⟨_, hold old hbytes⟩⟩
  obtain ⟨ms, hms, -⟩ := Json.exists_sortKeys_obj (r.members w.clock.read.1.timestamp)
  have hsorted : entry.sortKeys = .obj ms := hentry ▸ hms
  have hlegible : (Json.obj ms).Legible :=
    hms ▸ (AuditRecord.legible_members hcount hextra).sortKeys
  have hline : (Json.render .compact (.obj ms) ++ "\n").toList =
      Json.renderAt .compact 0 (.obj ms) ++ ['\n'] := by
    rw [String.toList_append, Json.render, String.toList_ofList]
    rfl
  rw [hsorted] at hold hnew ⊢
  cases h with
  | absent hnone =>
      refine .lines (hnew hnone) (.inr ⟨_, hline⟩) ?_
      rw [hline]
      exact entriesOf_line hlegible
  | @lines s _ hbytes hwhole hes =>
      have hboth : w'.files.bytesOf log = .ok (s ++ (Json.render .compact (.obj ms) ++ "\n")).toUTF8 :=
        (hold _ hbytes).trans (congrArg Except.ok String.toByteArray_append.symm)
      refine .lines hboth (.inr ⟨s.toList ++ Json.renderAt .compact 0 (.obj ms), ?_⟩) ?_
      · rw [String.toList_append, hline, List.append_assoc]
      · rw [String.toList_append, hline]
        exact entriesOf_append_line hwhole hes hlegible

/-! ### Logs that are left alone -/

/-- A log that stays as it is: what stands in its place stays, and its path leads where it led. -/
structure LeavesLog (w w' : Workspace) (log : FilePath) : Prop where
  current : w'.files.current = w.files.current
  entry : w'.files.entryAt? (w.files.place log) = w.files.entryAt? (w.files.place log)
  leads : ∀ l, w.files.locate log = .ok l → w'.files.locate log = .ok l

namespace LeavesLog

theorem place (h : w.LeavesLog w' log) (p : FilePath) : w'.files.place p = w.files.place p := by
  rw [FileSystem.place, FileSystem.place, FileSystem.start, FileSystem.start, h.current]

theorem refl (w : Workspace) (log : FilePath) : w.LeavesLog w log := ⟨rfl, rfl, fun _ h => h⟩

theorem trans (h : w.LeavesLog w' log) (h' : w'.LeavesLog w'' log) : w.LeavesLog w'' log where
  current := h'.current.trans h.current
  entry := by
    have hentry := h'.entry
    rw [h.place] at hentry
    exact hentry.trans h.entry
  leads := fun l hl => h'.leads l (h.leads l hl)

theorem of_agrees (h : w.Agrees w') (log : FilePath) : w.LeavesLog w' log := by
  constructor <;> rw [h.files]
  exact fun _ hl => hl

theorem bytesOf (h : w.LeavesLog w' log) {bytes : ByteArray} (hbytes : w.files.bytesOf log = .ok bytes) :
    w'.files.bytesOf log = .ok bytes := by
  obtain ⟨time, hat⟩ := FileSystem.bytesOf_eq_ok.1 hbytes
  obtain ⟨l, hloc, hentry⟩ := FileSystem.at?_eq_some.1 hat
  refine FileSystem.bytesOf_eq_ok.2 ⟨time, FileSystem.at?_eq_some.2 ⟨l, h.leads l hloc, ?_⟩⟩
  have hsame := h.entry
  rw [← FileSystem.locate_place hloc] at hsame
  rw [hsame, hentry]

theorem logExtends (h : w.LeavesLog w' log) : w.LogExtends w' log := fun old hold =>
  ⟨.empty, by rw [h.bytesOf hold, ByteArray.append_empty]⟩

theorem logHolds (h : w.LeavesLog w' log) (hlog : w.LogHolds log es) : w'.LogHolds log es := by
  cases hlog with
  | absent hnone =>
      refine .absent ?_
      rw [h.place, h.entry, hnone]
  | lines hbytes hwhole hes => exact .lines (h.bytesOf hbytes) hwhole hes

end LeavesLog

/-- Files at some paths, and snapshots if any are taken, that do not come by the place of the log.  Where
the log is there, it is enough that no file is written in its place. -/
structure Clear (w : Workspace) (log : FilePath) (saves : Bool) (ps : List FilePath) : Prop where
  sound : w.Sound
  apart : ∀ p ∈ ps, w.files.place p ≠ w.files.place log
  vacant : w.files.entryAt? (w.files.place log) = none → w.Bypasses (w.files.place log) saves ps

end Workspace

/-- What comes by other places leaves the log alone, and what follows it does not come by the log either. -/
theorem Action.Spares.leavesLog {α : Type} {x : Action α} {saves : Bool} {ps qs : List FilePath}
    {w : Workspace} {log : FilePath} (hx : x.Spares saves qs) (hsub : qs ⊆ ps)
    (h : w.Clear log saves ps) :
    w.LeavesLog (x w).2 log ∧ (x w).2.Clear log saves ps := by
  have hkeeps := hx.alters w h.sound
  have hleaves : w.LeavesLog (x w).2 log := by
    refine ⟨hkeeps.files.current, ?_, fun l hl => hkeeps.files.locate hl⟩
    rcases hentry : w.files.entryAt? (w.files.place log) with _ | _ | ⟨bytes, time⟩
    · have hbypass := h.vacant hentry
      exact hx.vacant w _ h.sound ⟨fun p hp => hbypass.paths p (hsub hp), hbypass.store⟩ hentry
    · exact hkeeps.files.directory _ hentry
    · refine hkeeps.files.file _ bytes time (fun hmem => ?_) hentry
      obtain ⟨p, hp, hplace⟩ := List.mem_map.1 hmem
      exact h.apart p (hsub hp) hplace
  refine ⟨hleaves, hkeeps.sound, fun p hp => ?_, fun hnone => ?_⟩
  · rw [hleaves.place, hleaves.place]
    exact h.apart p hp
  · rw [hleaves.place] at hnone ⊢
    exact hkeeps.bypasses (h.vacant (hleaves.entry ▸ hnone))

/-- An entry that cannot be added leaves the files as they are. -/
theorem Action.files_of_logRecord_error {log : FilePath} {r : AuditRecord} {f : Failure}
    {w w' : Workspace} (h : logRecord log r w = (.error f, w')) : w'.files = w.files := by
  rw [logRecord] at h
  split at h
  · rcases bind_error h with h | ⟨t, w₁, hread, h⟩
    · exact absurd (congrArg Prod.fst h) (by simp [readClock])
    obtain ⟨-, rfl⟩ := Prod.mk.inj hread
    rcases bind_error h with h | ⟨_, _, _, h⟩
    · rw [changeFiles] at h
      split at h
      · exact absurd (congrArg Prod.fst h) (by simp)
      · obtain ⟨-, rfl⟩ := Prod.mk.inj h
        rfl
    · exact ((quiet_pure _).not_error h).elim
  · obtain ⟨-, rfl⟩ := Prod.mk.inj h
    rfl

/-! ### Operations -/

/-- What the log is to tell of an operation that ends in one way or another. -/
def told (outcome : Except Failure (Option AuditRecord)) : List AuditRecord :=
  outcome.toOption.join.toList

/-- What an operation does to the log: it leaves it alone, or it adds an entry, after which it does nothing
but print and ends well.  The entry has further members. -/
inductive Records (log : FilePath) (w : Workspace) :
    Except Failure (Option AuditRecord) × Workspace → Prop
  | silent {outcome : Except Failure (Option AuditRecord)} {w' : Workspace} : told outcome = [] →
      w.LeavesLog w' log → Records log w (outcome, w')
  | entered {r : AuditRecord} {entry : Json} {w₁ w₂ w' : Workspace} : w.LeavesLog w₁ log →
      (∀ m ∈ r.extra, m.2.Legible ∧ m.1 ∉ AuditRecord.baseKeys) →
      Action.logRecord log r w₁ = (.ok entry, w₂) → w₂.Agrees w' →
      Records log w (.ok (some { r with extra := [] }), w')

namespace Records

variable {log : FilePath} {w w₁ : Workspace} {result : Except Failure (Option AuditRecord) × Workspace}

theorem of_leavesLog (h : w.LeavesLog w₁ log) (hresult : Records log w₁ result) :
    Records log w result := by
  cases hresult with
  | silent htold hleaves => exact .silent htold (h.trans hleaves)
  | entered hleaves hextra hrun hagree => exact .entered (h.trans hleaves) hextra hrun hagree

/-- What comes by other places can go before. -/
theorem bind {α : Type} {x : Action α} {next : α → Action (Option AuditRecord)} {saves : Bool}
    {ps qs : List FilePath} (hx : x.Spares saves qs) (hsub : qs ⊆ ps) (h : w.Clear log saves ps)
    (hnext : ∀ a w₁, w₁.Clear log saves ps → Records log w₁ (next a w₁)) :
    Records log w ((x >>= next) w) := by
  obtain ⟨hleaves, hclear⟩ := hx.leavesLog hsub h
  refine Action.bind_cases (fun f w₁ hrun => ?_) fun a w₁ hrun => ?_
  · rw [hrun] at hleaves
    exact .silent rfl hleaves
  · rw [hrun] at hleaves hclear
    exact .of_leavesLog hleaves (hnext a w₁ hclear)

/-- An entry is added, unless that fails, and what only prints can follow. -/
theorem logRecord {r : AuditRecord} {next : Json → Action (Option AuditRecord)}
    (hextra : ∀ m ∈ r.extra, m.2.Legible ∧ m.1 ∉ AuditRecord.baseKeys)
    (hnext : ∀ entry w₁, ∃ w₂, next entry w₁ = (.ok (some { r with extra := [] }), w₂) ∧
      w₁.Agrees w₂) : Records log w ((Action.logRecord log r >>= next) w) := by
  refine Action.bind_cases (fun f w₁ hrun => ?_) fun entry w₁ hrun => ?_
  · have hfiles := Action.files_of_logRecord_error hrun
    refine .silent rfl ⟨by rw [hfiles], by rw [hfiles], fun l hl => ?_⟩
    rwa [hfiles]
  · obtain ⟨w₂, heq, hagree⟩ := hnext entry w₁
    rw [heq]
    exact .entered (.refl w log) hextra hrun hagree

end Records

/-- An operation that a log can tell of. -/
inductive LoggedOp where
  | mutation (e : Engine) (o : MutationOptions) (doc : Json) (patches : List Json)
  | rollback (e : RollbackEngine) (o : RollbackOptions) (registry : FilePath) (c : FileRollback)

namespace LoggedOp

/-- Runs an operation; what the log is to tell of it, if it is to tell of it. -/
def run : LoggedOp → Action (Option AuditRecord)
  | mutation e o doc patches => do
    let r ← Action.mutate e o doc patches
    return if o.dryRun then none else some {
      type := "mutation"
      source := o.source
      target := o.target.map FilePath.text
      backup := r.backup
      count := r.successful }
  | rollback e o registry c => do
    let r ← c.run e o registry
    return if o.logged then some {
      type := "rollback"
      source := some registry.text
      target := some (o.target.getD registry).text
      backup := r.backup
      count := r.applied.getD 0 } else none

/-- The log that an operation writes, if it keeps one. -/
def auditLog : LoggedOp → Option FilePath
  | mutation e .. => e.auditLog
  | rollback e .. => e.auditLog

/-- Whether a snapshot is taken. -/
def saves : LoggedOp → Bool
  | mutation _ o .. => o.createBackup && !o.dryRun
  | rollback _ o .. => o.createBackup

/-- The files that an operation writes besides the log. -/
def written : LoggedOp → List FilePath
  | mutation _ o .. => if o.dryRun then [] else o.target.toList ++ o.undo.toList
  | rollback _ o registry _ => [o.target.getD registry]

/-- An operation that does not fail behind its entry: the documents before and after a mutation have a text.
A rollback does nothing behind its entry. -/
def HasTexts : LoggedOp → Prop
  | mutation _ _ doc patches => doc.hasText = true ∧ (reached doc patches).hasText = true
  | rollback .. => True

variable {log : FilePath} {w : Workspace}

theorem records_mutation {e : Engine} {o : MutationOptions} {doc : Json} {patches : List Json}
    (hlog : e.auditLog = some log) (htexts : (mutation e o doc patches).HasTexts)
    (h : w.Clear log (mutation e o doc patches).saves (mutation e o doc patches).written) :
    Records log w ((mutation e o doc patches).run w) := by
  have hquiet : ∀ {α : Type} {x : Action α}, Action.Quiet x →
      x.Spares (mutation e o doc patches).saves [] := fun hx => hx.prints.spares _
  have hadvice : ∀ stage advised,
      (Action.adviseIf o.validate e stage advised).Spares (mutation e o doc patches).saves [] :=
    fun stage advised => (Action.prints_adviseIf o.validate e stage advised).spares _
  obtain ⟨change, hchange⟩ : ∃ change,
      Action.ofExcept Failure.text (sizeChange doc (Batch.run doc patches).document) = pure change := by
    rw [Batch.run_eq, sizeChange_eq_ok htexts.1 htexts.2]
    exact ⟨_, rfl⟩
  simp only [run, Action.mutate, hchange, Action.bind_assoc, Action.pure_bind]
  refine .bind (hquiet (Action.quiet_sayMutation e _)) (List.nil_subset _) h fun _ w h => ?_
  refine .bind (Action.spares_snapshotBefore e _ doc) (List.nil_subset _) h fun backup w h => ?_
  refine .bind (hadvice _ _) (List.nil_subset _) h fun before w h => ?_
  refine .bind (hquiet (Action.quiet_sayPatches e doc patches)) (List.nil_subset _) h fun _ w h => ?_
  refine .bind (hadvice _ _) (List.nil_subset _) h fun after w h => ?_
  cases hdry : o.dryRun with
  | true =>
      rw [Action.recordUnlessDry, if_pos hdry]
      refine .bind (hquiet (Action.quiet_pure ())) (List.nil_subset _) h fun _ w h => ?_
      refine .bind (hquiet (Action.quiet_sayMutation e _)) (List.nil_subset _) h fun _ w h => ?_
      exact .silent rfl (.refl w log)
  | false =>
      have hwritten : (mutation e o doc patches).written = o.target.toList ++ o.undo.toList :=
        if_neg (by simp [hdry])
      rw [Action.recordUnlessDry, if_neg (by simp [hdry]), Action.recordMutation, Action.bind_assoc]
      refine .bind (Action.spares_writeOptional e _ _ o.target _)
        (hwritten ▸ List.subset_append_left _ _) h fun _ w h => ?_
      rw [Action.bind_assoc]
      refine .bind (Action.spares_writeOptional e _ _ o.undo _)
        (hwritten ▸ List.subset_append_right _ _) h fun _ w h => ?_
      simp only [hlog, Action.bind_assoc, Action.pure_bind]
      refine .logRecord ?_ fun entry w₁ => ?_
      · exact List.forall_mem_cons.2 ⟨⟨AuditRecord.legible_ofText? _,
          show "undoPath" ∉ AuditRecord.baseKeys by decide⟩, List.forall_mem_nil _⟩
      · obtain ⟨_, w₂, hsay, hagree⟩ := Action.quiet_sayMutation e ("applied " ++
          natText (Batch.run doc patches).successful ++ " of " ++ natText patches.length ++
            " patch(es)") w₁
        rw [Action.bind_of_ok hsay]
        exact ⟨w₂, rfl, hagree⟩

theorem records_rollback {e : RollbackEngine} {o : RollbackOptions} {registry : FilePath}
    {c : FileRollback} (hlog : e.auditLog = some log)
    (h : w.Clear log (rollback e o registry c).saves (rollback e o registry c).written) :
    Records log w ((rollback e o registry c).run w) := by
  rw [run, FileRollback.run_eq, Action.bind_assoc]
  refine .bind (FileRollback.spares_compute e o registry c) (List.nil_subset _) h fun computed w h => ?_
  rw [FileRollback.finish, Action.finishRollback, Action.bind_assoc]
  refine .bind (Action.spares_writeDocument _ _ _) (List.Subset.refl _) h fun _ w h => ?_
  rw [Action.bind_assoc]
  refine .bind ((Action.quiet_sayRollback e _).prints.spares _) (List.nil_subset _) h fun _ w h => ?_
  cases hlogged : o.logged with
  | false => exact .silent rfl (.refl w log)
  | true =>
      simp only [hlog, Action.bind_assoc, Action.pure_bind]
      refine .logRecord ?_ fun entry w₁ => ⟨w₁, rfl, .refl w₁⟩
      exact List.forall_mem_cons.2 ⟨⟨trivial, show "method" ∉ AuditRecord.baseKeys by decide⟩,
        List.forall_mem_cons.2 ⟨⟨trivial, show "restoredFrom" ∉ AuditRecord.baseKeys by decide⟩,
          List.forall_mem_nil _⟩⟩

/-- **One operation** leaves the log alone or adds its entry. -/
theorem records {op : LoggedOp} (hlog : op.auditLog = some log) (htexts : op.HasTexts)
    (h : w.Clear log op.saves op.written) : Records log w (op.run w) := by
  cases op with
  | mutation e o doc patches => exact records_mutation hlog htexts h
  | rollback e o registry c => exact records_rollback hlog h

end LoggedOp

/-- What operations leave in the log: the entries that it held, and then one for each record that is to be
told; its first bytes stay. -/
structure Workspace.Tells (w w' : Workspace) (log : FilePath) (es added : List Json)
    (records : List AuditRecord) : Prop where
  holds : w'.LogHolds log (es ++ added)
  grows : w.LogExtends w' log
  told : List.Forall₂ AuditRecord.ToldBy records added

theorem Workspace.Tells.trans {w w' w'' : Workspace} {log : FilePath} {es added added' : List Json}
    {records records' : List AuditRecord} (h : w.Tells w' log es added records)
    (h' : w'.Tells w'' log (es ++ added) added' records') :
    w.Tells w'' log es (added ++ added') (records ++ records') where
  holds := by
    rw [← List.append_assoc]
    exact h'.holds
  grows := h.grows.trans h'.grows
  told := List.rel_append h.told h'.told

theorem Workspace.LeavesLog.tells {w w' : Workspace} {log : FilePath} {es : List Json}
    (h : w.LeavesLog w' log) (hlog : w.LogHolds log es) : w.Tells w' log es [] [] where
  holds := by
    rw [List.append_nil]
    exact h.logHolds hlog
  grows := h.logExtends
  told := .nil

/-- An operation adds the entries that are to be told of it. -/
theorem Records.tells {log : FilePath} {w w' : Workspace}
    {outcome : Except Failure (Option AuditRecord)} (h : Records log w (outcome, w')) {es : List Json}
    (hlog : w.LogHolds log es) (hcount : ∀ r ∈ told outcome, (Json.int r.count).Legible) :
    ∃ added, w.Tells w' log es added (told outcome) := by
  cases h with
  | silent htold hleaves =>
      rw [htold]
      exact ⟨[], hleaves.tells hlog⟩
  | @entered r entry w₁ w₂ _ hleaves hextra hrun hagree =>
      obtain ⟨hholds, hextends⟩ := (hleaves.logHolds hlog).logRecord hrun
        (hcount { r with extra := [] } (List.mem_singleton_self _)) fun m hm => (hextra m hm).1
      have hafter := Workspace.LeavesLog.of_agrees hagree log
      have htold := AuditRecord.toldBy_entry (fun m hm => (hextra m hm).2) w₁.clock.read.1.timestamp
      rw [← (Action.logRecord_eq_ok hrun).1] at htold
      refine ⟨[entry.sortKeys], hafter.logHolds hholds,
        (hleaves.logExtends.trans hextends).trans hafter.logExtends, .cons ?_ .nil⟩
      exact ⟨htold.type, htold.source, htold.target, htold.backup, htold.count⟩

/-! ### Histories -/

/-- What the log is to tell of operations, by their outcomes. -/
def recordsOf (steps : List (LoggedOp × Except Failure (Option AuditRecord))) : List AuditRecord :=
  steps.flatMap fun s => told s.2

/-- Operations with one log, one after the other, each with its outcome.  Before each of them anything may
happen that leaves the log alone: time passes, and others write other files or exchange the store of
snapshots. -/
inductive Chronicle (log : FilePath) :
    Workspace → List (LoggedOp × Except Failure (Option AuditRecord)) → Workspace → Prop
  | nil (w : Workspace) : Chronicle log w [] w
  | cons {w w₁ w₂ w' : Workspace} {op : LoggedOp} {outcome : Except Failure (Option AuditRecord)}
      {steps : List (LoggedOp × Except Failure (Option AuditRecord))} : w.LeavesLog w₁ log →
      op.auditLog = some log → w₁.Clear log op.saves op.written → op.run w₁ = (outcome, w₂) →
      Chronicle log w₂ steps w' → Chronicle log w ((op, outcome) :: steps) w'

/-- **A history**, by induction on it: each operation adds its entries to those before. -/
theorem Chronicle.tells {log : FilePath} {w w' : Workspace}
    {steps : List (LoggedOp × Except Failure (Option AuditRecord))} (h : Chronicle log w steps w')
    {es : List Json} (hlog : w.LogHolds log es) (htexts : ∀ s ∈ steps, s.1.HasTexts)
    (hcounts : ∀ r ∈ recordsOf steps, (Json.int r.count).Legible) :
    ∃ added, w.Tells w' log es added (recordsOf steps) := by
  induction h generalizing es with
  | nil w => exact ⟨[], (Workspace.LeavesLog.refl w log).tells hlog⟩
  | @cons w w₁ w₂ w' op outcome steps hleaves haudit hclear hrun hrest ih =>
      rw [recordsOf, List.flatMap_cons, List.forall_mem_append] at hcounts
      rw [List.forall_mem_cons] at htexts
      have hrecords := LoggedOp.records haudit htexts.1 hclear
      rw [hrun] at hrecords
      obtain ⟨first, hfirst⟩ := (Records.of_leavesLog hleaves hrecords).tells hlog hcounts.1
      obtain ⟨added, hadded⟩ := ih hfirst.holds htexts.2 hcounts.2
      exact ⟨first ++ added, hfirst.trans hadded⟩

/-- **The log tells the operations that ended well, in order.**  Let mutations and rollbacks of files run one
after the other with one audit log, some of which may fail or not be logged, where the log is not there at
first or consists of whole lines, and nothing else comes by its place.  The entries at the end are those that
were there, followed by one for each mutation that gave its report, unless it was a dry run, and each
rollback that gave its report and was to be logged, with its type, the paths it read and wrote, its snapshot
and its count, whatever characters are in them, as long as no count is too long to be read and the documents
of the mutations have a text.  The bytes that were there are the first of those that are there at the end. -/
theorem log_tells_history (log : FilePath) (w w' : Workspace)
    (steps : List (LoggedOp × Except Failure (Option AuditRecord))) (h : Chronicle log w steps w')
    (es : List Json) (hlog : w.LogHolds log es) (htexts : ∀ s ∈ steps, s.1.HasTexts)
    (hcounts : ∀ r ∈ recordsOf steps, (Json.int r.count).Legible) :
    ∃ added, Action.auditEntries log w = (.ok es, w) ∧
      Action.auditEntries log w' = (.ok (es ++ added), w') ∧
      List.Forall₂ AuditRecord.ToldBy (recordsOf steps) added ∧
      (∀ old, w.files.bytesOf log = .ok old →
        ∃ more, w'.files.bytesOf log = .ok (old ++ more)) ∧
      w'.LogHolds log (es ++ added) := by
  obtain ⟨added, htells⟩ := h.tells hlog htexts hcounts
  exact ⟨added, hlog.auditEntries, htells.holds.auditEntries, htells.told, htells.grows, htells.holds⟩

/-- An empty directory, and snapshots in memory. -/
def emptyWorkspace : Workspace := ⟨.empty ["home"] 0, ⟨⟨0⟩, 0⟩, .memory {}, "", ""⟩

/-- A rollback of a registry that is not there, a dry run, and a mutation of a document whose source has a
line break and a quote. -/
def threeOperations : List LoggedOp :=
  [.rollback { auditLog := some ⟨"", ["log.jsonl"]⟩ } {} ⟨"", ["out.json"]⟩
      (.patches ⟨"", ["undo.json"]⟩),
    .mutation { auditLog := some ⟨"", ["log.jsonl"]⟩ } { dryRun := true, validate := false } .null [],
    .mutation { auditLog := some ⟨"", ["log.jsonl"]⟩ }
      { validate := false, target := some ⟨"", ["out.json"]⟩, source := some "a\n\"" } .null []]

/-- What the log is to tell of the mutation. -/
def threeOperationsRecord : AuditRecord where
  type := "mutation"
  source := some "a\n\""
  target := some "out.json"
  backup := some "memory://dcp-backup-1970-01-01T00-00-00-000Z.json#0"

theorem sound_emptyWorkspace : emptyWorkspace.Sound := by
  refine ⟨FileSystem.sound_empty _ _, fun m hm => ?_, fun d hd => absurd hd (by simp [emptyWorkspace])⟩
  obtain rfl := SnapshotStore.memory.inj hm
  exact fun item hitem => absurd hitem List.not_mem_nil

theorem clear_threeOperations :
    ∀ op ∈ threeOperations, emptyWorkspace.Clear ⟨"", ["log.jsonl"]⟩ op.saves op.written := by
  intro op hop
  have hwritten : ∀ op ∈ threeOperations, ∀ p ∈ op.written, p = ⟨"", ["out.json"]⟩ := by decide
  refine ⟨sound_emptyWorkspace, fun p hp => ?_, fun _ => ⟨fun p hp front hfront => ?_, fun _ d hd => ?_⟩⟩
  · rw [hwritten op hop p hp]
    decide
  · rw [hwritten op hop p hp] at hfront ⊢
    have hfronts : ∀ front ∈ ["out.json"].inits,
        emptyWorkspace.files.place ⟨"", front⟩ ≠ emptyWorkspace.files.place ⟨"", ["log.jsonl"]⟩ := by
      decide
    exact hfronts front ((List.mem_inits _ _).2 hfront)
  · exact absurd hd (by simp [emptyWorkspace])

theorem log_tells_history_three : ∃ w' entry,
    Chronicle ⟨"", ["log.jsonl"]⟩ emptyWorkspace
      (threeOperations.map fun op => (op, (op.run emptyWorkspace).1)) w' ∧
    Action.auditEntries ⟨"", ["log.jsonl"]⟩ w' = (.ok [entry], w') ∧
    threeOperationsRecord.ToldBy entry := by
  have hclear := clear_threeOperations
  simp only [threeOperations, List.forall_mem_cons] at hclear
  obtain ⟨hrollback, hdry, hmutation, -⟩ := hclear
  obtain ⟨w', hrun⟩ : ∃ w', Chronicle ⟨"", ["log.jsonl"]⟩ emptyWorkspace
      (threeOperations.map fun op => (op, (op.run emptyWorkspace).1)) w' :=
    ⟨_, .cons (.refl _ _) rfl hrollback rfl <| .cons (.refl _ _) rfl hdry rfl <|
      .cons (.refl _ _) rfl hmutation rfl <| .nil _⟩
  have htold : recordsOf (threeOperations.map fun op => (op, (op.run emptyWorkspace).1)) =
      [threeOperationsRecord] := rfl
  have hcounts : ∀ r ∈ recordsOf (threeOperations.map fun op => (op, (op.run emptyWorkspace).1)),
      (Json.int r.count).Legible := by
    rw [htold]
    exact List.forall_mem_cons.2
      ⟨show (natDigits 0).length ≤ maxIntegerDigits by decide, List.forall_mem_nil _⟩
  have htexts : ∀ s ∈ threeOperations.map fun op => (op, (op.run emptyWorkspace).1), s.1.HasTexts :=
    List.forall_mem_cons.2 ⟨trivial, List.forall_mem_cons.2 ⟨⟨rfl, rfl⟩,
      List.forall_mem_cons.2 ⟨⟨rfl, rfl⟩, List.forall_mem_nil _⟩⟩⟩
  obtain ⟨added, -, hentries, hadded, -, -⟩ :=
    log_tells_history _ _ w' _ hrun [] (.absent rfl) htexts hcounts
  rw [htold] at hadded
  obtain ⟨entry, _, hentry, hnil, rfl⟩ := List.forall₂_cons_left_iff.1 hadded
  obtain rfl := List.forall₂_nil_left_iff.1 hnil
  exact ⟨w', entry, hrun, hentries, hentry⟩

/-- A mutation that puts in a value of more than 4300 digits. -/
def longMutation (log : FilePath) : LoggedOp :=
  .mutation { auditLog := some log } { createBackup := false, validate := false } (.obj [])
    [(Operation.add "/x" (.int (10 ^ 5000))).toJson]

/-- It makes its entry, and then fails. -/
theorem longMutation_run {log : FilePath} {w w' : Workspace} {entry : Json}
    (h : Action.logRecord log { type := "mutation", count := 1, extra := [("undoPath", .null)] } w =
      (.ok entry, w')) : (longMutation log).run w = (.error (.text .tooManyDigits), w') := by
  have hbatch : Batch.run (.obj []) [(Operation.add "/x" (.int (10 ^ 5000))).toJson] =
      ⟨.obj [("x", .int (10 ^ 5000))], 1, []⟩ := by
    rw [Batch.run_eq, reached_cons_ok applyPatch_long]
    simp only [survivors, failures, applyPatch_long]
    rfl
  have hrecord : Action.recordUnlessDry { auditLog := some log }
      { createBackup := false, validate := false } none ⟨.obj [("x", .int (10 ^ 5000))], 1, []⟩
      (undoPatches (.obj [("x", .int (10 ^ 5000))]) (.obj [])) w = (.ok (), w') := Action.bind_of_ok h
  have hchange : sizeChange (.obj []) (.obj [("x", .int (10 ^ 5000))]) = .error .tooManyDigits :=
    sizeChange_eq_error_iff.2 (.inr (Json.hasText_obj_int_pow (by decide)))
  refine Action.bind_of_error ?_
  simp only [Action.mutate, hbatch]
  -- no snapshot, no advice and no messages are asked for, so the entry is all that changes anything
  refine (Action.bind_of_ok (a := ()) rfl).trans ?_
  refine (Action.bind_of_ok (a := none) rfl).trans ?_
  refine (Action.bind_of_ok (a := []) rfl).trans ?_
  refine (Action.bind_of_ok (a := ()) rfl).trans ?_
  refine (Action.bind_of_ok (a := []) rfl).trans ?_
  refine (Action.bind_of_ok hrecord).trans ?_
  refine (Action.bind_of_ok (a := ()) rfl).trans ?_
  rw [hchange]
  rfl

/-- A log with one entry, an empty object. -/
def oneEntryWorkspace : Workspace :=
  { emptyWorkspace with
    files := { emptyWorkspace.files with
      entries := [(["home"], .directory), (["home", "log.jsonl"], .file "\x7b\x7d\n".toUTF8 0)] } }

/-- A mutation that fails behind its entry leaves the entry.  A log that is named by a way through a
directory that is not there yet seems to have no entries, until the first that is added makes the
directory. -/
theorem log_tells_history_astray :
    (∃ w' entry, Chronicle ⟨"", ["log.jsonl"]⟩ emptyWorkspace
        [(longMutation ⟨"", ["log.jsonl"]⟩, .error (.text .tooManyDigits))] w' ∧
      Action.auditEntries ⟨"", ["log.jsonl"]⟩ emptyWorkspace = (.ok [], emptyWorkspace) ∧
      Action.auditEntries ⟨"", ["log.jsonl"]⟩ w' = (.ok [entry], w')) ∧
    ∃ w' record entry,
      Action.auditEntries ⟨"", ["a", "..", "log.jsonl"]⟩ oneEntryWorkspace =
        (.ok [], oneEntryWorkspace) ∧
      (LoggedOp.mutation { auditLog := some ⟨"", ["a", "..", "log.jsonl"]⟩ }
        { createBackup := false, validate := false } .null []).run oneEntryWorkspace =
          (.ok (some record), w') ∧
      Action.auditEntries ⟨"", ["a", "..", "log.jsonl"]⟩ w' = (.ok [.obj [], entry], w') := by
  constructor
  · obtain ⟨entry, w', hrun⟩ : ∃ entry w', Action.logRecord ⟨"", ["log.jsonl"]⟩
        { type := "mutation", count := 1, extra := [("undoPath", .null)] } emptyWorkspace =
          (.ok entry, w') := ⟨_, _, rfl⟩
    have hlog : emptyWorkspace.LogHolds ⟨"", ["log.jsonl"]⟩ [] := .absent rfl
    have hafter := (hlog.logRecord hrun (show (natDigits 1).length ≤ maxIntegerDigits by decide)
      (by simp [Json.Legible])).1
    have hclear : emptyWorkspace.Clear ⟨"", ["log.jsonl"]⟩ false [] :=
      ⟨sound_emptyWorkspace, List.forall_mem_nil _,
        fun _ => ⟨List.forall_mem_nil _, fun hsaves => absurd hsaves (by decide)⟩⟩
    exact ⟨w', entry.sortKeys, .cons (.refl _ _) rfl hclear (longMutation_run hrun) (.nil _),
      hlog.auditEntries, hafter.auditEntries⟩
  · obtain ⟨w₁, hmade⟩ : ∃ w₁ : Workspace, w₁ = { oneEntryWorkspace with
      files := oneEntryWorkspace.files.withEntry ["home", "a"] .directory } := ⟨_, rfl⟩
    have hentries : entriesOf "\x7b\x7d\n".toList = .ok [.obj []] :=
      @entriesOf_line [] ⟨List.nodup_nil, trivial⟩
    -- with the directory made, the way leads to the file
    have hlog : w₁.LogHolds ⟨"", ["a", "..", "log.jsonl"]⟩ [.obj []] :=
      hmade ▸ .lines (s := "\x7b\x7d\n") rfl (.inr ⟨"\x7b\x7d".toList, rfl⟩) hentries
    obtain ⟨entry, w', hrun⟩ : ∃ entry w', Action.logRecord ⟨"", ["a", "..", "log.jsonl"]⟩
        { type := "mutation", extra := [("undoPath", .null)] } w₁ = (.ok entry, w') :=
      hmade ▸ ⟨_, _, rfl⟩
    have hafter := (hlog.logRecord hrun (show (natDigits 0).length ≤ maxIntegerDigits by decide)
      (by simp [Json.Legible])).1
    obtain rfl := hmade
    obtain ⟨-, rfl⟩ := Prod.mk.inj hrun
    exact ⟨_, _, entry.sortKeys, rfl, rfl, hafter.auditEntries⟩

end DesignRegistry
