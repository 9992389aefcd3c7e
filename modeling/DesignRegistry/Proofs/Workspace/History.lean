/-
**No version of the registry is lost.**

A registry is changed in place by mutations and rollbacks.  Each of them saves a snapshot of the
document that is there before it writes another one; a rollback that fails at a patch takes its own
snapshot back, and has written nothing.  No change removes a snapshot that was there before it: a new
one gets a name that leads to nothing yet, and the files that a change writes lie outside the directory
of snapshots.  So a document that was in the registry's file once can be had from the file or from the
store ever after, however many changes follow and whichever of them fail.

Main definitions:

* `Workspace.Stored` — a document is in the store;
* `Workspace.Has` — a document is in the registry's file or in the store;
* `Workspace.Preserves` — a workspace that has every document of the registry that another one has;
* `RegistryChange`, `RegistryChange.InPlace` — mutations and rollbacks, and those that change the
  registry's file in place;
* `history` — the workspace after changes, each at a time of its own.

Main results:

* `Workspace.Stored.retrievable` — a document in the store is listed, and is loaded;
* `Action.stored_of_saveSnapshot` — a document that was read and is saved is in the store;
* `Workspace.Keeps.stored` — writing other files leaves it there;
* `RegistryChange.preserves_run`, `preserves_history` — one change, and many of them;
* `no_version_lost` — **no version of the registry is lost**.
-/
import DesignRegistry.Proofs.Json.RoundTrip
import DesignRegistry.Proofs.Workspace.Frame

set_option relaxedAutoImplicit false
set_option autoImplicit false

namespace DesignRegistry

/-! ### Documents in the store -/

namespace Workspace

/-- A document is in the store: in a file of its directory with a snapshot's name, or in memory. -/
def Stored (w : Workspace) (doc : Json) : Prop :=
  (∃ d name, w.store = .directory d ∧ SnapshotName name ∧
      w.files.documentOf (d.child name) = .ok doc) ∨
    ∃ m ref, w.store = .memory m ∧ m.load? ref = some doc

/-- A document is loaded for a snapshot that is listed. -/
def Retrievable (w : Workspace) (doc : Json) : Prop :=
  ∃ listing, (Action.listSnapshots w).1 = .ok listing ∧
    ∃ s ∈ listing, (Action.loadSnapshot s.path w).1 = .ok doc

/-- A location that does not lie in the directory of snapshots. -/
def Outside (w : Workspace) (loc : Location) : Prop :=
  ∀ d, w.store = .directory d → ¬ w.files.place d <+: loc

variable {w w' w'' : Workspace} {changed : List Location} {doc : Json}

/-- A document in the store is listed, and is loaded. -/
theorem Stored.retrievable (hw : w.Sound) (h : w.Stored doc) : w.Retrievable doc := by
  rcases h with ⟨d, name, hstore, hname, hdoc⟩ | ⟨m, ref, hstore, hload⟩
  · obtain ⟨bytes, hbytes⟩ := FileSystem.bytesOf_of_documentOf hdoc
    obtain ⟨time, hat⟩ := FileSystem.bytesOf_eq_ok.1 hbytes
    refine ⟨w.files.snapshots d, by simp only [Action.listSnapshots, hstore], _,
      FileSystem.mem_snapshots hname hat, ?_⟩
    have hpath := FilePath.ofText_text ((hw.directory d hstore).child hname.plain)
    simp only [Action.loadSnapshot, hstore, hpath, hdoc]
  · obtain ⟨before, after, hitems, -⟩ := List.lookup_eq_some_iff.1 hload
    have hlisted : MemorySnapshots.entryOf before.length (ref, doc) ∈ m.list := by
      refine List.mem_reverse.2 (List.mem_map.2 ⟨((ref, doc), before.length), ?_, rfl⟩)
      rw [List.mem_zipIdx_iff_getElem?, hitems, List.getElem?_append_right (Nat.le_refl _),
        Nat.sub_self, List.getElem?_cons_zero]
    refine ⟨m.list, by simp only [Action.listSnapshots, hstore], _, hlisted, ?_⟩
    simp only [Action.loadSnapshot, hstore, MemorySnapshots.entryOf, hload]

theorem Agrees.stored (h : w.Agrees w') (hdoc : w.Stored doc) : w'.Stored doc := by
  rw [Stored, h.store, h.files]
  exact hdoc

/-- Writing files outside the directory of snapshots leaves every document in the store. -/
theorem Keeps.stored (h : w.Keeps w' changed) (hout : ∀ loc ∈ changed, w.Outside loc)
    (hdoc : w.Stored doc) : w'.Stored doc := by
  rcases hdoc with ⟨d, name, hstore, hname, hfile⟩ | ⟨m, ref, hstore, hload⟩
  · have hplace : w.files.place (d.child name) ∉ changed := by
      -- a snapshot's name leads down, so its file lies in the directory of snapshots
      intro hmem
      refine hout _ hmem d hstore ?_
      rw [FileSystem.place_child, FileSystem.goTo, if_neg hname.down]
      exact List.prefix_append _ _
    rcases h.store with ⟨d', hd, hd'⟩ | ⟨m, _, hm, -⟩
    · obtain rfl := SnapshotStore.directory.inj (hstore.symm.trans hd)
      exact .inl ⟨d, name, hd', hname, h.files.documentOf hplace hfile⟩
    · exact absurd (hstore.symm.trans hm) (by simp)
  · rcases h.store with ⟨d, hd, -⟩ | ⟨m₀, m', hm, hm', hkept⟩
    · exact absurd (hstore.symm.trans hd) (by simp)
    · obtain rfl := SnapshotStore.memory.inj (hstore.symm.trans hm)
      exact .inr ⟨m', ref, hm', hkept ref doc hload⟩

end Workspace

/-- A document that can be read back is in the store once it is saved. -/
theorem Action.stored_of_saveSnapshot {k : SnapshotKind} {doc : Json} {w w' : Workspace}
    {ref : String} (hw : w.Sound) (hdoc : doc.Legible)
    (h : saveSnapshot k.front doc w = (.ok ref, w')) : w'.Stored doc := by
  rcases saveSnapshot_eq_ok h with ⟨m, hstore, -, -, hsaved⟩ |
    ⟨d, fs, name, -, hsaved, -, hname, -, hcreate⟩
  · exact .inr ⟨_, MemorySnapshots.reference k.front w.clock.read.1.timestamp m.next, hsaved,
      (hw.memory m hstore).load?_save k.front w.clock.read.1.timestamp doc⟩
  · exact .inl ⟨d, name, hsaved, hname, FileSystem.documentOf_of_create hdoc hcreate⟩

/-! ### Documents of the registry -/

namespace Workspace

/-- A document is in the registry's file or in the store. -/
def Has (w : Workspace) (registry : FilePath) (doc : Json) : Prop :=
  w.files.documentOf registry = .ok doc ∨ w.Stored doc

/-- A file next to the registry's: another one, and outside the directory of snapshots. -/
def Beside (w : Workspace) (registry p : FilePath) : Prop :=
  w.files.place p ≠ w.files.place registry ∧ w.Outside (w.files.place p)

/-- A workspace with the same places that has every document of the registry that another one has.  A
document that is null does not count: no snapshot is taken of it. -/
structure Preserves (registry : FilePath) (w w' : Workspace) : Prop where
  sound : w'.Sound
  place : ∀ p, w'.files.place p = w.files.place p
  directory : ∀ d, w'.store = .directory d → w.store = .directory d
  has : ∀ doc, doc ≠ .null → w.Has registry doc → w'.Has registry doc

variable {registry : FilePath} {w w' w'' : Workspace} {changed : List Location} {doc : Json}

theorem Preserves.trans (h : w.Preserves registry w') (h' : w'.Preserves registry w'') :
    w.Preserves registry w'' where
  sound := h'.sound
  place := fun p => (h'.place p).trans (h.place p)
  directory := fun d hd => h.directory d (h'.directory d hd)
  has := fun doc hdoc hhas => h'.has doc hdoc (h.has doc hdoc hhas)

theorem Preserves.outside (h : w.Preserves registry w') {loc : Location} (hloc : w.Outside loc) :
    w'.Outside loc := by
  intro d hd
  rw [h.place]
  exact hloc d (h.directory d hd)

theorem Preserves.outside_place (h : w.Preserves registry w') {p : FilePath}
    (hp : w.Outside (w.files.place p)) : w'.Outside (w'.files.place p) := by
  rw [h.place]
  exact h.outside hp

theorem Preserves.beside (h : w.Preserves registry w') {p : FilePath} (hp : w.Beside registry p) :
    w'.Beside registry p := by
  rw [Beside, h.place, h.place]
  exact ⟨hp.1, h.outside hp.2⟩

/-- Writing files outside the directory of snapshots preserves what the registry has, unless its own
file is written and its document is not in the store. -/
theorem Keeps.preserves (h : w.Keeps w' changed) (hout : ∀ loc ∈ changed, w.Outside loc)
    (hregistry : w.files.place registry ∉ changed ∨
      ∀ doc, doc ≠ .null → w.files.documentOf registry = .ok doc → w.Stored doc) :
    w.Preserves registry w' where
  sound := h.sound
  place := h.files.place
  directory := by
    intro d hd
    rcases h.store with ⟨d', hd', hsame⟩ | ⟨_, _, _, hm, _⟩
    · rw [hd', ← hd, hsame]
    · exact absurd (hd.symm.trans hm) (by simp)
  has := by
    intro doc hdoc hhas
    rcases hhas with hfile | hstored
    · rcases hregistry with hplace | hsaved
      · exact .inl (h.files.documentOf hplace hfile)
      · exact .inr (h.stored hout (hsaved doc hdoc hfile))
    · exact .inr (h.stored hout hstored)

/-- Where no file is written, nothing is lost. -/
theorem Keeps.preserves_of_nil (h : w.Keeps w' []) (registry : FilePath) :
    w.Preserves registry w' :=
  h.preserves (fun _ hloc => absurd hloc List.not_mem_nil) (.inl List.not_mem_nil)

/-- An action may write the registry's file once its document is in the store. -/
theorem preserves_of_alters {α : Type} {x : Action α} {ps : List FilePath} (hx : x.Alters ps)
    (hw : w.Sound) (hregistry : w.Outside (w.files.place registry))
    (hps : ∀ p ∈ ps, p = registry ∨ w.Beside registry p)
    (hsaved : registry ∈ ps → ∀ doc, doc ≠ .null → w.files.documentOf registry = .ok doc →
      w.Stored doc) : w.Preserves registry (x w).2 := by
  refine (hx w hw).preserves (fun loc hloc => ?_) ?_
  · obtain ⟨p, hp, rfl⟩ := List.mem_map.1 hloc
    rcases hps p hp with rfl | hbeside
    · exact hregistry
    · exact hbeside.2
  · by_cases hmem : registry ∈ ps
    · exact .inr (hsaved hmem)
    · refine .inl fun hplace => ?_
      obtain ⟨p, hp, hsame⟩ := List.mem_map.1 hplace
      rcases hps p hp with rfl | hbeside
      · exact hmem hp
      · exact hbeside.1 hsame

end Workspace

/-! ### One change -/

/-- A change of a registry's file. -/
inductive RegistryChange where
  /-- A mutation of the document that is in the file. -/
  | mutation (e : Engine) (o : MutationOptions) (patches : List Json)
  /-- A rollback of the file. -/
  | rollback (e : RollbackEngine) (o : RollbackOptions) (c : FileRollback)

namespace RegistryChange

/-- Runs a change. -/
def run (registry : FilePath) : RegistryChange → Action Unit
  | mutation e o patches => do
    let doc ← Action.readDocument registry
    let _ ← Action.mutate e o doc patches
    return ()
  | rollback e o c => do
    let _ ← c.run e o registry
    return ()

/-- A change that writes the registry's file in place and asks for snapshots; what else it writes lies
next to the registry's file. -/
def InPlace (w : Workspace) (registry : FilePath) : RegistryChange → Prop
  | mutation e o _ => o.createBackup = true ∧ o.target = some registry ∧
      ∀ p ∈ o.undo.toList ++ e.auditLog.toList, w.Beside registry p
  | rollback e o _ => o.createBackup = true ∧ o.target.getD registry = registry ∧
      ∀ p ∈ e.auditLog.toList, w.Beside registry p

variable {registry : FilePath} {w w' : Workspace}

theorem InPlace.of_preserves (h : w.Preserves registry w') {change : RegistryChange}
    (hchange : change.InPlace w registry) : change.InPlace w' registry := by
  cases change with
  | mutation e o patches =>
      obtain ⟨hbackup, htarget, hbeside⟩ := hchange
      exact ⟨hbackup, htarget, fun p hp => h.beside (hbeside p hp)⟩
  | rollback e o c =>
      obtain ⟨hbackup, htarget, hbeside⟩ := hchange
      exact ⟨hbackup, htarget, fun p hp => h.beside (hbeside p hp)⟩

/-- The snapshot before a mutation is of the document that is mutated. -/
theorem stored_of_snapshotBefore {e : Engine} {doc : Json} {backup : Option String}
    (hw : w.Sound) (hdoc : doc.Legible)
    (h : Action.snapshotBefore e true doc w = (.ok backup, w')) : w'.Stored doc := by
  obtain ⟨ref, w₁, hsave, h⟩ := Action.bind_ok h
  obtain ⟨_, w₂, hsay, h⟩ := Action.bind_ok h
  obtain ⟨-, rfl⟩ := Prod.mk.inj h
  have hagree := (Action.quiet_sayMutation e _).prints.agrees hsay
  exact hagree.stored (Action.stored_of_saveSnapshot hw hdoc hsave)

theorem InPlace.written {e : Engine} {o : MutationOptions} {patches : List Json}
    (h : InPlace w registry (mutation e o patches)) :
    ∀ p ∈ o.written e, p = registry ∨ w.Beside registry p := by
  obtain ⟨-, htarget, hbeside⟩ := h
  intro p hp
  rw [MutationOptions.written] at hp
  split at hp
  · exact absurd hp List.not_mem_nil
  · rw [MutationOptions.requested, htarget, List.append_assoc] at hp
    exact (List.mem_cons.1 hp).imp_right (hbeside p)

/-- A mutation in place loses nothing. -/
theorem preserves_mutate {e : Engine} {o : MutationOptions} {doc : Json} (patches : List Json)
    (hw : w.Sound) (hregistry : w.Outside (w.files.place registry))
    (hchange : InPlace w registry (mutation e o patches))
    (hdoc : w.files.documentOf registry = .ok doc) :
    w.Preserves registry (Action.mutate e o doc patches w).2 := by
  rw [Action.mutate]
  refine (Action.quiet_sayMutation e _).bind_cases (P := fun r => w.Preserves registry r.2)
    fun _ w₁ hsaid => ?_
  have hkeeps₁ := hsaid.keeps hw
  refine Action.bind_cases (P := fun r => w.Preserves registry r.2) (fun f w₂ hsave => ?_)
    fun backup w₂ hsave => ?_
  · have hkeeps₂ := (Action.alters_snapshotBefore e _ doc).keeps hkeeps₁.sound hsave
    exact (hkeeps₁.trans hkeeps₂).preserves_of_nil registry
  · have hkeeps₂ := (Action.alters_snapshotBefore e _ doc).keeps hkeeps₁.sound hsave
    have hkeeps := hkeeps₁.trans hkeeps₂
    have hpreserves := hkeeps.preserves_of_nil registry
    -- the file is written only if this is no dry run, and then the snapshot was asked for
    have hsaved : registry ∈ o.written e → ∀ found, found ≠ .null →
        w₂.files.documentOf registry = .ok found → w₂.Stored found := by
      intro hmem found _ hfound
      rw [MutationOptions.written] at hmem
      split at hmem
      · exact absurd hmem List.not_mem_nil
      · next hdry =>
          have hwanted : (o.createBackup && !o.dryRun) = true := by simpa [hchange.1] using hdry
          rw [hwanted] at hsave
          have hsame := hkeeps.files.documentOf List.not_mem_nil hdoc
          obtain rfl := Except.ok.inj (hfound.symm.trans hsame)
          exact stored_of_snapshotBefore hkeeps₁.sound (FileSystem.legible_of_documentOf hdoc) hsave
    refine hpreserves.trans (Workspace.preserves_of_alters ?_ hkeeps.sound
      (hpreserves.outside_place hregistry) (hchange.of_preserves hpreserves).written hsaved)
    exact (Action.prints_adviseIf _ e _ _).bind_alters fun before =>
      (Action.quiet_sayPatches e doc patches).prints.bind_alters fun _ =>
        (Action.prints_adviseIf _ e _ _).bind_alters fun after =>
          (Action.alters_recordUnlessDry e o backup _ _).bind_prints fun _ =>
            (Action.quiet_sayMutation e _).prints.bind fun _ =>
              ((Action.reads_ofExcept _ _).bind fun _ => Action.reads_pure _).prints

/-- A rollback in place loses nothing. -/
theorem preserves_rollback {e : RollbackEngine} {o : RollbackOptions} (c : FileRollback)
    (hw : w.Sound) (hregistry : w.Outside (w.files.place registry))
    (hchange : InPlace w registry (rollback e o c)) :
    w.Preserves registry (c.run e o registry w).2 := by
  rw [FileRollback.run_eq]
  refine Action.bind_cases (P := fun r => w.Preserves registry r.2) (fun f w₁ hcompute => ?_)
    fun computed w₁ hcompute => ?_
  · exact ((FileRollback.alters_compute e o registry c).keeps hw hcompute).preserves_of_nil registry
  · obtain ⟨r, origin⟩ := computed
    have hkeeps := (FileRollback.alters_compute e o registry c).keeps hw hcompute
    have hpreserves := hkeeps.preserves_of_nil registry
    obtain ⟨hbackup, htarget, hbeside⟩ := hchange.of_preserves hpreserves
    have hwritten : ∀ p ∈ o.target.getD registry :: e.auditLog.toList,
        p = registry ∨ w₁.Beside registry p := by
      rw [htarget]
      exact fun p hp => (List.mem_cons.1 hp).imp_right (hbeside p)
    have hcomputed := FileRollback.compute_computed hcompute
    refine hpreserves.trans (Workspace.preserves_of_alters
      (FileRollback.alters_finish e o registry (r, origin)) hkeeps.sound
      (hpreserves.outside_place hregistry) hwritten fun _ found hfound hfile => ?_)
    obtain ⟨doc, htook, hread⟩ := hcomputed.took
    have hdoc := hread hbackup
    obtain rfl := Except.ok.inj (hfile.symm.trans (hkeeps.files.documentOf List.not_mem_nil hdoc))
    -- where no snapshot was taken the document is null
    cases href : r.backup with
    | none =>
        have hnull := hcomputed.none_iff.1 href hbackup
        exact absurd (Except.ok.inj (hdoc.symm.trans hnull)) hfound
    | some ref =>
        rw [href] at htook
        obtain ⟨w₀, hsave, hagree⟩ := htook
        exact hagree.stored
          (Action.stored_of_saveSnapshot hw (FileSystem.legible_of_documentOf hdoc) hsave)

/-- A change in place loses nothing, whether it succeeds or fails. -/
theorem preserves_run {change : RegistryChange} (hw : w.Sound)
    (hregistry : w.Outside (w.files.place registry)) (hchange : change.InPlace w registry) :
    w.Preserves registry (change.run registry w).2 := by
  cases change with
  | mutation e o patches =>
      rw [run]
      cases hdoc : w.files.documentOf registry with
      | error cause =>
          have hread : Action.readDocument registry w = (.error (.read cause), w) := by
            rw [Action.readDocument, hdoc]
          rw [Action.bind_of_error hread]
          exact ((Workspace.Agrees.refl w).keeps hw).preserves_of_nil registry
      | ok doc =>
          have hread : Action.readDocument registry w = (.ok doc, w) := by
            rw [Action.readDocument, hdoc]
          rw [Action.bind_of_ok hread, Action.bind_unit_snd]
          exact preserves_mutate patches hw hregistry hchange hdoc
  | rollback e o c =>
      rw [run, Action.bind_unit_snd]
      exact preserves_rollback c hw hregistry hchange

end RegistryChange

/-! ### Many changes -/

/-- A change, what the clock reads from its start on, and the time that its files are marked with. -/
structure TimedChange where
  /-- The change. -/
  change : RegistryChange
  /-- The clock at its start. -/
  clock : Clock
  /-- The time of the files that it writes. -/
  now : Int

namespace TimedChange

/-- The workspace at the start of a change. -/
def start (s : TimedChange) (w : Workspace) : Workspace :=
  { w with clock := s.clock, files := { w.files with now := s.now } }

/-- The workspace after a change. -/
def result (registry : FilePath) (w : Workspace) (s : TimedChange) : Workspace :=
  (s.change.run registry (s.start w)).2

variable {registry : FilePath} {w : Workspace}

/-- Time that passes changes nothing. -/
theorem keeps_start (hw : w.Sound) (s : TimedChange) : w.Keeps (s.start w) [] := by
  have hsound : FileSystem.Sound { w.files with now := s.now } :=
    ⟨hw.files.current, hw.files.parent⟩
  exact .of_files hw hsound ⟨rfl, fun _ h => h, fun _ _ _ _ h => h⟩ s.clock

theorem preserves_result (hw : w.Sound) (hregistry : w.Outside (w.files.place registry))
    {s : TimedChange} (hs : s.change.InPlace w registry) :
    w.Preserves registry (s.result registry w) := by
  have hkeeps := keeps_start hw s
  have hstart := hkeeps.preserves_of_nil registry
  exact hstart.trans (RegistryChange.preserves_run hkeeps.sound (hstart.outside_place hregistry)
    (hs.of_preserves hstart))

end TimedChange

/-- The workspace after changes of a registry's file. -/
def history (registry : FilePath) (w : Workspace) (steps : List TimedChange) : Workspace :=
  steps.foldl (TimedChange.result registry) w

/-- Changes in place lose nothing, however many there are. -/
theorem preserves_history {registry : FilePath} {w : Workspace} {steps : List TimedChange}
    (hw : w.Sound) (hregistry : w.Outside (w.files.place registry))
    (hsteps : ∀ s ∈ steps, s.change.InPlace w registry) :
    w.Preserves registry (history registry w steps) := by
  induction steps generalizing w with
  | nil => exact ((Workspace.Agrees.refl w).keeps hw).preserves_of_nil registry
  | cons s steps ih =>
      rw [List.forall_mem_cons] at hsteps
      have hfirst := TimedChange.preserves_result hw hregistry hsteps.1
      exact hfirst.trans (ih hfirst.sound (hfirst.outside_place hregistry) fun t ht =>
        (hsteps.2 t ht).of_preserves hfirst)

/-- **No version of the registry is lost.**  Let a registry's file lie outside the directory of
snapshots, and let it be changed in place by mutations and rollbacks that take snapshots, at any times
and whether or not they fail, while undo files and audit logs are other files outside that directory.
Then a document other than null that was in the file after some of the changes is, after any further
changes, in the file still, or a snapshot that is listed is loaded as that document. -/
theorem no_version_lost (registry : FilePath) (w : Workspace) (hw : w.Sound)
    (hregistry : w.Outside (w.files.place registry)) (earlier later : List TimedChange)
    (hchanges : ∀ s ∈ earlier ++ later, s.change.InPlace w registry) (doc : Json)
    (hdoc : doc ≠ .null)
    (hheld : (history registry w earlier).files.documentOf registry = .ok doc) :
    (history registry w (earlier ++ later)).files.documentOf registry = .ok doc ∨
      (history registry w (earlier ++ later)).Retrievable doc := by
  have hearlier := preserves_history hw hregistry fun s hs =>
    hchanges s (List.mem_append_left later hs)
  have hlater := preserves_history hearlier.sound (hearlier.outside_place hregistry) fun s hs =>
    (hchanges s (List.mem_append_right earlier hs)).of_preserves hearlier
  rw [history, List.foldl_append]
  exact (hlater.has doc hdoc (.inl hheld)).imp_right fun hstored =>
    hstored.retrievable hlater.sound

/-- A registry without snapshots; the directory for them is still to be made. -/
def unchangedWorkspace : Workspace where
  files := ⟨[(["reg.json"], .file "\x7b\"a\": 1\x7d".toUTF8 0)], [], 0⟩
  clock := ⟨⟨0⟩, 0⟩
  store := .directory ⟨"", ["backups"]⟩

theorem sound_unchangedWorkspace : unchangedWorkspace.Sound where
  files := FileSystem.sound_of_entries rfl <|
    List.forall_mem_cons.2 ⟨rfl, List.forall_mem_nil _⟩
  memory := fun m hm => absurd hm (by simp [unchangedWorkspace])
  directory := by
    intro d hd
    obtain rfl := SnapshotStore.directory.inj hd
    exact FilePath.normal_ofText "backups"

/-- A mutation that adds a member, with an undo file and an audit log. -/
def addMember : TimedChange where
  change := .mutation { auditLog := some ⟨"", ["log.jsonl"]⟩ }
    { target := some ⟨"", ["reg.json"]⟩, undo := some ⟨"", ["undo.json"]⟩ }
    [(Operation.add "/b" (.int 2)).toJson]
  clock := ⟨⟨0⟩, 0⟩
  now := 0

/-- A rollback to the newest snapshot, in the same millisecond. -/
def returnToNewest : TimedChange where
  change := .rollback { auditLog := some ⟨"", ["log.jsonl"]⟩ } {} .last
  clock := ⟨⟨0⟩, 0⟩
  now := 0

/-- The document that a mutation wrote can be had after a rollback to the one before it. -/
theorem no_version_lost_returned :
    (history ⟨"", ["reg.json"]⟩ unchangedWorkspace [addMember, returnToNewest]).files.documentOf
        ⟨"", ["reg.json"]⟩ = .ok (.obj [("a", .int 1)]) ∧
      (history ⟨"", ["reg.json"]⟩ unchangedWorkspace [addMember, returnToNewest]).Retrievable
        (.obj [("a", .int 1), ("b", .int 2)]) := by
  have hheld : (history ⟨"", ["reg.json"]⟩ unchangedWorkspace [addMember]).files.documentOf
      ⟨"", ["reg.json"]⟩ = .ok (.obj [("a", .int 1), ("b", .int 2)]) :=
    Json.eq_ok_of_same (by decide +kernel)
  have hreturned : (history ⟨"", ["reg.json"]⟩ unchangedWorkspace
      [addMember, returnToNewest]).files.documentOf ⟨"", ["reg.json"]⟩ = .ok (.obj [("a", .int 1)]) :=
    Json.eq_ok_of_same (by decide +kernel)
  have houtside : ∀ p ∈ ([⟨"", ["reg.json"]⟩, ⟨"", ["undo.json"]⟩, ⟨"", ["log.jsonl"]⟩] :
      List FilePath), unchangedWorkspace.Outside (unchangedWorkspace.files.place p) := by
    intro p hp d hd
    obtain rfl := SnapshotStore.directory.inj hd
    revert p
    decide
  have hbeside : ∀ p ∈ ([⟨"", ["undo.json"]⟩, ⟨"", ["log.jsonl"]⟩] : List FilePath),
      unchangedWorkspace.Beside ⟨"", ["reg.json"]⟩ p := fun p hp =>
    ⟨by revert p; decide, houtside p (List.mem_cons_of_mem _ hp)⟩
  have hchanges : ∀ s ∈ [addMember] ++ [returnToNewest],
      s.change.InPlace unchangedWorkspace ⟨"", ["reg.json"]⟩ :=
    List.forall_mem_cons.2 ⟨⟨rfl, rfl, hbeside⟩, List.forall_mem_cons.2
      ⟨⟨rfl, rfl, fun p hp => hbeside p (List.mem_cons_of_mem _ hp)⟩, List.forall_mem_nil _⟩⟩
  refine ⟨hreturned, (no_version_lost ⟨"", ["reg.json"]⟩ unchangedWorkspace
    sound_unchangedWorkspace (houtside _ List.mem_cons_self) [addMember] [returnToNewest] hchanges _
    (by simp) hheld).resolve_left fun hsame => ?_⟩
  exact absurd (Except.ok.inj (hreturned.symm.trans hsame)) (by simp)

end DesignRegistry
