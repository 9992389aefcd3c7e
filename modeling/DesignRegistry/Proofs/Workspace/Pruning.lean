/-
**Removing all but the newest.**

What is removed is the back of the listing, told by references in memory and by files in a directory.
It is the back and nothing else because no two snapshots have one reference, and no two lines of a
listing one name.  So the front of the listing is left, nothing else changes, and a second removal
leaves what the fewer of both counts leaves.  Only in memory the lines that are left are dated anew,
since the time of a snapshot is its position there.

Main definitions:

* `MemorySnapshots.Reachable` — what saving and removing lead to in memory;
* `FileSystem.Proper` — each location stands once, under names that paths can have;
* `FileSystem.without`, `FileSystem.lineAt` — locations taken away, and the location of a line;
* `SnapshotStore.redated` — a line of a listing once some older ones are gone.

Main results:

* `MemorySnapshots.Reachable.list_prune`, `MemorySnapshots.Reachable.prune_prune` — in memory;
* `FileSystem.Proper.pruneSnapshots`, `FileSystem.Proper.prune_prune` — in a directory;
* `prune_exact` — **what is left, what is reported, and what stays as it was**;
* `prune_redates` — in memory a line that is left has another time.
-/
import DesignRegistry.Proofs.Storage.Shelf
import DesignRegistry.Workspace.Basic

set_option relaxedAutoImplicit false
set_option autoImplicit false

namespace DesignRegistry

/-! ### In memory -/

namespace MemorySnapshots

variable {m : MemorySnapshots}

/-- What is in memory after snapshots were saved, removed from the back, and removed one by one. -/
inductive Reachable : MemorySnapshots → Prop
  | empty : Reachable {}
  | save {m : MemorySnapshots} (front timestamp : String) (doc : Json) (h : Reachable m) :
      Reachable (m.save front timestamp doc).2
  | prune {m : MemorySnapshots} (keep : ℕ) (h : Reachable m) : Reachable (m.prune keep).2
  | discard {m : MemorySnapshots} (ref : String) (h : Reachable m) : Reachable (m.discard ref).2

/-- What is left in memory is the end of the list, which has the oldest first. -/
theorem Shelves.items_prune {shelf : Shelf} (h : m.Shelves shelf) (keep : ℕ) :
    (m.prune keep).2 = { m with items := m.items.drop (m.items.length - keep) } := by
  obtain ⟨-, hleft⟩ := h.prune keep
  have hitems : (m.prune keep).2.items = m.items.drop (m.items.length - keep) := by
    rw [← List.reverse_reverse (m.prune keep).2.items, hleft.items, ← h.items, List.reverse_take,
      List.reverse_reverse, List.length_reverse]
  rw [← hitems]
  rfl

theorem list_eq (m : MemorySnapshots) :
    m.list = (m.items.zipIdx.map fun x => entryOf x.2 x.1).reverse := rfl

/-- The lines of the newest snapshots once the others are gone: they are dated by their positions. -/
theorem list_newest (m : MemorySnapshots) (keep : ℕ) :
    list { m with items := m.items.drop (m.items.length - keep) } = (m.list.take keep).map fun e =>
      { e with created := e.created - ((m.items.length - keep : ℕ) : Int) } := by
  obtain ⟨gone, hgone⟩ : ∃ gone, gone = m.items.length - keep := ⟨_, rfl⟩
  have hfront : (m.items.take gone).length = gone := by
    rw [List.length_take]
    omega
  -- behind the ones that are gone positions go on from their number
  have hlines : (m.items.zipIdx.map fun x => entryOf x.2 x.1).drop gone =
      (m.items.drop gone).zipIdx.map fun x => entryOf (gone + x.2) x.1 := by
    conv_lhs => rw [← List.take_append_drop gone m.items]
    rw [List.zipIdx_append, List.map_append, List.drop_left' (by simpa using hfront), hfront,
      Nat.zero_add, List.zipIdx_eq_map_add (i := gone), List.map_map]
    rfl
  rw [← hgone, list_eq, list_eq, List.take_reverse, List.length_map, List.length_zipIdx, ← hgone, hlines,
    List.map_reverse, List.map_map]
  refine congrArg List.reverse (List.map_congr_left fun x _ => ?_)
  change entryOf x.2 x.1 = { entryOf x.2 x.1 with created := ((gone + x.2 : ℕ) : Int) - gone }
  have hposition : ((gone + x.2 : ℕ) : Int) - gone = x.2 := by omega
  rw [hposition]
  rfl

namespace Reachable

/-- By induction on what was done: no two snapshots have one reference. -/
theorem shelves (h : m.Reachable) : m.Shelves m.items.reverse := by
  have hself : ∀ {m : MemorySnapshots} {shelf : Shelf}, m.Shelves shelf → m.Shelves m.items.reverse :=
    fun h => h.items ▸ h
  induction h with
  | empty => exact shelves_nil
  | save front timestamp doc _ ih => exact hself (ih.save front timestamp doc)
  | prune keep _ ih => exact hself (ih.prune keep).2
  | @discard m ref _ ih =>
      rw [MemorySnapshots.discard]
      split
      · exact hself (ih.without [ref])
      · exact ih

/-- **The listing afterwards** is the front of the listing, dated anew. -/
theorem list_prune (h : m.Reachable) (keep : ℕ) :
    (m.prune keep).2.list = (m.list.take keep).map fun e =>
      { e with created := e.created - ((m.list.length - keep : ℕ) : Int) } := by
  have hlength : m.list.length = m.items.length := by
    rw [list_eq, List.length_reverse, List.length_map, List.length_zipIdx]
  rw [h.shelves.items_prune, list_newest, hlength]

/-- **Removing twice** leaves what the fewer of both counts leaves. -/
theorem prune_prune (h : m.Reachable) (j k : ℕ) :
    ((m.prune k).2.prune j).2 = (m.prune (min j k)).2 := by
  rw [(h.prune k).shelves.items_prune, h.shelves.items_prune, h.shelves.items_prune]
  have hcount : m.items.length - k + (m.items.length - (m.items.length - k) - j) =
      m.items.length - min j k := by omega
  dsimp only
  rw [List.drop_drop, List.length_drop, hcount]

/-- The documents of the newest are there as before. -/
theorem load?_prune (h : m.Reachable) {keep : ℕ} {e : SnapshotEntry} (he : e ∈ m.list.take keep) :
    (m.prune keep).2.load? e.path = m.load? e.path := by
  have href : e.path ∈ Shelf.references (m.items.reverse.take keep) := by
    have hmem := List.mem_map_of_mem (f := SnapshotEntry.path) he
    rwa [List.map_take, references_list, Shelf.references, ← List.map_take] at hmem
  obtain ⟨x, hx, hpath⟩ := List.mem_map.1 href
  rw [← hpath, (h.shelves.prune keep).2.load hx, h.shelves.load (List.mem_of_mem_take hx)]

end Reachable

end MemorySnapshots

/-! ### In a directory -/

namespace FileSystem

variable {fs : FileSystem} {directory : FilePath} {loc : Location} {s : SnapshotEntry}

/-- Each location stands once, and all names on the way to it are names. -/
structure Proper (fs : FileSystem) : Prop where
  distinct : (fs.entries.map Prod.fst).Nodup
  named : ∀ m ∈ fs.entries, ∀ n ∈ m.1, PlainName n ∧ n ≠ ".."

/-- The file system without some locations. -/
def without (fs : FileSystem) (locs : List Location) : FileSystem :=
  { fs with entries := fs.entries.filter fun m => !locs.contains m.1 }

theorem without_nil (fs : FileSystem) : fs.without [] = fs :=
  congrArg (fun es => { fs with entries := es }) (List.filter_eq_self.2 fun _ _ => rfl)

theorem without_append (fs : FileSystem) (locs locs' : List Location) :
    fs.without (locs ++ locs') = FileSystem.without (fs.without locs) locs' := by
  simp only [FileSystem.without, List.filter_filter]
  refine congrArg (fun es => { fs with entries := es }) (List.filter_congr fun m _ => ?_)
  rw [List.contains_append, Bool.not_or, Bool.and_comm]

theorem without_comm (fs : FileSystem) (locs locs' : List Location) :
    FileSystem.without (fs.without locs) locs' = FileSystem.without (fs.without locs') locs := by
  simp only [FileSystem.without, List.filter_filter, Bool.and_comm]

/-- What stands elsewhere stands there still. -/
theorem entryAt?_without (fs : FileSystem) {locs : List Location} {l : Location} (h : l ∉ locs) :
    FileSystem.entryAt? (fs.without locs) l = fs.entryAt? l := by
  have hkeep : (!locs.contains l) = true := by
    rwa [Bool.not_eq_true', ← Bool.not_eq_true, List.contains_iff_mem]
  exact @entryAt?_filter l fs (fun l => !locs.contains l) hkeep

/-- What stands somewhere stood there. -/
theorem of_entryAt?_without {locs : List Location} {l : Location} {e : Entry} (hne : l ≠ [])
    (h : FileSystem.entryAt? (fs.without locs) l = some e) : fs.entryAt? l = some e := by
  have hmem := h
  rw [entryAt?_of_ne_nil _ hne] at hmem
  have hkept := (List.mem_filter.1 (mem_of_find hmem)).2
  rw [Bool.not_eq_true', ← Bool.not_eq_true, List.contains_iff_mem] at hkept
  rwa [entryAt?_without fs hkept] at h

/-- The location of a line of a listing: its name in the directory. -/
def lineAt (fs : FileSystem) (directory : FilePath) (s : SnapshotEntry) : Location :=
  fs.place directory ++ [s.filename]

namespace Proper

theorem without (h : fs.Proper) (locs : List Location) : (fs.without locs).Proper where
  distinct := h.distinct.sublist (List.filter_sublist.map Prod.fst)
  named := fun m hm => h.named m (List.mem_of_mem_filter hm)

/-- No two lines of a listing have one name. -/
theorem distinct_filenames (h : fs.Proper) (directory : FilePath) :
    ((fs.snapshots directory).map SnapshotEntry.filename).Nodup := by
  refine List.Nodup.map_on (fun a ha b hb => eq_of_filename ha hb) ?_
  by_cases hdir : ∃ loc, fs.entryAt directory = .ok (loc, some .directory)
  · obtain ⟨loc, hdir⟩ := hdir
    have hnames : (fs.namesIn loc).Nodup := by
      rw [namesIn_eq]
      exact h.distinct.filterMap fun l l' n hl hl' =>
        (nameIn?_eq_some.1 hl).trans (nameIn?_eq_some.1 hl').symm
    rw [snapshots_of_entryAt hdir, (List.mergeSort_perm _ _).nodup_iff]
    exact hnames.filterMap fun name other s hs hs' =>
      (filename_of_snapshotNamed? hs).symm.trans (filename_of_snapshotNamed? hs')
  · rw [snapshots_of_not_directory (not_exists.1 hdir)]
    exact List.nodup_nil

/-- A line of a listing stands for a file in the directory. -/
theorem exists_of_mem (h : fs.Proper) (hs : s ∈ fs.snapshots directory) :
    SnapshotName s.filename ∧ s.path = (directory.child s.filename).text ∧ ∃ bytes time,
      fs.entryAt (directory.child s.filename) = .ok (fs.lineAt directory s, some (.file bytes time)) := by
  obtain ⟨name, bytes, time, hending, hat, rfl⟩ := exists_of_mem_snapshots hs
  obtain ⟨l, hl, hfile⟩ := at?_eq_some.1 hat
  obtain ⟨loc, hdir, rfl⟩ := locate_of_child hl
  have hdown : name ≠ ".." := by
    rintro rfl
    exact absurd hending (by decide)
  have hplace : goTo loc name = fs.place directory ++ [name] := by
    rw [goTo, if_neg hdown, locate_place (entryAt_eq_ok.1 hdir).1]
  rw [hplace] at hl hfile
  have hmem : (fs.place directory ++ [name], Entry.file bytes time) ∈ fs.entries := by
    rw [entryAt?_of_ne_nil _ (by simp)] at hfile
    exact mem_of_find hfile
  obtain ⟨hplain, -⟩ := h.named _ hmem name (by simp)
  exact ⟨⟨hplain, hending, hdown⟩, rfl, bytes, time, entryAt_eq_ok.2 ⟨hl, hfile⟩⟩

/-- The path of a line is read as the path of its name. -/
theorem ofText_path (h : fs.Proper) (hdirectory : directory.Normal) (hs : s ∈ fs.snapshots directory) :
    FilePath.ofText s.path = directory.child s.filename := by
  obtain ⟨hname, hpath, -⟩ := h.exists_of_mem hs
  rw [hpath, FilePath.ofText_text (hdirectory.child hname.plain)]

/-- **One file is removed**: its location is taken away, and its line. -/
theorem tryDelete (h : fs.Proper) (hdirectory : directory.Normal) (hs : s ∈ fs.snapshots directory) :
    fs.tryDelete (.ofText s.path) = (⟨s.path, none⟩, fs.without [fs.lineAt directory s]) ∧
      (fs.without [fs.lineAt directory s]).snapshots directory =
        (fs.snapshots directory).filter fun e => e.filename != s.filename := by
  obtain ⟨hname, hpath, bytes, time, hat⟩ := h.exists_of_mem hs
  have hkeep : ∀ l : Location, (!List.contains [fs.lineAt directory s] l) =
      (l != fs.lineAt directory s) := by
    intro l
    rw [List.contains_cons, List.contains_nil, Bool.or_false]
    rfl
  have hremove : fs.removeFile (directory.child s.filename) =
      .ok (fs.without [fs.lineAt directory s]) := by
    rw [removeFile, hat, FileSystem.without]
    simp only [hkeep]
  refine ⟨?_, snapshots_removeFile hname hremove⟩
  rw [FileSystem.tryDelete, h.ofText_path hdirectory hs, hremove, hpath]

/-- **Files are removed** one after the other, by induction on the lines that tell them. -/
theorem tryDeleteAll (h : fs.Proper) (hdirectory : directory.Normal) {ss : List SnapshotEntry}
    (hss : ∀ s ∈ ss, s ∈ fs.snapshots directory) (hdistinct : (ss.map SnapshotEntry.filename).Nodup) :
    fs.tryDeleteAll (ss.map fun s => FilePath.ofText s.path) =
        (ss.map fun s => ⟨s.path, none⟩, fs.without (ss.map (fs.lineAt directory))) ∧
      (fs.without (ss.map (fs.lineAt directory))).snapshots directory =
        (fs.snapshots directory).filter fun e =>
          !(ss.map SnapshotEntry.filename).contains e.filename := by
  induction ss generalizing fs with
  | nil =>
      rw [List.map_nil, List.map_nil, List.map_nil, List.map_nil, without_nil]
      exact ⟨rfl, (List.filter_eq_self.2 fun _ _ => rfl).symm⟩
  | cons s ss ih =>
      rw [List.forall_mem_cons] at hss
      obtain ⟨hs, hdistinct⟩ := List.nodup_cons.1 hdistinct
      obtain ⟨hdelete, hlisting⟩ := h.tryDelete hdirectory hss.1
      have hrest : ∀ e ∈ ss, e ∈ (fs.without [fs.lineAt directory s]).snapshots directory := by
        intro e he
        rw [hlisting, List.mem_filter, bne_iff_ne]
        exact ⟨hss.2 e he, fun heq => hs (heq ▸ List.mem_map_of_mem he)⟩
      obtain ⟨hdeletes, hleft⟩ := ih (h.without _) hrest hdistinct
      -- taking locations away moves no others
      have hlocs : FileSystem.without (fs.without [fs.lineAt directory s]) (ss.map
          (lineAt (fs.without [fs.lineAt directory s]) directory)) =
            fs.without ((s :: ss).map (fs.lineAt directory)) :=
        (without_append fs [fs.lineAt directory s] (ss.map (fs.lineAt directory))).symm
      rw [hlocs] at hdeletes hleft
      refine ⟨?_, ?_⟩
      · rw [List.map_cons, FileSystem.tryDeleteAll, hdelete]
        dsimp only
        rw [hdeletes]
        rfl
      · rw [hleft, hlisting, List.filter_filter]
        refine List.filter_congr fun e _ => ?_
        rw [List.map_cons, List.contains_cons, Bool.not_or, Bool.and_comm]
        rfl

/-- **What is removed** is the back of the listing: the outcomes, the files and the listing afterwards. -/
theorem pruneSnapshots (h : fs.Proper) (hdirectory : directory.Normal) (keep : ℕ) :
    fs.pruneSnapshots directory keep =
        (((fs.snapshots directory).drop keep).map fun s => ⟨s.path, none⟩,
          fs.without (((fs.snapshots directory).drop keep).map (fs.lineAt directory))) ∧
      (fs.pruneSnapshots directory keep).2.snapshots directory =
        (fs.snapshots directory).take keep := by
  have hdistinct := h.distinct_filenames directory
  have hback := (List.drop_sublist keep (fs.snapshots directory)).map SnapshotEntry.filename
  obtain ⟨hdelete, hleft⟩ := h.tryDeleteAll hdirectory
    (fun s hs => List.mem_of_mem_drop hs) (hdistinct.sublist hback)
  rw [filter_notMem_drop hdistinct] at hleft
  rw [FileSystem.pruneSnapshots, hdelete]
  exact ⟨rfl, hleft⟩

/-- **Removing twice** leaves what the fewer of both counts leaves. -/
theorem prune_prune (h : fs.Proper) (hdirectory : directory.Normal) (j k : ℕ) :
    ((fs.pruneSnapshots directory k).2.pruneSnapshots directory j).2 =
      (fs.pruneSnapshots directory (min j k)).2 := by
  obtain ⟨hfirst, hlisting⟩ := h.pruneSnapshots hdirectory k
  have hproper : (fs.pruneSnapshots directory k).2.Proper := by
    rw [hfirst]
    exact h.without _
  obtain ⟨hsecond, -⟩ := hproper.pruneSnapshots hdirectory j
  obtain ⟨hboth, -⟩ := h.pruneSnapshots hdirectory (min j k)
  rw [hsecond, hlisting, hboth, drop_min, hfirst]
  dsimp only
  rw [List.map_append, without_append, without_comm]
  rfl

/-- What stands elsewhere than the files that are removed stands there still. -/
theorem entryAt?_prune (h : fs.Proper) (hdirectory : directory.Normal) {keep : ℕ} {l : Location}
    (hl : ∀ s ∈ (fs.snapshots directory).drop keep, l ≠ fs.lineAt directory s) :
    FileSystem.entryAt? (fs.pruneSnapshots directory keep).2 l = fs.entryAt? l := by
  obtain ⟨hprune, -⟩ := h.pruneSnapshots hdirectory keep
  rw [hprune]
  refine entryAt?_without fs fun hmem => ?_
  obtain ⟨s, hs, rfl⟩ := List.mem_map.1 hmem
  exact hl s hs rfl

/-- The files that are left hold what they held. -/
theorem documentOf_prune (h : fs.Proper) (hdirectory : directory.Normal) {keep : ℕ}
    (hs : s ∈ (fs.snapshots directory).take keep) :
    (fs.pruneSnapshots directory keep).2.documentOf (.ofText s.path) =
      fs.documentOf (.ofText s.path) := by
  obtain ⟨hprune, hlisting⟩ := h.pruneSnapshots hdirectory keep
  have hmem : s ∈ fs.snapshots directory := List.mem_of_mem_take hs
  have hleft : s ∈ (fs.pruneSnapshots directory keep).2.snapshots directory := by rwa [hlisting]
  rw [hprune] at hleft ⊢
  obtain ⟨-, -, bytes, time, hat⟩ := h.exists_of_mem hmem
  obtain ⟨-, -, bytes', time', hat'⟩ := (h.without _).exists_of_mem hleft
  obtain ⟨-, hfile⟩ := entryAt_eq_ok.1 hat
  obtain ⟨-, hfile'⟩ := entryAt_eq_ok.1 hat'
  obtain ⟨rfl, rfl⟩ := Entry.file.inj
    (Option.some.inj ((of_entryAt?_without (by simp [lineAt]) hfile').symm.trans hfile))
  simp only [documentOf, textOf, bytesOf, h.ofText_path hdirectory hmem, hat, hat']

end Proper

end FileSystem

/-! ### In either -/

/-- The line of a snapshot once some older ones are gone: in memory its time is its position. -/
def SnapshotStore.redated (store : SnapshotStore) (gone : ℕ) (s : SnapshotEntry) : SnapshotEntry :=
  match store with
  | .directory _ => s
  | .memory _ => { s with created := s.created - gone }

/-- What is in memory was saved there, and a directory of snapshots lies in a proper file system. -/
structure Workspace.Prunable (w : Workspace) : Prop where
  memory : ∀ m, w.store = .memory m → m.Reachable
  directory : ∀ d, w.store = .directory d → d.Normal ∧ w.files.Proper

/-- **What is left, what is reported, and what stays as it was.**  A negative count is refused, and
changes nothing.  Any other leaves the front of the listing, in memory dated anew, and reports the lines
behind it as removed.  What is left loads what it loaded before; only the files of the lines that are
removed change, and so none without the ending of snapshots; and after one count another leaves what the
fewer of both leaves. -/
theorem prune_exact (w : Workspace) (hw : w.Prunable) :
    (∀ keep : Int, keep < 0 →
      Action.pruneSnapshots keep w = (.error (.negativeKeep "keep_count"), w))
      ∧ ∀ keep : ℕ, ∃ listed w', Action.listSnapshots w = (.ok listed, w)
        ∧ Action.pruneSnapshots keep w = (.ok ((listed.drop keep).map fun s => ⟨s.path, none⟩), w')
        ∧ Action.listSnapshots w' =
          (.ok ((listed.take keep).map (w.store.redated (listed.length - keep))), w')
        ∧ (∀ s ∈ listed.take keep,
          (Action.loadSnapshot s.path w').1 = (Action.loadSnapshot s.path w).1)
        ∧ (∀ loc, (∀ d, w.store = .directory d → ∀ s ∈ listed.drop keep, loc ≠ w.files.lineAt d s) →
          w'.files.entryAt? loc = w.files.entryAt? loc)
        ∧ (∀ loc name, Text.hasBack name ".json" = false →
          w'.files.entryAt? (loc ++ [name]) = w.files.entryAt? (loc ++ [name]))
        ∧ w' = { w with files := w'.files, store := w'.store }
        ∧ ∀ j : ℕ, (Action.pruneSnapshots j w').2 = (Action.pruneSnapshots (min j keep : ℕ) w).2 := by
  refine ⟨fun keep hkeep => by rw [Action.pruneSnapshots, if_pos hkeep], fun keep => ?_⟩
  have hcount : ∀ n : ℕ, ¬ (n : Int) < 0 := fun n => by omega
  cases hstore : w.store with
  | memory m =>
      have hm := hw.memory m hstore
      have houtcomes : (m.prune keep).1 = (m.list.drop keep).map fun s => ⟨s.path, none⟩ := by
        rw [MemorySnapshots.prune, List.map_map]
        rfl
      refine ⟨m.list, { w with store := .memory (m.prune keep).2 }, ?_, ?_, ?_, ?_, fun _ _ => rfl,
        fun _ _ _ => rfl, rfl, fun j => ?_⟩
      · simp only [Action.listSnapshots, hstore]
      · simp only [Action.pruneSnapshots, if_neg (hcount keep), hstore, Int.toNat_natCast, houtcomes]
      · simp only [Action.listSnapshots, hm.list_prune]
        rfl
      · intro s hs
        simp only [Action.loadSnapshot, hstore, hm.load?_prune hs]
        cases m.load? s.path <;> rfl
      · simp only [Action.pruneSnapshots, if_neg (hcount _), hstore, Int.toNat_natCast, hm.prune_prune]
  | directory d =>
      obtain ⟨hd, hfiles⟩ := hw.directory d hstore
      obtain ⟨hprune, hlisting⟩ := hfiles.pruneSnapshots hd keep
      have hsame : SnapshotStore.redated (.directory d) ((w.files.snapshots d).length - keep) = id := rfl
      refine ⟨w.files.snapshots d, { w with files := (w.files.pruneSnapshots d keep).2 },
        ?_, ?_, ?_, ?_, ?_, ?_, rfl, fun j => ?_⟩
      · simp only [Action.listSnapshots, hstore]
      · simp only [Action.pruneSnapshots, if_neg (hcount keep), hstore, Int.toNat_natCast, hprune]
      · simp only [Action.listSnapshots, hstore, hlisting, hsame, List.map_id]
      · intro s hs
        simp only [Action.loadSnapshot, hstore, hfiles.documentOf_prune hd hs]
        cases w.files.documentOf (.ofText s.path) <;> rfl
      · exact fun loc hloc => hfiles.entryAt?_prune hd (hloc d rfl)
      · intro loc name hname
        refine hfiles.entryAt?_prune hd fun s hs hplace => ?_
        obtain ⟨hline, -⟩ := hfiles.exists_of_mem (List.mem_of_mem_drop hs)
        obtain rfl : name = s.filename := by simpa using (List.append_inj' hplace rfl).2
        exact absurd hline.ending (by simp [hname])
      · simp only [Action.pruneSnapshots, if_neg (hcount _), hstore, Int.toNat_natCast,
          hfiles.prune_prune hd]

/-- A directory with two snapshots and a note. -/
def notedWorkspace : Workspace where
  files :=
    { entries := [(["home"], .directory), (["home", "backups"], .directory),
        (["home", "backups", "b.json"], .file .empty 2), (["home", "backups", "a.json"], .file .empty 1),
        (["home", "backups", "notes.txt"], .file .empty 3)]
      current := ["home"]
      now := 4 }
  clock := ⟨⟨0⟩, 0⟩
  store := .directory ⟨"", ["backups"]⟩

theorem prunable_notedWorkspace : notedWorkspace.Prunable where
  memory := fun m hm => absurd hm (by simp [notedWorkspace])
  directory := by
    intro d hd
    obtain rfl := SnapshotStore.directory.inj hd
    have hnames : ∀ m ∈ notedWorkspace.files.entries, ∀ n ∈ m.1,
        '/' ∉ n.toList ∧ FilePath.isName n.toList = true ∧ n ≠ ".." := by decide
    refine ⟨FilePath.normal_ofText "backups", by decide, fun m hm n hn => ?_⟩
    obtain ⟨huncut, hkept, hdown⟩ := hnames m hm n hn
    exact ⟨⟨huncut, hkept⟩, hdown⟩

/-- The newer snapshot is left, and the note. -/
theorem prune_exact_noted :
    notedWorkspace.Prunable ∧ ∃ w',
      Action.pruneSnapshots 1 notedWorkspace = (.ok [⟨"backups/a.json", none⟩], w')
        ∧ Action.listSnapshots w' = (.ok [⟨"backups/b.json", "b.json", 2, 0⟩], w')
        ∧ w'.files.entryAt? ["home", "backups", "notes.txt"] = some (.file .empty 3) := by
  obtain ⟨-, hprune⟩ := prune_exact notedWorkspace prunable_notedWorkspace
  obtain ⟨listed, w', hlist, hdone, hleft, -, -, hfiles, -⟩ := hprune 1
  have hlisting : Action.listSnapshots notedWorkspace =
      (.ok [⟨"backups/b.json", "b.json", 2, 0⟩, ⟨"backups/a.json", "a.json", 1, 0⟩], notedWorkspace) := by
    change (Except.ok (List.mergeSort _ _), _) = _
    rw [List.mergeSort_of_pairwise (by decide +kernel)]
    rfl
  obtain rfl := Except.ok.inj (congrArg Prod.fst (hlist.symm.trans hlisting))
  exact ⟨prunable_notedWorkspace, w', hdone, hleft,
    hfiles ["home", "backups"] "notes.txt" (by decide)⟩

/-- Two snapshots in memory. -/
def twiceSaved : MemorySnapshots :=
  ((({} : MemorySnapshots).save "dcp" "2024-05-01T12:30:45.123Z" (.int 1)).2.save "dcp"
    "2024-05-01T12:30:46.123Z" (.int 2)).2

/-- A workspace with two snapshots in memory. -/
def twiceSavedWorkspace : Workspace where
  files := .empty ["home"] 0
  clock := ⟨⟨0⟩, 0⟩
  store := .memory twiceSaved

/-- In memory the newer snapshot gets the time of the older, and so it is not as it was listed. -/
theorem prune_redates :
    twiceSavedWorkspace.Prunable ∧ ∃ listed outcomes w' left,
      Action.listSnapshots twiceSavedWorkspace = (.ok listed, twiceSavedWorkspace)
        ∧ Action.pruneSnapshots 1 twiceSavedWorkspace = (.ok outcomes, w')
        ∧ Action.listSnapshots w' = (.ok left, w') ∧ left ≠ listed.take 1
        ∧ listed.map SnapshotEntry.created = [1, 0] ∧ left.map SnapshotEntry.created = [0] := by
  have hreachable : twiceSaved.Reachable := .save _ _ _ (.save _ _ _ .empty)
  refine ⟨⟨fun m hm => ?_, fun d hd => absurd hd (by simp [twiceSavedWorkspace])⟩,
    twiceSaved.list, (twiceSaved.prune 1).1,
    { twiceSavedWorkspace with store := .memory (twiceSaved.prune 1).2 }, (twiceSaved.prune 1).2.list,
    rfl, rfl, rfl, fun hsame => ?_, by decide, by decide⟩
  · rwa [← SnapshotStore.memory.inj hm]
  · exact absurd (congrArg (List.map SnapshotEntry.created) hsame) (by decide)

end DesignRegistry
