/-
**Shelves.**

Whoever uses a store of snapshots sees a shelf: references with their documents, the newest first.  A new
snapshot comes to the front, documents are found by their references, and snapshots are removed by their
references or from the back.  A directory and a list in memory both are such shelves, a directory as long
as each snapshot is newer than those before it.

Main definitions:

* `Shelf.without` — a shelf without some references;
* `FileSystem.Shelves`, `MemorySnapshots.Shelves` — what is on the shelf.

Main results:

* `FileSystem.Shelves.save`, `FileSystem.Shelves.discard`, `FileSystem.Shelves.prune` — **a directory is
  a shelf**;
* `MemorySnapshots.Shelves.save`, `MemorySnapshots.Shelves.without`, `MemorySnapshots.Shelves.prune`,
  `MemorySnapshots.Shelves.load` — **a list in memory is a shelf**.
-/
import DesignRegistry.Proofs.Storage.Document
import DesignRegistry.Proofs.Storage.FreeName
import DesignRegistry.Proofs.Storage.Listing

set_option relaxedAutoImplicit false
set_option autoImplicit false

namespace DesignRegistry

/-- Snapshots by reference, the newest first. -/
abbrev Shelf : Type := List (String × Json)

namespace Shelf

variable {shelf : Shelf}

/-- The references. -/
def references (shelf : Shelf) : List String := shelf.map Prod.fst

/-- The shelf without some references. -/
def without (refs : List String) (shelf : Shelf) : Shelf := shelf.filter fun x => !refs.contains x.1

@[simp] theorem without_nil (shelf : Shelf) : without [] shelf = shelf :=
  List.filter_eq_self.2 fun _ _ => rfl

theorem references_drop (n : ℕ) (shelf : Shelf) :
    references (shelf.drop n) = (references shelf).drop n := List.map_drop

theorem references_without (refs : List String) (shelf : Shelf) :
    references (without refs shelf) = (references shelf).filter fun r => !refs.contains r := by
  rw [references, references, without, List.filter_map]
  rfl

theorem without_without (ref : String) (refs : List String) (shelf : Shelf) :
    without refs (without [ref] shelf) = without (ref :: refs) shelf := by
  rw [without, without, without, List.filter_filter]
  refine List.filter_congr fun x _ => ?_
  rw [List.contains_cons, List.contains_cons, Bool.not_or, Bool.not_or, Bool.and_comm,
    List.contains_nil, Bool.not_false, Bool.and_true]

/-- What is on a shelf stays there without other references. -/
theorem mem_without {refs : List String} {x : String × Json} :
    x ∈ without refs shelf ↔ x ∈ shelf ∧ x.1 ∉ refs := by
  rw [without, List.mem_filter, Bool.not_eq_true', ← Bool.not_eq_true, List.contains_iff_mem]

/-- A shelf without the references behind the first ones is its front. -/
theorem without_drop (h : (references shelf).Nodup) (n : ℕ) :
    without (references (shelf.drop n)) shelf = shelf.take n := filter_notMem_drop h n

end Shelf

/-! ### In a directory -/

namespace FileSystem

/-- The shelf of a directory: the listing, and the document of each line. -/
structure Shelves (fs : FileSystem) (directory : FilePath) (shelf : Shelf) : Prop where
  sound : fs.Sound
  normal : directory.Normal
  room : ∃ fs', fs.makeDirectories directory = .ok fs' ∧
    fs'.snapshots directory = fs.snapshots directory
  listed : (fs.snapshots directory).map SnapshotEntry.path = shelf.references
  named : ∀ x ∈ shelf, ∃ name, SnapshotName name ∧ x.1 = (directory.child name).text
  held : ∀ x ∈ shelf, fs.documentOf (.ofText x.1) = .ok x.2
  distinct : shelf.references.Nodup

variable {fs : FileSystem} {directory : FilePath} {shelf : Shelf}

/-- The same snapshots are listed at any time. -/
theorem snapshots_atTime (now : Int) : (fs.atTime now).snapshots directory = fs.snapshots directory := by
  have hlines : FileSystem.snapshotNamed? (fs.atTime now) directory = fs.snapshotNamed? directory :=
    funext fun _ => snapshotNamed?_congr (at?_atTime _)
  simp only [snapshots, entryAt_atTime, hlines]
  rfl

/-- The directory is there or can be made, and there is nothing in it yet. -/
theorem shelves_nil (hsound : fs.Sound) (hnormal : directory.Normal) {fs' : FileSystem}
    (hmake : fs.makeDirectories directory = .ok fs') (hempty : fs'.snapshots directory = []) :
    fs.Shelves directory [] := by
  have hnone : fs.snapshots directory = [] := by
    by_cases hdir : fs.isDirectory directory = true
    · rw [makeDirectories_of_isDirectory hdir] at hmake
      rwa [Except.ok.inj hmake]
    · exact snapshots_of_not_directory fun loc hloc => hdir (isDirectory_iff.2 ⟨loc, hloc⟩)
  refine ⟨hsound, hnormal, ⟨fs', hmake, by rw [hempty, hnone]⟩, ?_, ?_, ?_, List.nodup_nil⟩
  · rw [hnone]
    rfl
  · exact fun x hx => absurd hx List.not_mem_nil
  · exact fun x hx => absurd hx List.not_mem_nil

namespace Shelves

/-- Time alone changes nothing on a shelf. -/
theorem atTime (h : fs.Shelves directory shelf) (now : Int) :
    (fs.atTime now).Shelves directory shelf where
  sound := h.sound.atTime now
  normal := h.normal
  room := by
    obtain ⟨made, hmake, hsame⟩ := h.room
    refine ⟨made.atTime now, by rw [makeDirectories_atTime, hmake]; rfl, ?_⟩
    rw [snapshots_atTime, snapshots_atTime, hsame]
  listed := by rw [snapshots_atTime, h.listed]
  named := h.named
  held := fun x hx => (keeps_atTime fs now).documentOf List.not_mem_nil (h.held x hx)
  distinct := h.distinct

/-- **A new snapshot** comes to the front if it is newer than the others. -/
theorem save (h : fs.Shelves directory shelf) {front : String} (hfront : '/' ∉ front.toList)
    {doc : Json} (hdoc : doc.Legible) (hnew : ∀ s ∈ fs.snapshots directory, s.created < fs.now)
    (t : Moment) : ∃ made p fs', fs.makeDirectories directory = .ok made ∧
      made.addSnapshot directory front t.timestamp doc = .ok (p, fs') ∧
      fs'.Shelves directory ((p.text, doc) :: shelf) := by
  obtain ⟨made, hmake, hsame⟩ := h.room
  obtain ⟨loc, hdir⟩ := isDirectory_iff.1 (isDirectory_of_makeDirectories hmake)
  have hgains := gains_makeDirectories hmake
  obtain ⟨name, fs', hname, hfree, hcreate, hadd⟩ := create_freePath hfront hdir t doc
  have hcreated := keeps_create hcreate
  have hkeeps := hgains.keeps.trans hcreated
  have hnow : made.now = fs.now := by
    obtain ⟨ds, -, rfl⟩ := hgains
    rfl
  have hlisting := snapshots_create_newest hname hcreate (by rwa [hsame, hnow])
  have hpath : FilePath.ofText (directory.child name).text = directory.child name :=
    FilePath.ofText_text (h.normal.child hname.plain)
  refine ⟨made, _, fs', hmake, hadd, ?_, h.normal, ?_, ?_, ?_, ?_, ?_⟩
  · exact (h.sound.makeDirectories hmake).create hcreate
  · have hthere := isDirectory_iff.2 ⟨loc, hcreated.entryAt_directory hdir⟩
    exact ⟨fs', makeDirectories_of_isDirectory hthere, rfl⟩
  · rw [hlisting, hsame, List.map_cons, h.listed]
    rfl
  · exact List.forall_mem_cons.2 ⟨⟨name, hname, rfl⟩, h.named⟩
  · refine List.forall_mem_cons.2 ⟨?_, fun x hx => hkeeps.documentOf List.not_mem_nil (h.held x hx)⟩
    rw [hpath]
    exact documentOf_of_create hdoc hcreate
  · refine List.nodup_cons.2 ⟨?_, h.distinct⟩
    change _ ∉ shelf.references
    rw [← h.listed, ← hsame, List.mem_map]
    rintro ⟨s, hs, heq⟩
    exact path_ne_of_create hcreate s hs heq

/-- **A snapshot is removed** by its reference. -/
theorem discard (h : fs.Shelves directory shelf) {ref : String} (href : ref ∈ shelf.references) :
    ∃ fs', fs.tryDelete (.ofText ref) = (⟨ref, none⟩, fs') ∧
      fs'.Shelves directory (shelf.without [ref]) := by
  obtain ⟨x, hx, rfl⟩ := List.mem_map.1 href
  obtain ⟨name, hname, href⟩ := h.named x hx
  have hpath : FilePath.ofText x.1 = directory.child name :=
    href ▸ FilePath.ofText_text (h.normal.child hname.plain)
  obtain ⟨bytes, hbytes⟩ := bytesOf_of_documentOf (hpath ▸ h.held x hx)
  obtain ⟨time, hat⟩ := bytesOf_eq_ok.1 hbytes
  obtain ⟨l, hl, hentry⟩ := at?_eq_some.1 hat
  obtain ⟨loc, hdir, rfl⟩ := locate_of_child hl
  obtain ⟨fs', hremove⟩ : ∃ fs', fs.removeFile (directory.child name) = .ok fs' := by
    refine ⟨{ fs with entries := fs.entries.filter fun m => m.1 != goTo loc name }, ?_⟩
    rw [removeFile, entryAt_eq_ok.2 ⟨hl, hentry⟩]
  have hkeeps := keeps_removeFile hremove
  -- what stays has another reference, hence another name, and so it stands elsewhere
  have hplain : ∀ y ∈ shelf.without [x.1], ∃ other, SnapshotName other ∧
      y.1 = (directory.child other).text ∧ other ≠ name := by
    intro y hy
    obtain ⟨hmem, hne⟩ := Shelf.mem_without.1 hy
    obtain ⟨other, hother, hyref⟩ := h.named y hmem
    refine ⟨other, hother, hyref, ?_⟩
    rintro rfl
    exact hne (List.mem_singleton.2 (hyref.trans href.symm))
  refine ⟨fs', ?_, h.sound.removeFile hremove, h.normal, ?_, ?_, ?_, ?_, ?_⟩
  · rw [tryDelete, hpath, hremove, href]
  · have hthere := isDirectory_iff.2 ⟨loc, hkeeps.entryAt_directory hdir⟩
    exact ⟨fs', makeDirectories_of_isDirectory hthere, rfl⟩
  · rw [snapshots_removeFile hname hremove, Shelf.references_without, ← h.listed, List.filter_map]
    refine congrArg _ (List.filter_congr fun s hs => ?_)
    obtain ⟨other, _, _, -, -, rfl⟩ := exists_of_mem_snapshots hs
    have hiff : other = name ↔ (directory.child other).text = x.1 := by
      rw [href]
      exact ⟨fun heq => by rw [heq], FilePath.text_child_injective⟩
    rw [Bool.eq_iff_iff]
    simp [hiff]
  · intro y hy
    obtain ⟨other, hother, hyref, -⟩ := hplain y hy
    exact ⟨other, hother, hyref⟩
  · intro y hy
    obtain ⟨other, hother, hyref, hne⟩ := hplain y hy
    refine hkeeps.documentOf ?_ (h.held y (Shelf.mem_without.1 hy).1)
    rw [List.mem_singleton, hyref, FilePath.ofText_text (h.normal.child hother.plain), place_child,
      place_child, goTo, goTo, if_neg hother.down, if_neg hname.down]
    exact fun heq => hne (List.singleton_inj.1 (List.append_cancel_left heq))
  · rw [Shelf.references_without]
    exact h.distinct.filter _

/-- Snapshots are removed one after the other. -/
theorem discardAll {refs : List String} (h : fs.Shelves directory shelf)
    (hrefs : ∀ r ∈ refs, r ∈ shelf.references) (hdistinct : refs.Nodup) :
    ∃ fs', fs.tryDeleteAll (refs.map FilePath.ofText) = (refs.map fun r => ⟨r, none⟩, fs') ∧
      fs'.Shelves directory (shelf.without refs) := by
  induction refs generalizing fs shelf with
  | nil => exact ⟨fs, rfl, by rwa [Shelf.without_nil]⟩
  | cons r refs ih =>
      rw [List.forall_mem_cons] at hrefs
      obtain ⟨hr, hdistinct⟩ := List.nodup_cons.1 hdistinct
      obtain ⟨fs₁, hdelete, h₁⟩ := h.discard hrefs.1
      have hrest : ∀ r' ∈ refs, r' ∈ (shelf.without [r]).references := by
        intro r' hr'
        rw [Shelf.references_without, List.mem_filter]
        refine ⟨hrefs.2 r' hr', ?_⟩
        have hne : r' ≠ r := fun heq => hr (heq ▸ hr')
        simp [hne]
      obtain ⟨fs', hdeletes, h'⟩ := ih h₁ hrest hdistinct
      rw [Shelf.without_without] at h'
      refine ⟨fs', ?_, h'⟩
      rw [List.map_cons, tryDeleteAll, hdelete]
      dsimp only
      rw [hdeletes]
      rfl

/-- **Snapshots are removed from the back.** -/
theorem prune (h : fs.Shelves directory shelf) (keep : ℕ) :
    ∃ fs', fs.pruneSnapshots directory keep =
        ((Shelf.references (shelf.drop keep)).map fun r => ⟨r, none⟩, fs') ∧
      fs'.Shelves directory (shelf.take keep) := by
  have hpaths : ((fs.snapshots directory).drop keep).map (fun e => FilePath.ofText e.path) =
      (Shelf.references (shelf.drop keep)).map FilePath.ofText := by
    rw [Shelf.references_drop, ← h.listed, ← List.map_drop, List.map_map]
    rfl
  have hback : (Shelf.references (shelf.drop keep)).Sublist shelf.references :=
    (List.drop_sublist keep shelf).map Prod.fst
  obtain ⟨fs', hdelete, h'⟩ := h.discardAll hback.subset (h.distinct.sublist hback)
  rw [Shelf.without_drop h.distinct] at h'
  exact ⟨fs', by rw [pruneSnapshots, hpaths, hdelete], h'⟩

end Shelves

end FileSystem

/-! ### In memory -/

namespace MemorySnapshots

/-- The shelf of a list in memory, which has the oldest first. -/
structure Shelves (m : MemorySnapshots) (shelf : Shelf) : Prop where
  numbered : m.Numbered
  items : m.items.reverse = shelf
  distinct : shelf.references.Nodup

variable {m : MemorySnapshots} {shelf : Shelf}

theorem shelves_nil : Shelves {} [] :=
  ⟨fun _ hitem => absurd hitem List.not_mem_nil, rfl, List.nodup_nil⟩

theorem references_list (m : MemorySnapshots) :
    m.list.map SnapshotEntry.path = Shelf.references m.items.reverse := by
  rw [list, Shelf.references, List.map_reverse, List.map_reverse, List.map_map]
  refine congrArg _ ?_
  conv_rhs => rw [← List.zipIdx_map_fst 0 m.items, List.map_map]
  rfl

namespace Shelves

theorem mem_items (h : m.Shelves shelf) {x : String × Json} : x ∈ m.items ↔ x ∈ shelf := by
  rw [← h.items, List.mem_reverse]

/-- **A new snapshot** comes to the front. -/
theorem save (h : m.Shelves shelf) (front timestamp : String) (doc : Json) :
    (m.save front timestamp doc).2.Shelves ((reference front timestamp m.next, doc) :: shelf) where
  numbered := h.numbered.save front timestamp doc
  items := by
    rw [MemorySnapshots.save]
    dsimp only
    rw [List.reverse_append, h.items]
    rfl
  distinct := by
    refine List.nodup_cons.2 ⟨?_, h.distinct⟩
    rintro hmem
    obtain ⟨x, hx, href⟩ := List.mem_map.1 hmem
    exact h.numbered.ne_next front timestamp x (h.mem_items.2 hx) href

/-- A document is found by its reference. -/
theorem load (h : m.Shelves shelf) {x : String × Json} (hx : x ∈ shelf) :
    m.load? x.1 = some x.2 := by
  have hdistinct : (m.items.map Prod.fst).Nodup := by
    have hreversed := h.distinct
    rw [← h.items, Shelf.references, List.map_reverse, List.nodup_reverse] at hreversed
    exact hreversed
  exact lookup_of_mem hdistinct (h.mem_items.2 hx)

/-- **Snapshots are removed** by their references. -/
theorem without (h : m.Shelves shelf) (refs : List String) :
    (m.without refs).Shelves (shelf.without refs) where
  numbered := fun item hitem => h.numbered item (List.mem_of_mem_filter hitem)
  items := by
    rw [MemorySnapshots.without, Shelf.without, ← h.items, List.filter_reverse]
  distinct := by
    rw [Shelf.references_without]
    exact h.distinct.filter _

/-- **Snapshots are removed from the back.** -/
theorem prune (h : m.Shelves shelf) (keep : ℕ) :
    (m.prune keep).1 = (Shelf.references (shelf.drop keep)).map (fun r => ⟨r, none⟩) ∧
      (m.prune keep).2.Shelves (shelf.take keep) := by
  have hdoomed : (m.list.drop keep).map SnapshotEntry.path = Shelf.references (shelf.drop keep) := by
    rw [Shelf.references_drop, ← h.items, ← m.references_list, List.map_drop]
  have hleft := h.without (Shelf.references (shelf.drop keep))
  rw [Shelf.without_drop h.distinct] at hleft
  refine ⟨congrArg (List.map _) hdoomed, ?_⟩
  rw [MemorySnapshots.prune]
  exact hdoomed ▸ hleft

end Shelves

end MemorySnapshots

end DesignRegistry
