/-
**Snapshots do not disturb each other.**

A snapshot in a directory gets a plain name that leads to nothing yet, and one in memory a number
that no other has.  So saving replaces nothing, and removing what was just saved brings back what was
there before, up to directories on the way.

Main definitions:

* `MemorySnapshots.Numbered` — references in memory have numbers that were given before.

Main results:

* `FileSystem.freePath_eq` — a snapshot's file lies in the directory under a plain name;
* `FileSystem.mem_snapshots` — a snapshot's file is listed;
* `FileSystem.Gains.snapshots` — **more directories do not change the listing**;
* `FileSystem.removeFile_create` — **removing a file that was just created brings back the files**;
* `MemorySnapshots.discard_save` — the same in memory.
-/
import DesignRegistry.Proofs.Json.Pointer
import DesignRegistry.Proofs.Storage.FilePath
import DesignRegistry.Proofs.Storage.FileSystem
import DesignRegistry.Storage.Snapshot

set_option relaxedAutoImplicit false
set_option autoImplicit false

namespace DesignRegistry

/-! ### Names -/

/-- A text with an ending has that ending. -/
theorem Text.hasBack_append (s back : String) : hasBack (s ++ back) back = true := by
  rw [hasBack, endsWith, startsWith_iff, String.toList_append, List.reverse_append]
  exact List.prefix_append _ _

theorem slash_notMem_padded (width n : ℕ) : '/' ∉ padded width n := by
  intro h
  rcases List.mem_append.1 h with h | h
  · exact absurd (List.eq_of_mem_replicate h) (by decide)
  · exact absurd (isDigit_of_mem_natDigits h) (by decide)

theorem slash_notMem_timestamp (t : Moment) : '/' ∉ t.timestampChars := by
  simp [Moment.timestampChars, Moment.secondsChars, slash_notMem_padded]

theorem slash_notMem_stem {front : String} (h : '/' ∉ front.toList) (t : Moment) :
    '/' ∉ (snapshotStem front t.timestamp).toList := by
  have hstamp : '/' ∉ (filenameStamp t.timestamp).toList := by
    rw [filenameStamp, String.toList_ofList, Moment.timestamp, String.toList_ofList]
    intro h
    obtain ⟨c, hc, heq⟩ := List.mem_map.1 h
    split at heq
    · exact absurd heq (by decide)
    · exact slash_notMem_timestamp t (heq ▸ hc)
  rw [snapshotStem, String.toList_append, String.toList_append, List.mem_append, List.mem_append]
  rintro ((hmem | hmem) | hmem)
  · exact h hmem
  · exact absurd hmem (by decide)
  · exact hstamp hmem

theorem slash_notMem_snapshotStem (k : SnapshotKind) (t : Moment) :
    '/' ∉ (snapshotStem k.front t.timestamp).toList := by
  refine slash_notMem_stem ?_ t
  cases k with
  | mutation => decide
  | rollback => decide

theorem slash_notMem_numbered {stem : String} (h : '/' ∉ stem.toList) (n : ℕ) :
    '/' ∉ (stem ++ "-" ++ natText n).toList := by
  rw [String.toList_append, String.toList_append, List.mem_append, List.mem_append]
  rintro ((hmem | hmem) | hmem)
  · exact h hmem
  · exact absurd hmem (by decide)
  · rw [natText, String.toList_ofList] at hmem
    exact absurd (isDigit_of_mem_natDigits hmem) (by decide)

/-- The name of a snapshot's file. -/
structure SnapshotName (name : String) : Prop where
  plain : PlainName name
  ending : Text.hasBack name ".json" = true
  down : name ≠ ".."

theorem snapshotName_append {stem : String} (h : '/' ∉ stem.toList) :
    SnapshotName (stem ++ ".json") := by
  have hlength : 5 ≤ (stem ++ ".json").toList.length := by
    rw [String.toList_append, List.length_append]
    exact Nat.le_add_left 5 _
  refine ⟨⟨?_, ?_⟩, Text.hasBack_append stem ".json", ?_⟩
  · rw [String.toList_append, List.mem_append]
    rintro (hmem | hmem)
    · exact h hmem
    · exact absurd hmem (by decide)
  · rw [FilePath.isName, Bool.and_eq_true, bne_iff_ne, bne_iff_ne]
    constructor
    · intro hnil
      rw [hnil] at hlength
      exact absurd hlength (by decide)
    · intro hdot
      rw [hdot] at hlength
      exact absurd hlength (by decide)
  · intro hdots
    rw [hdots] at hlength
    exact absurd hlength (by decide)

namespace FileSystem

variable {fs fs' : FileSystem} {directory : FilePath}

theorem freePathFrom_eq (fs : FileSystem) (directory : FilePath) {stem : String}
    (h : '/' ∉ stem.toList) (n tries : ℕ) :
    ∃ name, SnapshotName name ∧ fs.freePathFrom directory stem n tries = directory.child name := by
  have hname : ∀ n, SnapshotName (stem ++ "-" ++ natText n ++ ".json") :=
    fun n => snapshotName_append (slash_notMem_numbered h n)
  induction tries generalizing n with
  | zero => exact ⟨_, hname n, FilePath.join_ofText (hname n).plain directory⟩
  | succ tries ih =>
      rw [freePathFrom]
      split
      · exact ih (n + 1)
      · exact ⟨_, hname n, FilePath.join_ofText (hname n).plain directory⟩

/-- A snapshot's file lies in the directory under a plain name. -/
theorem freePath_eq (fs : FileSystem) (directory : FilePath) {stem : String}
    (h : '/' ∉ stem.toList) :
    ∃ name, SnapshotName name ∧ fs.freePath directory stem = directory.child name := by
  have hname := snapshotName_append h
  rw [freePath]
  split
  · exact freePathFrom_eq fs directory h 1 (fs.entries.length + 1)
  · exact ⟨_, hname, FilePath.join_ofText hname.plain directory⟩

theorem addSnapshot_eq_ok {front timestamp : String} {doc : Json} {p : FilePath}
    (h : fs.addSnapshot directory front timestamp doc = .ok (p, fs')) :
    p = fs.freePath directory (snapshotStem front timestamp) ∧
      fs.create p doc.pretty.toUTF8 = .ok fs' := by
  unfold addSnapshot at h
  cases hcreate : fs.create (fs.freePath directory (snapshotStem front timestamp))
      doc.pretty.toUTF8 with
  | error problem =>
      simp only [hcreate] at h
      exact absurd h (by simp)
  | ok saved =>
      simp only [hcreate, Except.ok.injEq, Prod.mk.injEq] at h
      obtain ⟨hp, hsaved⟩ := h
      rw [← hp, ← hsaved]
      exact ⟨rfl, hcreate⟩

/-- Removing a file that was just created brings back the files. -/
theorem removeFile_create {p : FilePath} {bytes : ByteArray} (h : fs.create p bytes = .ok fs') :
    fs'.removeFile p = .ok fs := by
  obtain ⟨l, hloc, habsent, rfl⟩ := create_eq_ok h
  have hkeeps : fs.Keeps (fs.withEntry l (.file bytes fs.now)) [l] :=
    keeps_withEntry (by simp [habsent]) _
  have hentry : (fs.withEntry l (.file bytes fs.now)).entryAt p =
      .ok (l, some (.file bytes fs.now)) :=
    entryAt_eq_ok.2 ⟨hkeeps.locate hloc, entryAt?_withEntry_self fs (ne_nil_of_absent habsent) _⟩
  have hentries : (fs.withEntry l (.file bytes fs.now)).entries.filter (fun m => m.1 != l) =
      fs.entries := by
    have hnone := findAt?_of_absent habsent
    rw [withEntry, putEntry_of_absent hnone, List.filter_append, filter_of_absent hnone,
      List.filter_cons_of_neg (by simp), List.filter_nil, List.append_nil]
  rw [removeFile, hentry]
  simp only
  rw [hentries]
  rfl

/-! ### Listings -/

theorem nameIn?_eq_some {loc l : Location} {n : String} :
    nameIn? loc l = some n ↔ l = loc ++ [n] := by
  rw [nameIn?]
  constructor
  · intro h
    cases hlast : l.getLast? with
    | none => simp [hlast] at h
    | some m =>
        obtain ⟨front, rfl⟩ := List.getLast?_eq_some_iff.1 hlast
        rw [hlast, List.dropLast_concat] at h
        simp only at h
        split at h
        · next hfront =>
            obtain rfl := Option.some.inj h
            rw [hfront]
        · exact absurd h (by simp)
  · rintro rfl
    rw [List.getLast?_concat, List.dropLast_concat]
    exact if_pos rfl

/-- The names in a directory that a path leads to. -/
theorem snapshots_of_entryAt {loc : Location}
    (h : fs.entryAt directory = .ok (loc, some .directory)) :
    fs.snapshots directory =
      ((fs.namesIn loc).filterMap (fs.snapshotNamed? directory)).mergeSort listedBefore := by
  rw [snapshots, h]

theorem snapshots_of_not_directory
    (h : ∀ loc, fs.entryAt directory ≠ .ok (loc, some .directory)) :
    fs.snapshots directory = [] := by
  rw [snapshots]
  split
  · next loc heq => exact absurd heq (h loc)
  · rfl

/-- The line of a snapshot's file. -/
theorem snapshotNamed?_of_file {name : String} {bytes : ByteArray} {time : Int}
    (hname : SnapshotName name)
    (h : fs.at? (directory.child name) = some (.file bytes time)) :
    fs.snapshotNamed? directory name =
      some ⟨(directory.child name).text, name, time, bytes.size⟩ := by
  rw [snapshotNamed?]
  simp only [h]
  rw [if_pos hname.ending]

/-- A snapshot's file is listed. -/
theorem mem_snapshots {name : String} {bytes : ByteArray} {time : Int}
    (hname : SnapshotName name)
    (h : fs.at? (directory.child name) = some (.file bytes time)) :
    ⟨(directory.child name).text, name, time, bytes.size⟩ ∈ fs.snapshots directory := by
  have hentry := snapshotNamed?_of_file hname h
  obtain ⟨l, hl, hfile⟩ := at?_eq_some.1 h
  obtain ⟨loc, hdir, rfl⟩ := locate_of_child hl
  rw [goTo, if_neg hname.down] at hfile
  have hin : name ∈ fs.namesIn loc := by
    rw [entryAt?_of_ne_nil _ (by simp)] at hfile
    exact List.mem_filterMap.2 ⟨_, mem_of_find hfile, nameIn?_eq_some.2 rfl⟩
  rw [snapshots_of_entryAt hdir, List.mem_mergeSort]
  exact List.mem_filterMap.2 ⟨name, hin, hentry⟩

/-- What is listed is a file in the directory. -/
theorem exists_of_mem_snapshots {s : SnapshotEntry} (h : s ∈ fs.snapshots directory) :
    ∃ name bytes time, Text.hasBack name ".json" = true ∧
      fs.at? (directory.child name) = some (.file bytes time) ∧
      s = ⟨(directory.child name).text, name, time, bytes.size⟩ := by
  rw [snapshots] at h
  split at h
  · next loc hdir =>
      obtain ⟨name, -, hentry⟩ := List.mem_filterMap.1 (List.mem_mergeSort.1 h)
      rw [snapshotNamed?] at hentry
      split at hentry
      · next bytes time hat =>
          split at hentry
          · next hending => exact ⟨name, bytes, time, hending, hat, (Option.some.inj hentry).symm⟩
          · exact absurd hentry (by simp)
      · exact absurd hentry (by simp)
  · exact absurd h List.not_mem_nil

/-- A file that can be created was not listed. -/
theorem path_ne_of_create {name : String} {bytes : ByteArray}
    (h : fs.create (directory.child name) bytes = .ok fs') :
    ∀ s ∈ fs.snapshots directory, s.path ≠ (directory.child name).text := by
  intro s hs hpath
  obtain ⟨l, hloc, habsent, -⟩ := create_eq_ok h
  obtain ⟨other, bytes', time, -, hat, rfl⟩ := exists_of_mem_snapshots hs
  obtain rfl := FilePath.text_child_injective hpath
  obtain ⟨l', hloc', hfile⟩ := at?_eq_some.1 hat
  obtain rfl := Except.ok.inj (hloc.symm.trans hloc')
  rw [habsent] at hfile
  exact absurd hfile (by simp)

/-- What a listing says of a name in a directory. -/
theorem snapshotNamed?_of_at? {name : String} (h : ∀ bytes time,
    fs'.at? (directory.child name) = some (.file bytes time) ↔
      fs.at? (directory.child name) = some (.file bytes time)) :
    fs'.snapshotNamed? directory name = fs.snapshotNamed? directory name := by
  rw [snapshotNamed?, snapshotNamed?]
  split
  · next bytes time hat => rw [(h bytes time).1 hat]
  · next hnot =>
      split
      · next bytes time hat => exact absurd ((h bytes time).2 hat) (hnot bytes time)
      · rfl

/-- A name that leads to no file is not listed. -/
theorem snapshotNamed?_eq_none {name : String}
    (h : ∀ bytes time, fs.at? (directory.child name) ≠ some (.file bytes time)) :
    fs.snapshotNamed? directory name = none := by
  rw [snapshotNamed?]
  split
  · next bytes time hat => exact absurd hat (h bytes time)
  · rfl

/-- A directory at a location is not a snapshot's file, whatever its name is. -/
theorem Sound.snapshotNamed?_eq_none (h : fs.Sound) {loc : Location}
    (hdir : fs.entryAt directory = .ok (loc, some .directory)) {name : String}
    (hname : ∀ bytes time, fs.entryAt? (loc ++ [name]) ≠ some (.file bytes time)) :
    fs.snapshotNamed? directory name = none := by
  refine FileSystem.snapshotNamed?_eq_none fun bytes time hat => ?_
  obtain ⟨hloc, hentry⟩ := entryAt_eq_ok.1 hdir
  obtain ⟨l, hl, hfile⟩ := at?_eq_some.1 hat
  rw [locate_child hloc hentry] at hl
  obtain rfl := Except.ok.inj hl
  rw [goTo] at hfile
  split at hfile
  · rw [h.parent _ _ hentry] at hfile
    exact absurd (Option.some.inj hfile) (by simp)
  · exact hname bytes time hfile

/-- More directories do not change the listing of a directory that is there. -/
theorem Gains.snapshots_of_directory (h : fs.Gains fs') (hsound : fs.Sound) {loc : Location}
    (hdir : fs.entryAt directory = .ok (loc, some .directory)) :
    fs'.snapshots directory = fs.snapshots directory := by
  have hdir' := h.keeps.entryAt_directory hdir
  obtain ⟨hloc, hentry⟩ := entryAt_eq_ok.1 hdir
  have hsame : ∀ name, fs'.snapshotNamed? directory name = fs.snapshotNamed? directory name := by
    intro name
    refine snapshotNamed?_of_at? fun bytes time => ?_
    rw [at?_eq_some, at?_eq_some, locate_child hloc hentry,
      locate_child (h.keeps.locate hloc) (h.keeps.directory loc hentry)]
    simp only [h.file_iff]
  rw [snapshots_of_entryAt hdir, snapshots_of_entryAt hdir', funext hsame]
  obtain ⟨ds, hds, rfl⟩ := h
  rw [namesIn, namesIn, List.filterMap_append, List.filterMap_append]
  have hnew : (((ds.map fun d => (d, Entry.directory)).filterMap fun m =>
      nameIn? loc m.1).filterMap (fs.snapshotNamed? directory)) = [] := by
    refine List.filterMap_eq_nil_iff.2 fun name hname => ?_
    obtain ⟨m, hm, hin⟩ := List.mem_filterMap.1 hname
    obtain ⟨d, hd, rfl⟩ := List.mem_map.1 hm
    obtain rfl := nameIn?_eq_some.1 hin
    exact hsound.snapshotNamed?_eq_none hdir (by simp [hds _ hd])
  rw [hnew, List.append_nil]

/-- More directories do not change the listing of an anchored directory. -/
theorem Gains.snapshots (h : fs.Gains fs') (hsound : fs.Sound) (hsound' : fs'.Sound)
    (hdirectory : fs.Anchored directory) :
    fs'.snapshots directory = fs.snapshots directory := by
  by_cases hdir : ∃ loc, fs.entryAt directory = .ok (loc, some .directory)
  · obtain ⟨loc, hdir⟩ := hdir
    exact h.snapshots_of_directory hsound hdir
  · rw [snapshots_of_not_directory (not_exists.1 hdir)]
    by_cases hdir' : ∃ loc, fs'.entryAt directory = .ok (loc, some .directory)
    · -- the directory is new, so what stands in it are directories
      obtain ⟨loc, hdir'⟩ := hdir'
      obtain ⟨hloc', -⟩ := entryAt_eq_ok.1 hdir'
      have hnone : (fs'.namesIn loc).filterMap (fs'.snapshotNamed? directory) = [] := by
        refine List.filterMap_eq_nil_iff.2 fun name _ => ?_
        refine hsound'.snapshotNamed?_eq_none hdir' fun bytes time hfile => hdir ⟨loc, ?_⟩
        rw [h.file_iff] at hfile
        have hentry := hsound.above (List.cons_ne_nil name []) hfile
        exact entryAt_eq_ok.2 ⟨h.locate hsound hdirectory hloc' hentry, hentry⟩
      rw [snapshots_of_entryAt hdir', hnone, List.mergeSort_nil]
    · rw [snapshots_of_not_directory (not_exists.1 hdir')]

end FileSystem

/-! ### In memory -/

namespace MemorySnapshots

variable {m : MemorySnapshots}

/-- References have numbers that were given before. -/
def Numbered (m : MemorySnapshots) : Prop :=
  ∀ item ∈ m.items, ∃ front timestamp n, n < m.next ∧ item.1 = reference front timestamp n

/-- The number of a reference stands behind its last mark. -/
theorem reference_number {front timestamp front' timestamp' : String} {n n' : ℕ}
    (h : reference front timestamp n = reference front' timestamp' n') : n = n' := by
  have hmarked : ∀ front timestamp n, (reference front timestamp n).toList =
      ("memory://" ++ snapshotName front timestamp).toList ++ '#' :: natDigits n := by
    intro front timestamp n
    unfold reference
    rw [natText, String.toList_append, String.toList_append, List.append_assoc]
    exact congrArg (_ ++ '#' :: ·) String.toList_ofList
  have hlists := congrArg String.toList h
  rw [hmarked, hmarked] at hlists
  exact (Json.natDigits_behind (by decide) (by decide) hlists).2.2

theorem Numbered.save (h : m.Numbered) (front timestamp : String) (doc : Json) :
    (m.save front timestamp doc).2.Numbered := by
  intro item hitem
  rcases List.mem_append.1 hitem with hitem | hitem
  · obtain ⟨f, t, n, hn, heq⟩ := h item hitem
    exact ⟨f, t, n, Nat.lt_succ_of_lt hn, heq⟩
  · obtain rfl := List.mem_singleton.1 hitem
    exact ⟨front, timestamp, m.next, Nat.lt_succ_self _, rfl⟩

/-- No snapshot has the reference that is given next. -/
theorem Numbered.ne_next (h : m.Numbered) (front timestamp : String) :
    ∀ item ∈ m.items, item.1 ≠ reference front timestamp m.next := by
  intro item hitem heq
  obtain ⟨f, t, n, hn, href⟩ := h item hitem
  have hnumber := reference_number (href.symm.trans heq)
  omega

/-- A snapshot that was just added is loaded. -/
theorem Numbered.load?_save (h : m.Numbered) (front timestamp : String) (doc : Json) :
    (m.save front timestamp doc).2.load? (reference front timestamp m.next) = some doc := by
  have hnone : m.items.lookup (reference front timestamp m.next) = none := by
    refine List.lookup_eq_none_iff.2 fun item hitem => ?_
    exact bne_iff_ne.2 (Ne.symm (h.ne_next front timestamp item hitem))
  rw [MemorySnapshots.load?, MemorySnapshots.save, List.lookup_append, hnone, Option.none_or,
    List.lookup_cons_self]

/-- A snapshot that was just added is listed before the others. -/
theorem list_save (m : MemorySnapshots) (front timestamp : String) (doc : Json) :
    (m.save front timestamp doc).2.list =
      entryOf m.items.length (reference front timestamp m.next, doc) :: m.list := by
  rw [list, save, List.zipIdx_append, List.map_append, List.reverse_append, Nat.zero_add]
  rfl

/-- Removing a snapshot that was just added brings back the others. -/
theorem discard_save (h : m.Numbered) (front timestamp : String) (doc : Json) :
    ((m.save front timestamp doc).2.discard (reference front timestamp m.next)).2 =
      { m with next := m.next + 1 } := by
  have hkeep : (m.items ++ [(reference front timestamp m.next, doc)]).filter
      (fun item => !([reference front timestamp m.next].contains item.1)) = m.items := by
    rw [List.filter_append, List.filter_cons_of_neg (by simp), List.filter_nil, List.append_nil]
    refine List.filter_eq_self.2 fun item hitem => ?_
    simp [h.ne_next front timestamp item hitem]
  rw [discard, save]
  dsimp only
  rw [if_pos (by simp), without]
  dsimp only
  rw [hkeep]

end MemorySnapshots

end DesignRegistry
