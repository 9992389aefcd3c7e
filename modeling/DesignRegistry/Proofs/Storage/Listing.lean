/-
**Listings of directories.**

A listing is determined by the files in the directory: it is in order, the newest first and the later
name first among those of one time, and no two of its lines have one name and differ.  So it is enough to
know which lines come and go: a new snapshot adds its line where the order wants it, and a removal takes
the lines of its name away.

Main definitions:

* `SnapshotEntry.key` — what lines are ordered by.

Main results:

* `FileSystem.snapshots_eq_of_perm` — lines in order are the listing;
* `FileSystem.snapshots_create`, `FileSystem.snapshots_create_newest` — **the listing with a new
  snapshot**;
* `FileSystem.snapshots_removeFile` — **the listing without a file**.
-/
import DesignRegistry.Proofs.Storage.Snapshot
import Mathlib.Data.List.Sort
import Mathlib.Data.Prod.Lex
import Mathlib.Data.String.Basic

set_option relaxedAutoImplicit false
set_option autoImplicit false

namespace DesignRegistry

/-- What the lines of a listing are ordered by: the time, and then the name. -/
def SnapshotEntry.key (s : SnapshotEntry) : Lex (Int × String) := toLex (s.created, s.filename)

namespace FileSystem

variable {fs fs' : FileSystem} {directory : FilePath} {name : String}

/-! ### Order -/

theorem listedBefore_iff (a b : SnapshotEntry) : listedBefore a b = true ↔ b.key ≤ a.key := by
  rw [listedBefore, SnapshotEntry.key, SnapshotEntry.key, Prod.Lex.toLex_le_toLex]
  simp only [Bool.or_eq_true, Bool.and_eq_true, decide_eq_true_eq, beq_iff_eq]
  exact or_congr_right (and_congr_left fun _ => eq_comm)

/-- Listings are in order. -/
theorem pairwise_snapshots (fs : FileSystem) (directory : FilePath) :
    (fs.snapshots directory).Pairwise fun a b => b.key ≤ a.key := by
  rw [snapshots]
  split
  · simp only [← listedBefore_iff]
    refine List.pairwise_mergeSort (fun a b c hab hbc => ?_) (fun a b => ?_) _
    · rw [listedBefore_iff] at hab hbc ⊢
      exact hbc.trans hab
    · rw [Bool.or_eq_true, listedBefore_iff, listedBefore_iff]
      exact le_total b.key a.key
  · exact List.Pairwise.nil

/-- The name of a line tells the line. -/
theorem eq_of_filename {a b : SnapshotEntry} (ha : a ∈ fs.snapshots directory)
    (hb : b ∈ fs.snapshots directory) (h : a.filename = b.filename) : a = b := by
  obtain ⟨name, bytes, time, -, hat, rfl⟩ := exists_of_mem_snapshots ha
  obtain ⟨other, bytes', time', -, hat', rfl⟩ := exists_of_mem_snapshots hb
  obtain rfl : name = other := h
  obtain ⟨rfl, rfl⟩ := Entry.file.inj (Option.some.inj (hat.symm.trans hat'))
  rfl

/-- Lines in order are the listing if they are its lines. -/
theorem snapshots_eq_of_perm {ss : List SnapshotEntry} (h : ss.Perm (fs.snapshots directory))
    (hsorted : ss.Pairwise fun a b => b.key ≤ a.key) : fs.snapshots directory = ss := by
  refine (List.Perm.eq_of_pairwise ?_ hsorted (pairwise_snapshots fs directory) h).symm
  intro a b ha hb hba hab
  have hkey : a.key = b.key := le_antisymm hab hba
  exact eq_of_filename (h.mem_iff.1 ha) hb (congrArg (fun k => (ofLex k).2) hkey)

/-! ### Names in a directory -/

/-- A line of a listing comes from what the name leads to. -/
theorem snapshotNamed?_congr
    (h : fs'.at? (directory.child name) = fs.at? (directory.child name)) :
    fs'.snapshotNamed? directory name = fs.snapshotNamed? directory name := by
  rw [snapshotNamed?, snapshotNamed?, h]

theorem filename_of_snapshotNamed? {s : SnapshotEntry}
    (h : fs.snapshotNamed? directory name = some s) : s.filename = name := by
  rw [snapshotNamed?] at h
  split at h
  · split at h
    · rw [← Option.some.inj h]
    · exact absurd h (by simp)
  · exact absurd h (by simp)

/-- A line is left out exactly under its own name. -/
theorem filter_line (fs : FileSystem) (directory : FilePath) (name other : String) :
    (fs.snapshotNamed? directory other).filter (·.filename != name) =
      if (other != name) = true then fs.snapshotNamed? directory other else none := by
  cases hline : fs.snapshotNamed? directory other with
  | none => exact (ite_self none).symm
  | some s => rw [Option.filter_some, filename_of_snapshotNamed? hline]

/-- A name leads elsewhere than to a location of another name in the directory. -/
theorem goTo_ne {loc : Location} {other : String} (h : other ≠ name) :
    goTo loc other ≠ loc ++ [name] := by
  rw [goTo]
  split
  · intro heq
    have hlength := congrArg List.length heq
    rw [List.length_dropLast, List.length_append, List.length_singleton] at hlength
    omega
  · exact fun heq => h (List.singleton_inj.1 (List.append_cancel_left heq))

/-- The names in a directory come from the locations alone. -/
theorem namesIn_eq (fs : FileSystem) (loc : Location) :
    fs.namesIn loc = (fs.entries.map Prod.fst).filterMap (nameIn? loc) := by
  rw [namesIn, List.filterMap_map]
  rfl

/-- A name that stands for nothing is not in the directory. -/
theorem notMem_namesIn {loc : Location} (h : fs.entryAt? (loc ++ [name]) = none) :
    name ∉ fs.namesIn loc := by
  intro hname
  obtain ⟨⟨l, e⟩, hm, hin⟩ := List.mem_filterMap.1 hname
  obtain rfl := nameIn?_eq_some.1 hin
  have hsome := findAt?_isSome_of_mem hm
  rw [findAt?_of_absent h] at hsome
  exact absurd hsome (by simp)

/-- A new name comes behind the others. -/
theorem namesIn_withEntry {loc : Location} (h : fs.entryAt? (loc ++ [name]) = none) (e : Entry) :
    namesIn (fs.withEntry (loc ++ [name]) e) loc = fs.namesIn loc ++ [name] := by
  have hnew : [(loc ++ [name], e)].filterMap (fun m => nameIn? loc m.1) = [name] :=
    List.filterMap_cons_some (nameIn?_eq_some.2 rfl)
  rw [namesIn, withEntry, putEntry_of_absent (findAt?_of_absent h), List.filterMap_append]
  exact congrArg (fs.namesIn loc ++ ·) hnew

/-- Without its location a name is gone. -/
theorem namesIn_filter (fs : FileSystem) (loc : Location) (name : String) :
    namesIn { fs with entries := fs.entries.filter fun m => m.1 != loc ++ [name] } loc =
      (fs.namesIn loc).filter (· != name) := by
  rw [namesIn, namesIn, List.filterMap_filter, List.filter_filterMap]
  refine List.filterMap_congr fun m _ => ?_
  change (if (m.1 != loc ++ [name]) = true then nameIn? loc m.1 else none) =
    (nameIn? loc m.1).filter (· != name)
  cases hin : nameIn? loc m.1 with
  | none => exact ite_self none
  | some n =>
      have hsame : (m.1 != loc ++ [name]) = (n != name) := by
        rw [nameIn?_eq_some.1 hin, Bool.eq_iff_iff, bne_iff_ne, bne_iff_ne, Ne, Ne,
          List.append_cancel_left_eq, List.singleton_inj]
      rw [hsame]
      rfl

/-! ### A new snapshot -/

/-- The lines of a listing with a new snapshot. -/
theorem perm_snapshots_create {bytes : ByteArray} (hname : SnapshotName name)
    (h : fs.create (directory.child name) bytes = .ok fs') :
    (fs'.snapshots directory).Perm
      (⟨(directory.child name).text, name, fs.now, bytes.size⟩ :: fs.snapshots directory) := by
  have hat := at?_of_create h
  obtain ⟨l, hl, habsent, rfl⟩ := create_eq_ok h
  obtain ⟨loc, hdir, rfl⟩ := locate_of_child hl
  have hdir' := (keeps_create h).entryAt_directory hdir
  rw [goTo, if_neg hname.down] at habsent hat hdir' ⊢
  have hline := snapshotNamed?_of_file hname hat
  have hothers : ∀ other ∈ fs.namesIn loc,
      FileSystem.snapshotNamed? (fs.withEntry (loc ++ [name]) (.file bytes fs.now)) directory other =
        fs.snapshotNamed? directory other := by
    intro other hother
    refine snapshotNamed?_congr ?_
    rw [at?_child hdir, at?_child hdir', entryAt?_withEntry_of_ne]
    refine goTo_ne ?_
    rintro rfl
    exact notMem_namesIn habsent hother
  rw [snapshots_of_entryAt hdir, snapshots_of_entryAt hdir', namesIn_withEntry habsent,
    List.filterMap_append, List.filterMap_congr hothers, List.filterMap_cons_some hline,
    List.filterMap_nil]
  refine (List.mergeSort_perm _ _).trans ((List.perm_append_singleton _ _).trans ?_)
  exact ((List.mergeSort_perm _ _).symm).cons _

/-- **The listing with a new snapshot**: one more line, and the others as they were. -/
theorem snapshots_create {bytes : ByteArray} (hname : SnapshotName name)
    (h : fs.create (directory.child name) bytes = .ok fs') :
    ∃ newer older, fs.snapshots directory = newer ++ older ∧ fs'.snapshots directory =
      newer ++ ⟨(directory.child name).text, name, fs.now, bytes.size⟩ :: older := by
  have hperm := perm_snapshots_create hname h
  obtain ⟨newer, older, hsplit⟩ := List.append_of_mem (hperm.mem_iff.2 List.mem_cons_self)
  refine ⟨newer, older, snapshots_eq_of_perm ?_ ?_, hsplit⟩
  · rw [hsplit] at hperm
    exact (List.perm_middle.symm.trans hperm).cons_inv
  · have hsorted := pairwise_snapshots fs' directory
    rw [hsplit] at hsorted
    exact hsorted.sublist (List.Sublist.append_left (List.sublist_cons_self _ _) _)

/-- A snapshot that is newer than all others comes first. -/
theorem snapshots_create_newest {bytes : ByteArray} (hname : SnapshotName name)
    (h : fs.create (directory.child name) bytes = .ok fs')
    (hnew : ∀ s ∈ fs.snapshots directory, s.created < fs.now) :
    fs'.snapshots directory =
      ⟨(directory.child name).text, name, fs.now, bytes.size⟩ :: fs.snapshots directory := by
  refine snapshots_eq_of_perm (perm_snapshots_create hname h).symm ?_
  refine List.pairwise_cons.2 ⟨fun s hs => ?_, pairwise_snapshots fs directory⟩
  exact Prod.Lex.toLex_le_toLex.2 (.inl (hnew s hs))

/-! ### A removal -/

/-- **The listing without a file**: the line of its name is gone, and the others are as they were. -/
theorem snapshots_removeFile (hname : SnapshotName name)
    (h : fs.removeFile (directory.child name) = .ok fs') :
    fs'.snapshots directory = (fs.snapshots directory).filter fun s => s.filename != name := by
  obtain ⟨l, bytes, time, hl, hfile, rfl⟩ := removeFile_eq_ok h
  obtain ⟨loc, hdir, rfl⟩ := locate_of_child hl
  have hdir' := (keeps_removeFile h).entryAt_directory hdir
  rw [goTo, if_neg hname.down] at hdir' ⊢
  have hnames := fs.namesIn_filter loc name
  generalize hfs' : ({ fs with entries := fs.entries.filter fun m => m.1 != loc ++ [name] } :
    FileSystem) = fs' at hdir' hnames ⊢
  have hlines : (fs'.namesIn loc).filterMap (fs'.snapshotNamed? directory) =
      ((fs.namesIn loc).filterMap (fs.snapshotNamed? directory)).filter (·.filename != name) := by
    rw [hnames, List.filterMap_filter, List.filter_filterMap]
    refine List.filterMap_congr fun other _ => ?_
    rw [filter_line]
    refine ite_congr rfl (fun hother => snapshotNamed?_congr ?_) fun _ => rfl
    rw [at?_child hdir, at?_child hdir', ← hfs',
      entryAt?_filter_of_ne fs (goTo_ne (bne_iff_ne.1 hother))]
  refine snapshots_eq_of_perm ?_ ((pairwise_snapshots fs directory).filter _)
  rw [snapshots_of_entryAt hdir, snapshots_of_entryAt hdir', hlines]
  exact ((List.mergeSort_perm _ _).filter _).trans (List.mergeSort_perm _ _).symm

end FileSystem

end DesignRegistry
