/-
**In which order snapshots are listed.**

A listing has the newest snapshot first, by the time of its file, and the later name first among files of
one time.  The time of files does not go back, so that the listing is the reverse of the order in which
snapshots were saved as far as the times tell.  Where they do not, it is so exactly if the names do: each
snapshot must have a later name than those of its time before it.

Names tell as long as they have one front and their stamps get later.  They do not once two snapshots of
one time have one stamp: the name with a number comes before the one without, and so the listing has them
in the order in which they were saved.

Main definitions:

* `Saving`, `Saving.run` — a document that is saved at an instant;
* `Saving.lines` — the lines of a listing for documents that are saved in turn;
* `Workspace.Lists` — what a directory lists, and the names that are taken there.

Main results:

* `FileSystem.Shows.create`, `Workspace.Lists.save`, `Saving.lists_inTurn` — one file, one snapshot, and
  many of them;
* `snapshots_eq_reverse_iff` — when lines are listed in reverse;
* `saves_newest_first_iff` — **when the listing is the reverse of the order of saving**;
* `pairwise_lines_of_stamps` — it is while stamps get later;
* `not_pairwise_lines_of_collision`, `saves_out_of_order` — **it is not once two stamps of one time are
  the same**.
-/
import DesignRegistry.Proofs.Storage.SnapshotName
import DesignRegistry.Proofs.Workspace.Instant
import DesignRegistry.Proofs.Workspace.Stores

set_option relaxedAutoImplicit false
set_option autoImplicit false

namespace DesignRegistry

/-! ### What is saved -/

/-- A document that is saved at an instant. -/
structure Saving where
  /-- The front of the snapshot's name. -/
  front : String
  /-- The document. -/
  doc : Json
  /-- When it is saved. -/
  time : Instant

namespace Saving

/-- Saves a document when its time comes. -/
def run (s : Saving) : Action String := fun w => Action.saveSnapshot s.front s.doc (s.time.enter w)

/-- The stamp in the snapshot's name. -/
def stamp (s : Saving) : String := filenameStamp s.time.clock.now.timestamp

/-- The snapshot's name without its ending and without a number. -/
def stem (s : Saving) : String := snapshotStem s.front s.time.clock.now.timestamp

/-- The line of a listing for a snapshot with a number. -/
def line (s : Saving) (directory : FilePath) (n : ℕ) : SnapshotEntry :=
  ⟨(directory.child (snapshotCandidate s.stem n)).text, snapshotCandidate s.stem n, s.time.now,
    s.doc.pretty.toUTF8.size⟩

/-- The lines of documents that are saved in turn, given the stems of the names that are taken before:
the number of each is how many names have its stem by then. -/
def lines (directory : FilePath) : List String → List Saving → List SnapshotEntry
  | _, [] => []
  | taken, s :: saves =>
    s.line directory (taken.count s.stem) :: lines directory (s.stem :: taken) saves

theorem stamped_stem (s : Saving) : Stamped s.stem := stamped_snapshotStem _ _

end Saving

/-! ### What is listed -/

/-- The lines that a directory lists, in no order, and the names that are taken in it: those with the
first numbers of each stem. -/
structure FileSystem.Shows (fs : FileSystem) (directory : FilePath) (taken : List String)
    (lines : List SnapshotEntry) : Prop where
  listing : (fs.snapshots directory).Perm lines
  names : ∀ stem n, Stamped stem →
    (fs.pathExists (directory.child (snapshotCandidate stem n)) = true ↔ n < taken.count stem)

namespace FileSystem

variable {fs fs' : FileSystem} {directory : FilePath} {taken : List String}
  {lines : List SnapshotEntry}

/-- A new file in a directory takes one name. -/
theorem pathExists_create {loc : Location} {name : String} {bytes : ByteArray}
    (hdir : fs.entryAt directory = .ok (loc, some .directory)) (hname : name ≠ "..")
    (h : fs.create (directory.child name) bytes = .ok fs') (other : String) :
    fs'.pathExists (directory.child other) = true ↔
      fs.pathExists (directory.child other) = true ∨ other = name := by
  have hdir' := (keeps_create h).entryAt_directory hdir
  by_cases hother : other = name
  · rw [hother, pathExists, at?_of_create h]
    exact iff_of_true rfl (.inr rfl)
  · obtain ⟨hloc, hentry⟩ := entryAt_eq_ok.1 hdir
    obtain ⟨l, hl, -, rfl⟩ := create_eq_ok h
    rw [locate_child hloc hentry, goTo, if_neg hname] at hl
    obtain rfl := Except.ok.inj hl
    rw [pathExists, pathExists, at?_child hdir, at?_child hdir',
      entryAt?_withEntry_of_ne fs (goTo_ne hother)]
    simp [hother]

/-- **One file**: a snapshot gets the number of names that have its stem. -/
theorem Shows.create (h : fs.Shows directory taken lines) {loc : Location}
    (hdir : fs.entryAt directory = .ok (loc, some .directory)) {stem : String}
    (hstem : '/' ∉ stem.toList) (hstamped : Stamped stem) (bytes : ByteArray) :
    ∃ fs', fs.freePath directory stem =
        directory.child (snapshotCandidate stem (taken.count stem)) ∧
      fs.create (directory.child (snapshotCandidate stem (taken.count stem))) bytes = .ok fs' ∧
      fs'.Shows directory (stem :: taken)
        (⟨(directory.child (snapshotCandidate stem (taken.count stem))).text,
          snapshotCandidate stem (taken.count stem), fs.now, bytes.size⟩ :: lines) := by
  obtain ⟨n, hpath, hfree, htaken⟩ := freePath_free hdir hstem
  have hcount : n = taken.count stem := by
    have hupper : ¬ n < taken.count stem := by
      rw [← h.names stem n hstamped, hfree]
      exact Bool.false_ne_true
    have hlower : ¬ taken.count stem < n := fun hlt =>
      absurd ((h.names stem _ hstamped).1 (htaken _ hlt)) (Nat.lt_irrefl _)
    omega
  rw [← hcount]
  obtain ⟨fs', hcreate⟩ := create_eq_ok_of_free bytes hdir hfree
  have hname := snapshotName_candidate hstem n
  refine ⟨fs', hpath, hcreate, (perm_snapshots_create hname hcreate).trans (h.listing.cons _), ?_⟩
  intro other m hother
  rw [pathExists_create hdir hname.down hcreate, h.names other m hother,
    snapshotCandidate_inj hother hstamped]
  by_cases hsame : other = stem
  · rw [hsame, List.count_cons_self, ← hcount]
    simp only [true_and]
    omega
  · rw [List.count_cons_of_ne (Ne.symm hsame)]
    simp [hsame]

end FileSystem

/-- What a directory lists, and the names that are taken there; it is there, or can be made. -/
structure Workspace.Lists (w : Workspace) (directory : FilePath) (taken : List String)
    (lines : List SnapshotEntry) : Prop where
  sound : w.Sound
  store : w.store = .directory directory
  room : ∃ made, w.files.makeDirectories directory = .ok made ∧ made.Shows directory taken lines
  listing : (w.files.snapshots directory).Perm lines

namespace Workspace.Lists

variable {w : Workspace} {directory : FilePath} {taken : List String} {lines : List SnapshotEntry}

/-- A directory without names of snapshots lists nothing. -/
theorem nil (hw : w.Sound) (hstore : w.store = .directory directory)
    (hroom : ∃ made, w.files.makeDirectories directory = .ok made ∧
      ∀ name, Text.hasBack name ".json" = true → made.pathExists (directory.child name) = false) :
    w.Lists directory [] [] := by
  obtain ⟨made, hmake, hnone⟩ := hroom
  have hempty : made.snapshots directory = [] := by
    refine List.eq_nil_iff_forall_not_mem.2 fun s hs => ?_
    obtain ⟨name, bytes, time, hending, hat, -⟩ := FileSystem.exists_of_mem_snapshots hs
    have hname := hnone name hending
    rw [FileSystem.pathExists, hat] at hname
    exact absurd hname (by simp)
  have hshelf := FileSystem.shelves_nil hw.files (hw.directory directory hstore) hmake hempty
  refine ⟨hw, hstore, ⟨made, hmake, ?_, fun stem n _ => ?_⟩, ?_⟩
  · rw [hempty]
  · rw [hnone _ (ending_snapshotCandidate stem n)]
    simp
  · rw [List.map_eq_nil_iff.1 hshelf.listed]

/-- Time that passes changes nothing. -/
theorem enter (h : w.Lists directory taken lines) (i : Instant) :
    (i.enter w).Lists directory taken lines where
  sound := i.sound_enter h.sound
  store := h.store
  room := by
    obtain ⟨made, hmake, hshows⟩ := h.room
    refine ⟨made.atTime i.now, ?_, ?_, fun stem n hstem => ?_⟩
    · rw [Instant.files_enter, FileSystem.makeDirectories_atTime, hmake]
      rfl
    · rw [FileSystem.snapshots_atTime]
      exact hshows.listing
    · rw [FileSystem.pathExists, FileSystem.at?_atTime]
      exact hshows.names stem n hstem
  listing := by
    rw [Instant.files_enter, FileSystem.snapshots_atTime]
    exact h.listing

/-- **One snapshot** has one more line. -/
theorem save (h : w.Lists directory taken lines) {s : Saving} (hfront : Nameable s.front) :
    ∃ w', s.run w = (.ok (s.line directory (taken.count s.stem)).path, w') ∧
      w'.Lists directory (s.stem :: taken) (s.line directory (taken.count s.stem) :: lines) := by
  have h := h.enter s.time
  obtain ⟨made, hmake, hshows⟩ := h.room
  obtain ⟨loc, hdir⟩ :=
    FileSystem.isDirectory_iff.1 (FileSystem.isDirectory_of_makeDirectories hmake)
  obtain ⟨fs, hpath, hcreate, hshows'⟩ := hshows.create hdir
    (slash_notMem_stem hfront.uncut s.time.clock.now) s.stamped_stem s.doc.pretty.toUTF8
  have hnow : made.now = s.time.now := by
    obtain ⟨ds, -, rfl⟩ := FileSystem.gains_makeDirectories hmake
    rfl
  rw [hnow] at hshows'
  have hadd : made.addSnapshot directory s.front s.time.clock.now.timestamp s.doc =
      .ok (directory.child (snapshotCandidate s.stem (taken.count s.stem)), fs) := by
    unfold FileSystem.addSnapshot
    simp only [hpath, hcreate]
    rfl
  have hrun : s.run w = (.ok (s.line directory (taken.count s.stem)).path,
      { s.time.enter w with clock := s.time.clock.read.2, files := fs }) := by
    simp only [Saving.run, Action.saveSnapshot, h.store, hmake]
    rw [show (s.time.enter w).clock.read = (s.time.clock.now, s.time.clock.read.2) from rfl]
    simp only [hadd]
    rfl
  have hthere := FileSystem.isDirectory_iff.2
    ⟨loc, (FileSystem.keeps_create hcreate).entryAt_directory hdir⟩
  refine ⟨_, hrun, ?_, h.store,
    ⟨fs, FileSystem.makeDirectories_of_isDirectory hthere, hshows'⟩, hshows'.listing⟩
  exact ((Action.alters_saveSnapshot s.front s.doc).keeps h.sound hrun).sound

end Workspace.Lists

/-- **Many snapshots**, by induction on them: each has a line of its own. -/
theorem Saving.lists_inTurn {saves : List Saving} {w : Workspace} {directory : FilePath}
    {taken : List String} {before : List SnapshotEntry} (h : w.Lists directory taken before)
    (hfronts : ∀ s ∈ saves, Nameable s.front) :
    ∃ taken' w', Action.inTurn Saving.run saves w =
        (.ok ((lines directory taken saves).map SnapshotEntry.path), w') ∧
      w'.Lists directory taken' ((lines directory taken saves).reverse ++ before) := by
  induction saves generalizing w taken before with
  | nil => exact ⟨taken, w, rfl, h⟩
  | cons s saves ih =>
      rw [List.forall_mem_cons] at hfronts
      obtain ⟨w₁, hrun, h₁⟩ := h.save hfronts.1
      obtain ⟨taken', w', hrest, h'⟩ := ih h₁ hfronts.2
      refine ⟨taken', w', ?_, ?_⟩
      · rw [Action.inTurn, Action.bind_of_ok hrun, Action.bind_of_ok hrest]
        rfl
      · rwa [lines, List.reverse_cons, List.append_assoc]

/-! ### Order -/

/-- Lines that come at times that do not go back are listed in reverse exactly if none has an earlier name
than one of its time before it. -/
theorem snapshots_eq_reverse_iff {fs : FileSystem} {directory : FilePath} {saved : List SnapshotEntry}
    (hlines : (fs.snapshots directory).Perm saved.reverse)
    (htimes : saved.Pairwise fun a b => a.created ≤ b.created) :
    fs.snapshots directory = saved.reverse ↔
      saved.Pairwise fun a b => a.created = b.created → a.filename ≤ b.filename := by
  have hkeys : saved.reverse.Pairwise (fun a b => b.key ≤ a.key) ↔
      saved.Pairwise fun a b => a.created = b.created → a.filename ≤ b.filename := by
    rw [List.pairwise_reverse]
    constructor
    · intro h
      refine h.imp fun {a b} hab hsame => ?_
      exact ((Prod.Lex.toLex_le_toLex.1 hab).resolve_left fun hlt => absurd hsame (ne_of_lt hlt)).2
    · intro h
      refine (htimes.and h).imp fun {a b} hab => Prod.Lex.toLex_le_toLex.2 ?_
      exact (lt_or_eq_of_le hab.1).imp_right fun hsame => ⟨hsame, hab.2 hsame⟩
  constructor
  · intro h
    rw [← hkeys, ← h]
    exact FileSystem.pairwise_snapshots fs directory
  · intro h
    exact FileSystem.snapshots_eq_of_perm hlines.symm (hkeys.2 h)

namespace Saving

variable {directory : FilePath} {taken : List String} {saves : List Saving}

/-- What holds of two documents holds of their lines. -/
theorem pairwise_lines {R : Saving → Saving → Prop} {S : SnapshotEntry → SnapshotEntry → Prop}
    (hlines : ∀ s t m n, R s t → S (s.line directory m) (t.line directory n))
    (h : saves.Pairwise R) : (lines directory taken saves).Pairwise S := by
  have hmem : ∀ {taken : List String} {saves : List Saving}, ∀ e ∈ lines directory taken saves,
      ∃ s ∈ saves, ∃ n, e = s.line directory n := by
    intro taken saves
    induction saves generalizing taken with
    | nil => exact fun e he => absurd he List.not_mem_nil
    | cons s saves ih =>
        refine List.forall_mem_cons.2 ⟨⟨s, List.mem_cons_self, _, rfl⟩, fun e he => ?_⟩
        obtain ⟨t, ht, hline⟩ := ih e he
        exact ⟨t, List.mem_cons_of_mem s ht, hline⟩
  induction saves generalizing taken with
  | nil => exact List.Pairwise.nil
  | cons s saves ih =>
      rw [List.pairwise_cons] at h
      refine List.pairwise_cons.2 ⟨fun e he => ?_, ih h.2⟩
      obtain ⟨t, ht, n, rfl⟩ := hmem e he
      exact hlines s t _ n (h.1 t ht)

/-- Names get later as long as they have one front and their stamps get later. -/
theorem pairwise_lines_of_stamps
    (h : saves.Pairwise fun s t => s.time.now = t.time.now →
      s.front = t.front ∧ s.stamp.length = t.stamp.length ∧ s.stamp < t.stamp) :
    (lines directory taken saves).Pairwise fun a b => a.created = b.created → a.filename ≤ b.filename :=
  pairwise_lines (fun s t m n hst hsame => by
    obtain ⟨hfront, hlength, hstamp⟩ := hst hsame
    rw [line, line, stem, stem, ← hfront]
    exact le_of_lt (snapshotCandidate_lt_of_stamp hlength hstamp m n)) h

/-- A later snapshot with a stem that is taken gets a number. -/
theorem exists_succ_mem_lines {middle back : List Saving} {t : Saving} (h : 0 < taken.count t.stem) :
    ∃ n, t.line directory (n + 1) ∈ lines directory taken (middle ++ t :: back) := by
  induction middle generalizing taken with
  | nil =>
      obtain ⟨n, hn⟩ := Nat.exists_eq_succ_of_ne_zero (Nat.ne_of_gt h)
      refine ⟨n, ?_⟩
      rw [List.nil_append, lines, hn]
      exact List.mem_cons_self
  | cons s middle ih =>
      have hcount : 0 < (s.stem :: taken).count t.stem :=
        Nat.lt_of_lt_of_le h List.count_le_count_cons
      obtain ⟨n, hn⟩ := ih hcount
      exact ⟨n, List.mem_cons_of_mem _ hn⟩

/-- The first snapshot of a stem has a later name than the others with that stem. -/
theorem not_pairwise_lines_of_collision {front middle back : List Saving} {s t : Saving}
    (hfirst : taken.count s.stem = 0) (hfront : ∀ r ∈ front, r.stem ≠ s.stem)
    (hstem : t.stem = s.stem) (htime : s.time.now = t.time.now) :
    ¬ (lines directory taken (front ++ s :: (middle ++ t :: back))).Pairwise
      fun a b => a.created = b.created → a.filename ≤ b.filename := by
  induction front generalizing taken with
  | nil =>
      intro h
      rw [List.nil_append, lines, hfirst] at h
      have hcount : 0 < (s.stem :: taken).count t.stem := by
        rw [hstem, List.count_cons_self]
        exact Nat.succ_pos _
      obtain ⟨n, hn⟩ : ∃ n, t.line directory (n + 1) ∈
          lines directory (s.stem :: taken) (middle ++ t :: back) := exists_succ_mem_lines hcount
      have hle := (List.pairwise_cons.1 h).1 _ hn htime
      refine absurd hle (not_le_of_gt ?_)
      rw [line, line, hstem]
      exact snapshotCandidate_succ_lt_zero s.stem n
  | cons r front ih =>
      rw [List.forall_mem_cons] at hfront
      intro h
      refine ih ?_ hfront.2 (List.pairwise_cons.1 h).2
      rwa [List.count_cons_of_ne hfront.1]

end Saving

/-! ### Newest first -/

/-- **When the listing is the reverse of the order of saving.**  Let documents be saved in a directory in
which nothing has the ending of a snapshot's name yet, with any fronts, whatever the clock shows each time,
and with times of files that do not go back.  All of them are saved and listed.  They are listed in reverse
exactly if no snapshot has an earlier name than one of its time before it; so it is as long as those of one
time have one front and later and later stamps, but not once a second one has the stem of the first of its
kind at the same time. -/
theorem saves_newest_first_iff (saves : List Saving) (w : Workspace) (directory : FilePath)
    (hw : w.Sound) (hstore : w.store = .directory directory)
    (hroom : ∃ made, w.files.makeDirectories directory = .ok made ∧
      ∀ name, Text.hasBack name ".json" = true → made.pathExists (directory.child name) = false)
    (hfronts : ∀ s ∈ saves, Nameable s.front)
    (htimes : saves.Pairwise fun s t => s.time.now ≤ t.time.now) :
    ∃ w' listing, Action.inTurn Saving.run saves w =
        (.ok ((Saving.lines directory [] saves).map SnapshotEntry.path), w') ∧
      (Action.listSnapshots w').1 = .ok listing ∧
      listing.Perm (Saving.lines directory [] saves) ∧
      (listing = (Saving.lines directory [] saves).reverse ↔
        (Saving.lines directory [] saves).Pairwise
          fun a b => a.created = b.created → a.filename ≤ b.filename) ∧
      ((saves.Pairwise fun s t => s.time.now = t.time.now →
          s.front = t.front ∧ s.stamp.length = t.stamp.length ∧ s.stamp < t.stamp) →
        listing = (Saving.lines directory [] saves).reverse) ∧
      ∀ front middle back s t, saves = front ++ s :: (middle ++ t :: back) → t.stem = s.stem →
        s.time.now = t.time.now → (∀ r ∈ front, r.stem ≠ s.stem) →
        listing ≠ (Saving.lines directory [] saves).reverse := by
  obtain ⟨taken, w', hrun, hlists⟩ :=
    Saving.lists_inTurn (Workspace.Lists.nil hw hstore hroom) hfronts
  rw [List.append_nil] at hlists
  have hcreated : (Saving.lines directory [] saves).Pairwise fun a b => a.created ≤ b.created :=
    Saving.pairwise_lines (fun _ _ _ _ hst => hst) htimes
  have hiff := snapshots_eq_reverse_iff hlists.listing hcreated
  refine ⟨w', w'.files.snapshots directory, hrun, ?_, ?_, hiff, ?_, ?_⟩
  · simp only [Action.listSnapshots, hlists.store]
  · exact hlists.listing.trans (List.reverse_perm _)
  · exact fun hstamps => hiff.2 (Saving.pairwise_lines_of_stamps hstamps)
  · rintro front middle back s t rfl hstem htime hfront heq
    exact Saving.not_pairwise_lines_of_collision List.count_nil hfront hstem htime (hiff.1 heq)

/-- Two documents that are saved in one millisecond, with files of one time. -/
def pairSaves : List Saving :=
  [⟨"dcp", .int 1, ⟨⟨0⟩, 0⟩, 7⟩, ⟨"dcp", .int 2, ⟨⟨0⟩, 0⟩, 7⟩]

/-- Nothing is in the directory that is made there. -/
theorem vacant_freshWorkspace : ∃ made,
    freshWorkspace.files.makeDirectories ⟨"", ["backups"]⟩ = .ok made ∧
      ∀ name, Text.hasBack name ".json" = true →
        made.pathExists ((⟨"", ["backups"]⟩ : FilePath).child name) = false := by
  refine ⟨_, rfl, fun name hname => ?_⟩
  have hdown : name ≠ ".." := by
    rintro rfl
    exact absurd hname (by decide)
  rw [FileSystem.pathExists, FileSystem.at?_child (l := ["home", "backups"]) rfl, FileSystem.goTo,
    if_neg hdown, Option.isSome_eq_false_iff, Option.isNone_iff_eq_none]
  by_contra hsome
  obtain ⟨e, he⟩ := Option.ne_none_iff_exists'.1 hsome
  rw [FileSystem.entryAt?_of_ne_nil _ (by simp)] at he
  have hmem : (["home", "backups"] ++ [name], e) ∈
      [(["home"], Entry.directory), (["home", "backups"], Entry.directory)] :=
    FileSystem.mem_of_find he
  exact absurd hmem (by simp)

theorem nameable_pairSaves : ∀ s ∈ pairSaves, Nameable s.front :=
  List.forall_mem_cons.2 ⟨⟨by decide, by decide⟩, List.forall_mem_cons.2
    ⟨⟨by decide, by decide⟩, List.forall_mem_nil _⟩⟩

theorem times_pairSaves : pairSaves.Pairwise fun s t =>
    s.time.clock.now.micros ≤ t.time.clock.now.micros ∧ s.time.now ≤ t.time.now :=
  List.pairwise_cons.2 ⟨List.forall_mem_cons.2 ⟨⟨by decide, by decide⟩, List.forall_mem_nil _⟩,
    List.pairwise_singleton _ _⟩

theorem saves_newest_first_iff_pair :
    ∃ w' listing, Action.inTurn Saving.run pairSaves freshWorkspace =
        (.ok ((Saving.lines ⟨"", ["backups"]⟩ [] pairSaves).map SnapshotEntry.path), w') ∧
      (Action.listSnapshots w').1 = .ok listing ∧
      listing ≠ (Saving.lines ⟨"", ["backups"]⟩ [] pairSaves).reverse := by
  obtain ⟨w', listing, hrun, hlist, -, -, -, hcollision⟩ :=
    saves_newest_first_iff pairSaves freshWorkspace ⟨"", ["backups"]⟩ sound_freshWorkspace rfl
      vacant_freshWorkspace nameable_pairSaves (times_pairSaves.imp fun h => h.2)
  exact ⟨w', listing, hrun, hlist, hcollision [] [] [] _ _ rfl rfl rfl (List.forall_mem_nil _)⟩

/-- Clock and times do not go back, and yet the two snapshots are listed in the order of saving. -/
theorem saves_out_of_order :
    (pairSaves.Pairwise fun s t =>
      s.time.clock.now.micros ≤ t.time.clock.now.micros ∧ s.time.now ≤ t.time.now) ∧
    ∃ refs w' listing, Action.inTurn Saving.run pairSaves freshWorkspace = (.ok refs, w') ∧
      (Action.listSnapshots w').1 = .ok listing ∧ listing.map SnapshotEntry.path = refs ∧
      refs = ["backups/dcp-backup-1970-01-01T00-00-00-000Z.json",
        "backups/dcp-backup-1970-01-01T00-00-00-000Z-1.json"] := by
  refine ⟨times_pairSaves, ?_⟩
  obtain ⟨taken, w', hrun, hlists⟩ := Saving.lists_inTurn
    (Workspace.Lists.nil sound_freshWorkspace rfl vacant_freshWorkspace) nameable_pairSaves
  rw [List.append_nil] at hlists
  have hsorted : (Saving.lines ⟨"", ["backups"]⟩ [] pairSaves).Pairwise fun a b => b.key ≤ a.key := by
    refine List.pairwise_cons.2 ⟨List.forall_mem_cons.2 ⟨?_, List.forall_mem_nil _⟩,
      List.pairwise_singleton _ _⟩
    exact Prod.Lex.toLex_le_toLex.2 (.inr ⟨rfl, le_of_lt (snapshotCandidate_succ_lt_zero _ 0)⟩)
  have hlisting := FileSystem.snapshots_eq_of_perm
    ((List.reverse_perm _).symm.trans hlists.listing.symm) hsorted
  refine ⟨_, w', w'.files.snapshots ⟨"", ["backups"]⟩, hrun, ?_, by rw [hlisting], by decide⟩
  simp only [Action.listSnapshots, hlists.store]

end DesignRegistry
