/-
**What changes of a file system leave alone.**

Following a path needs directories only, so a path that leads somewhere leads there still when
directories are added or files change.  In a sound file system everything stands in a directory, and
all changes keep it sound.  Making directories adds directories and nothing else; a path that does
not climb out of a missing directory then leads to the same file as before, or to none as before.

Main definitions:

* `FileSystem.goTo` — the location that a name leads to from a directory;
* `FileSystem.Keeps` — everything stands where it stood, apart from some files;
* `FileSystem.Sound` — everything stands in a directory;
* `FileSystem.Gains` — there are more directories, and nothing else has changed;
* `FileSystem.Anchored` — a path that does not climb out of a missing directory.

Main results:

* `FileSystem.Keeps.locate` — a path that leads somewhere leads there still;
* `FileSystem.Sound.write`, `FileSystem.Sound.create`, `FileSystem.Sound.append`,
  `FileSystem.Sound.removeFile`, `FileSystem.Sound.makeDirectories` — **changes keep a file system
  sound**;
* `FileSystem.gains_makeDirectories` — making directories adds directories only;
* `FileSystem.Gains.at?_file_iff` — **more directories do not change which file an anchored path
  leads to**.
-/
import DesignRegistry.Storage.Document
import Mathlib.Data.List.Induction
import Mathlib.Tactic.Common

set_option relaxedAutoImplicit false
set_option autoImplicit false

namespace DesignRegistry

namespace FileSystem

variable {fs fs' fs'' : FileSystem} {loc other : Location} {e : Entry} {p : FilePath}

/-! ### Entries -/

theorem findAt?_append (loc : Location) (es ds : List (Location × Entry)) :
    findAt? loc (es ++ ds) = (findAt? loc es).or (findAt? loc ds) := by
  induction es with
  | nil => rfl
  | cons m es ih =>
      rw [List.cons_append, findAt?, findAt?, ih]
      split <;> rfl

theorem findAt?_putEntry_self (loc : Location) (e : Entry) (es : List (Location × Entry)) :
    findAt? loc (putEntry loc e es) = some e := by
  induction es with
  | nil => rw [putEntry, findAt?, if_pos rfl]
  | cons m es ih =>
      rw [putEntry]
      split
      · next h => rw [findAt?, if_pos h]
      · next h => rw [findAt?, if_neg h, ih]

theorem findAt?_putEntry_of_ne (h : other ≠ loc) (e : Entry) (es : List (Location × Entry)) :
    findAt? other (putEntry loc e es) = findAt? other es := by
  induction es with
  | nil => exact if_neg (Ne.symm h)
  | cons m es ih =>
      rw [putEntry]
      split
      · next hm => rw [findAt?, findAt?, hm, if_neg (Ne.symm h), if_neg (Ne.symm h)]
      · rw [findAt?, findAt?, ih]

theorem mem_of_find {es : List (Location × Entry)} (h : findAt? loc es = some e) :
    (loc, e) ∈ es := by
  induction es with
  | nil => exact absurd h (by simp [findAt?])
  | cons m es ih =>
      rw [findAt?] at h
      split at h
      · next hm =>
          obtain rfl := Option.some.inj h
          obtain rfl := hm
          exact List.mem_cons_self
      · exact List.mem_cons_of_mem m (ih h)

theorem findAt?_isSome_of_mem {es : List (Location × Entry)} (h : (loc, e) ∈ es) :
    (findAt? loc es).isSome := by
  induction es with
  | nil => exact absurd h List.not_mem_nil
  | cons m es ih =>
      rw [findAt?]
      split
      · rfl
      · next hm =>
          rcases List.mem_cons.1 h with rfl | h
          · exact absurd rfl hm
          · exact ih h

/-- An entry for a new location goes last. -/
theorem putEntry_of_absent {es : List (Location × Entry)} (h : findAt? loc es = none)
    (e : Entry) : putEntry loc e es = es ++ [(loc, e)] := by
  induction es with
  | nil => rfl
  | cons m es ih =>
      rw [findAt?] at h
      split at h
      · exact absurd h (by simp)
      · next hm => rw [putEntry, if_neg hm, ih h, List.cons_append]

theorem filter_of_absent {es : List (Location × Entry)} (h : findAt? loc es = none) :
    es.filter (fun m => m.1 != loc) = es := by
  refine List.filter_eq_self.2 fun m hm => ?_
  rw [bne_iff_ne]
  rintro rfl
  have hsome := findAt?_isSome_of_mem hm
  rw [h] at hsome
  exact absurd hsome (by simp)

/-- What is found under a location is not changed by leaving out others. -/
theorem findAt?_filter {keep : Location → Bool} (h : keep loc = true) (es : List (Location × Entry)) :
    findAt? loc (es.filter fun m => keep m.1) = findAt? loc es := by
  induction es with
  | nil => rfl
  | cons m es ih =>
      by_cases hm : keep m.1 = true
      · rw [List.filter_cons, if_pos hm, findAt?, findAt?, ih]
      · have hne : m.1 ≠ loc := fun heq => hm (heq ▸ h)
        rw [List.filter_cons, if_neg hm, ih, findAt?, if_neg hne]

@[simp] theorem entryAt?_nil (fs : FileSystem) : fs.entryAt? [] = some .directory := if_pos rfl

theorem entryAt?_of_ne_nil (fs : FileSystem) (h : loc ≠ []) :
    fs.entryAt? loc = findAt? loc fs.entries := if_neg h

theorem ne_nil_of_absent (h : fs.entryAt? loc = none) : loc ≠ [] := by
  rintro rfl
  exact absurd h (by simp)

theorem findAt?_of_absent (h : fs.entryAt? loc = none) : findAt? loc fs.entries = none := by
  rwa [← entryAt?_of_ne_nil fs (ne_nil_of_absent h)]

theorem entryAt?_withEntry_self (fs : FileSystem) (h : loc ≠ []) (e : Entry) :
    entryAt? (fs.withEntry loc e) loc = some e := by
  rw [entryAt?_of_ne_nil _ h]
  exact findAt?_putEntry_self loc e fs.entries

theorem entryAt?_withEntry_of_ne (fs : FileSystem) (h : other ≠ loc) (e : Entry) :
    entryAt? (fs.withEntry loc e) other = fs.entryAt? other := by
  by_cases hnil : other = []
  · rw [hnil, entryAt?_nil, entryAt?_nil]
  · rw [entryAt?_of_ne_nil _ hnil, entryAt?_of_ne_nil _ hnil]
    exact findAt?_putEntry_of_ne h e fs.entries

/-- What is left out of a file system does not change what stands elsewhere. -/
theorem entryAt?_filter (fs : FileSystem) {keep : Location → Bool} (h : keep loc = true) :
    entryAt? { fs with entries := fs.entries.filter fun m => keep m.1 } loc = fs.entryAt? loc := by
  by_cases hnil : loc = []
  · rw [hnil, entryAt?_nil, entryAt?_nil]
  · rw [entryAt?_of_ne_nil _ hnil, entryAt?_of_ne_nil _ hnil]
    exact findAt?_filter h fs.entries

/-- Without the entries for a location the others stand where they stood. -/
theorem entryAt?_filter_of_ne (fs : FileSystem) (h : other ≠ loc) :
    entryAt? { fs with entries := fs.entries.filter fun m => m.1 != loc } other = fs.entryAt? other :=
  @entryAt?_filter other fs (fun l => l != loc) (bne_iff_ne.2 h)

/-! ### Following names -/

/-- The location that a name leads to from a directory. -/
def goTo (loc : Location) (n : String) : Location := if n = ".." then loc.dropLast else loc ++ [n]

theorem follow_cons (h : fs.entryAt? loc = some .directory) (n : String) (ns : List String) :
    fs.follow loc (n :: ns) = fs.follow (goTo loc n) ns := by
  rw [follow, h, goTo]

theorem directory_of_follow {n : String} {ns : List String} {l : Location}
    (h : fs.follow loc (n :: ns) = .ok l) : fs.entryAt? loc = some .directory := by
  rw [follow] at h
  split at h
  · next hentry => exact hentry
  · exact absurd h (by simp)
  · exact absurd h (by simp)

/-- A walk through directories leads to the same place in a file system that has them too. -/
theorem follow_of_directories
    (h : ∀ l, fs.entryAt? l = some .directory → fs'.entryAt? l = some .directory) {ns : List String}
    {l : Location} (hns : fs.follow loc ns = .ok l) : fs'.follow loc ns = .ok l := by
  induction ns generalizing loc with
  | nil => exact hns
  | cons n ns ih =>
      have hdir := directory_of_follow hns
      rw [follow_cons hdir] at hns
      rw [follow_cons (h loc hdir), ih hns]

theorem follow_append {ns : List String} {l : Location} (h : fs.follow loc ns = .ok l)
    (ms : List String) : fs.follow loc (ns ++ ms) = fs.follow l ms := by
  induction ns generalizing loc with
  | nil =>
      obtain rfl := Except.ok.inj h
      rfl
  | cons n ns ih =>
      have hdir := directory_of_follow h
      rw [follow_cons hdir] at h
      rw [List.cons_append, follow_cons hdir, ih h]

/-- Where names lead to depends on the names alone. -/
theorem follow_eq {ns : List String} {l : Location} (h : fs.follow loc ns = .ok l) :
    l = ns.foldl goTo loc := by
  induction ns generalizing loc with
  | nil => exact (Except.ok.inj h).symm
  | cons n ns ih =>
      rw [follow_cons (directory_of_follow h)] at h
      exact ih h

/-- Names without two dots lead downwards. -/
theorem foldl_goTo {ns : List String} (h : ".." ∉ ns) : ns.foldl goTo loc = loc ++ ns := by
  induction ns generalizing loc with
  | nil => exact (List.append_nil loc).symm
  | cons n ns ih =>
      rw [List.mem_cons, not_or] at h
      rw [List.foldl_cons, goTo, if_neg (Ne.symm h.1), ih h.2, List.append_assoc]
      rfl

/-- Where a path starts. -/
def start (fs : FileSystem) (p : FilePath) : Location := if p.isAbsolute then [] else fs.current

theorem locate_eq (fs : FileSystem) (p : FilePath) :
    fs.locate p = fs.follow (fs.start p) p.names := rfl

/-- The location that a path names, whether or not it leads there. -/
def place (fs : FileSystem) (p : FilePath) : Location := p.names.foldl goTo (fs.start p)

theorem locate_place {l : Location} (h : fs.locate p = .ok l) : l = fs.place p := follow_eq h

theorem place_child (fs : FileSystem) (p : FilePath) (name : String) :
    fs.place (p.child name) = goTo (fs.place p) name := by
  rw [place, place, FilePath.child, List.foldl_append]
  rfl

theorem entryAt_eq_ok {l : Location} {o : Option Entry} :
    fs.entryAt p = .ok (l, o) ↔ fs.locate p = .ok l ∧ fs.entryAt? l = o := by
  rw [entryAt]
  constructor
  · intro h
    split at h
    · next loc hloc =>
        obtain ⟨rfl, rfl⟩ := Prod.mk.inj (Except.ok.inj h)
        exact ⟨hloc, rfl⟩
    · exact absurd h (by simp)
  · rintro ⟨hloc, rfl⟩
    rw [hloc]

/-- A path leads to something if it can be followed to an entry. -/
theorem at?_eq_some : fs.at? p = some e ↔ ∃ l, fs.locate p = .ok l ∧ fs.entryAt? l = some e := by
  rw [at?, entryAt]
  constructor
  · intro h
    cases hloc : fs.locate p with
    | error cause => simp [hloc] at h
    | ok l =>
        rw [hloc] at h
        exact ⟨l, rfl, h⟩
  · rintro ⟨l, hloc, hentry⟩
    rw [hloc]
    exact hentry

theorem isFile_iff : fs.isFile p = true ↔ ∃ bytes time, fs.at? p = some (.file bytes time) := by
  rw [isFile]
  split
  · next bytes time hat => exact ⟨fun _ => ⟨bytes, time, hat⟩, fun _ => rfl⟩
  · next hnot =>
      refine ⟨fun h => absurd h (by simp), ?_⟩
      rintro ⟨bytes, time, hat⟩
      exact absurd hat (hnot bytes time)

theorem isDirectory_iff :
    fs.isDirectory p = true ↔ ∃ l, fs.entryAt p = .ok (l, some .directory) := by
  rw [isDirectory]
  constructor
  · intro h
    split at h
    · next hat =>
        obtain ⟨l, hloc, hentry⟩ := at?_eq_some.1 hat
        exact ⟨l, entryAt_eq_ok.2 ⟨hloc, hentry⟩⟩
    · exact absurd h (by simp)
  · rintro ⟨l, hdir⟩
    rw [at?_eq_some.2 ⟨l, entryAt_eq_ok.1 hdir⟩]

theorem bytesOf_eq_ok {bytes : ByteArray} :
    fs.bytesOf p = .ok bytes ↔ ∃ changed, fs.at? p = some (.file bytes changed) := by
  rw [bytesOf, at?]
  cases fs.entryAt p with
  | error cause => simp
  | ok found =>
      obtain ⟨l, o⟩ := found
      rcases o with _ | _ | ⟨b, t⟩
      · simp
      · simp
      · simp

theorem locate_child {l : Location} (h : fs.locate p = .ok l)
    (hdir : fs.entryAt? l = some .directory) (name : String) :
    fs.locate (p.child name) = .ok (goTo l name) := by
  have hchild := follow_append h [name]
  rw [follow_cons hdir] at hchild
  exact hchild

/-- What a name leads to in a directory. -/
theorem at?_child {l : Location} (h : fs.entryAt p = .ok (l, some .directory)) (name : String) :
    fs.at? (p.child name) = fs.entryAt? (goTo l name) := by
  obtain ⟨hloc, hentry⟩ := entryAt_eq_ok.1 h
  rw [at?, entryAt, locate_child hloc hentry]

theorem follow_concat {ns : List String} {n : String} {l : Location}
    (h : fs.follow loc (ns ++ [n]) = .ok l) :
    ∃ m, fs.follow loc ns = .ok m ∧ fs.entryAt? m = some .directory ∧ l = goTo m n := by
  induction ns generalizing loc with
  | nil =>
      have hdir := directory_of_follow h
      rw [List.nil_append, follow_cons hdir] at h
      exact ⟨loc, rfl, hdir, (Except.ok.inj h).symm⟩
  | cons m ns ih =>
      have hdir := directory_of_follow h
      rw [List.cons_append, follow_cons hdir] at h
      rw [follow_cons hdir]
      exact ih h

/-- A path to something in a directory leads through the directory. -/
theorem locate_of_child {name : String} {l : Location} (h : fs.locate (p.child name) = .ok l) :
    ∃ loc, fs.entryAt p = .ok (loc, some .directory) ∧ l = goTo loc name := by
  obtain ⟨loc, hloc, hdir, rfl⟩ := follow_concat h
  exact ⟨loc, entryAt_eq_ok.2 ⟨hloc, hdir⟩, rfl⟩

/-! ### Keeping -/

/-- Everything stands where it stood, apart from files at some locations. -/
structure Keeps (fs fs' : FileSystem) (changed : List Location) : Prop where
  current : fs'.current = fs.current
  directory : ∀ l, fs.entryAt? l = some .directory → fs'.entryAt? l = some .directory
  file : ∀ l bytes time, l ∉ changed → fs.entryAt? l = some (.file bytes time) →
    fs'.entryAt? l = some (.file bytes time)

theorem Keeps.refl (fs : FileSystem) : fs.Keeps fs [] :=
  ⟨rfl, fun _ h => h, fun _ _ _ _ h => h⟩

theorem Keeps.trans {a b : List Location} (h : fs.Keeps fs' a) (h' : fs'.Keeps fs'' b) :
    fs.Keeps fs'' (a ++ b) where
  current := h'.current.trans h.current
  directory := fun l hl => h'.directory l (h.directory l hl)
  file := by
    intro l bytes time hnot hl
    rw [List.mem_append, not_or] at hnot
    exact h'.file l bytes time hnot.2 (h.file l bytes time hnot.1 hl)

theorem Keeps.start {a : List Location} (h : fs.Keeps fs' a) (p : FilePath) :
    fs'.start p = fs.start p := by
  rw [FileSystem.start, FileSystem.start, h.current]

theorem Keeps.place {a : List Location} (h : fs.Keeps fs' a) (p : FilePath) :
    fs'.place p = fs.place p := by
  rw [FileSystem.place, FileSystem.place, h.start]

theorem Keeps.follow {a : List Location} (h : fs.Keeps fs' a) {ns : List String} {l : Location}
    (hns : fs.follow loc ns = .ok l) : fs'.follow loc ns = .ok l :=
  follow_of_directories h.directory hns

/-- A path that leads somewhere leads there still. -/
theorem Keeps.locate {a : List Location} (h : fs.Keeps fs' a) {l : Location}
    (hp : fs.locate p = .ok l) : fs'.locate p = .ok l := by
  rw [locate_eq, h.start]
  exact h.follow hp

/-- A path that leads to a directory leads to it still. -/
theorem Keeps.entryAt_directory {a : List Location} (h : fs.Keeps fs' a) {l : Location}
    (hp : fs.entryAt p = .ok (l, some .directory)) : fs'.entryAt p = .ok (l, some .directory) := by
  obtain ⟨hloc, hentry⟩ := entryAt_eq_ok.1 hp
  exact entryAt_eq_ok.2 ⟨h.locate hloc, h.directory l hentry⟩

/-- A file that is not among those that changed is still at the end of a path. -/
theorem Keeps.at? {a : List Location} (h : fs.Keeps fs' a) (hp : fs.place p ∉ a)
    (he : fs.at? p = some e) : fs'.at? p = some e := by
  obtain ⟨l, hloc, hentry⟩ := at?_eq_some.1 he
  have hplace := locate_place hloc
  refine at?_eq_some.2 ⟨l, h.locate hloc, ?_⟩
  cases e with
  | directory => exact h.directory l hentry
  | file bytes time => exact h.file l bytes time (hplace ▸ hp) hentry

/-- A path that leads to something leads to something still. -/
theorem Keeps.pathExists (h : fs.Keeps fs' []) (hp : fs.pathExists p = true) :
    fs'.pathExists p = true := by
  rw [FileSystem.pathExists, Option.isSome_iff_exists] at hp
  obtain ⟨e, he⟩ := hp
  rw [FileSystem.pathExists, h.at? List.not_mem_nil he, Option.isSome_some]

theorem Keeps.bytesOf {a : List Location} (h : fs.Keeps fs' a) (hp : fs.place p ∉ a)
    {bytes : ByteArray} (hbytes : fs.bytesOf p = .ok bytes) : fs'.bytesOf p = .ok bytes := by
  obtain ⟨time, hat⟩ := bytesOf_eq_ok.1 hbytes
  exact bytesOf_eq_ok.2 ⟨time, h.at? hp hat⟩

/-- A path that leads to a document leads to a file. -/
theorem bytesOf_of_documentOf {doc : Json} (h : fs.documentOf p = .ok doc) :
    ∃ bytes, fs.bytesOf p = .ok bytes := by
  cases hbytes : fs.bytesOf p with
  | error problem => simp [FileSystem.documentOf, textOf, hbytes] at h
  | ok bytes => exact ⟨bytes, rfl⟩

/-- A path that leads to a document leads to something. -/
theorem pathExists_of_documentOf {doc : Json} (h : fs.documentOf p = .ok doc) :
    fs.pathExists p = true := by
  obtain ⟨bytes, hbytes⟩ := bytesOf_of_documentOf h
  obtain ⟨time, hat⟩ := bytesOf_eq_ok.1 hbytes
  rw [pathExists, hat, Option.isSome_some]

theorem Keeps.documentOf {a : List Location} (h : fs.Keeps fs' a) (hp : fs.place p ∉ a)
    {doc : Json} (hdoc : fs.documentOf p = .ok doc) : fs'.documentOf p = .ok doc := by
  obtain ⟨bytes, hbytes⟩ := bytesOf_of_documentOf hdoc
  rw [FileSystem.documentOf, textOf, hbytes] at hdoc
  rw [FileSystem.documentOf, textOf, h.bytesOf hp hbytes]
  exact hdoc

/-- Putting something where no directory stands changes one location. -/
theorem keeps_withEntry (h : fs.entryAt? loc ≠ some .directory) (e : Entry) :
    fs.Keeps (fs.withEntry loc e) [loc] where
  current := rfl
  directory := by
    intro l hl
    have hne : l ≠ loc := fun heq => h (heq ▸ hl)
    rwa [entryAt?_withEntry_of_ne fs hne]
  file := by
    intro l bytes time hnot hl
    rwa [entryAt?_withEntry_of_ne fs (fun heq => hnot (List.mem_singleton.2 heq))]

/-- Putting something where nothing stands changes nothing else. -/
theorem keeps_withEntry_of_absent {loc : Location} (h : fs.entryAt? loc = none) (e : Entry) :
    fs.Keeps (fs.withEntry loc e) [] where
  current := rfl
  directory := (keeps_withEntry (by simp [h]) e).directory
  file := by
    intro l bytes time _ hl
    have hne : l ≠ loc := by
      rintro rfl
      rw [h] at hl
      exact absurd hl (by simp)
    rwa [entryAt?_withEntry_of_ne fs hne]

/-! ### Changes -/

theorem write_eq_ok {bytes : ByteArray} (h : fs.write p bytes = .ok fs') :
    ∃ l, fs.locate p = .ok l ∧ fs.entryAt? l ≠ some .directory ∧
      fs' = fs.withEntry l (.file bytes fs.now) := by
  rw [write] at h
  split at h
  · exact absurd h (by simp)
  · exact absurd h (by simp)
  · next l o hnot hentry =>
      obtain ⟨hloc, rfl⟩ := entryAt_eq_ok.1 hentry
      exact ⟨l, hloc, hnot, (Except.ok.inj h).symm⟩

theorem create_eq_ok {bytes : ByteArray} (h : fs.create p bytes = .ok fs') :
    ∃ l, fs.locate p = .ok l ∧ fs.entryAt? l = none ∧ fs' = fs.withEntry l (.file bytes fs.now) := by
  rw [create] at h
  split at h
  · exact absurd h (by simp)
  · exact absurd h (by simp)
  · next l hentry =>
      obtain ⟨hloc, habsent⟩ := entryAt_eq_ok.1 hentry
      exact ⟨l, hloc, habsent, (Except.ok.inj h).symm⟩

theorem append_eq_ok {bytes : ByteArray} (h : fs.append p bytes = .ok fs') :
    ∃ l all, fs.locate p = .ok l ∧ fs.entryAt? l ≠ some .directory ∧
      fs' = fs.withEntry l (.file all fs.now) := by
  rw [append] at h
  split at h
  · exact absurd h (by simp)
  · exact absurd h (by simp)
  · next l old time hentry =>
      obtain ⟨hloc, hfile⟩ := entryAt_eq_ok.1 hentry
      exact ⟨l, _, hloc, by simp [hfile], (Except.ok.inj h).symm⟩
  · next l hentry =>
      obtain ⟨hloc, habsent⟩ := entryAt_eq_ok.1 hentry
      exact ⟨l, _, hloc, by simp [habsent], (Except.ok.inj h).symm⟩

theorem makeDirectory_eq_ok (h : fs.makeDirectory p = .ok fs') :
    ∃ l, fs.locate p = .ok l ∧ fs.entryAt? l = none ∧ fs' = fs.withEntry l .directory := by
  rw [makeDirectory] at h
  split at h
  · exact absurd h (by simp)
  · exact absurd h (by simp)
  · next l hentry =>
      obtain ⟨hloc, habsent⟩ := entryAt_eq_ok.1 hentry
      exact ⟨l, hloc, habsent, (Except.ok.inj h).symm⟩

theorem removeFile_eq_ok (h : fs.removeFile p = .ok fs') :
    ∃ l bytes time, fs.locate p = .ok l ∧ fs.entryAt? l = some (.file bytes time) ∧
      fs' = { fs with entries := fs.entries.filter fun m => m.1 != l } := by
  rw [removeFile] at h
  split at h
  · exact absurd h (by simp)
  · exact absurd h (by simp)
  · exact absurd h (by simp)
  · next l bytes time hentry =>
      obtain ⟨hloc, hfile⟩ := entryAt_eq_ok.1 hentry
      exact ⟨l, bytes, time, hloc, hfile, (Except.ok.inj h).symm⟩

theorem keeps_create {bytes : ByteArray} (h : fs.create p bytes = .ok fs') : fs.Keeps fs' [] := by
  obtain ⟨l, -, habsent, rfl⟩ := create_eq_ok h
  exact keeps_withEntry_of_absent habsent _

/-- A file that was created is there. -/
theorem at?_of_create {bytes : ByteArray} (h : fs.create p bytes = .ok fs') :
    fs'.at? p = some (.file bytes fs.now) := by
  have hkeeps := keeps_create h
  obtain ⟨l, hloc, habsent, rfl⟩ := create_eq_ok h
  exact at?_eq_some.2 ⟨l, hkeeps.locate hloc, entryAt?_withEntry_self fs (ne_nil_of_absent habsent) _⟩

theorem keeps_write {bytes : ByteArray} (h : fs.write p bytes = .ok fs') :
    fs.Keeps fs' [fs.place p] := by
  obtain ⟨l, hloc, hnot, rfl⟩ := write_eq_ok h
  rw [← locate_place hloc]
  exact keeps_withEntry hnot _

theorem keeps_append {bytes : ByteArray} (h : fs.append p bytes = .ok fs') :
    fs.Keeps fs' [fs.place p] := by
  obtain ⟨l, all, hloc, hnot, rfl⟩ := append_eq_ok h
  rw [← locate_place hloc]
  exact keeps_withEntry hnot _

/-- Removing a file changes one location. -/
theorem keeps_removeFile (h : fs.removeFile p = .ok fs') : fs.Keeps fs' [fs.place p] := by
  obtain ⟨l, bytes, time, hloc, hfile, rfl⟩ := removeFile_eq_ok h
  rw [← locate_place hloc]
  refine ⟨rfl, fun other hother => ?_, fun other bytes' time' hnot hother => ?_⟩
  · rwa [entryAt?_filter_of_ne fs fun heq => ?_]
    rw [heq, hfile] at hother
    exact absurd (Option.some.inj hother) (by simp)
  · rwa [entryAt?_filter_of_ne fs fun heq => hnot (List.mem_singleton.2 heq)]

/-! ### Sound file systems -/

/-- The current directory is there, and everything stands in a directory. -/
structure Sound (fs : FileSystem) : Prop where
  current : fs.entryAt? fs.current = some .directory
  parent : ∀ l e, fs.entryAt? l = some e → fs.entryAt? l.dropLast = some .directory

/-- A file system is sound if each of its entries stands in a directory. -/
theorem sound_of_entries (hcurrent : fs.entryAt? fs.current = some .directory)
    (h : ∀ m ∈ fs.entries, fs.entryAt? m.1.dropLast = some .directory) : fs.Sound where
  current := hcurrent
  parent := by
    intro l e hl
    by_cases hnil : l = []
    · rw [hnil]
      exact entryAt?_nil fs
    · rw [entryAt?_of_ne_nil _ hnil] at hl
      exact h _ (mem_of_find hl)

/-- Above everything stand directories. -/
theorem Sound.above (h : fs.Sound) {l rest : Location} (hrest : rest ≠ [])
    (he : fs.entryAt? (l ++ rest) = some e) : fs.entryAt? l = some .directory := by
  induction rest using List.reverseRecOn generalizing e with
  | nil => exact absurd rfl hrest
  | append_singleton rest n ih =>
      have hparent := h.parent _ _ he
      rw [← List.append_assoc, List.dropLast_concat] at hparent
      by_cases hnil : rest = []
      · rwa [hnil, List.append_nil] at hparent
      · exact ih hnil hparent

theorem Sound.start_dropLast (h : fs.Sound) (p : FilePath) :
    fs.entryAt? (fs.start p).dropLast = some .directory := by
  rw [start]
  split
  · exact fs.entryAt?_nil
  · exact h.parent _ _ h.current

theorem Sound.goTo_dropLast (h : fs.Sound) {l : Location} (hl : fs.entryAt? l = some .directory)
    (n : String) : fs.entryAt? (goTo l n).dropLast = some .directory := by
  rw [goTo]
  split
  · exact h.parent _ _ (h.parent _ _ hl)
  · rwa [List.dropLast_concat]

theorem Sound.follow_dropLast (h : fs.Sound) {ns : List String} {l : Location}
    (hloc : fs.entryAt? loc.dropLast = some .directory) (hns : fs.follow loc ns = .ok l) :
    fs.entryAt? l.dropLast = some .directory := by
  induction ns generalizing loc with
  | nil =>
      obtain rfl := Except.ok.inj hns
      exact hloc
  | cons n ns ih =>
      have hdir := directory_of_follow hns
      rw [follow_cons hdir] at hns
      exact ih (h.goTo_dropLast hdir n) hns

/-- A path leads to a place in a directory. -/
theorem Sound.locate_dropLast (h : fs.Sound) {l : Location} (hp : fs.locate p = .ok l) :
    fs.entryAt? l.dropLast = some .directory :=
  h.follow_dropLast (h.start_dropLast p) hp

/-- Putting something into a directory keeps a file system sound, unless it replaces a directory. -/
theorem Sound.withEntry (h : fs.Sound) (hparent : fs.entryAt? loc.dropLast = some .directory)
    (hloc : fs.entryAt? loc ≠ some .directory) (e : Entry) : (fs.withEntry loc e).Sound where
  current := (keeps_withEntry hloc e).directory _ h.current
  parent := by
    intro l e' hl
    refine (keeps_withEntry hloc e).directory _ ?_
    by_cases heq : l = loc
    · rwa [heq]
    · rw [entryAt?_withEntry_of_ne fs heq] at hl
      exact h.parent l e' hl

theorem Sound.write (h : fs.Sound) {bytes : ByteArray} (hrun : fs.write p bytes = .ok fs') :
    fs'.Sound := by
  obtain ⟨l, hloc, hnot, rfl⟩ := write_eq_ok hrun
  exact h.withEntry (h.locate_dropLast hloc) hnot _

theorem Sound.create (h : fs.Sound) {bytes : ByteArray} (hrun : fs.create p bytes = .ok fs') :
    fs'.Sound := by
  obtain ⟨l, hloc, habsent, rfl⟩ := create_eq_ok hrun
  exact h.withEntry (h.locate_dropLast hloc) (by simp [habsent]) _

theorem Sound.append (h : fs.Sound) {bytes : ByteArray} (hrun : fs.append p bytes = .ok fs') :
    fs'.Sound := by
  obtain ⟨l, all, hloc, hnot, rfl⟩ := append_eq_ok hrun
  exact h.withEntry (h.locate_dropLast hloc) hnot _

theorem Sound.makeDirectory (h : fs.Sound) (hrun : fs.makeDirectory p = .ok fs') : fs'.Sound := by
  obtain ⟨l, hloc, habsent, rfl⟩ := makeDirectory_eq_ok hrun
  exact h.withEntry (h.locate_dropLast hloc) (by simp [habsent]) _

theorem Sound.removeFile (h : fs.Sound) (hrun : fs.removeFile p = .ok fs') : fs'.Sound := by
  obtain ⟨loc, bytes, time, -, hfile, rfl⟩ := removeFile_eq_ok hrun
  have hne : loc ≠ [] := by
    rintro rfl
    exact absurd hfile (by simp)
  have hkeeps : ∀ l, l ≠ loc → FileSystem.entryAt?
      { fs with entries := fs.entries.filter fun m => m.1 != loc } l = fs.entryAt? l :=
    fun _ hl => entryAt?_filter_of_ne fs hl
  have hdirectory : ∀ l, fs.entryAt? l = some .directory → l ≠ loc := by
    rintro l hl rfl
    rw [hfile] at hl
    exact absurd (Option.some.inj hl) (by simp)
  constructor
  · rw [hkeeps _ (hdirectory _ h.current)]
    exact h.current
  · intro l e hl
    by_cases heq : l = loc
    · rw [heq, entryAt?_of_ne_nil _ hne] at hl
      have hmem := (List.mem_filter.1 (mem_of_find hl)).2
      exact absurd hmem (by simp)
    · rw [hkeeps l heq] at hl
      have hparent := h.parent l e hl
      rwa [hkeeps _ (hdirectory _ hparent)]

theorem sound_empty (current : Location) (now : Int) : (empty current now).Sound := by
  have hprefix : ∀ n ≤ current.length,
      entryAt? (empty current now) (current.take n) = some .directory := by
    intro n hn
    cases n with
    | zero => rw [List.take_zero, entryAt?_nil]
    | succ n =>
        have hmem : (current.take (n + 1), Entry.directory) ∈ (empty current now).entries :=
          List.mem_map.2 ⟨n, List.mem_range.2 hn, rfl⟩
        have hne : current.take (n + 1) ≠ [] := by
          intro hnil
          have hlength := congrArg List.length hnil
          rw [List.length_take, List.length_nil] at hlength
          omega
        obtain ⟨e, he⟩ := Option.isSome_iff_exists.1 (findAt?_isSome_of_mem hmem)
        obtain ⟨i, -, hi⟩ := List.mem_map.1 (mem_of_find he)
        rw [entryAt?_of_ne_nil _ hne, he, ← (Prod.mk.inj hi).2]
  constructor
  · have hcurrent := hprefix current.length (Nat.le_refl _)
    rwa [List.take_length] at hcurrent
  · intro l e hl
    by_cases hnil : l = []
    · rw [hnil]
      exact entryAt?_nil _
    · rw [entryAt?_of_ne_nil _ hnil] at hl
      obtain ⟨i, hi, heq⟩ := List.mem_map.1 (mem_of_find hl)
      have hlt := List.mem_range.1 hi
      rw [← (Prod.mk.inj heq).1, List.dropLast_eq_take, List.take_take, List.length_take]
      exact hprefix _ (by omega)

/-! ### More directories -/

/-- There are more directories, and nothing else has changed. -/
def Gains (fs fs' : FileSystem) : Prop :=
  ∃ ds : List Location, (∀ d ∈ ds, fs.entryAt? d = none) ∧
    fs' = { fs with entries := fs.entries ++ ds.map fun d => (d, .directory) }

theorem Gains.refl (fs : FileSystem) : fs.Gains fs := by
  refine ⟨[], fun d hd => absurd hd List.not_mem_nil, ?_⟩
  rw [List.map_nil, List.append_nil]

/-- What stood somewhere stands there, and at a new location stands a directory. -/
theorem entryAt?_addDirectories {ds : List Location} (hds : ∀ d ∈ ds, fs.entryAt? d = none)
    (loc : Location) :
    FileSystem.entryAt? { fs with entries := fs.entries ++ ds.map fun d => (d, .directory) } loc =
      if loc ∈ ds then some .directory else fs.entryAt? loc := by
  have hfind : findAt? loc (ds.map fun d => (d, Entry.directory)) =
      if loc ∈ ds then some .directory else none := by
    clear hds
    induction ds with
    | nil => rfl
    | cons d ds ih =>
        rw [List.map_cons, findAt?, ih]
        by_cases hd : d = loc
        · rw [if_pos hd, if_pos (hd ▸ List.mem_cons_self)]
        · simp only [if_neg hd, List.mem_cons, Ne.symm hd, false_or]
  by_cases hnil : loc = []
  · rw [hnil, entryAt?_nil, entryAt?_nil]
    split <;> rfl
  · rw [entryAt?_of_ne_nil _ hnil, entryAt?_of_ne_nil _ hnil, findAt?_append, hfind]
    split
    · next hmem => rw [findAt?_of_absent (hds loc hmem), Option.none_or]
    · rw [Option.or_none]

theorem Gains.trans (h : fs.Gains fs') (h' : fs'.Gains fs'') : fs.Gains fs'' := by
  obtain ⟨ds, hds, rfl⟩ := h
  obtain ⟨ds', hds', rfl⟩ := h'
  refine ⟨ds ++ ds', fun d hd => ?_, ?_⟩
  · rcases List.mem_append.1 hd with hd | hd
    · exact hds d hd
    · have habsent := hds' d hd
      rw [entryAt?_addDirectories hds] at habsent
      split at habsent
      · exact absurd habsent (by simp)
      · exact habsent
  · rw [List.map_append, List.append_assoc]

theorem Gains.entryAt? (h : fs.Gains fs') (loc : Location) :
    fs'.entryAt? loc = fs.entryAt? loc ∨ fs.entryAt? loc = none ∧ fs'.entryAt? loc = some .directory := by
  obtain ⟨ds, hds, rfl⟩ := h
  rw [entryAt?_addDirectories hds]
  split
  · next hmem => exact .inr ⟨hds loc hmem, rfl⟩
  · exact .inl rfl

theorem Gains.keeps (h : fs.Gains fs') : fs.Keeps fs' [] where
  current := by
    obtain ⟨ds, -, rfl⟩ := h
    rfl
  directory := by
    intro l hl
    rcases h.entryAt? l with heq | ⟨-, hdir⟩
    · rwa [heq]
    · exact hdir
  file := by
    intro l bytes time _ hl
    rcases h.entryAt? l with heq | ⟨hnone, -⟩
    · rwa [heq]
    · rw [hl] at hnone
      exact absurd hnone (by simp)

/-- No file has come or gone. -/
theorem Gains.file_iff (h : fs.Gains fs') (loc : Location) (bytes : ByteArray) (time : Int) :
    fs'.entryAt? loc = some (.file bytes time) ↔ fs.entryAt? loc = some (.file bytes time) := by
  rcases h.entryAt? loc with heq | ⟨hnone, hdir⟩
  · rw [heq]
  · simp [hnone, hdir]

theorem gains_makeDirectory (h : fs.makeDirectory p = .ok fs') : fs.Gains fs' := by
  obtain ⟨l, -, habsent, rfl⟩ := makeDirectory_eq_ok h
  refine ⟨[l], fun d hd => ?_, ?_⟩
  · rwa [List.mem_singleton.1 hd]
  · rw [withEntry, putEntry_of_absent (findAt?_of_absent habsent)]
    rfl

theorem ensureDirectory_eq_ok (h : fs.ensureDirectory p = .ok fs') :
    fs.makeDirectory p = .ok fs' ∨ fs' = fs := by
  rw [ensureDirectory] at h
  split at h
  · next hmake =>
      obtain rfl := Except.ok.inj h
      exact .inl hmake
  · split at h
    · exact .inr (Except.ok.inj h).symm
    · exact absurd h (by simp)

/-- What holds of a file system, and is kept when one directory on the way to a place is made, holds
after all of them are made. -/
theorem makeDirectoriesTo_induction {P : FileSystem → Prop} (depth : ℕ)
    (hstep : ∀ (fs fs' : FileSystem) (q : FilePath), q.root = p.root → q.names <+: p.names → P fs →
      fs.makeDirectory q = .ok fs' → P fs')
    (h : P fs) (hrun : fs.makeDirectoriesTo p depth = .ok fs') : P fs' := by
  have hensure : ∀ (p : FilePath) (fs fs' : FileSystem), (P fs → fs.makeDirectory p = .ok fs' → P fs') →
      P fs → fs.ensureDirectory p = .ok fs' → P fs' := by
    intro p fs fs' hstep h hrun
    rcases ensureDirectory_eq_ok hrun with hmake | rfl
    · exact hstep h hmake
    · exact h
  induction depth generalizing p fs' with
  | zero => exact hensure p fs fs' (hstep fs fs' p rfl (List.prefix_refl _)) h hrun
  | succ depth ih =>
      rw [makeDirectoriesTo] at hrun
      split at hrun
      · next hmake =>
          obtain rfl := Except.ok.inj hrun
          exact hstep fs _ p rfl (List.prefix_refl _) h hmake
      · split at hrun
        · exact absurd hrun (by simp)
        · split at hrun
          · next made hparents =>
              refine hensure p made fs' (hstep made fs' p rfl (List.prefix_refl _)) ?_ hrun
              refine ih (fun fs fs' q hroot hnames => ?_) hparents
              exact hstep fs fs' q hroot (hnames.trans (List.dropLast_prefix p.names))
          · exact absurd hrun (by simp)
      · split at hrun
        · obtain rfl := Except.ok.inj hrun
          exact h
        · exact absurd hrun (by simp)

/-- Making directories adds directories only. -/
theorem gains_makeDirectories (h : fs.makeDirectories p = .ok fs') : fs.Gains fs' :=
  makeDirectoriesTo_induction (P := fs.Gains) p.names.length
    (fun _ _ _ _ _ h hmake => h.trans (gains_makeDirectory hmake)) (Gains.refl fs) h

theorem Sound.makeDirectories (h : fs.Sound) (hrun : fs.makeDirectories p = .ok fs') : fs'.Sound :=
  makeDirectoriesTo_induction (P := Sound) p.names.length
    (fun _ _ _ _ _ h hmake => h.makeDirectory hmake) h hrun

theorem isDirectory_of_makeDirectory (h : fs.makeDirectory p = .ok fs') :
    fs'.isDirectory p = true := by
  obtain ⟨l, hloc, habsent, rfl⟩ := makeDirectory_eq_ok h
  have hkeeps : fs.Keeps (fs.withEntry l .directory) [l] := keeps_withEntry (by simp [habsent]) _
  exact isDirectory_iff.2 ⟨l, entryAt_eq_ok.2
    ⟨hkeeps.locate hloc, entryAt?_withEntry_self fs (ne_nil_of_absent habsent) _⟩⟩

theorem isDirectory_of_ensureDirectory (h : fs.ensureDirectory p = .ok fs') :
    fs'.isDirectory p = true := by
  rw [ensureDirectory] at h
  split at h
  · next hmake =>
      obtain rfl := Except.ok.inj h
      exact isDirectory_of_makeDirectory hmake
  · split at h
    · next hthere =>
        obtain rfl := Except.ok.inj h
        exact hthere
    · exact absurd h (by simp)

/-- A directory that was made is there. -/
theorem isDirectory_of_makeDirectories (h : fs.makeDirectories p = .ok fs') :
    fs'.isDirectory p = true := by
  rw [makeDirectories] at h
  cases hdepth : p.names.length with
  | zero =>
      rw [hdepth] at h
      exact isDirectory_of_ensureDirectory h
  | succ depth =>
      rw [hdepth, makeDirectoriesTo] at h
      split at h
      · next hmake =>
          obtain rfl := Except.ok.inj h
          exact isDirectory_of_makeDirectory hmake
      · split at h
        · exact absurd h (by simp)
        · split at h
          · exact isDirectory_of_ensureDirectory h
          · exact absurd h (by simp)
      · split at h
        · next hthere =>
            obtain rfl := Except.ok.inj h
            exact hthere
        · exact absurd h (by simp)

/-- Making a directory that is there changes nothing. -/
theorem makeDirectories_of_isDirectory (h : fs.isDirectory p = true) :
    fs.makeDirectories p = .ok fs := by
  obtain ⟨l, hdir⟩ := isDirectory_iff.1 h
  have hmake : fs.makeDirectory p = .error ⟨.alreadyExists, p⟩ := by rw [makeDirectory, hdir]
  rw [makeDirectories]
  cases p.names.length with
  | zero => simp only [makeDirectoriesTo, ensureDirectory, hmake, h, if_true]
  | succ depth => simp only [makeDirectoriesTo, hmake, h, if_true]

/-! ### Anchored paths -/

/-- A path that does not climb out of a missing directory: what two dots follow is there. -/
def Anchored (fs : FileSystem) (p : FilePath) : Prop :=
  ∀ front back, p.names = front ++ ".." :: back → fs.pathExists ⟨p.root, front⟩ = true

/-- A path without two dots does not climb. -/
theorem anchored_of_notMem (h : ".." ∉ p.names) : fs.Anchored p := by
  intro front back hback
  exact absurd (hback ▸ List.mem_append_right front List.mem_cons_self) h

/-- More directories do not lead an anchored path to something that was there before. -/
theorem Gains.follow (h : fs.Gains fs') (hsound : fs.Sound) {ns : List String} {l : Location}
    (hanchored : ∀ front back, ns = front ++ ".." :: back →
      ∃ m, fs.follow loc front = .ok m ∧ (fs.entryAt? m).isSome)
    (hns : fs'.follow loc ns = .ok l) (hl : fs.entryAt? l = some e) : fs.follow loc ns = .ok l := by
  induction ns generalizing loc with
  | nil => exact hns
  | cons n ns ih =>
      have hdir' := directory_of_follow hns
      rw [follow_cons hdir'] at hns
      rcases h.entryAt? loc with heq | ⟨hnone, -⟩
      · have hdir : fs.entryAt? loc = some .directory := heq ▸ hdir'
        rw [follow_cons hdir]
        refine ih (fun front back hback => ?_) hns
        obtain ⟨m, hm, hsome⟩ := hanchored (n :: front) back (by rw [hback, List.cons_append])
        rw [follow_cons hdir] at hm
        exact ⟨m, hm, hsome⟩
      · -- the directory is new, so nothing climbs from here on, and nothing was below it
        have hclimb : ".." ∉ n :: ns := by
          intro hmem
          obtain ⟨front, back, hback⟩ := List.append_of_mem hmem
          obtain ⟨m, hm, hsome⟩ := hanchored front back hback
          cases front with
          | nil =>
              obtain rfl := Except.ok.inj hm
              rw [hnone] at hsome
              exact absurd hsome (by simp)
          | cons n' front =>
              have hdir := directory_of_follow hm
              rw [hnone] at hdir
              exact absurd hdir (by simp)
        have hend : l = loc ++ n :: ns := by
          rw [follow_eq hns, ← foldl_goTo hclimb, List.foldl_cons]
        rw [hend] at hl
        have hdir := hsound.above (List.cons_ne_nil n ns) hl
        rw [hnone] at hdir
        exact absurd hdir (by simp)

theorem Gains.locate (h : fs.Gains fs') (hsound : fs.Sound) (hp : fs.Anchored p) {l : Location}
    (hl : fs'.locate p = .ok l) (he : fs.entryAt? l = some e) : fs.locate p = .ok l := by
  rw [locate_eq, h.keeps.start] at hl
  refine h.follow hsound (fun front back hback => ?_) hl he
  have hexists := hp front back hback
  rw [pathExists, Option.isSome_iff_exists] at hexists
  obtain ⟨e', he'⟩ := hexists
  obtain ⟨m, hm, hentry⟩ := at?_eq_some.1 he'
  exact ⟨m, hm, by rw [hentry, Option.isSome_some]⟩

/-- More directories do not change which file an anchored path leads to. -/
theorem Gains.at?_file_iff (h : fs.Gains fs') (hsound : fs.Sound) (hp : fs.Anchored p)
    (bytes : ByteArray) (time : Int) :
    fs'.at? p = some (.file bytes time) ↔ fs.at? p = some (.file bytes time) := by
  constructor
  · intro hat
    obtain ⟨l, hloc, hentry⟩ := at?_eq_some.1 hat
    rw [h.file_iff] at hentry
    exact at?_eq_some.2 ⟨l, h.locate hsound hp hloc hentry, hentry⟩
  · exact h.keeps.at? List.not_mem_nil

/-! ### Time -/

/-- The files at another time. -/
def atTime (fs : FileSystem) (now : Int) : FileSystem := { fs with now := now }

variable {now : Int}

theorem keeps_atTime (fs : FileSystem) (now : Int) : fs.Keeps (fs.atTime now) [] :=
  ⟨rfl, fun _ h => h, fun _ _ _ _ h => h⟩

theorem Sound.atTime (h : fs.Sound) (now : Int) : (fs.atTime now).Sound := ⟨h.current, h.parent⟩

theorem follow_atTime (ns : List String) : (fs.atTime now).follow loc ns = fs.follow loc ns := by
  induction ns generalizing loc with
  | nil => rfl
  | cons n ns ih =>
      simp only [FileSystem.follow, ih]
      rfl

/-- Paths lead where they lead at any time. -/
theorem entryAt_atTime (p : FilePath) : (fs.atTime now).entryAt p = fs.entryAt p := by
  simp only [entryAt, locate, follow_atTime]
  rfl

theorem at?_atTime (p : FilePath) : (fs.atTime now).at? p = fs.at? p := by
  rw [at?, at?, entryAt_atTime]

theorem isDirectory_atTime (p : FilePath) : (fs.atTime now).isDirectory p = fs.isDirectory p := by
  rw [isDirectory, isDirectory, at?_atTime]

theorem makeDirectory_atTime (p : FilePath) :
    (fs.atTime now).makeDirectory p = (fs.makeDirectory p).map (·.atTime now) := by
  rw [makeDirectory, makeDirectory, entryAt_atTime]
  split <;> rfl

theorem ensureDirectory_atTime (p : FilePath) :
    (fs.atTime now).ensureDirectory p = (fs.ensureDirectory p).map (·.atTime now) := by
  rw [ensureDirectory, ensureDirectory, makeDirectory_atTime, isDirectory_atTime]
  cases fs.makeDirectory p with
  | ok made => rfl
  | error e =>
      dsimp only [Except.map]
      split <;> rfl

/-- The same directories are made at any time. -/
theorem makeDirectories_atTime (p : FilePath) :
    (fs.atTime now).makeDirectories p = (fs.makeDirectories p).map (·.atTime now) := by
  rw [makeDirectories, makeDirectories]
  generalize p.names.length = depth
  induction depth generalizing p with
  | zero => exact ensureDirectory_atTime p
  | succ depth ih =>
      simp only [makeDirectoriesTo, makeDirectory_atTime, isDirectory_atTime, ih]
      cases fs.makeDirectory p with
      | ok made => rfl
      | error e =>
          obtain ⟨cause, q⟩ := e
          cases cause with
          | notFound =>
              dsimp only [Except.map]
              split
              · rfl
              · cases fs.makeDirectoriesTo p.parent depth with
                | ok made => exact ensureDirectory_atTime p
                | error e => rfl
          | alreadyExists | notDirectory | isDirectory =>
              dsimp only [Except.map]
              split <;> rfl

end FileSystem

end DesignRegistry
