/-
**Free names.**

A snapshot is named after the time it is taken.  If that name is taken, numbers are tried in turn; the
names that are tried are all different, and a directory with fewer entries than names that are tried
leaves one of them free.  So the search comes to an end, and it ends at the first name that is free.

Main definitions:

* `snapshotCandidate` — the names in the order in which they are tried.

Main results:

* `FileSystem.exists_free` — not all of the names are taken;
* `FileSystem.freePath_free` — **the first free name is found**;
* `FileSystem.create_freePath` — **a snapshot is created under the first free name**.
-/
import DesignRegistry.Proofs.Storage.Snapshot
import Mathlib.Data.List.Nodup
import Mathlib.Data.List.Perm.Subperm
import Mathlib.Data.Nat.Find

set_option relaxedAutoImplicit false
set_option autoImplicit false

namespace DesignRegistry

/-- The name that is tried after `n` others. -/
def snapshotCandidate (stem : String) : ℕ → String
  | 0 => stem ++ ".json"
  | n + 1 => stem ++ "-" ++ natText (n + 1) ++ ".json"

theorem snapshotName_candidate {stem : String} (h : '/' ∉ stem.toList) (n : ℕ) :
    SnapshotName (snapshotCandidate stem n) := by
  cases n with
  | zero => exact snapshotName_append h
  | succ n => exact snapshotName_append (slash_notMem_numbered h (n + 1))

theorem toList_snapshotCandidate_succ (stem : String) (n : ℕ) :
    (snapshotCandidate stem (n + 1)).toList =
      stem.toList ++ '-' :: (natDigits (n + 1) ++ ".json".toList) := by
  rw [snapshotCandidate, String.toList_append, String.toList_append, String.toList_append, natText,
    List.append_assoc, List.append_assoc, String.toList_ofList (l := natDigits (n + 1))]
  rfl

/-- The names that are tried are different. -/
theorem snapshotCandidate_injective (stem : String) : (snapshotCandidate stem).Injective := by
  intro m n h
  have htexts := congrArg String.toList h
  cases m with
  | zero =>
      cases n with
      | zero => rfl
      | succ n =>
          rw [snapshotCandidate, String.toList_append, toList_snapshotCandidate_succ] at htexts
          exact absurd (congrArg List.head? (List.append_cancel_left htexts)) (by simp)
  | succ m =>
      cases n with
      | zero =>
          rw [toList_snapshotCandidate_succ, snapshotCandidate, String.toList_append] at htexts
          exact absurd (congrArg List.head? (List.append_cancel_left htexts)) (by simp)
      | succ n =>
          rw [toList_snapshotCandidate_succ, toList_snapshotCandidate_succ] at htexts
          have hdigits := (List.cons.inj (List.append_cancel_left htexts)).2
          exact natDigits_injective (List.append_cancel_right hdigits)

namespace FileSystem

variable {fs : FileSystem} {directory : FilePath} {stem : String}

/-- Among more names than there are entries one is free. -/
theorem exists_free {loc : Location} (hdirectory : fs.entryAt directory = .ok (loc, some .directory))
    (hstem : '/' ∉ stem.toList) :
    ∃ n ≤ fs.entries.length, fs.pathExists (directory.child (snapshotCandidate stem n)) = false := by
  by_contra hnone
  simp only [not_exists, not_and, Bool.not_eq_false] at hnone
  obtain ⟨hloc, hentry⟩ := entryAt_eq_ok.1 hdirectory
  -- each of the names stands for an entry, and different ones for different entries
  let places := (List.range (fs.entries.length + 1)).map fun n => loc ++ [snapshotCandidate stem n]
  have hdistinct : places.Nodup := by
    refine List.Nodup.map (fun m n h => ?_) List.nodup_range
    exact snapshotCandidate_injective stem (List.singleton_inj.1 (List.append_cancel_left h))
  have htaken : places ⊆ fs.entries.map Prod.fst := by
    intro place hplace
    obtain ⟨n, hn, rfl⟩ := List.mem_map.1 hplace
    have hexists := hnone n (Nat.lt_succ_iff.1 (List.mem_range.1 hn))
    rw [pathExists, Option.isSome_iff_exists] at hexists
    obtain ⟨e, he⟩ := hexists
    obtain ⟨l, hl, hstands⟩ := at?_eq_some.1 he
    rw [locate_child hloc hentry, goTo, if_neg (snapshotName_candidate hstem n).down] at hl
    obtain rfl := Except.ok.inj hl
    rw [entryAt?_of_ne_nil _ (by simp)] at hstands
    exact List.mem_map.2 ⟨_, mem_of_find hstands, rfl⟩
  have hlength := (hdistinct.subperm htaken).length_le
  simp only [places, List.length_map, List.length_range] at hlength
  omega

/-- The search tries the names in turn. -/
theorem freePathFrom_of_free (hstem : '/' ∉ stem.toList) {n m tries : ℕ} (hlower : n ≤ m)
    (hupper : m ≤ n + tries)
    (htaken : ∀ k, n ≤ k → k < m →
      fs.pathExists (directory.child (snapshotCandidate stem (k + 1))) = true)
    (hfree : fs.pathExists (directory.child (snapshotCandidate stem (m + 1))) = false) :
    fs.freePathFrom directory stem (n + 1) tries =
      directory.child (snapshotCandidate stem (m + 1)) := by
  have hjoin : ∀ n, directory.join (.ofText (stem ++ "-" ++ natText (n + 1) ++ ".json")) =
      directory.child (snapshotCandidate stem (n + 1)) :=
    fun n => FilePath.join_ofText (snapshotName_candidate hstem (n + 1)).plain directory
  induction tries generalizing n with
  | zero =>
      rw [freePathFrom, hjoin, show n = m by omega]
  | succ tries ih =>
      rw [freePathFrom, hjoin]
      by_cases hn : n = m
      · rw [hn, if_neg (by simp [hfree])]
      · rw [if_pos (htaken n (Nat.le_refl n) (by omega))]
        exact ih (by omega) (by omega) fun k hk => htaken k (by omega)

/-- **The first free name is found.** -/
theorem freePath_free {loc : Location}
    (hdirectory : fs.entryAt directory = .ok (loc, some .directory)) (hstem : '/' ∉ stem.toList) :
    ∃ n, fs.freePath directory stem = directory.child (snapshotCandidate stem n) ∧
      fs.pathExists (directory.child (snapshotCandidate stem n)) = false ∧
      ∀ k < n, fs.pathExists (directory.child (snapshotCandidate stem k)) = true := by
  classical
  obtain ⟨bound, hbound, hsome⟩ := exists_free hdirectory hstem
  have hexists : ∃ n, fs.pathExists (directory.child (snapshotCandidate stem n)) = false :=
    ⟨bound, hsome⟩
  have htaken : ∀ k < Nat.find hexists,
      fs.pathExists (directory.child (snapshotCandidate stem k)) = true := by
    intro k hk
    exact Bool.not_eq_false _ ▸ Nat.find_min hexists hk
  have hleast : Nat.find hexists ≤ bound := Nat.find_min' hexists hsome
  have hfree := Nat.find_spec hexists
  generalize Nat.find hexists = n at htaken hleast hfree
  refine ⟨n, ?_, hfree, htaken⟩
  have hjoin : directory.join (.ofText (stem ++ ".json")) =
      directory.child (snapshotCandidate stem 0) :=
    FilePath.join_ofText (snapshotName_candidate hstem 0).plain directory
  rw [freePath, hjoin]
  cases n with
  | zero => rw [if_neg (by simp [hfree])]
  | succ n =>
      rw [if_pos (htaken 0 (Nat.succ_pos n))]
      exact freePathFrom_of_free hstem (Nat.zero_le n) (by omega)
        (fun k _ hk => htaken (k + 1) (Nat.succ_lt_succ hk)) hfree

/-! ### A new file -/

/-- A new file can be created where a directory leads to nothing. -/
theorem create_eq_ok_of_free {loc : Location} {name : String} (bytes : ByteArray)
    (hdirectory : fs.entryAt directory = .ok (loc, some .directory))
    (hfree : fs.pathExists (directory.child name) = false) :
    ∃ fs', fs.create (directory.child name) bytes = .ok fs' := by
  obtain ⟨hloc, hentry⟩ := entryAt_eq_ok.1 hdirectory
  have hnone : fs.at? (directory.child name) = none := by
    rwa [pathExists, Option.isSome_eq_false_iff, Option.isNone_iff_eq_none] at hfree
  rw [at?_child hdirectory] at hnone
  have hat : fs.entryAt (directory.child name) = .ok (goTo loc name, none) :=
    entryAt_eq_ok.2 ⟨locate_child hloc hentry name, hnone⟩
  refine ⟨fs.withEntry (goTo loc name) (.file bytes fs.now), ?_⟩
  rw [create, hat]

/-- **A snapshot is created under the first free name.** -/
theorem create_freePath {loc : Location} {front : String} (hfront : '/' ∉ front.toList)
    (hdirectory : fs.entryAt directory = .ok (loc, some .directory)) (t : Moment) (doc : Json) :
    ∃ name fs', SnapshotName name ∧ fs.pathExists (directory.child name) = false ∧
      fs.create (directory.child name) doc.pretty.toUTF8 = .ok fs' ∧
      fs.addSnapshot directory front t.timestamp doc = .ok (directory.child name, fs') := by
  have hstem := slash_notMem_stem hfront t
  obtain ⟨n, hpath, hfree, -⟩ := freePath_free hdirectory hstem
  obtain ⟨fs', hcreate⟩ := create_eq_ok_of_free doc.pretty.toUTF8 hdirectory hfree
  refine ⟨_, fs', snapshotName_candidate hstem n, hfree, hcreate, ?_⟩
  unfold addSnapshot
  simp only [hpath, hcreate]

end FileSystem

end DesignRegistry
