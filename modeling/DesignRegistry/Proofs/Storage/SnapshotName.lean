/-
**Names of snapshots and their order.**

A snapshot's name is its front, the stamp of its time, a number if others have the same stamp, and the
ending.  A stamp ends in a letter that no number has, so that a name tells the stem from the number.

Names of one front are in the order of their stamps, whatever their numbers are, since all stamps have one
length.  Names of one stem are not in the order of their numbers: a name with a number comes before the
one without, and of two with numbers the digits decide, so that `-10` comes before `-9`.

Main definitions:

* `snapshotNumber` — what stands between the stamp and the ending;
* `Stamped` — what ends in the last letter of a stamp.

Main results:

* `snapshotCandidate_inj` — a name tells its stem and its number;
* `snapshotCandidate_lt_of_stamp` — **different stamps order names**;
* `snapshotCandidate_succ_lt_zero` — **numbers do not**.
-/
import DesignRegistry.Proofs.Storage.FreeName
import Mathlib.Data.String.Basic

set_option relaxedAutoImplicit false
set_option autoImplicit false

namespace DesignRegistry

/-! ### Stems and numbers -/

/-- What stands between the stamp and the ending of the name that is tried after `n` others. -/
def snapshotNumber : ℕ → List Char
  | 0 => []
  | n + 1 => '-' :: natDigits (n + 1)

theorem toList_snapshotCandidate (stem : String) (n : ℕ) :
    (snapshotCandidate stem n).toList = stem.toList ++ (snapshotNumber n ++ ".json".toList) := by
  cases n with
  | zero =>
      rw [snapshotCandidate, String.toList_append]
      rfl
  | succ n =>
      rw [toList_snapshotCandidate_succ]
      rfl

theorem ending_snapshotCandidate (stem : String) (n : ℕ) :
    Text.hasBack (snapshotCandidate stem n) ".json" = true := by
  cases n with
  | zero => exact Text.hasBack_append stem ".json"
  | succ n => exact Text.hasBack_append _ ".json"

theorem snapshotNumber_injective : snapshotNumber.Injective := by
  intro m n h
  cases m with
  | zero =>
      cases n with
      | zero => rfl
      | succ n => exact absurd h (by simp [snapshotNumber])
  | succ m =>
      cases n with
      | zero => exact absurd h (by simp [snapshotNumber])
      | succ n => exact natDigits_injective (List.cons.inj h).2

theorem notMem_snapshotNumber (n : ℕ) : 'Z' ∉ snapshotNumber n := by
  cases n with
  | zero => exact List.not_mem_nil
  | succ n =>
      rw [snapshotNumber, List.mem_cons, not_or]
      exact ⟨by decide, fun h => absurd (isDigit_of_mem_natDigits h) (by decide)⟩

/-- What ends in the last letter of a stamp. -/
def Stamped (stem : String) : Prop := ∃ front, stem.toList = front ++ ['Z']

theorem stamped_snapshotStem (front : String) (t : Moment) :
    Stamped (snapshotStem front t.timestamp) := by
  have hstamp : (filenameStamp t.timestamp).toList =
      ((t.secondsChars ['T'] ++ '.' :: padded 3 (t.millisOfDay % 1000)).map
        fun c => if c = ':' ∨ c = '.' then '-' else c) ++ ['Z'] := by
    rw [filenameStamp, String.toList_ofList, Moment.timestamp, String.toList_ofList,
      Moment.timestampChars, List.map_append]
    rfl
  refine ⟨(front ++ "-backup-").toList ++ ((t.secondsChars ['T'] ++
    '.' :: padded 3 (t.millisOfDay % 1000)).map fun c => if c = ':' ∨ c = '.' then '-' else c), ?_⟩
  rw [snapshotStem, String.toList_append, hstamp, List.append_assoc]

/-- Behind the last letter of a stamp stands the number. -/
theorem takeWhile_reverse_numbered {stem : String} (h : Stamped stem) (n : ℕ) :
    (stem.toList ++ snapshotNumber n).reverse.takeWhile (· != 'Z') = (snapshotNumber n).reverse := by
  obtain ⟨front, hfront⟩ := h
  have hnumber : ∀ c ∈ (snapshotNumber n).reverse, (c != 'Z') = true := by
    intro c hc
    rw [bne_iff_ne]
    rintro rfl
    exact notMem_snapshotNumber n (List.mem_reverse.1 hc)
  rw [hfront, List.reverse_append, List.takeWhile_append_of_pos hnumber, List.reverse_append]
  exact List.append_nil _

/-- A name tells its stem and its number. -/
theorem snapshotCandidate_inj {stem stem' : String} (h : Stamped stem) (h' : Stamped stem') {m n : ℕ} :
    snapshotCandidate stem m = snapshotCandidate stem' n ↔ stem = stem' ∧ m = n := by
  constructor
  · intro hsame
    have htexts := congrArg String.toList hsame
    rw [toList_snapshotCandidate, toList_snapshotCandidate, ← List.append_assoc, ← List.append_assoc]
      at htexts
    have hnumbered := List.append_cancel_right htexts
    have hnumber := congrArg (fun cs => cs.reverse.takeWhile (· != 'Z')) hnumbered
    simp only [takeWhile_reverse_numbered h, takeWhile_reverse_numbered h'] at hnumber
    obtain rfl := snapshotNumber_injective (List.reverse_inj.1 hnumber)
    exact ⟨String.toList_injective (List.append_cancel_right hnumbered), rfl⟩
  · rintro ⟨rfl, rfl⟩
    rfl

/-! ### Order -/

/-- **Different stamps order names** of one front, whatever their numbers are. -/
theorem snapshotCandidate_lt_of_stamp {front timestamp timestamp' : String}
    (hlength : (filenameStamp timestamp).length = (filenameStamp timestamp').length)
    (h : filenameStamp timestamp < filenameStamp timestamp') (m n : ℕ) :
    snapshotCandidate (snapshotStem front timestamp) m <
      snapshotCandidate (snapshotStem front timestamp') n := by
  rw [String.lt_iff_toList_lt, toList_snapshotCandidate, toList_snapshotCandidate, snapshotStem,
    snapshotStem, String.toList_append, String.toList_append (t := filenameStamp timestamp'),
    List.append_assoc, List.append_assoc]
  exact List.append_left_lt ((append_lt_append_iff hlength _ _).2 (.inl (String.lt_iff_toList_lt.1 h)))

/-- What stands behind one stem decides. -/
theorem snapshotCandidate_lt_of_number (stem : String) {m n : ℕ}
    (h : snapshotNumber m ++ ".json".toList < snapshotNumber n ++ ".json".toList) :
    snapshotCandidate stem m < snapshotCandidate stem n := by
  rw [String.lt_iff_toList_lt, toList_snapshotCandidate, toList_snapshotCandidate]
  exact List.append_left_lt h

/-- **A name with a number comes before the one without.** -/
theorem snapshotCandidate_succ_lt_zero (stem : String) (n : ℕ) :
    snapshotCandidate stem (n + 1) < snapshotCandidate stem 0 :=
  snapshotCandidate_lt_of_number stem (List.cons_lt_cons_iff.2 (.inl (by decide)))

example (stem : String) : snapshotCandidate stem 10 < snapshotCandidate stem 9 :=
  snapshotCandidate_lt_of_number stem (by decide)

end DesignRegistry
