/-
**Differences are seen.**

A summary compares the texts of two documents as files.  Since different documents have different texts,
it reports a change whenever they differ in anything: a value, the kind of a number, or the order of keys,
and also if their texts have one length.

It is there for documents that have a text.

Main results:

* `sizeChange_eq_ok`, `hasText_of_sizeChange`, `sizeChange_eq_error_iff` — when two documents are
  compared;
* `diffSummary_exact` — **what a summary reports**.
-/
import DesignRegistry.Patch.Difference
import DesignRegistry.Proofs.Json.Distinct
import DesignRegistry.Proofs.Json.Legible

set_option relaxedAutoImplicit false
set_option autoImplicit false

namespace DesignRegistry

variable {earlier later : Json}

/-- Two documents with a text are compared. -/
theorem sizeChange_eq_ok (hearlier : earlier.hasText = true) (hlater : later.hasText = true) :
    sizeChange earlier later = .ok (sizeChange? earlier later) := by
  rw [sizeChange, hearlier, hlater]
  rfl

/-- Two documents that are compared have a text. -/
theorem hasText_of_sizeChange {change : Option SizeChange} (h : sizeChange earlier later = .ok change) :
    earlier.hasText = true ∧ later.hasText = true := by
  rw [sizeChange] at h
  split at h
  · next htexts => exact Bool.and_eq_true_iff.1 htexts
  · exact nomatch h

/-- Where one of two documents has no text, they are not compared. -/
theorem sizeChange_eq_error_iff {fault : Json.TextFault} : sizeChange earlier later = .error fault ↔
    earlier.hasText = false ∨ later.hasText = false := by
  rw [sizeChange, ← Bool.and_eq_false_iff]
  cases earlier.hasText && later.hasText with
  | false => exact iff_of_true (by cases fault; rfl) rfl
  | true => exact iff_of_false (by simp) (by simp)

/-- **A summary reports a change just if the documents are not the same**, key order and kinds of numbers
included.  It is one change then, with the sizes of both texts in bytes, whether these differ or not. -/
theorem diffSummary_exact (hearlier : earlier.FiniteFloats) (hlater : later.FiniteFloats)
    (htext : earlier.hasText = true ∧ later.hasText = true) :
    ∃ change, sizeChange earlier later = .ok change
      ∧ ((diffSummary change).field? "hasChanges" = some (.bool false) ↔ earlier = later)
      ∧ (earlier = later → diffSummary change =
        .obj [("hasChanges", .bool false), ("changes", .arr []),
          ("summary", .str "0 change(s) detected")])
      ∧ (earlier ≠ later → diffSummary change =
        .obj [("hasChanges", .bool true),
          ("changes", .arr [.obj [("type", .str "modified"),
            ("description", .str "registry structure changed"),
            ("original", .int earlier.pretty.toUTF8.size),
            ("modified", .int later.pretty.toUTF8.size)]]),
          ("summary", .str "1 change(s) detected")]) := by
  refine ⟨_, sizeChange_eq_ok htext.1 htext.2, ?_⟩
  rw [sizeChange?]
  by_cases heq : earlier = later
  · rw [if_pos (congrArg Json.pretty heq)]
    exact ⟨iff_of_true rfl heq, fun _ => rfl, fun hne => absurd heq hne⟩
  · have hcount : natText 1 ++ " change(s) detected" = "1 change(s) detected" := by decide
    rw [if_neg fun hpretty => heq (Json.pretty_inj hearlier hlater hpretty)]
    refine ⟨iff_of_false ?_ heq, fun h => absurd h heq, fun _ => ?_⟩
    · simp [diffSummary, Json.field?, Json.Members.get?]
    · rw [← hcount]
      rfl

/-- Two texts of one length, in which two keys have changed places. -/
theorem diffSummary_exact_reordered :
    ∃ change, sizeChange (.obj [("ä", .int 1), ("b", .bool true)])
        (.obj [("b", .bool true), ("ä", .int 1)]) = .ok change ∧
      diffSummary change =
        .obj [("hasChanges", .bool true),
          ("changes", .arr [.obj [("type", .str "modified"),
            ("description", .str "registry structure changed"),
            ("original", .int 27), ("modified", .int 27)]]),
          ("summary", .str "1 change(s) detected")] := by
  obtain ⟨change, hchange, -, -, hsummary⟩ := @diffSummary_exact
    (.obj [("ä", .int 1), ("b", .bool true)]) (.obj [("b", .bool true), ("ä", .int 1)])
    ⟨trivial, trivial, trivial⟩ ⟨trivial, trivial, trivial⟩ ⟨by decide, by decide⟩
  refine ⟨change, hchange, (hsummary ?_).trans ?_⟩
  · intro heq
    simp at heq
  · rfl

/-- An integer of more than 4300 digits is added, and nothing is reported. -/
theorem diffSummary_exact_long :
    (Json.obj []).FiniteFloats ∧ (Json.obj [("x", .int (10 ^ 5000))]).FiniteFloats ∧
      Json.obj [] ≠ .obj [("x", .int (10 ^ 5000))] ∧
      sizeChange (.obj []) (.obj [("x", .int (10 ^ 5000))]) = .error .tooManyDigits := by
  exact ⟨trivial, ⟨trivial, trivial⟩, fun h => List.cons_ne_nil _ _ (Json.obj.inj h).symm,
    sizeChange_eq_error_iff.2 (.inr (Json.hasText_obj_int_pow (by decide)))⟩

end DesignRegistry
