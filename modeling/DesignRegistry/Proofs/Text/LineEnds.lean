/-
**Line ends.**

A reader that knows line feeds only changes nothing in a text without carriage returns.  Two texts in a row
are read one after the other, unless a line end of two characters is cut between them.

Main results:

* `plainLineEnds_of_notMem` — a text without carriage returns is read as it stands;
* `plainLineEnds_append` — **texts in a row are read one after the other**;
* `exists_plainLineEnds_append` — what is behind a line feed is read on its own.
-/
import DesignRegistry.Text.Encoded
import Mathlib.Data.List.Basic

set_option relaxedAutoImplicit false
set_option autoImplicit false

namespace DesignRegistry

/-- A text without carriage returns is read as it stands. -/
theorem plainLineEnds_of_notMem {cs : List Char} (h : '\r' ∉ cs) : plainLineEnds cs = cs := by
  induction cs with
  | nil => rfl
  | cons c cs ih =>
      rw [List.mem_cons, not_or] at h
      rw [plainLineEnds.eq_4 _ _ (fun rest hc _ => h.1 hc.symm) (fun hc => h.1 hc.symm), ih h.2]

/-- Texts in a row are read one after the other if no line end is cut between them. -/
theorem plainLineEnds_append {s t : List Char}
    (h : s.getLast? = some '\r' → t.head? ≠ some '\n') :
    plainLineEnds (s ++ t) = plainLineEnds s ++ plainLineEnds t := by
  -- what is at the end of a text is at its end with more in front of it
  have hlast {c d : Char} {s : List Char} (hs : s.getLast? = some d) : (c :: s).getLast? = some d := by
    rw [List.getLast?_cons, hs]
    rfl
  induction s using plainLineEnds.induct with
  | case1 => rfl
  | case2 rest ih =>
      rw [List.cons_append, List.cons_append, plainLineEnds.eq_2, plainLineEnds.eq_2,
        ih fun hrest => h (hlast (hlast hrest)), List.cons_append]
  | case3 rest hnot ih =>
      have hbreak : ∀ more, rest ++ t = '\n' :: more → False := by
        intro more hmore
        cases rest with
        | nil =>
            rw [List.nil_append] at hmore
            exact h rfl (by rw [hmore]; rfl)
        | cons c rest => exact hnot rest (by rw [(List.cons.inj hmore).1])
      rw [List.cons_append, plainLineEnds.eq_3 _ hbreak, plainLineEnds.eq_3 _ hnot,
        ih fun hrest => h (hlast hrest), List.cons_append]
  | case4 c rest hpair hsingle ih =>
      rw [List.cons_append, plainLineEnds.eq_4 _ _ (fun _ hc _ => hsingle hc) hsingle,
        plainLineEnds.eq_4 _ _ (fun _ hc _ => hsingle hc) hsingle, ih fun hrest => h (hlast hrest),
        List.cons_append]

/-- What stands behind a text without carriage returns is read on its own. -/
theorem plainLineEnds_append_of_notMem {s : List Char} (h : '\r' ∉ s) (t : List Char) :
    plainLineEnds (s ++ t) = s ++ plainLineEnds t := by
  rw [plainLineEnds_append fun hlast => absurd (List.mem_of_getLast? hlast) h,
    plainLineEnds_of_notMem h]

/-- Whatever the line ends of a text are, its last line feed stays where it separates what is behind it. -/
theorem exists_plainLineEnds_append (front : List Char) :
    ∃ plain, ∀ back, plainLineEnds (front ++ '\n' :: back) = plain ++ '\n' :: plainLineEnds back := by
  obtain ⟨plain, hfront⟩ : ∃ plain, plainLineEnds (front ++ ['\n']) = plain ++ ['\n'] := by
    rcases front.eq_nil_or_concat with rfl | ⟨text, c, rfl⟩
    · exact ⟨[], rfl⟩
    · by_cases hc : c = '\r'
      · -- the carriage return and the line feed are one line end
        subst hc
        refine ⟨plainLineEnds text, ?_⟩
        rw [List.concat_eq_append, List.append_assoc, plainLineEnds_append fun _ => by decide]
        rfl
      · refine ⟨plainLineEnds (text.concat c), plainLineEnds_append fun hlast => ?_⟩
        rw [List.concat_eq_append, List.getLast?_concat, Option.some.injEq] at hlast
        exact absurd hlast hc
  refine ⟨plain, fun back => ?_⟩
  have hlast : (front ++ ['\n']).getLast? = some '\n' := List.getLast?_concat
  rw [← List.singleton_append, ← List.append_assoc, plainLineEnds_append fun h => ?_, hfront,
    List.append_assoc]
  · rfl
  · rw [hlast] at h
    exact absurd h (by decide)

end DesignRegistry
