/-
**Runs of characters.**

A pattern that repeats one set of characters matches a run of them, of any length from the least one on:
the order in which it tries lengths decides which match is preferred, not which ones there are.  Patterns
that follow each other match texts that follow each other, and a pattern that asks for the start of the
text matches nowhere else.

Main definitions:

* `Cursor.past` — the place behind some characters;
* `CharClass.Fills` — a run of characters of a set.

Main results:

* `Pattern.mem_ends_run` — **where a repeated set can end**;
* `Pattern.occursIn_textStart` — a pattern that asks for the start of the text.
-/
import DesignRegistry.Pattern.Basic
import Mathlib.Data.List.Basic

set_option relaxedAutoImplicit false
set_option autoImplicit false

namespace DesignRegistry

/-- The place behind some characters, with those that follow. -/
def Cursor.past (c : Cursor) (run rest : List Char) : Cursor :=
  { c with before := run.reverse ++ c.before, rest := rest }

theorem Cursor.past_nil (c : Cursor) : c.past [] c.rest = c := rfl

theorem Cursor.past_past (c : Cursor) (run run' rest rest' : List Char) :
    (c.past run rest).past run' rest' = c.past (run ++ run') rest' := by
  simp [past]

/-- All characters of a run are in a set. -/
def CharClass.Fills (set : CharClass) (run : List Char) : Prop := ∀ x ∈ run, set.contains x = true

theorem CharClass.fills_cons {set : CharClass} {x : Char} {run : List Char} :
    set.Fills (x :: run) ↔ set.contains x = true ∧ set.Fills run := List.forall_mem_cons

theorem CharClass.fills_append {set : CharClass} {run run' : List Char} :
    set.Fills (run ++ run') ↔ set.Fills run ∧ set.Fills run' := List.forall_mem_append

namespace Pattern

variable {set : CharClass} {c d : Cursor}

theorem mem_ends_one : d ∈ ends (.one set) c ↔
    ∃ x rest, c.rest = x :: rest ∧ set.contains x = true ∧ d = c.past [x] rest := by
  rw [ends]
  cases c.rest with
  | nil => simp
  | cons x rest =>
      simp only [List.cons.injEq]
      constructor
      · intro hd
        split at hd
        · next hx => exact ⟨x, rest, ⟨rfl, rfl⟩, hx, List.mem_singleton.1 hd⟩
        · exact absurd hd List.not_mem_nil
      · rintro ⟨y, rest', ⟨rfl, rfl⟩, hx, rfl⟩
        rw [if_pos hx]
        exact List.mem_singleton.2 rfl

theorem mem_ends_seq {p q : Pattern} : d ∈ ends (.seq p q) c ↔ ∃ m ∈ ends p c, d ∈ ends q m := by
  rw [ends, List.mem_flatMap]

/-- A set taken so many times matches a run of that length. -/
theorem mem_times_one {n : ℕ} : d ∈ times (ends (.one set)) n c ↔
    ∃ run rest, c.rest = run ++ rest ∧ run.length = n ∧ set.Fills run ∧ d = c.past run rest := by
  induction n generalizing c with
  | zero =>
      rw [times, List.mem_singleton]
      constructor
      · rintro rfl
        exact ⟨[], d.rest, rfl, rfl, fun x hx => absurd hx List.not_mem_nil, d.past_nil.symm⟩
      · rintro ⟨run, rest, hrest, hlength, -, rfl⟩
        obtain rfl := List.eq_nil_of_length_eq_zero hlength
        rw [← List.nil_append rest, ← hrest, c.past_nil]
  | succ n ih =>
      rw [times, List.mem_flatMap]
      simp only [ih, mem_ends_one]
      constructor
      · rintro ⟨m, ⟨x, rest, hrest, hx, rfl⟩, run, rest', hrun, hlength, hfills, rfl⟩
        refine ⟨x :: run, rest', ?_, by rw [List.length_cons, hlength],
          CharClass.fills_cons.2 ⟨hx, hfills⟩, c.past_past [x] run rest rest'⟩
        rw [hrest, List.cons_append]
        exact congrArg (x :: ·) hrun
      · rintro ⟨run, rest, hrest, hlength, hfills, rfl⟩
        cases run with
        | nil => exact absurd hlength (by simp)
        | cons x run =>
            obtain ⟨hx, hfills⟩ := CharClass.fills_cons.1 hfills
            exact ⟨_, ⟨x, run ++ rest, hrest, hx, rfl⟩, run, rest, rfl, Nat.succ.inj hlength, hfills,
              (c.past_past [x] run (run ++ rest) rest).symm⟩

/-- A set taken at most so many times matches a run of at most that length, whichever is preferred. -/
theorem mem_upTo_one {longest : Bool} {n : ℕ} : d ∈ upTo (ends (.one set)) longest n c ↔
    ∃ run rest, c.rest = run ++ rest ∧ run.length ≤ n ∧ set.Fills run ∧ d = c.past run rest := by
  induction n generalizing c with
  | zero =>
      rw [upTo, show [c] = times (ends (.one set)) 0 c from rfl, mem_times_one]
      simp
  | succ n ih =>
      have hcases : d ∈ upTo (ends (.one set)) longest (n + 1) c ↔
          d = c ∨ ∃ m ∈ ends (.one set) c, d ∈ upTo (ends (.one set)) longest n m := by
        have hmoves : ∀ m ∈ ends (.one set) c, m.rest.length < c.rest.length := by
          intro m hm
          obtain ⟨x, rest, hrest, -, rfl⟩ := mem_ends_one.1 hm
          rw [hrest]
          exact Nat.lt_succ_self rest.length
        rw [upTo, List.flatMap_congr fun m hm => if_pos (hmoves m hm)]
        cases longest with
        | true => rw [if_pos rfl, List.mem_append, List.mem_singleton, List.mem_flatMap, or_comm]
        | false => rw [if_neg (by simp), List.mem_cons, List.mem_flatMap]
      rw [hcases]
      simp only [ih, mem_ends_one]
      constructor
      · rintro (rfl | ⟨m, ⟨x, rest, hrest, hx, rfl⟩, run, rest', hrun, hlength, hfills, rfl⟩)
        · exact ⟨[], d.rest, rfl, Nat.zero_le _, fun x hx => absurd hx List.not_mem_nil,
            d.past_nil.symm⟩
        · refine ⟨x :: run, rest', ?_, Nat.succ_le_succ hlength, CharClass.fills_cons.2 ⟨hx, hfills⟩,
            c.past_past [x] run rest rest'⟩
          rw [hrest, List.cons_append]
          exact congrArg (x :: ·) hrun
      · rintro ⟨run, rest, hrest, hlength, hfills, rfl⟩
        cases run with
        | nil =>
            refine .inl ?_
            rw [← List.nil_append rest, ← hrest, c.past_nil]
        | cons x run =>
            obtain ⟨hx, hfills⟩ := CharClass.fills_cons.1 hfills
            exact .inr ⟨_, ⟨x, run ++ rest, hrest, hx, rfl⟩, run, rest, rfl,
              Nat.le_of_succ_le_succ hlength, hfills,
              (c.past_past [x] run (run ++ rest) rest).symm⟩

theorem repetitions_of_ne {step : Cursor → List Cursor} {preference : Preference}
    (hpreference : preference ≠ .committed) (least : ℕ) (most : Option ℕ) (c : Cursor) :
    repetitions step preference least most c = (times step least c).flatMap fun d =>
      upTo step (preference != .shortest) ((most.map (· - least)).getD (d.rest.length + 1)) d := by
  simp only [repetitions, if_neg hpreference]

/-- A repeated set ends behind each run of at least the least length. -/
theorem mem_ends_run {preference : Preference} (hpreference : preference ≠ .committed)
    {least : ℕ} : d ∈ ends (.repeated preference least none (.one set)) c ↔
      ∃ run rest, c.rest = run ++ rest ∧ least ≤ run.length ∧ set.Fills run ∧
        d = c.past run rest := by
  rw [ends, repetitions_of_ne hpreference, List.mem_flatMap]
  simp only [Option.map_none, Option.getD_none, mem_times_one, mem_upTo_one]
  constructor
  · rintro ⟨m, ⟨run, rest, hrest, hlength, hfills, rfl⟩, run', rest', hrun', -, hfills', rfl⟩
    refine ⟨run ++ run', rest', ?_, ?_, CharClass.fills_append.2 ⟨hfills, hfills'⟩,
      c.past_past run run' rest rest'⟩
    · rw [hrest, List.append_assoc]
      exact congrArg (run ++ ·) hrun'
    · rw [List.length_append, hlength]
      exact Nat.le_add_right least _
  · rintro ⟨run, rest, hrest, hlength, hfills, rfl⟩
    rw [← List.take_append_drop least run, CharClass.fills_append] at hfills
    refine ⟨_, ⟨run.take least, run.drop least ++ rest, ?_, ?_, hfills.1, rfl⟩,
      run.drop least, rest, rfl, ?_, hfills.2, ?_⟩
    · rw [← List.append_assoc, List.take_append_drop, hrest]
    · rw [List.length_take, Nat.min_eq_left hlength]
    · change _ ≤ (run.drop least ++ rest).length + 1
      rw [List.length_append, Nat.add_assoc]
      exact Nat.le_add_right _ _
    · rw [c.past_past, List.take_append_drop]

/-- A pattern that asks for the start of the text matches there or nowhere. -/
theorem occursIn_textStart {p : Pattern} {text : String} :
    occursIn (.seq (.anchor .textStart) p) text = true ↔
      ∃ d, d ∈ ends p ⟨[], text.toList, []⟩ := by
  have hlater : ∀ x before rest, occursFrom (.seq (.anchor .textStart) p) (x :: before) rest = false := by
    intro x before rest
    induction rest generalizing x before with
    | nil => rfl
    | cons y rest ih =>
        rw [occursFrom, ih y (x :: before), Bool.or_false]
        rfl
  have hstart : ∀ rest, ends (.seq (.anchor .textStart) p) ⟨[], rest, []⟩ = ends p ⟨[], rest, []⟩ := by
    intro rest
    rw [ends, ends, if_pos (by rfl), List.flatMap_singleton]
  have hfirst : occursIn (.seq (.anchor .textStart) p) text =
      !(ends p ⟨[], text.toList, []⟩).isEmpty := by
    rw [occursIn]
    cases text.toList with
    | nil => rw [occursFrom, hstart]
    | cons x rest => rw [occursFrom, hlater, Bool.or_false, hstart]
  rw [hfirst, Bool.not_eq_true', List.isEmpty_eq_false_iff_exists_mem]

end Pattern

end DesignRegistry
