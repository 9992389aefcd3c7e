/-
**References to tokens.**

A script refers to a token as a variable or in a call, and the rule about tokens reports each reference
that names none.  What a reference is and which ones a line has is told here without the search: from the
left, each place that one starts at belongs to it up to its end.  A name stands for a token if it is the
token's own, or the token's with dashes for dots, or becomes the token's with dots for dashes.  The rule
looks names up among two spellings of each token, and once more with dots for dashes; this accepts no
other names, since a name that has become all dots can only be a spelling without dashes.

In a call the name stands in quotes of either kind, and the two need not be of the same kind.

Main definitions:

* `Token.IsReference` — how a reference is written;
* `Token.References` — the references in a line, each with its column;
* `Token.StandsFor` — the names of a token.

Main results:

* `Token.References.unique` — a line has one list of references;
* `Token.references_occurrences` — it is what the search finds;
* `Token.isKnown_iff` — the names that are looked up with success stand for a token;
* `Token.token_errors_exact` — **each reference that stands for no token is reported, and nothing else**.
-/
import DesignRegistry.Contract.Check
import DesignRegistry.Proofs.Json.Content
import DesignRegistry.Proofs.Text.Pieces
import Mathlib.Data.List.Forall2
import Mathlib.Data.List.Infix
import Mathlib.Data.List.TakeWhile

set_option relaxedAutoImplicit false
set_option autoImplicit false

namespace DesignRegistry

/-! ### Runs of characters -/

theorem spanIn?_append {test : Char → Bool} {run : List Char} {c : Char} (hne : run ≠ [])
    (hrun : ∀ d ∈ run, test d = true) (hc : test c = false) (rest : List Char) :
    spanIn? test (run ++ c :: rest) = some (run, c :: rest) := by
  rw [spanIn?, takeWhile_run hrun hc, dropWhile_run hrun hc, if_neg (by simpa using hne)]

theorem eq_append_of_spanIn? {test : Char → Bool} {s run rest : List Char}
    (h : spanIn? test s = some (run, rest)) :
    s = run ++ rest ∧ run ≠ [] ∧ (∀ c ∈ run, test c = true) ∧ ∀ c ∈ rest.head?, test c = false := by
  rw [spanIn?] at h
  split at h
  · exact absurd h (by simp)
  · next hrun =>
      obtain ⟨rfl, rfl⟩ := Prod.mk.inj (Option.some.inj h)
      refine ⟨List.takeWhile_append_dropWhile.symm, by simpa using hrun,
        fun c hc => List.mem_takeWhile_imp hc, fun c hc => ?_⟩
      have hhead := List.head?_dropWhile_not test s
      rw [Option.mem_def.1 hc] at hhead
      simpa using hhead

namespace Token

variable {written : List Char} {name : String}

/-! ### How references are written -/

/-- How a reference with a name is written: as a variable, or in a call with the name in quotes. -/
inductive IsReference : List Char → String → Prop
  | variable {name : List Char} : name ≠ [] → ')' ∉ name →
      IsReference ("var(--".toList ++ (name ++ [')'])) (String.ofList name)
  | call {opening closing : Char} {name : List Char} : Example.isQuote opening = true →
      Example.isQuote closing = true → name ≠ [] → (∀ c ∈ name, Example.isQuote c = false) →
      IsReference ("token(".toList ++ opening :: (name ++ [closing, ')'])) (String.ofList name)

/-- The references in a line from a column on, each with the column that it starts at.  A character that
no reference starts at is passed over; one that a reference starts at is the first of it, and the line
goes on behind it. -/
inductive References : ℕ → List Char → List (ℕ × String) → Prop
  | done {column : ℕ} : References column [] []
  | skip {column : ℕ} {c : Char} {cs : List Char} {found : List (ℕ × String)} :
      (∀ written name, IsReference written name → ¬ written <+: c :: cs) →
      References (column + 1) cs found → References column (c :: cs) found
  | found {column : ℕ} {written rest : List Char} {name : String} {found : List (ℕ × String)} :
      IsReference written name → References (column + written.length) rest found →
      References column (written ++ rest) ((column, name) :: found)

theorem IsReference.ne_nil (h : IsReference written name) : written ≠ [] := by
  cases h with
  | «variable» => exact List.append_ne_nil_of_left_ne_nil (by decide) _
  | call => exact List.append_ne_nil_of_left_ne_nil (by decide) _

/-! ### Reading a reference -/

theorem inQuotes?_append {opening closing : Char} {name : List Char}
    (hopening : Example.isQuote opening = true) (hclosing : Example.isQuote closing = true)
    (hne : name ≠ []) (hname : ∀ c ∈ name, Example.isQuote c = false) (rest : List Char) :
    inQuotes? (opening :: (name ++ closing :: rest)) = some (name, rest) := by
  have hspan : spanIn? (fun c => !Example.isQuote c) (name ++ closing :: rest) =
      some (name, closing :: rest) :=
    spanIn?_append hne (fun c hc => by rw [hname c hc]; rfl) (by rw [hclosing]; rfl) rest
  rw [inQuotes?, if_pos hopening, hspan]

theorem exists_of_inQuotes? {s name rest : List Char} (h : inQuotes? s = some (name, rest)) :
    ∃ opening closing, s = opening :: (name ++ closing :: rest) ∧
      Example.isQuote opening = true ∧ Example.isQuote closing = true ∧ name ≠ [] ∧
      ∀ c ∈ name, Example.isQuote c = false := by
  cases s with
  | nil => exact absurd h (by simp [inQuotes?])
  | cons opening s =>
      rw [inQuotes?] at h
      split at h
      · next hopening =>
          split at h
          · next text closing more hspan =>
              obtain ⟨rfl, rfl⟩ := Prod.mk.inj (Option.some.inj h)
              obtain ⟨rfl, hne, hname, hclosing⟩ := eq_append_of_spanIn? hspan
              refine ⟨opening, closing, rfl, hopening, ?_, hne, fun c hc => ?_⟩
              · simpa using hclosing closing rfl
              · simpa using hname c hc
          · exact absurd h (by simp)
      · exact absurd h (by simp)

/-- A reference is read, whatever follows it. -/
theorem referenceIn?_append (h : IsReference written name) (rest : List Char) :
    referenceIn? (written ++ rest) = some (name, written.length) := by
  cases h with
  | @«variable» name hne hname =>
      have hspan : spanIn? (· != ')') (name ++ ')' :: rest) = some (name, ')' :: rest) := by
        refine spanIn?_append hne (fun c hc => bne_iff_ne.2 ?_) rfl rest
        rintro rfl
        exact hname hc
      have hread : variableIn? ("var(--".toList ++ (name ++ ')' :: rest)) =
          some (String.ofList name, name.length + 7) := by
        rw [variableIn?, afterFront?_append]
        simp only [Option.bind_eq_bind, Option.bind_some, hspan]
        rfl
      rw [referenceIn?, List.append_assoc, List.append_assoc, List.singleton_append, hread]
      simp
  | @call opening closing name hopening hclosing hne hname =>
      have hnone : variableIn? ("token(".toList ++ opening :: (name ++ closing :: ')' :: rest)) =
          none := rfl
      have hread : callIn? ("token(".toList ++ opening :: (name ++ closing :: ')' :: rest)) =
          some (String.ofList name, name.length + 9) := by
        rw [callIn?, afterFront?_append]
        simp only [Option.bind_eq_bind, Option.bind_some,
          inQuotes?_append hopening hclosing hne hname]
        rfl
      rw [referenceIn?, List.append_assoc, List.cons_append, List.append_assoc, List.cons_append,
        List.singleton_append, hnone, hread]
      simp

theorem exists_of_variableIn? {s : List Char} {n : ℕ} (h : variableIn? s = some (name, n)) :
    ∃ written rest, s = written ++ rest ∧ IsReference written name ∧ n = written.length := by
  simp only [variableIn?, Option.bind_eq_bind, Option.bind_eq_some_iff, Option.pure_def] at h
  obtain ⟨after, hfront, ⟨run, more⟩, hspan, rest, hclose, heq⟩ := h
  obtain ⟨rfl, rfl⟩ := Prod.mk.inj (Option.some.inj heq)
  obtain ⟨rfl, hne, hrun, -⟩ := eq_append_of_spanIn? hspan
  obtain rfl := eq_append_of_afterFront? hfront
  obtain rfl := eq_append_of_afterFront? hclose
  have hname : ')' ∉ run := fun hmem => absurd (hrun _ hmem) (by decide)
  exact ⟨_, rest, by simp, .variable hne hname, by simp⟩

theorem exists_of_callIn? {s : List Char} {n : ℕ} (h : callIn? s = some (name, n)) :
    ∃ written rest, s = written ++ rest ∧ IsReference written name ∧ n = written.length := by
  simp only [callIn?, Option.bind_eq_bind, Option.bind_eq_some_iff, Option.pure_def] at h
  obtain ⟨after, hfront, ⟨text, more⟩, hquotes, rest, hclose, heq⟩ := h
  obtain ⟨rfl, rfl⟩ := Prod.mk.inj (Option.some.inj heq)
  obtain ⟨opening, closing, rfl, hopening, hclosing, hne, htext⟩ := exists_of_inQuotes? hquotes
  obtain rfl := eq_append_of_afterFront? hfront
  obtain rfl := eq_append_of_afterFront? hclose
  exact ⟨_, rest, by simp, .call hopening hclosing hne htext, by simp⟩

/-- What is read is a reference. -/
theorem exists_of_referenceIn? {s : List Char} {n : ℕ} (h : referenceIn? s = some (name, n)) :
    ∃ written rest, s = written ++ rest ∧ IsReference written name ∧ n = written.length := by
  rw [referenceIn?, Option.orElse_eq_orElse, Option.orElse_eq_or, Option.or_eq_some_iff] at h
  exact h.elim exists_of_variableIn? fun h => exists_of_callIn? h.2

/-! ### The search through a line -/

section Search

variable {α : Type} {find : List Char → Option (α × ℕ)}

/-- Characters that are to be passed over are dropped. -/
theorem occurrencesFrom_skip (find : List Char → Option (α × ℕ)) (skip place : ℕ) (s : List Char) :
    occurrencesFrom find skip place s = occurrencesFrom find 0 (place + skip) (s.drop skip) := by
  induction skip generalizing place s with
  | zero => rfl
  | succ skip ih =>
      cases s with
      | nil => simp
      | cons c cs =>
          rw [occurrencesFrom, ih, List.drop_succ_cons, Nat.add_right_comm, Nat.add_assoc]

/-- After an occurrence the search goes on behind it. -/
theorem occurrencesFrom_append {part : List Char} {a : α} (hpart : part ≠ []) {rest : List Char}
    (h : find (part ++ rest) = some (a, part.length)) (place : ℕ) :
    occurrencesFrom find 0 place (part ++ rest) =
      (place, a) :: occurrencesFrom find 0 (place + part.length) rest := by
  obtain ⟨c, part, rfl⟩ := List.exists_cons_of_ne_nil hpart
  rw [List.cons_append] at h ⊢
  rw [occurrencesFrom, h]
  simp only [List.length_cons, Nat.add_sub_cancel]
  rw [occurrencesFrom_skip, List.drop_left, Nat.add_right_comm, Nat.add_assoc]

end Search

/-! ### The references in a line -/

variable {column : ℕ} {line : List Char} {found other : List (ℕ × String)}

/-- The references in a line are what the search finds. -/
theorem References.eq_occurrences (h : References column line found) :
    found = occurrencesFrom referenceIn? 0 column line := by
  induction h with
  | done => rfl
  | @skip column c cs found hnone _ ih =>
      have hfind : referenceIn? (c :: cs) = none := by
        rw [Option.eq_none_iff_forall_ne_some]
        rintro ⟨name, n⟩ hread
        obtain ⟨written, rest, hcs, href, -⟩ := exists_of_referenceIn? hread
        exact hnone written name href ⟨rest, hcs.symm⟩
      rw [occurrencesFrom, hfind]
      exact ih
  | @found column written rest name found href _ ih =>
      rw [occurrencesFrom_append href.ne_nil (referenceIn?_append href rest), ← ih]

/-- A line has one list of references. -/
theorem References.unique (h : References column line found) (h' : References column line other) :
    found = other :=
  h.eq_occurrences.trans h'.eq_occurrences.symm

/-- What the search finds are the references in a line. -/
theorem references_occurrences (column : ℕ) (line : List Char) :
    References column line (occurrencesFrom referenceIn? 0 column line) := by
  -- the search goes on with a shorter rest of the line
  induction hlength : line.length using Nat.strong_induction_on generalizing column line with
  | _ n ih =>
      cases line with
      | nil => exact .done
      | cons c cs =>
          cases hfind : referenceIn? (c :: cs) with
          | none =>
              rw [occurrencesFrom, hfind]
              refine .skip (fun written name href hprefix => ?_)
                (ih cs.length (by simp [← hlength]) (column + 1) cs rfl)
              obtain ⟨rest, hcs⟩ := hprefix
              rw [← hcs, referenceIn?_append href rest] at hfind
              exact absurd hfind (by simp)
          | some read =>
              obtain ⟨name, length⟩ := read
              obtain ⟨written, rest, hcs, href, rfl⟩ := exists_of_referenceIn? hfind
              have hpos := List.length_pos_iff.2 href.ne_nil
              rw [hcs] at hfind hlength ⊢
              rw [occurrencesFrom_append href.ne_nil hfind]
              rw [List.length_append] at hlength
              exact .found href (ih rest.length (by omega) _ rest rfl)

/-- A reference stands in the line where its column says. -/
theorem References.exists_of_mem (h : References column line found) :
    ∀ r ∈ found, ∃ front written rest, line = front ++ (written ++ rest) ∧
      column + front.length = r.1 ∧ IsReference written r.2 := by
  induction h with
  | done => exact fun r hr => absurd hr List.not_mem_nil
  | @skip column c cs found _ _ ih =>
      intro r hr
      obtain ⟨front, written, rest, rfl, hcolumn, href⟩ := ih r hr
      refine ⟨c :: front, written, rest, rfl, ?_, href⟩
      rw [List.length_cons]
      omega
  | @found column written rest name found href _ ih =>
      intro r hr
      rcases List.mem_cons.1 hr with rfl | hr
      · exact ⟨[], written, rest, rfl, rfl, href⟩
      · obtain ⟨front, next, more, rfl, hcolumn, hnext⟩ := ih r hr
        refine ⟨written ++ front, next, more, by simp, ?_, hnext⟩
        rw [List.length_append]
        omega

/-! ### Names of tokens -/

/-- The names of a token: its own, its own with dashes for dots, and those that become its own with dots
for dashes. -/
def StandsFor (name token : String) : Prop :=
  name = token ∨ name = dashed token ∨ dotted name = token

instance (name token : String) : Decidable (StandsFor name token) :=
  inferInstanceAs (Decidable (name = token ∨ name = dashed token ∨ dotted name = token))

variable {registry : Json} {token : String}

theorem mem_spellings :
    name ∈ spellings registry ↔ ∃ t ∈ names registry, name = t ∨ name = dashed t := by
  simp only [spellings, List.mem_eraseDups, List.mem_flatMap, List.mem_cons, List.not_mem_nil,
    or_false]

/-- A spelling with dashes that has no dashes is the name itself. -/
theorem dotted_eq_of_eq_dashed (h : dotted name = dashed token) : dotted name = token := by
  have hchars : (token.toList.map fun c => if c = '.' then '-' else c) =
      name.toList.map fun c => if c = '-' then '.' else c := String.ofList_inj.1 h.symm
  have hsame : (token.toList.map fun c => if c = '.' then '-' else c) = token.toList := by
    refine (List.map_congr_left fun c hc => ?_).trans (List.map_id _)
    have hmem := List.mem_map_of_mem (f := fun c => if c = '.' then '-' else c) hc
    rw [hchars] at hmem
    obtain ⟨d, -, hd⟩ := List.mem_map.1 hmem
    by_cases hdot : c = '.'
    · -- a dot would have become a dash, and no dash is left in the other text
      subst hdot
      split at hd
      · exact absurd hd (by decide)
      · next hdash => exact absurd hd hdash
    · rw [if_neg hdot]
      rfl
  rw [h, dashed, hsame, String.ofList_toList]

/-- The names that are looked up with success are those that stand for a token. -/
theorem isKnown_iff :
    isKnown (spellings registry) name = true ↔ ∃ t ∈ names registry, StandsFor name t := by
  rw [isKnown, Bool.or_eq_true, List.contains_iff_mem, List.contains_iff_mem, mem_spellings,
    mem_spellings]
  constructor
  · rintro (⟨t, ht, h | h⟩ | ⟨t, ht, h | h⟩)
    · exact ⟨t, ht, .inl h⟩
    · exact ⟨t, ht, .inr (.inl h)⟩
    · exact ⟨t, ht, .inr (.inr h)⟩
    · exact ⟨t, ht, .inr (.inr (dotted_eq_of_eq_dashed h))⟩
  · rintro ⟨t, ht, h | h | h⟩
    · exact .inl ⟨t, ht, .inl h⟩
    · exact .inl ⟨t, ht, .inr h⟩
    · exact .inr ⟨t, ht, .inl h⟩

/-! ### Errors -/

/-- What is said of a name that stands for no token. -/
def unknownMessage (name : String) : String := "Token '" ++ name ++ "' not found in registry"

/-- The error about a reference in a line. -/
def unknownError (line : ℕ) (reference : ℕ × String) : Diagnostic :=
  Rule.tokens.error ⟨line, reference.1⟩ (unknownMessage reference.2)

/-- The references that stand for no token. -/
def unknown (registry : Json) (found : List (ℕ × String)) : List (ℕ × String) :=
  found.filter fun r => ¬ ∃ t ∈ names registry, StandsFor r.2 t

theorem unknownMessage_injective {other : String} (h : unknownMessage name = unknownMessage other) :
    name = other := by
  simpa [unknownMessage, ← String.toList_inj] using h

theorem referenceErrors_eq (registry : Json) (line : ℕ) (text : String) :
    referenceErrors (spellings registry) line text =
      (unknown registry (occurrences referenceIn? text)).map (unknownError line) := by
  rw [referenceErrors, unknown]
  induction occurrences referenceIn? text with
  | nil => rfl
  | cons r found ih =>
      by_cases hknown : ∃ t ∈ names registry, StandsFor r.2 t
      · rw [List.filterMap_cons_none, List.filter_cons_of_neg (by simpa using hknown), ih]
        rw [referenceError?, if_pos (isKnown_iff.2 hknown)]
      · rw [List.filterMap_cons_some (b := unknownError line r),
          List.filter_cons_of_pos (by simpa using hknown), List.map_cons, ih]
        rw [referenceError?, if_neg fun h => hknown (isKnown_iff.1 h)]
        rfl

/-- Values that stand for tokens give warnings, so the errors are about references. -/
theorem filter_error_tokenDiagnostics (registry : Json) (s : Script.Source) :
    (Rule.tokenDiagnostics registry s).filter (·.severity = .error) =
      s.lines.zipIdx.flatMap fun (line, i) =>
        (unknown registry (occurrences referenceIn? line)).map (unknownError (i + 1)) := by
  rw [Rule.tokenDiagnostics, List.filter_flatMap]
  refine List.flatMap_congr fun ⟨line, i⟩ _ => ?_
  have hwarnings : (valueWarnings (i + 1) line).filter (·.severity = .error) = [] := by
    rw [List.filter_eq_nil_iff]
    intro d hd
    obtain ⟨find, -, hd⟩ := List.mem_flatMap.1 hd
    obtain ⟨r, -, hd⟩ := List.mem_filterMap.1 hd
    obtain ⟨t, -, rfl⟩ := Option.map_eq_some_iff.1 hd
    simp [Rule.warning]
  have herrors : (referenceErrors (spellings registry) (i + 1) line).filter (·.severity = .error) =
      referenceErrors (spellings registry) (i + 1) line := by
    rw [List.filter_eq_self, referenceErrors_eq]
    intro d hd
    obtain ⟨r, -, rfl⟩ := List.mem_map.1 hd
    rfl
  rw [List.filter_append, hwarnings, herrors, List.nil_append, referenceErrors_eq]

/-- The errors of the rule about tokens. -/
theorem errors_check [Script.Parser] (registry : Json) (strict : Bool) {path text : String}
    {s : Script.Source} (hread : Script.Source.read path text = .ok s) :
    (Contract.check registry [.tokens] strict path text).diagnostics.errors =
      (linesOf text).zipIdx.flatMap fun (line, i) =>
        (unknown registry (occurrences referenceIn? line)).map (unknownError (i + 1)) := by
  have htext : s.lines = linesOf text := by
    rw [Script.Source.read, Script.ofTree] at hread
    split at hread
    · exact absurd hread (by simp)
    · obtain rfl := Except.ok.inj hread
      rfl
  rw [← htext, ← filter_error_tokenDiagnostics, Contract.check, hread]
  simp only [Contract.findings, Rule.apply, Diagnostics.ofList, Rule.diagnostics,
    List.flatMap_singleton]

/-- The references in the lines of a script. -/
def LineReferences (lines : List String) (found : List (List (ℕ × String))) : Prop :=
  List.Forall₂ (fun line refs => References 1 line.toList refs) lines found

theorem lineReferences_occurrences (lines : List String) :
    LineReferences lines (lines.map (occurrences referenceIn?)) :=
  List.forall₂_map_right_iff.2 (List.forall₂_same.2 fun _ _ => references_occurrences 1 _)

theorem LineReferences.unique {lines : List String} {found other : List (List (ℕ × String))}
    (h : LineReferences lines found) (h' : LineReferences lines other) : other = found := by
  induction h generalizing other with
  | nil =>
      cases h' with
      | nil => rfl
  | cons hline _ ih =>
      cases h' with
      | cons hline' hrest' => rw [hline'.unique hline, ih hrest']

/-- **Each reference that stands for no token is reported, and nothing else.**  The errors about a script
that follows the grammar are, line by line and from the left, one for each reference whose name stands
for no token of the registry; which references a line has is told by how they are written, and there is
one list of them.  An error stands where its reference starts, and none is about a token's own name or
the token's name with dashes for dots. -/
theorem token_errors_exact [Script.Parser] (registry : Json) (strict : Bool) (path text : String)
    {s : Script.Source} (hread : Script.Source.read path text = .ok s) :
    ∃ found, LineReferences (linesOf text) found ∧
      (∀ other, LineReferences (linesOf text) other → other = found) ∧
      (Contract.check registry [.tokens] strict path text).diagnostics.errors =
        found.zipIdx.flatMap (fun (refs, i) =>
          (refs.filter fun r => ¬ ∃ t ∈ names registry, StandsFor r.2 t).map fun r =>
            Rule.tokens.error ⟨i + 1, r.1⟩ ("Token '" ++ r.2 ++ "' not found in registry")) ∧
      (∀ d ∈ (Contract.check registry [.tokens] strict path text).diagnostics.errors,
        ∃ i line front written rest name, (linesOf text)[i]? = some line ∧
          line.toList = front ++ (written ++ rest) ∧ IsReference written name ∧
          d = Rule.tokens.error ⟨i + 1, front.length + 1⟩
            ("Token '" ++ name ++ "' not found in registry")) ∧
      ∀ t ∈ names registry,
        ∀ d ∈ (Contract.check registry [.tokens] strict path text).diagnostics.errors,
          d.message ≠ "Token '" ++ t ++ "' not found in registry" ∧
          d.message ≠ "Token '" ++ dashed t ++ "' not found in registry" := by
  have hfound := lineReferences_occurrences (linesOf text)
  have herrors := errors_check registry strict hread
  refine ⟨_, hfound, fun other hother => hfound.unique hother, ?_, ?_, ?_⟩
  · rw [herrors, List.zipIdx_map, List.flatMap_map]
    rfl
  · intro d hd
    rw [herrors] at hd
    obtain ⟨⟨line, i⟩, hline, hd⟩ := List.mem_flatMap.1 hd
    obtain ⟨r, hr, rfl⟩ := List.mem_map.1 hd
    obtain ⟨front, written, rest, hparts, hcolumn, href⟩ :=
      (references_occurrences 1 line.toList).exists_of_mem r (List.mem_filter.1 hr).1
    refine ⟨i, line, front, written, rest, r.2, List.mem_zipIdx_iff_getElem?.1 hline, hparts, href, ?_⟩
    rw [unknownError, ← hcolumn, Nat.add_comm 1]
    rfl
  · intro t ht d hd
    rw [herrors] at hd
    obtain ⟨⟨line, i⟩, -, hd⟩ := List.mem_flatMap.1 hd
    obtain ⟨r, hr, rfl⟩ := List.mem_map.1 hd
    have hnone : ∀ t ∈ names registry, ¬ StandsFor r.2 t := by
      simpa using (List.mem_filter.1 hr).2
    constructor
    · exact fun hmessage => hnone t ht (.inl (unknownMessage_injective hmessage))
    · exact fun hmessage => hnone t ht (.inr (.inl (unknownMessage_injective hmessage)))

/-- A registry with a token whose name has a dash in it. -/
def dashedRegistry : Json :=
  .obj [("tokens", .obj [("color", .obj [("brand-dark", .obj [("value", .str "#024")])])])]

/-- A script that refers to the token with dashes, as it is named, and with dots. -/
def referringScript : String :=
  "f('var(--color-brand-dark) token(\"color.brand-dark\")');\n" ++
    "// var(--color.brand.dark)"

/-- A name with more dots than the token has is reported where its reference starts. -/
theorem token_errors_exact_dashed :
    (∃ s, Script.Source.read "a.js" referringScript = .ok s) ∧
      (Contract.check dashedRegistry [.tokens] false "a.js" referringScript).diagnostics.errors =
        [Rule.tokens.error ⟨2, 4⟩ "Token 'color.brand.dark' not found in registry"] ∧
      ∃ found, LineReferences (linesOf referringScript) found ∧
        [Rule.tokens.error ⟨2, 4⟩ "Token 'color.brand.dark' not found in registry"] =
          found.zipIdx.flatMap fun (refs, i) =>
            (refs.filter fun r => ¬ ∃ t ∈ names dashedRegistry, StandsFor r.2 t).map fun r =>
              Rule.tokens.error ⟨i + 1, r.1⟩ ("Token '" ++ r.2 ++ "' not found in registry") := by
  have hread : ∃ s, Script.Source.read "a.js" referringScript = .ok s :=
    exists_ok_of_isSome (by decide +kernel)
  have herrors :
      (Contract.check dashedRegistry [.tokens] false "a.js" referringScript).diagnostics.errors =
        [Rule.tokens.error ⟨2, 4⟩ "Token 'color.brand.dark' not found in registry"] := by
    obtain ⟨s, hs⟩ := hread
    rw [errors_check dashedRegistry false hs]
    decide +kernel
  obtain ⟨s, hs⟩ := id hread
  obtain ⟨found, hfound, -, hreported, -⟩ :=
    token_errors_exact dashedRegistry false "a.js" referringScript hs
  exact ⟨hread, herrors, found, hfound, herrors.symm.trans hreported⟩

/-- A comment with a call in it whose name stands between quotes of two kinds. -/
def unpairedScript : String := "// token('nope\")"

/-- What stands between quotes of two kinds is taken for a reference. -/
theorem token_errors_unpaired :
    (∃ s, Script.Source.read "unknown" unpairedScript = .ok s) ∧
      (Contract.check (.obj []) [.tokens] false "unknown" unpairedScript).diagnostics.errors =
        [Rule.tokens.error ⟨1, 4⟩ "Token 'nope' not found in registry"] ∧
      (∀ name, ¬ "var(--".toList ++ (name ++ [')']) <:+: unpairedScript.toList) ∧
      ∀ quote name, Example.isQuote quote = true →
        ¬ "token(".toList ++ quote :: (name ++ [quote, ')']) <:+: unpairedScript.toList := by
  refine ⟨exists_ok_of_isSome (by decide +kernel), by decide +kernel, fun name hpart => ?_,
    fun quote name hquote hpart => ?_⟩
  · have hcount := hpart.sublist.count_le 'v'
    rw [show unpairedScript.toList.count 'v' = 0 by decide, List.count_append,
      show "var(--".toList.count 'v' = 1 by decide] at hcount
    omega
  · -- each kind of quote stands in the comment once
    have hcount := hpart.sublist.count_le quote
    have honce : unpairedScript.toList.count quote = 1 := by
      rcases (by simpa [Example.isQuote] using hquote : quote = '"' ∨ quote = '\'') with rfl | rfl <;>
        decide
    rw [honce] at hcount
    simp only [List.count_append, List.count_cons_self] at hcount
    omega

end Token

end DesignRegistry
