/-
**Patterns for whole directories.**

The pattern of a directory is its name with a slash and two stars behind it.  A path is tested against
it three times: as a text in which a star crosses slashes, by how it starts, and by whether the name
stands between two slashes in it.  The last test says what all of them say together: between two slashes
stands a component with another one behind it, for a slash is put in front of the path, and the first
component is no exception.  A name that only contains the directory, or that the path ends in, is none.

Main definitions:

* `Glob.PlainName` — names without characters that mean something in a pattern;
* `Glob.wholeDirectory`, `Glob.directoriesOf` — the pattern of a directory, and the directories on a path.

Main results:

* `Glob.matches_wholeDirectory` — the pattern as such;
* `Glob.coversPath_wholeDirectory` — the three tests as one;
* `Glob.matchesAny_wholeDirectories` — **a directory is covered at every depth, and nothing else is**.
-/
import DesignRegistry.Proofs.Glob.Braces
import DesignRegistry.Scan.Directory

set_option relaxedAutoImplicit false
set_option autoImplicit false

namespace DesignRegistry

namespace Glob

/-! ### Names in patterns -/

/-- A name whose characters stand for themselves in a pattern, and which is one component of a path. -/
def PlainName (name : String) : Prop := ∀ c ∈ name.toList, c ∉ ['/', '*', '?', '[', '{']

instance : DecidablePred PlainName := fun name => decidableForallMem name.toList

/-- The pattern for a directory and all that lies in it. -/
def wholeDirectory (name : String) : String := name ++ "/**"

/-- The components of a path other than the last. -/
def directoriesOf (path : String) : List String := (piecesOf '/' path).dropLast

theorem toList_wholeDirectory (name : String) :
    (wholeDirectory name).toList = name.toList ++ ['/', '*', '*'] :=
  String.toList_append

theorem mem_directoriesOf_iff {name path : String} :
    name ∈ directoriesOf path ↔ name.toList ∈ (pieces '/' path.toList).dropLast := by
  rw [directoriesOf, piecesOf, ← List.map_dropLast]
  constructor
  · intro h
    obtain ⟨part, hpart, rfl⟩ := List.mem_map.1 h
    rwa [String.toList_ofList]
  · intro h
    exact List.mem_map.2 ⟨name.toList, h, String.ofList_toList⟩

/-- Characters that stand for themselves are read one by one. -/
theorem readRounds_plain {s : List Char} (h : ∀ c ∈ s, c ∉ ['*', '?', '[']) (rounds : ℕ)
    (rest : List Char) :
    readRounds (s.length + rounds) (s ++ rest) = s.map Part.char ++ readRounds rounds rest := by
  induction s with
  | nil => rw [List.length_nil, Nat.zero_add, List.nil_append, List.map_nil, List.nil_append]
  | cons c s ih =>
      rw [List.forall_mem_cons] at h
      obtain ⟨hc, hs⟩ := h
      simp only [List.mem_cons, List.not_mem_nil, or_false, not_or] at hc
      obtain ⟨hstar, hmark, hbracket⟩ := hc
      rw [List.length_cons, Nat.add_right_comm, List.cons_append, readRounds, if_neg hstar,
        if_neg hmark, if_neg hbracket, ih hs, List.map_cons, List.cons_append]

theorem covers_char_nil (c : Char) (parts : List Part) : covers (.char c :: parts) [] = false := rfl

theorem covers_char_cons (c d : Char) (parts : List Part) (text : List Char) :
    covers (.char c :: parts) (d :: text) = (d == c && covers parts text) := rfl

/-- Parts that stand for given characters ask for these in front. -/
theorem covers_chars (s : List Char) (parts : List Part) (text : List Char) :
    covers (s.map Part.char ++ parts) text = true ↔ ∃ rest, text = s ++ rest ∧ covers parts rest = true := by
  induction s generalizing text with
  | nil => simp
  | cons c s ih =>
      rw [List.map_cons, List.cons_append]
      cases text with
      | nil => simp [covers_char_nil]
      | cons d text =>
          rw [covers_char_cons, Bool.and_eq_true, ih, beq_iff_eq]
          constructor
          · rintro ⟨rfl, rest, rfl, hrest⟩
            exact ⟨rest, rfl, hrest⟩
          · rintro ⟨rest, heq, hrest⟩
            obtain ⟨rfl, rfl⟩ := List.cons.inj heq
            exact ⟨rfl, rest, rfl, hrest⟩

/-- Whatever may follow is passed over by a star. -/
theorem covers_anyText_of_covers {parts : List Part} {text : List Char} (h : covers parts text = true) :
    covers (.anyText :: parts) text = true := by
  rw [covers]
  cases text with
  | nil => exact h
  | cons c text => rw [someRest, h, Bool.true_or]

theorem covers_anyText (text : List Char) : covers [.anyText] text = true := by
  rw [covers]
  induction text with
  | nil => rfl
  | cons c text ih => rw [someRest, ih, Bool.or_true]

/-- As a pattern, a directory with all that lies in it stands for the paths that start with it. -/
theorem matches_wholeDirectory {name : String} (h : PlainName name) (text : List Char) :
    Glob.matches (wholeDirectory name).toList text = true ↔ name.toList ++ ['/'] <+: text := by
  have hread : read (wholeDirectory name).toList =
      (name.toList ++ ['/']).map Part.char ++ [Part.anyText, Part.anyText] := by
    have hplain : ∀ c ∈ name.toList ++ ['/'], c ∉ ['*', '?', '['] := by
      intro c hc
      rcases List.mem_append.1 hc with hc | hc
      · have := h c hc
        simp only [List.mem_cons, List.not_mem_nil, or_false, not_or] at this ⊢
        exact ⟨this.2.1, this.2.2.1, this.2.2.2.1⟩
      · rw [List.mem_singleton.1 hc]
        decide
    have hrounds := readRounds_plain hplain 2 ['*', '*']
    rw [read, toList_wholeDirectory]
    simpa [readRounds] using hrounds
  rw [Glob.matches, hread, covers_chars]
  constructor
  · rintro ⟨rest, rfl, -⟩
    exact List.prefix_append _ rest
  · rintro ⟨rest, rfl⟩
    exact ⟨rest, rfl, covers_anyText_of_covers (covers_anyText rest)⟩

/-- The three tests of a directory come down to one look at the components. -/
theorem coversPath_wholeDirectory {name : String} (h : PlainName name) (path : String) :
    coversPath path.toList (wholeDirectory name).toList = true ↔
      path = name ∨ name ∈ directoriesOf path := by
  have hslash : '/' ∉ name.toList := fun hmem => h '/' hmem (by decide)
  have hfront : afterFront? "**/".toList (wholeDirectory name).toList.reverse =
      some name.toList.reverse := by
    rw [toList_wholeDirectory, List.reverse_append]
    exact afterFront?_append ['*', '*', '/'] name.toList.reverse
  -- a path that starts with the directory has it between two slashes as well
  have hwithin : name.toList ++ ['/'] <+: path.toList →
      '/' :: name.toList ++ ['/'] <:+: '/' :: path.toList := by
    intro hstart
    rw [List.cons_append]
    exact (List.cons_prefix_cons.2 ⟨rfl, hstart⟩).isInfix
  rw [coversPath, hfront]
  dsimp only
  rw [List.reverse_reverse, Bool.or_eq_true, Bool.or_eq_true, Bool.or_eq_true,
    matches_wholeDirectory h, startsWith_iff, occursIn_iff, beq_iff_eq, String.toList_inj,
    mem_directoriesOf_iff, ← between_marks_iff hslash]
  constructor
  · rintro (hstart | (hname | hstart) | hbetween)
    · exact .inr (hwithin hstart)
    · exact .inl hname
    · exact .inr (hwithin hstart)
    · exact .inr hbetween
  · rintro (hname | hbetween)
    · exact .inr (.inl (.inl hname))
    · exact .inr (.inr hbetween)

theorem expandBraces_wholeDirectory {name : String} (h : PlainName name) :
    expandBraces (wholeDirectory name) = [wholeDirectory name] := by
  refine expandBraces_of_not_holdsGroup ?_
  rintro ⟨head, body, tail, hpattern⟩
  have hopen : '{' ∈ (wholeDirectory name).toList := by
    rw [hpattern]
    simp
  rw [toList_wholeDirectory, List.mem_append] at hopen
  rcases hopen with hopen | hopen
  · exact h '{' hopen (by decide)
  · exact absurd hopen (by decide)

/-- **A directory is left out at every depth, and nothing else is.**  A path is covered by one of some
patterns for whole directories exactly if it is the name of one of them, or one of them is a component
of the path other than the last. -/
theorem matchesAny_wholeDirectories {names : List String} (h : ∀ name ∈ names, PlainName name)
    (path : String) :
    matchesAny path (names.map wholeDirectory) = true ↔
      ∃ name ∈ names, path = name ∨ name ∈ directoriesOf path := by
  rw [matchesAny, List.any_map, List.any_eq_true]
  constructor
  · rintro ⟨name, hname, hcovers⟩
    refine ⟨name, hname, (coversPath_wholeDirectory (h name hname) path).1 ?_⟩
    simpa [expandBraces_wholeDirectory (h name hname)] using hcovers
  · rintro ⟨name, hname, hcomponent⟩
    refine ⟨name, hname, ?_⟩
    have hcovers := (coversPath_wholeDirectory (h name hname) path).2 hcomponent
    simpa [expandBraces_wholeDirectory (h name hname)] using hcovers

/-- The directories that a scan leaves out: one of them inside another directory, and two names that only
contain one. -/
theorem matchesAny_wholeDirectories_nested :
    ({} : ScanSettings).ignored = ["node_modules", "dist", "build", ".next"].map wholeDirectory
      ∧ matchesAny "web/.next/app.js" ({} : ScanSettings).ignored = true
      ∧ matchesAny "src/rebuild/build.js" ({} : ScanSettings).ignored = false := by
  have hignored :
      ({} : ScanSettings).ignored = ["node_modules", "dist", "build", ".next"].map wholeDirectory := rfl
  have hplain : ∀ name ∈ ["node_modules", "dist", "build", ".next"], PlainName name := by decide
  rw [hignored]
  refine ⟨rfl, ?_, ?_⟩
  · exact (matchesAny_wholeDirectories hplain "web/.next/app.js").2 (by decide)
  · rw [← Bool.not_eq_true]
    exact fun h =>
      absurd ((matchesAny_wholeDirectories hplain "src/rebuild/build.js").1 h) (by decide)

end Glob

end DesignRegistry
