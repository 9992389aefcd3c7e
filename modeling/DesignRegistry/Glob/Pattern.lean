/-
**Glob patterns.**

In a pattern a star stands for any text, a question mark for any character, and a bracket expression
for one of the characters it lists, or for any other if an exclamation mark comes first.  A bracket
that is not closed is an ordinary character.  Alternatives in braces are expanded before patterns
are matched.

Main definitions

* `Glob.expandBraces` — a pattern for each choice of alternatives;
* `Glob.Part`, `Glob.read`, `Glob.matches` — patterns, and the texts they stand for;
* `Glob.matchesAny` — whether a path is covered by one of several patterns.
-/
import DesignRegistry.Text.Pieces

namespace DesignRegistry

namespace Glob

/-! ### Braces -/

/-- The text before the first opening brace, the text up to the next closing brace, and the rest. -/
def firstGroup? (s : List Char) : Option (List Char × List Char × List Char) := do
  let (head, rest) ← cutAt? ['{'] s
  let (body, tail) ← cutAt? ['}'] rest
  return (head, body, tail)

/-- A pattern for each choice of alternatives; each round spends an opening brace. -/
def expandRounds : Nat → List Char → List (List Char)
  | 0, s => [s]
  | rounds + 1, s =>
    match firstGroup? s with
    | none => [s]
    | some (head, body, tail) =>
      (pieces ',' body).flatMap fun alternative => expandRounds rounds (head ++ alternative ++ tail)

/-- A pattern for each choice of alternatives, in the order in which they are written. -/
def expandBraces (pattern : String) : List String :=
  let s := pattern.toList
  (expandRounds (s.count '{') s).map String.ofList

/-! ### Patterns -/

/-- A member of a bracket expression: a range of characters, which may be a single one. -/
structure CharRange where
  /-- The first character. -/
  first : Char
  /-- The last character. -/
  last : Char
deriving DecidableEq, Repr

namespace CharRange

/-- Whether a range holds a character. -/
def holds (r : CharRange) (c : Char) : Bool := r.first ≤ c && c ≤ r.last

end CharRange

/-- A part of a pattern. -/
inductive Part where
  /-- Any text. -/
  | anyText
  /-- Any character. -/
  | anyChar
  | char (c : Char)
  /-- One of the characters in the ranges, or none of them. -/
  | oneOf (negated : Bool) (ranges : List CharRange)
deriving DecidableEq, Repr

/-- The members of a bracket expression: a dash between two characters makes a range. -/
def ranges : List Char → List CharRange
  | [] => []
  | [a] => [⟨a, a⟩]
  | [a, b] => [⟨a, a⟩, ⟨b, b⟩]
  | a :: '-' :: b :: rest => ⟨a, b⟩ :: ranges rest
  | a :: rest => ⟨a, a⟩ :: ranges rest

/-- The text of a bracket expression and what follows it; a closing bracket in front is a member. -/
def bracketBody? (s : List Char) : Option (List Char × List Char) :=
  match s with
  | ']' :: rest => (cutAt? [']'] rest).map fun (body, rest) => (']' :: body, rest)
  | _ => cutAt? [']'] s

/-- A bracket expression after its opening bracket, and what follows it. -/
def bracket? (s : List Char) : Option (Part × List Char) :=
  match s with
  | '!' :: rest => (bracketBody? rest).map fun (body, rest) => (.oneOf true (ranges body), rest)
  | _ => (bracketBody? s).map fun (body, rest) => (.oneOf false (ranges body), rest)

/-- The parts of a pattern.  Every round spends a character. -/
def readRounds : Nat → List Char → List Part
  | 0, _ => []
  | _, [] => []
  | rounds + 1, c :: cs =>
    if c = '*' then .anyText :: readRounds rounds cs
    else if c = '?' then .anyChar :: readRounds rounds cs
    else if c = '[' then
      match bracket? cs with
      | some (p, rest) => p :: readRounds rounds rest
      | none => .char '[' :: readRounds rounds cs
    else .char c :: readRounds rounds cs

/-- The parts of a pattern. -/
def read (pattern : List Char) : List Part := readRounds pattern.length pattern

/-- Whether a part that stands for one character stands for this one. -/
def Part.holds (p : Part) (c : Char) : Bool :=
  match p with
  | .anyText => true
  | .anyChar => true
  | .char d => c == d
  | .oneOf negated ranges => (ranges.any fun r => r.holds c) != negated

/-- Whether some rest of a text passes a test. -/
def someRest (test : List Char → Bool) : List Char → Bool
  | [] => test []
  | c :: cs => test (c :: cs) || someRest test cs

/-- Whether parts stand for a text. -/
def covers : List Part → List Char → Bool
  | [], s => s.isEmpty
  | .anyText :: ps, s => someRest (covers ps) s
  | p :: ps, s =>
    match s with
    | [] => false
    | c :: cs => p.holds c && covers ps cs

/-- Whether a pattern stands for a text. -/
def «matches» (pattern text : List Char) : Bool := covers (read pattern) text

/-! ### Paths -/

/-- Whether a pattern without braces covers a path: it stands for the path, or it names a directory
with `/**` after it that is on the way to the path. -/
def coversPath (path pattern : List Char) : Bool :=
  Glob.matches pattern path
    || (match afterFront? "**/".toList pattern.reverse with
      | none => false
      | some directory =>
        let d := directory.reverse
        path == d || startsWith (d ++ ['/']) path
          || occursIn ('/' :: d ++ ['/']) ('/' :: path))

/-- Whether one of several patterns covers a path. -/
def matchesAny (path : String) (patterns : List String) : Bool :=
  patterns.any fun p => (expandBraces p).any fun q => coversPath path.toList q.toList

end Glob

end DesignRegistry
