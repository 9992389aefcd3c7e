/-
**The distance of texts.**

The distance of two texts is the least number of characters to insert, delete or replace that turns
one into the other.  The longer text is read from left to right, and with each of its characters a
row of numbers is computed from the row before: the distances of what was read so far to every
beginning of the shorter text.  Only these two rows are kept, and the last number of the last row is
the distance.

Main definitions

* `distance` — the distance of two texts;
* `Similarity`, `similarity` — how alike two texts are, as an exact fraction;
* `closestMatches` — the candidates that are most alike a text.
-/
import DesignRegistry.Number.Binary64

namespace DesignRegistry

/-! ### Distance -/

/-- The numbers of a row behind a number `left`, for a character `c` of the longer text.  They stand
for the remaining characters of the shorter text; the row before starts with the number diagonally
above the next one. -/
def rowBehind (c : Char) (left : Nat) : List Char → List Nat → List Nat
  | d :: ds, diagonal :: above :: row =>
    let cost := if c = d then 0 else 1
    let next := min (min (diagonal + cost) (left + 1)) (above + 1)
    next :: rowBehind c next ds (above :: row)
  | _, _ => []

/-- The last row, from the row `prev` before the `i`-th character of the longer text is read. -/
def lastRow (shorter : List Char) (i : Nat) (prev : List Nat) : List Char → List Nat
  | [] => prev
  | c :: cs => lastRow shorter (i + 1) (i :: rowBehind c i shorter prev) cs

/-- The distance of a text to one that is not longer, by rows. -/
def rowDistance (longer shorter : List Char) : Nat :=
  (lastRow shorter 1 (List.range (shorter.length + 1)) longer).getLastD 0

/-- The distance of two texts. -/
def distance (s t : List Char) : Nat :=
  if s.length < t.length then rowDistance t s else rowDistance s t

/-! ### Similarity -/

/-- How alike two texts are: the part of the longer one that no edit touches. -/
structure Similarity where
  /-- The characters that are kept. -/
  kept : Nat
  /-- The characters of the longer text; of two empty texts, one. -/
  length : Nat
deriving DecidableEq, Repr

namespace Similarity

/-- Whether texts are at least as alike as others. -/
def atLeast (a b : Similarity) : Bool := b.kept * a.length ≤ a.kept * b.length

/-- Whether texts are so alike that one may have been meant for the other: more than three tenths
are kept. -/
def isClose (a : Similarity) : Bool := 3 * a.length < 10 * a.kept

/-- The similarity as a binary number. -/
def toBinary64 (a : Similarity) : Binary64 := .ofRatio false a.kept a.length

end Similarity

/-- How alike two texts are. -/
def similarity (s t : List Char) : Similarity :=
  let length := max s.length t.length
  if length = 0 then ⟨1, 1⟩ else ⟨length - distance s t, length⟩

/-! ### The best candidates -/

/-- The first items up to a limit; a negative limit leaves out as many of the last ones. -/
def upTo {α : Type} (limit : Int) (xs : List α) : List α :=
  if limit < 0 then xs.take (xs.length - limit.natAbs) else xs.take limit.toNat

/-- The candidates whose similarity to a text is accepted, the most alike first; of two that are
equally alike the earlier comes first. -/
def rankedMatches (accepted : Similarity → Bool) (value : String) (candidates : List String) :
    List String :=
  let scored := candidates.map fun c => (similarity value.toList c.toList, c)
  ((scored.filter fun s => accepted s.1).mergeSort fun a b => a.1.atLeast b.1).map Prod.snd

/-- The three candidates that are most alike a text and close to it. -/
def closestMatches (value : String) (candidates : List String) : List String :=
  upTo 3 (rankedMatches Similarity.isClose value candidates)

end DesignRegistry
