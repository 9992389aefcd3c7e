/-
**Sets of code points.**

A class of characters such as "letters" is a union of intervals of code points.  It is stored as
the increasing list of the points at which membership changes: a code point belongs to the class
when an odd number of changes lie at or below it.  One list of numbers is then the whole table.

Main definitions

* `CodeSet`, `CodeSet.contains` — the table and the test for membership.
-/

namespace DesignRegistry

/-- A set of code points, given by the points where membership changes. -/
structure CodeSet where
  /-- The increasing list of changes: the first enters the set, the second leaves it, and so on. -/
  changes : List Nat

namespace CodeSet

/-- Whether a code point belongs to the set: it has passed an odd number of changes. -/
def containsCode (s : CodeSet) (code : Nat) : Bool :=
  s.changes.countP (· ≤ code) % 2 == 1

/-- Whether a character belongs to the set. -/
def contains (s : CodeSet) (c : Char) : Bool :=
  s.containsCode c.toNat

end CodeSet

end DesignRegistry
