/-
**Occurrences in a text.**

A finder looks at the front of a text and says what it recognises there and how many characters that
covers.  Its occurrences in a text are read from the left and do not overlap: after one the search
goes on behind it.

Main definitions

* `occurrences` — what a finder recognises in a text, with the places;
* `spanIn?`, `measureIn?`, `hexColourIn?`, `colourCallIn?` — finders.
-/
import DesignRegistry.Text.Shape

namespace DesignRegistry

/-! ### Occurrences -/

/-- What `find` recognises in a text, each with its place; the text starts at `place`, and `skip`
characters of an occurrence are still to be passed over. -/
def occurrencesFrom {α : Type} (find : List Char → Option (α × Nat)) :
    Nat → Nat → List Char → List (Nat × α)
  | _, _, [] => []
  | skip + 1, place, _ :: cs => occurrencesFrom find skip (place + 1) cs
  | 0, place, c :: cs =>
    match find (c :: cs) with
    | some (a, length) => (place, a) :: occurrencesFrom find (length - 1) (place + 1) cs
    | none => occurrencesFrom find 0 (place + 1) cs

/-- What `find` recognises in a line, each with its column; columns count from one. -/
def occurrences {α : Type} (find : List Char → Option (α × Nat)) (line : String) :
    List (Nat × α) :=
  occurrencesFrom find 0 1 line.toList

@[simp] theorem occurrencesFrom_nil {α : Type} (find : List Char → Option (α × Nat))
    (skip place : Nat) : occurrencesFrom find skip place [] = [] := by
  cases skip <;> rfl

/-! ### Finders -/

/-- The characters in front of a text that pass a test, if there are any, and what follows. -/
def spanIn? (test : Char → Bool) (s : List Char) : Option (List Char × List Char) :=
  let run := s.takeWhile test
  if run.isEmpty then none else some (run, s.dropWhile test)

/-- A whole number with a unit, as it is written. -/
def measureIn? (unit s : List Char) : Option (String × Nat) := do
  let (digits, rest) ← spanIn? isDecimal s
  let _ ← afterFront? unit rest
  return (String.ofList (digits ++ unit), digits.length + unit.length)

/-- A colour of three to eight hexadecimal digits, as it is written. -/
def hexColourIn? (s : List Char) : Option (String × Nat) :=
  match s with
  | '#' :: rest =>
    let digits := (rest.take 8).takeWhile isHex
    if 3 ≤ digits.length then some (String.ofList ('#' :: digits), digits.length + 1) else none
  | _ => none

/-- A call of a colour function with anything inside, as it is written. -/
def colourCallIn? (s : List Char) : Option (String × Nat) := do
  let front ← (["rgb(", "rgba(", "hsl(", "hsla("].map String.toList).find? (startsWith · s)
  let (inside, rest) ← spanIn? (· != ')') (s.drop front.length)
  let _ ← afterFront? [')'] rest
  return (String.ofList (front ++ inside ++ [')']), front.length + inside.length + 1)

end DesignRegistry
