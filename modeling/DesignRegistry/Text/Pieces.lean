/-
**Cutting and joining texts.**

Texts are cut at a mark, joined with a separator, and searched for another text.  All functions
work on lists of characters and recurse on them.

Main definitions

* `pieces`, `linesOf` — the parts of a text between marks, and its lines;
* `joined` — parts joined with a separator;
* `occursIn`, `replaceAll` — search and replacement.
-/
import DesignRegistry.Text.Category

namespace DesignRegistry

/-! ### Pieces -/

/-- The parts of a text between the characters that equal `mark`; there is always a first part. -/
def pieces (mark : Char) : List Char → List (List Char)
  | [] => [[]]
  | c :: cs =>
    if c = mark then [] :: pieces mark cs
    else
      match pieces mark cs with
      | [] => [[c]]
      | p :: ps => (c :: p) :: ps

@[simp] theorem pieces_nil (mark : Char) : pieces mark [] = [[]] := rfl

/-- There is always a first part. -/
theorem pieces_ne_nil (mark : Char) (s : List Char) : pieces mark s ≠ [] := by
  induction s with
  | nil => simp
  | cons c cs ih =>
    unfold pieces
    by_cases h : c = mark
    · simp [h]
    · simp only [h, if_false]
      split <;> simp

/-- The parts of a text between marks, as texts. -/
def piecesOf (mark : Char) (s : String) : List String :=
  (pieces mark s.toList).map String.ofList

/-- The lines of a text: what stands between its line feeds. -/
def linesOf (s : String) : List String := piecesOf '\n' s

/-- The words of a text: the runs of characters that are not blank. -/
def wordsFrom : List Char → List Char → List (List Char)
  | word, [] => if word.isEmpty then [] else [word.reverse]
  | word, c :: cs =>
    if isBlank c then
      (if word.isEmpty then [] else [word.reverse]) ++ wordsFrom [] cs
    else wordsFrom (c :: word) cs

/-- The words of a text. -/
def wordsOf (s : String) : List String := (wordsFrom [] s.toList).map String.ofList

/-- The text without the blanks around it. -/
def trimBlanks (s : List Char) : List Char :=
  ((s.dropWhile isBlank).reverse.dropWhile isBlank).reverse

/-! ### Joining -/

/-- Parts with a separator between them. -/
def joinChars (separator : List Char) : List (List Char) → List Char
  | [] => []
  | [p] => p
  | p :: q :: ps => p ++ separator ++ joinChars separator (q :: ps)

/-- Texts with a separator between them. -/
def joined (separator : String) (parts : List String) : String :=
  String.ofList (joinChars separator.toList (parts.map String.toList))

/-! ### Search -/

/-- What follows a text that stands in front. -/
def afterFront? : List Char → List Char → Option (List Char)
  | [], s => some s
  | _ :: _, [] => none
  | p :: ps, c :: cs => if p = c then afterFront? ps cs else none

/-- Whether a text starts with another. -/
def startsWith (front s : List Char) : Bool := (afterFront? front s).isSome

/-- Whether a text ends with another. -/
def endsWith (back s : List Char) : Bool := startsWith back.reverse s.reverse

/-- Whether a text contains another. -/
def occursIn (part : List Char) : List Char → Bool
  | [] => part.isEmpty
  | c :: cs => startsWith part (c :: cs) || occursIn part cs

/-- The text before the first occurrence of another, and the text after it. -/
def cutAt? (part : List Char) : List Char → Option (List Char × List Char)
  | [] => if part.isEmpty then some ([], []) else none
  | c :: cs =>
    match afterFront? part (c :: cs) with
    | some rest => some ([], rest)
    | none => (cutAt? part cs).map fun (before, rest) => (c :: before, rest)

/-- The text with each occurrence of a non-empty part replaced, from the left; `skip` characters of
an occurrence are still to be passed over. -/
def replaceFrom (part new : List Char) : Nat → List Char → List Char
  | _, [] => []
  | skip + 1, _ :: cs => replaceFrom part new skip cs
  | 0, c :: cs =>
    if startsWith part (c :: cs) then new ++ replaceFrom part new (part.length - 1) cs
    else c :: replaceFrom part new 0 cs

/-- The text with each occurrence of a non-empty part replaced, from the left. -/
def replaceAll (part new s : List Char) : List Char := replaceFrom part new 0 s

namespace Text

/-- Whether a text contains another. -/
def contains (s part : String) : Bool := occursIn part.toList s.toList

/-- Whether a text starts with another. -/
def hasFront (s front : String) : Bool := startsWith front.toList s.toList

/-- Whether a text ends with another. -/
def hasBack (s back : String) : Bool := endsWith back.toList s.toList

/-- The text with each occurrence of a non-empty part replaced. -/
def replace (s part new : String) : String :=
  String.ofList (replaceAll part.toList new.toList s.toList)

end Text

end DesignRegistry
